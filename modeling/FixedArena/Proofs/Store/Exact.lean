import FixedArena.Proofs.Store.Kept
import FixedArena.Proofs.Store.Room
import Mathlib.Algebra.BigOperators.Group.List.Basic

/-!
The capacity of an arena is used to the last block. Rings are refused a block exactly when all blocks are
in use, and these are the heads and values of the rings, what callers have and what was left to nobody. So
the two numbers that an arena is sized by are kept to the letter, by a lone ring and by many.

Main facts:
* `Store.result_push`, `Store.result_newRing`: what is answered, told from the blocks in use;
* `Run.live_eq`: what the blocks in use are;
* `Run.Sole`: a lone ring through all of its commands;
* `Run.capacity_exact`: one arena, a lone ring on its own arena, and the rings of a sizing.
-/

namespace FixedArena

/-! ### Heads and values -/

/-- The heads that a container has on an arena. -/
def Container.headsOn (k : Nat) : Container → Nat
  | .ring _ _ n | .textRing _ n _ => if n = k then 1 else 0
  | .text .. => 0

/-- The values that a container has on an arena. -/
def Container.valuesOn (k : Nat) : Container → Nat
  | .ring _ r n => if n = k then r.len else 0
  | .textRing tr n _ => if n = k then tr.len else 0
  | .text .. => 0

/-- The rings that a command makes, if it succeeds. -/
def Command.heads : Command → Nat
  | .newRing .. | .newTextRing .. => 1
  | _ => 0

/-- The values that a command adds to a ring, if it succeeds. -/
def Command.values : Command → Nat
  | .ring _ (.push ..) | .textRing _ (.push ..) | .textRing _ (.pushText _) => 1
  | _ => 0

theorem BlockArena.full?_eq (a : BlockArena) :
    a.full? = if a.live = a.capacity then some a.capacity else none := rfl

namespace Store

variable {s t : Store} {k r : Nat} {a : BlockArena} {c : Command} {type : ElementType}

/-- The rings that live on an arena. -/
def headsOn (s : Store) (k : Nat) : Nat := (s.present.map (Container.headsOn k)).sum

/-- The values that the rings on an arena hold. -/
def valuesOn (s : Store) (k : Nat) : Nat := (s.present.map (Container.valuesOn k)).sum

theorem blocksOn_eq (s : Store) (k : Nat) : s.blocksOn k = s.headsOn k + s.valuesOn k := by
  unfold blocksOn headsOn valuesOn
  rw [← List.sum_map_add]
  refine congrArg List.sum (List.map_congr_left fun x _ => ?_)
  cases x with
  | ring type ring n =>
    simp only [Container.blocksOn, Container.headsOn, Container.valuesOn]
    split <;> omega
  | textRing tr n pool =>
    simp only [Container.blocksOn, Container.headsOn, Container.valuesOn]
    split <;> omega
  | text h pool => rfl

/-- Who asks for a block asks for one. -/
theorem Asks.one (h : s.Asks k c) : c.heads + c.values = 1 := by
  cases c with
  | newRing type n => rfl
  | newTextRing n pool => rfl
  | ring r d =>
    cases d with
    | push side v => rfl
    | _ => exact h.elim
  | textRing r d =>
    cases d with
    | push side h => rfl
    | pushText t => rfl
    | _ => exact h.elim
  | _ => exact h.elim

/-- A ring can be made where a block is free, and wide enough. -/
theorem opening_of_room (ha : s.arenaAt k = some a) (hw : Ring.nodeSize type.Value ≤ a.blockSize)
    (hlive : a.live ≠ a.capacity) : s.opening type k = .ok () := by
  rw [opening, ha]
  dsimp only
  rw [if_neg (Nat.not_lt.2 hw), BlockArena.full?_eq, if_neg hlive]

/-! ### Answers told from the blocks in use -/

section Answers

variable (hs : s.Settled k) (hf : s.FreeAt k) (ha : s.arenaAt k = some a)

include hs hf ha

/-- **A push is refused exactly if all blocks are in use.** -/
theorem result_push {ring : Ring type.Value} (hc : s.containerAt r = some (.ring type ring k))
    (side : Ring.Side) (v : type.Value) : (step (.ring r (.push side ⟨type, v⟩)) s).result =
      if a.live = a.capacity then .error (.refused (.full BlockArena.kind a.capacity))
      else .ok .done := by
  obtain ⟨ns, vs, hh⟩ := hs.valid a ha r _ (placedAt_of_container hc) rfl
  have hrep : s.Represents r ⟨type, k, vs⟩ := ⟨ring, a, ns, hc, ha, hh⟩
  refine (ring_onList hrep hf hs (.push side ⟨type, v⟩)).1 _ ?_
  have hfull : s.fullAt k = if a.live = a.capacity then some a.capacity else none := by
    rw [fullAt, ha, Option.bind_some, BlockArena.full?_eq]
  simp only [Listed.answer, RingCommand.as?, Datum.as?_self, Option.map_some, RingCommand.onList,
    hfull]
  by_cases hlive : a.live = a.capacity
  · simp only [if_pos hlive, Option.mem_def]
  · simp only [if_neg hlive, Option.mem_def]

/-- **A ring is refused exactly if all blocks are in use**, where they are wide enough. -/
theorem result_newRing (hw : Ring.nodeSize type.Value ≤ a.blockSize) :
    (step (.newRing type k) s).result =
      if a.live = a.capacity then .error (.refused (.full BlockArena.kind a.capacity))
      else .ok (.container s.containers.size) := by
  rw [(opens type hf hs).1, opening, ha]
  dsimp only
  rw [if_neg (Nat.not_lt.2 hw), BlockArena.full?_eq]
  by_cases hlive : a.live = a.capacity
  · simp only [if_pos hlive]
    rfl
  · simp only [if_neg hlive]
    rfl

end Answers

end Store

namespace Run

variable {run past l : Run} {k : Nat} {a : BlockArena} {c : Command}

/-! ### Blocks in use -/

/-- **The blocks in use are the heads and values of the rings, what callers have, and what was left to
nobody.** -/
theorem live_eq (hio : InOrder run) (ha : (store run).arenaAt k = some a) :
    a.live = (store run).blocksOn k + (live k run).length + (lost k run).length := by
  have hcov := (hio.accounts k a ha).covered
  rw [← ((hio.settled k).sound a ha).length_eq hcov, List.length_append, List.length_append,
    List.length_map, Store.length_ringSlots hio.settled ha]
  omega

/-- Arenas that stay in their places keep their capacity. -/
theorem capacity_append (hl : ∀ c ∈ l, c.KeepsArenas) (ha : (store past).arenaAt k = some a) :
    ∃ b, (store (l ++ past)).arenaAt k = some b ∧ b.capacity = a.capacity := by
  induction l with
  | nil => exact ⟨a, ha, rfl⟩
  | cons c l ih =>
    obtain ⟨b, hb, hcap⟩ := ih fun c' hc' => hl c' (List.mem_cons_of_mem c hc')
    obtain ⟨b', hb', hages⟩ := Store.step_ages (hl c List.mem_cons_self) (store (l ++ past)) k b hb
    exact ⟨b', hb', hages.capacity.trans hcap⟩

theorem handed_of_ne {s : Store} (h : c ≠ .arena k .allocate) : s.handed k c = none := by
  unfold Store.handed
  split
  · next n _ _ =>
    have hn : n ≠ k := by
      rintro rfl
      exact h rfl
    exact if_neg hn
  · rfl

/-- Callers who ask an arena for nothing are issued nothing. -/
theorem issued_append (hl : ∀ c ∈ l, c ≠ .arena k .allocate) :
    issued k (l ++ past) = issued k past := by
  induction l with
  | nil => rfl
  | cons c l ih =>
    rw [List.cons_append, issued, handed_of_ne (hl c List.mem_cons_self), Option.toList_none,
      List.nil_append, ih fun c' hc' => hl c' (List.mem_cons_of_mem c hc')]

/-! ### A lone ring -/

/-- The store has one container, which is a ring, on an arena that nobody holds. -/
structure Sole (type : ElementType) (s : Store) : Prop where
  represents : ∃ vs, s.Represents 0 ⟨type, 0, vs⟩
  others : ∀ r, r ≠ 0 → s.containerAt r = none
  free : s.FreeAt 0

theorem freeAt_of_keeping {P : Nat → TextPool → Prop} {s t : Store} (h : s.Keeping P t)
    (hf : s.FreeAt k) : t.FreeAt k := by
  intro g hg
  have hsome : (s.arenas.map Guarded.hold)[k]? = some g.hold := by
    rw [← h.arenas, Array.getElem?_map, hg, Option.map_some]
  rw [Array.getElem?_map] at hsome
  obtain ⟨g', hg', hhold⟩ := Option.map_eq_some_iff.1 hsome
  exact hhold.symm.trans (hf g' hg')

/-- **A lone ring stays one**, whatever it is asked. -/
theorem Sole.ring {type : ElementType} {s : Store} (h : Sole type s) (hs : s.Settled 0)
    (d : RingCommand Datum) : Sole type (Store.step (.ring 0 d) s).state where
  represents := by
    obtain ⟨vs, hrep⟩ := h.represents
    have hrep' := (Store.ring_onList hrep h.free hs d).2
    unfold Listed.after at hrep'
    split at hrep'
    · exact ⟨_, hrep'⟩
    · exact ⟨_, hrep'⟩
  others r hr := ((Store.exchanges_ring 0 d hs).others r hr).trans (h.others r hr)
  free := freeAt_of_keeping (Store.keeping_ring (P := fun _ _ => True) 0 d s) h.free

/-- The blocks of all rings are those of the lone one. -/
theorem perm_ringSlots_of_sole {s : Store} (h : ∀ r, r ≠ 0 → s.containerAt r = none) :
    (s.ringSlots k).Perm (s.slotsAt k 0) := by
  have hperm := Store.perm_ringSlots (s := s) (k := k) (Nat.le_succ s.containers.size)
    (Nat.succ_pos _)
  have hnil : s.otherSlots k 0 (s.containers.size + 1) = [] := by
    rw [Store.otherSlots, List.flatMap_eq_nil_iff]
    intro r hr
    have hne : r ≠ 0 := (List.nodup_range.mem_erase_iff.1 hr).1
    exact Store.slotsAt_of_placedAt_none (by rw [Store.placedAt, h r hne]; rfl)
  rwa [hnil, List.append_nil] at hperm

/-- A ring on an arena of its own, with room for so many values. -/
def alone (type : ElementType) (maxLen : Nat) : Run :=
  [.newRing type 0, .reserveArena (Ring.blocksFor maxLen) (Ring.nodeSize type.Value)]

section Alone

variable {type : ElementType} {maxLen : Nat}
  (hroom : BlockArena.room (Ring.blocksFor maxLen) (Ring.nodeSize type.Value) = .ok ())

include hroom

theorem store_reserved : store [.reserveArena (Ring.blocksFor maxLen) (Ring.nodeSize type.Value)] =
    { arenas := #[{ value := .fresh 1 (Ring.blocksFor maxLen) (Ring.nodeSize type.Value) }]
      nextArena := 2 } := by
  have hadd := Store.addArena_ok hroom {}
  rw [store, store, Store.step, Act.map_apply, hadd]
  rfl

theorem sole_alone : Sole type (store (alone type maxLen)) ∧
    ∃ a, (store (alone type maxLen)).arenaAt 0 = some a ∧ a.capacity = maxLen + 1 := by
  let past : Run := [.reserveArena (Ring.blocksFor maxLen) (Ring.nodeSize type.Value)]
  have hpast : Ordinary past := ordinary_of_forall fun c hc => by
    obtain rfl := List.mem_singleton.1 hc
    exact ⟨nofun, rfl⟩
  have hs := (inOrder hpast (young_of_length (show 1 < indexLimit by decide))).settled
  have hstore : store past = _ := store_reserved hroom
  have ha : (store past).arenaAt 0 =
      some (.fresh 1 (Ring.blocksFor maxLen) (Ring.nodeSize type.Value)) := by
    rw [hstore]
    rfl
  have hsize : (store past).containers.size = 0 := by
    rw [hstore]
    rfl
  have hfree : (store past).FreeAt 0 := by
    rw [hstore]
    rintro g hg
    cases hg
    rfl
  have hopens := (Store.opens type hfree (hs 0)).2
  have hopening : (store past).opening type 0 = .ok () :=
    Store.opening_of_room ha (Nat.le_refl _) (Nat.succ_ne_zero maxLen).symm
  rw [hopening, hsize] at hopens
  refine ⟨⟨⟨[], hopens⟩, fun r hr => ?_, ?_⟩, ?_⟩
  · have hex := (Store.exchanges_newRing type 0 hs (k := 0)).others r (by rwa [hsize])
    refine hex.trans (Store.containerAt_of_size_le ?_)
    rw [hsize]
    exact Nat.zero_le r
  · exact freeAt_of_keeping (Store.keeping_newRing (P := fun _ _ => True) type 0 _) hfree
  · exact capacity_append (l := [.newRing type 0]) (by simp [Command.KeepsArenas]) ha

variable {l : Run} (hl : ∀ c ∈ l, ∃ d, c = .ring 0 d)

include hl

omit hroom in
theorem forall_alone : ∀ c ∈ l ++ alone type maxLen, (c.KeepsArenas ∧ c.changed? = none) ∧
    ∀ k, c ≠ .arena k .allocate := by
  intro c hc
  rcases List.mem_append.1 hc with hc | hc
  · obtain ⟨d, rfl⟩ := hl c hc
    exact ⟨⟨nofun, rfl⟩, nofun⟩
  · rcases List.mem_pair.1 hc with rfl | rfl
    · exact ⟨⟨nofun, rfl⟩, nofun⟩
    · exact ⟨⟨nofun, rfl⟩, nofun⟩

omit hroom in
theorem issued_alone (k : Nat) : issued k (l ++ alone type maxLen) = [] := by
  have h : issued k ((l ++ alone type maxLen) ++ []) = issued k [] :=
    issued_append fun c hc => (forall_alone hl c hc).2 k
  rwa [List.append_nil] at h

omit hroom in
theorem inOrder_alone : InOrder (l ++ alone type maxLen) := by
  have hord : Ordinary (l ++ alone type maxLen) :=
    ordinary_of_forall fun c hc => (forall_alone hl c hc).1
  refine inOrder_of_recent hord fun k h hh => ?_
  rw [issued_alone hl k] at hh
  cases hh

omit hroom in
theorem lost_alone (k : Nat) : lost k (l ++ alone type maxLen) = [] := by
  induction l with
  | nil => rfl
  | cons c l ih =>
    obtain ⟨d, rfl⟩ := hl c List.mem_cons_self
    exact ih fun c hc => hl c (List.mem_cons_of_mem _ hc)

/-- **A lone ring stays alone** through all of its commands. -/
theorem sole_append : Sole type (store (l ++ alone type maxLen)) := by
  induction l with
  | nil => exact (sole_alone hroom).1
  | cons c l ih =>
    have hl' : ∀ c ∈ l, ∃ d, c = .ring 0 d := fun c hc => hl c (List.mem_cons_of_mem _ hc)
    obtain ⟨d, rfl⟩ := hl c List.mem_cons_self
    exact (ih hl').ring ((inOrder_alone hl').settled 0) d

/-- **A lone ring takes values up to the number that its arena is made for**, whatever it was asked
before. -/
theorem result_push_alone : ∃ ring : Ring type.Value,
    (store (l ++ alone type maxLen)).containerAt 0 = some (.ring type ring 0) ∧
    ∀ side v, (Store.step (.ring 0 (.push side ⟨type, v⟩)) (store (l ++ alone type maxLen))).result =
      if ring.len < maxLen then .ok .done
      else .error (.refused (.full BlockArena.kind (maxLen + 1))) := by
  have hio : InOrder (l ++ alone type maxLen) := inOrder_alone hl
  have hsole := sole_append hroom hl
  obtain ⟨vs, ring, a, ns, hc, ha, hh⟩ := hsole.represents
  obtain ⟨a₀, ha₀, hcap₀⟩ := (sole_alone hroom).2
  obtain ⟨a', ha', hcap⟩ := capacity_append (l := l) (fun c hc => by
    obtain ⟨d, rfl⟩ := hl c hc
    exact nofun) ha₀
  obtain rfl := Option.some.inj (ha.symm.trans ha')
  have hsound := (hio.settled 0).sound a ha
  have hlive : a.live = ring.len + 1 := by
    have hcov := (hio.accounts 0 a ha).covered
    have hslots := Store.slotsAt_of_holds (Store.placedAt_of_container hc) ha hh
    have hlen := (perm_ringSlots_of_sole (k := 0) hsole.others).length_eq
    rw [live, issued_alone hl, List.filter_nil, lost_alone hl, List.map_nil, List.append_nil,
      List.append_nil] at hcov
    rw [← hsound.length_eq hcov, hlen, hslots, List.length_cons, hh.len]
  refine ⟨ring, hc, fun side v => ?_⟩
  rw [Store.result_push (hio.settled 0) hsole.free ha hc, hlive, hcap, hcap₀]
  have hle := hsound.live_add_free
  by_cases hlt : ring.len < maxLen
  · rw [if_pos hlt, if_neg (by omega)]
  · rw [if_neg hlt, if_pos (by omega)]

end Alone

/-! ### The rings of a sizing -/

/-- The arena of a sizing is new, and as large as the sizing says. -/
theorem reserved_ok {s : Store} {sizing : Sizing} {pool : Nat}
    (h : (Store.step (.reserve sizing) s).result = .ok (.both k pool)) : s.arenaAt k = none ∧
    ∃ a, (Store.step (.reserve sizing) s).state.arenaAt k = some a ∧
      a.capacity = sizing.nodes.maxLen + sizing.nodes.maxDeques := by
  rw [Store.step, Act.map_apply] at h ⊢
  cases hroom : BlockArena.room (Store.blocksOf sizing) (Store.widthOf sizing) with
  | error e =>
    rw [(Store.addArenas_noBlocks hroom s).1] at h
    cases h
  | ok u =>
    cases hpool : TextPool.room sizing.strings.slots sizing.strings.maxStrLen with
    | error e =>
      rw [(Store.addArenas_noSlots hroom hpool s).1] at h
      cases h
    | ok u' =>
      obtain ⟨hresult, hstate⟩ := Store.addArenas_ok hroom hpool s
      rw [hresult] at h
      cases h
      refine ⟨by simp [Store.arenaAt],
        .fresh s.nextArena (Store.blocksOf sizing) (Store.widthOf sizing), ?_, rfl⟩
      dsimp only
      rw [hstate]
      simp [Store.arenaAt]

/-- **An arena of a sizing has a block for every ring and every value that the sizing allows**, if
callers take no blocks for themselves and none are left to nobody. -/
theorem not_noBlock_of_sizing {sizing : Sizing} {pool : Nat} {e : Error}
    (h : Ordinary (l ++ .reserve sizing :: past)) (hr : Recent (l ++ .reserve sizing :: past))
    (hnew : (Store.step (.reserve sizing) (store past)).result = .ok (.both k pool))
    (hnone : ∀ c ∈ l, c ≠ .arena k .allocate)
    (hlost : lost k (l ++ .reserve sizing :: past) = [])
    (hc : (store (l ++ .reserve sizing :: past)).Asks k c)
    (hheads : (store (l ++ .reserve sizing :: past)).headsOn k + c.heads ≤ sizing.nodes.maxDeques)
    (hvalues : (store (l ++ .reserve sizing :: past)).valuesOn k + c.values ≤ sizing.nodes.maxLen)
    (he : (Store.step c (store (l ++ .reserve sizing :: past))).result = .error (.refused e)) :
    ¬e.NoBlock := by
  intro hn
  have hio := inOrder_of_recent h hr
  obtain ⟨habsent, a₀, ha₀, hcap₀⟩ := reserved_ok hnew
  replace ha₀ : (store (.reserve sizing :: past)).arenaAt k = some a₀ := ha₀
  obtain ⟨a, ha, hcap⟩ := capacity_append h.keeps_append ha₀
  have hissued : issued k (l ++ .reserve sizing :: past) = [] := by
    have hpast : InOrder past := inOrder_of_recent h.of_append.1 hr.of_append.tail
    rw [issued_append hnone, issued, (hpast.absent k habsent).1]
    rfl
  have hlive : a.live = (store (l ++ .reserve sizing :: past)).blocksOn k := by
    rw [live_eq hio ha, live, hissued, List.filter_nil, hlost]
    rfl
  have hfull := Store.noBlock_asks (hio.settled k) ha hn hc he
  have hone := hc.one
  rw [hlive, Store.blocksOn_eq, hcap, hcap₀] at hfull
  omega

/-! ### The result -/

/-- **Capacity is exact.**

Take any run in which callers keep to their blocks, no arenas change places and no block is freed so
often that its generation comes round again. Where an arena is not held, pushes and new rings are refused
exactly if all its blocks are in use, and that is so exactly if the heads and values of the rings, the
blocks that callers have and those left to nobody are as many as the arena has.

A lone ring on an arena that is made for so many values takes values up to that number, whatever it was
asked before. And the rings on an arena of a sizing find a block for every ring and value that the sizing
allows, in whatever order they are made, filled, emptied and given up, if callers take no blocks for
themselves and none are left to nobody. -/
theorem capacity_exact :
    (∀ (run : Run) (k : Nat) (a : BlockArena), Ordinary run → Young run →
      (store run).arenaAt k = some a → (store run).FreeAt k →
      (∀ r type ring side v, (store run).containerAt r = some (.ring type ring k) →
        (Store.step (.ring r (.push side ⟨type, v⟩)) (store run)).result =
          if a.live = a.capacity then .error (.refused (.full BlockArena.kind a.capacity))
          else .ok .done) ∧
      (∀ type : ElementType, Ring.nodeSize type.Value ≤ a.blockSize →
        (Store.step (.newRing type k) (store run)).result =
          if a.live = a.capacity then .error (.refused (.full BlockArena.kind a.capacity))
          else .ok (.container (store run).containers.size)) ∧
      (a.live = a.capacity ↔
        (store run).blocksOn k + (live k run).length + (lost k run).length = a.capacity)) ∧
    (∀ (type : ElementType) (maxLen : Nat) (l : Run),
      BlockArena.room (Ring.blocksFor maxLen) (Ring.nodeSize type.Value) = .ok () →
      (∀ c ∈ l, ∃ d, c = .ring 0 d) → ∃ ring : Ring type.Value,
      (store (l ++ alone type maxLen)).containerAt 0 = some (.ring type ring 0) ∧
      ∀ side v,
        (Store.step (.ring 0 (.push side ⟨type, v⟩)) (store (l ++ alone type maxLen))).result =
          if ring.len < maxLen then .ok .done
          else .error (.refused (.full BlockArena.kind (maxLen + 1)))) ∧
    ∀ (l past : Run) (sizing : Sizing) (k pool : Nat) (c : Command) (e : Error),
      let run := l ++ .reserve sizing :: past
      Ordinary run → Recent run →
      (Store.step (.reserve sizing) (store past)).result = .ok (.both k pool) →
      (∀ c ∈ l, c ≠ .arena k .allocate) → lost k run = [] → (store run).Asks k c →
      (store run).headsOn k + c.heads ≤ sizing.nodes.maxDeques →
      (store run).valuesOn k + c.values ≤ sizing.nodes.maxLen →
      (Store.step c (store run)).result = .error (.refused e) → ¬e.NoBlock := by
  refine ⟨fun run k a h hy ha hf => ?_, fun type maxLen l hroom hl => ?_,
    fun l past sizing k pool c e => ?_⟩
  · have hio := inOrder h hy
    refine ⟨fun r type ring side v hc => Store.result_push (hio.settled k) hf ha hc side v,
      fun type hw => Store.result_newRing (hio.settled k) hf ha hw, ?_⟩
    rw [← live_eq hio ha]
  · exact result_push_alone hroom hl
  · exact not_noBlock_of_sizing

/-- The arena of `shared` again, released and with one more ring, so that no block is free. -/
def brimful : Run := .newRing (.unsigned 1) 0 :: .release (.arena 0) .shared :: shared

theorem ordinary_brimful : Ordinary brimful := by
  refine ⟨⟨ordinary_shared, nofun, ?_⟩, nofun, ?_⟩
  all_goals
    intro k h hc
    cases hc

/-- Pushes and pops at both ends of a lone ring, after which it has room for one more value. -/
def worn : Run :=
  [.ring 0 (.pop .back), .ring 0 (.push .front ⟨.unsigned 1, (8 : BitVec 8)⟩),
    .ring 0 (.push .back ⟨.unsigned 1, (7 : BitVec 8)⟩)]

/-- An arena for two values and two rings, with one ring and a value on it. -/
def sized : Run :=
  [.ring 0 (.push .back ⟨.unsigned 1, (7 : BitVec 8)⟩), .newRing (.unsigned 1) 0]

/-- The arena of five blocks is full: three blocks are of rings, one is the caller's, and one was left to
nobody. A lone ring of one value takes a second, where there is room for two. A second value and a second
ring find a block on the arena of a sizing that allows them. -/
theorem capacity_exact_brimful :
    (Ordinary brimful ∧ Young brimful ∧ (store brimful).FreeAt 0 ∧
      (store brimful).blocksOn 0 = 3 ∧ (live 0 brimful).length = 1 ∧
      (lost 0 brimful).length = 1 ∧
      ∃ a, (store brimful).arenaAt 0 = some a ∧ a.capacity = 5 ∧
        (Store.step (.newRing (.unsigned 1) 0) (store brimful)).result =
          .error (.refused (.full BlockArena.kind 5))) ∧
    (Store.step (.ring 0 (.push .back ⟨.unsigned 1, (9 : BitVec 8)⟩))
      (store (worn ++ alone (.unsigned 1) 2))).result = .ok .done ∧
    ∀ c ∈ [Command.newRing (.unsigned 1) 0,
        .ring 0 (.push .front ⟨.unsigned 1, (9 : BitVec 8)⟩)],
      ∀ e, (Store.step c (store (sized ++ [.reserve ⟨⟨2, 2, none⟩, {}⟩]))).result =
        .error (.refused e) → ¬e.NoBlock := by
  refine ⟨?_, ?_, ?_⟩
  · have hy : Young brimful := young_of_length (by decide)
    have hu : (store brimful).Unheld := by decide +kernel
    have hcounts : (store brimful).blocksOn 0 = 3 ∧ (live 0 brimful).length = 1 ∧
        (lost 0 brimful).length = 1 := by decide +kernel
    have hsome : ((store brimful).arenaAt 0).any (fun a => a.capacity == 5 && a.blockSize == 16) := by
      decide +kernel
    obtain ⟨a, ha, hsizes⟩ := (Option.any_eq_true _ _).1 hsome
    obtain ⟨hcap, hw⟩ : a.capacity = 5 ∧ a.blockSize = 16 := by simpa using hsizes
    refine ⟨ordinary_brimful, hy, hu.freeAt 0, hcounts.1, hcounts.2.1, hcounts.2.2, a, ha, hcap, ?_⟩
    obtain ⟨-, hnew, hlive⟩ := capacity_exact.1 brimful 0 a ordinary_brimful hy ha (hu.freeAt 0)
    rw [hcounts.1, hcounts.2.1, hcounts.2.2, hcap] at hlive
    rw [hnew _ (by rw [hw]; decide), hcap, if_pos (hlive.2 rfl)]
  · have hroom : BlockArena.room (Ring.blocksFor 2) (Ring.nodeSize (ElementType.unsigned 1).Value) =
        .ok () := by decide +kernel
    obtain ⟨ring, hring, hpush⟩ := capacity_exact.2.1 (.unsigned 1) 2 worn hroom (by simp [worn])
    have hlen : ((store (worn ++ alone (.unsigned 1) 2)).placedAt 0).map (·.ring.len) = some 1 := by
      decide +kernel
    rw [Store.placedAt_of_container hring] at hlen
    replace hlen : ring.len = 1 := Option.some.inj hlen
    exact (hpush .back (9 : BitVec 8)).trans (if_pos (by omega))
  · intro c hc e
    have hord : Ordinary (sized ++ [.reserve ⟨⟨2, 2, none⟩, {}⟩]) := ordinary_of_forall (by
      simp [sized, Command.KeepsArenas, Command.changed?])
    have hr : Recent (sized ++ [.reserve ⟨⟨2, 2, none⟩, {}⟩]) :=
      (young_of_length (by decide)).recent
    have hnew : (Store.step (.reserve ⟨⟨2, 2, none⟩, {}⟩) (store [])).result = .ok (.both 0 0) := by
      rw [Store.step, Act.map_apply,
        (Store.addArenas_ok (by decide +kernel) (by decide +kernel) (store [])).1]
      rfl
    have hplaced : ((store (sized ++ [.reserve ⟨⟨2, 2, none⟩, {}⟩])).placedAt 0).map Placed.nodes =
        some 0 := by decide +kernel
    have hexact := capacity_exact.2.2 sized [] ⟨⟨2, 2, none⟩, {}⟩ 0 0 c e hord hr hnew
      (by simp [sized]) (by decide +kernel)
    rcases List.mem_pair.1 hc with rfl | rfl
    · exact hexact rfl (by decide +kernel) (by decide +kernel)
    · exact hexact hplaced (by decide +kernel) (by decide +kernel)

end Run

end FixedArena
