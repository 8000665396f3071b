import FixedArena.Proofs.Store.Listed
import FixedArena.Proofs.Store.Origin
import FixedArena.Proofs.Store.Run

/-!
Rings refine lists over whole runs. Beside every run goes a machine of lists, which knows nothing
of blocks, nodes or links: a ring that is made is an empty list, a command to the ring is a command
to its list, and nothing else touches it. All rings of the run answer as these lists do.

Main facts:
* `Run.lists`: the lists of a run;
* `Run.refined`: every ring of a run represents its list;
* `Run.lists_refined`: every command to a ring answers as the list does.
-/

namespace FixedArena

namespace Store

/-- What a command makes of the lists. Of the store it has to know which number a new container
gets, whether a ring can be made, and whether a block is free. -/
def listsAfter (s : Store) (c : Command) (lists : Nat → Option Listed) (r : Nat) : Option Listed :=
  match c with
  | .newRing type n =>
    match s.opening type n with
    | .ok () => if r = s.containers.size then some ⟨type, n, []⟩ else lists r
    | .error _ => lists r
  | .ring r' d => if r = r' then (lists r).map fun q => q.after (s.fullAt q.nodes) d else lists r
  | .drop r' => if r = r' then none else lists r
  | _ => lists r

section Step

variable {s t : Store} {r : Nat} {c : Command} {lists : Nat → Option Listed}

/-- A list that a command is not about stays. -/
theorem listsAfter_other (hr : r ≠ s.subject c) : s.listsAfter c lists r = lists r := by
  cases c with
  | newRing type n =>
    unfold listsAfter
    dsimp only
    split
    · exact if_neg hr
    · rfl
  | ring r' d => exact if_neg hr
  | drop r' => exact if_neg hr
  | _ => rfl

theorem Represents.hasRing {q : Listed} (h : s.Represents r q) : s.HasRing r := by
  obtain ⟨ring, a, ns, hc, -⟩ := h
  exact ⟨_, hc, trivial⟩

theorem not_hasRing_size (s : Store) : ¬s.HasRing s.containers.size := by
  rintro ⟨c, hc, -⟩
  rw [containerAt_of_size_le (Nat.le_refl _)] at hc
  cases hc

/-- A container that is given up is no ring any more. -/
theorem not_hasRing_drop (r : Nat) (s : Store) : ¬(step (.drop r) s).state.HasRing r := by
  rintro ⟨c, hc, -⟩
  obtain ⟨hs, h⟩ | ⟨c', -, h⟩ := drop_cases r s
  · rw [h, hs] at hc
    cases hc
  · rw [h] at hc
    exact absurd ((containerAt_without r _).symm.trans hc) nofun

/-- A command to text rings does nothing to a ring. -/
theorem textRing_of_represents {q : Listed} (h : s.Represents r q) (c : TextRingCommand) :
    (step (.textRing r c) s).state = s := by
  obtain ⟨ring, a, ns, hc, -⟩ := h
  rw [step, Act.bind_ok (container_ok hc)]
  rfl

end Step

/-- The arenas are told apart by their identities. -/
def ArenasApart (s : Store) : Prop :=
  ∀ j k a b, s.arenaAt j = some a → s.arenaAt k = some b → a.id = b.id → j = k

/-- Identities that are all different tell arenas apart. -/
theorem arenasApart_of_nodup {s : Store}
    (h : (s.arenas.toList.map fun g => g.value.id).Nodup) : s.ArenasApart := by
  let ids := s.arenas.toList.map fun g => g.value.id
  intro j k a b ha hb hid
  obtain ⟨g, hg, rfl⟩ := Option.map_eq_some_iff.1 ha
  obtain ⟨g', hg', rfl⟩ := Option.map_eq_some_iff.1 hb
  obtain ⟨hj, rfl⟩ := Array.getElem?_eq_some_iff.1 hg
  obtain ⟨hk, rfl⟩ := Array.getElem?_eq_some_iff.1 hg'
  have hj' : j < ids.length := by simpa [ids] using hj
  have hk' : k < ids.length := by simpa [ids] using hk
  have hat : ids[j] = ids[k] := by simpa [ids] using hid
  exact h.getElem_inj_iff.1 hat

/-- No arena is held. -/
def Unheld (s : Store) : Prop := ∀ g ∈ s.arenas, g.hold = .free

instance (s : Store) : Decidable s.Unheld := by
  unfold Unheld
  infer_instance

theorem Unheld.freeAt {s : Store} (h : s.Unheld) (k : Nat) : s.FreeAt k :=
  fun g hg => h g (Array.mem_of_getElem? hg)

end Store

namespace Run

/-- The lists of a run. -/
def lists : Run → Nat → Option Listed
  | [], _ => none
  | c :: past, r => (store past).listsAfter c (lists past) r

/-- Callers change blocks only through handles that some arena issued, live or stale. No two
arenas change places. -/
def Honest : Run → Prop
  | [] => True
  | c :: past => Honest past ∧ c.KeepsArenas ∧
      ∀ k h, c.changed? = some (k, h) → ∃ j, h ∈ issued j past

/-- Callers who go on without changing a block stay honest. -/
theorem Honest.append {past l : Run} (h : Honest past)
    (hl : ∀ c ∈ l, c.KeepsArenas ∧ c.changed? = none) : Honest (l ++ past) := by
  induction l with
  | nil => exact h
  | cons c l ih =>
    obtain ⟨hkeeps, hnone⟩ := hl c List.mem_cons_self
    refine ⟨ih fun c' hc' => hl c' (List.mem_cons_of_mem c hc'), hkeeps, fun k g hg => ?_⟩
    rw [hnone] at hg
    cases hg

/-- No arena is held at any moment. -/
def Unheld : Run → Prop
  | [] => True
  | c :: past => Unheld past ∧ (store (c :: past)).Unheld

instance decidableUnheld : ∀ run, Decidable (Unheld run)
  | [] => .isTrue trivial
  | c :: past =>
    have := decidableUnheld past
    inferInstanceAs (Decidable (Unheld past ∧ (store (c :: past)).Unheld))

variable {past : Run} {c : Command}

/-- Arenas that are apart in the end were apart before. -/
theorem apart_tail (hc : c.KeepsArenas) (h : (store (c :: past)).ArenasApart) :
    (store past).ArenasApart := by
  intro j k a b ha hb hid
  obtain ⟨a', ha', hages⟩ := Store.step_ages hc (store past) j a ha
  obtain ⟨b', hb', hages'⟩ := Store.step_ages hc (store past) k b hb
  exact h j k a' b' ha' hb' (hages.id.trans (hid.trans hages'.id.symm))

/-- **Issued handles are good for one arena only**, while arenas are told apart. -/
theorem Honest.ordinary_of_recent {run : Run} (h : Honest run) (hy : Recent run)
    (hapart : (store run).ArenasApart) : Ordinary run := by
  induction run with
  | nil => trivial
  | cons c past ih =>
    have hpast := apart_tail h.2.1 hapart
    have hord := ih h.1 hy.tail hpast
    have hio := inOrder_of_recent hord hy.tail
    refine ⟨hord, h.2.1, fun k g hg => ?_⟩
    obtain ⟨j, hj⟩ := h.2.2 k g hg
    by_cases hjk : j = k
    · exact .inl (hjk ▸ hj)
    · refine .inr fun a ha hid => hjk ?_
      cases hb : (store past).arenaAt j with
      | none =>
        rw [(hio.absent j hb).1] at hj
        cases hj
      | some b => exact hpast j k b a hb ha (((hio.accounts j b hb).arena g hj).symm.trans hid)

theorem Honest.ordinary {run : Run} (h : Honest run) (hy : Young run)
    (hapart : (store run).ArenasApart) : Ordinary run :=
  h.ordinary_of_recent hy.recent hapart

/-! ### Every ring has its list -/

/-- Rings and lists belong together. -/
structure Refined (run : Run) : Prop where
  represents : ∀ r q, lists run r = some q → (store run).Represents r q
  listed : ∀ r, (store run).HasRing r → (lists run r).isSome = true

/-- A ring that a command is not about represents its list still. -/
theorem represents_other (hio : InOrder past) (hc : Ordinary (c :: past)) {r : Nat} {q : Listed}
    (hr : r ≠ (store past).subject c) (h : (store past).Represents r q) :
    (store (c :: past)).Represents r q := by
  obtain ⟨ring, a, ns, hring, ha, hh⟩ := h
  obtain ⟨b, hb, hother⟩ := holds_other hio hc ha
  have hplaced := Store.placedAt_of_container hring
  exact ⟨ring, b, ns, (container_other hio hc hr).trans hring, hb,
    hother r _ hr hplaced rfl ns q.values hh⟩

/-- The container that a command is about represents its list afterwards. -/
theorem represents_subject (hio : InOrder past) (hfree : (store past).Unheld) (hpast : Refined past)
    {q : Listed} (hq : lists (c :: past) ((store past).subject c) = some q) :
    (store (c :: past)).Represents ((store past).subject c) q := by
  have hnew : ∀ q, lists past (store past).containers.size ≠ some q := fun q hl =>
    Store.not_hasRing_size _ (hpast.represents _ q hl).hasRing
  cases c with
  | newRing type n =>
    have hopens := (Store.opens type (hfree.freeAt n) (hio.settled n)).2
    simp only [lists, Store.listsAfter, Store.subject] at hq
    cases ho : (store past).opening type n with
    | ok _ =>
      simp only [ho, if_pos] at hq hopens
      obtain rfl := Option.some.inj hq
      exact hopens
    | error e =>
      simp only [ho] at hq
      exact absurd hq (hnew q)
  | drop r =>
    simp only [lists, Store.listsAfter, Store.subject, if_pos] at hq
    cases hq
  | ring r d =>
    simp only [lists, Store.listsAfter, Store.subject, if_pos] at hq
    obtain ⟨q', hq', rfl⟩ := Option.map_eq_some_iff.1 hq
    have hrep := hpast.represents r q' hq'
    exact (Store.ring_onList hrep (hfree.freeAt _) (hio.settled _) d).2
  | textRing r d =>
    have hrep := hpast.represents r q hq
    have hsame : store (.textRing r d :: past) = store past := Store.textRing_of_represents hrep d
    rw [hsame]
    exact hrep
  | _ => exact absurd hq (hnew q)

/-- A ring that is there after a command has a list. -/
theorem listed_cons (hio : InOrder past) (hc : Ordinary (c :: past))
    (hfree : (store past).Unheld) (hpast : Refined past) {r : Nat}
    (hring : (store (c :: past)).HasRing r) : (lists (c :: past) r).isSome = true := by
  have hold : (∀ type n, c ≠ .newRing type n) → (lists past r).isSome = true := fun hne =>
    hpast.listed r (Store.older_step hne (store past) hring)
  cases c with
  | newRing type n =>
    by_cases hr : r = (store past).containers.size
    · have hopens := (Store.opens type (hfree.freeAt n) (hio.settled n)).2
      simp only [lists, Store.listsAfter]
      cases ho : (store past).opening type n with
      | ok _ => simp only [if_pos hr, Option.isSome_some]
      | error e =>
        simp only [ho] at hopens
        have hsame : store (.newRing type n :: past) = store past := hopens
        rw [hsame] at hring
        exact hpast.listed r hring
    · obtain ⟨c, hat, hc'⟩ := hring
      rw [container_other hio hc hr] at hat
      have hl : lists (.newRing type n :: past) r = lists past r := Store.listsAfter_other hr
      rw [hl]
      exact hpast.listed r ⟨c, hat, hc'⟩
  | drop r' =>
    by_cases hr : r = r'
    · subst hr
      exact absurd hring (Store.not_hasRing_drop r (store past))
    · have hl : lists (.drop r' :: past) r = lists past r := if_neg hr
      rw [hl]
      exact hold nofun
  | ring r' d =>
    simp only [lists, Store.listsAfter]
    split
    · rw [Option.isSome_map]
      exact hold nofun
    · exact hold nofun
  | _ => exact hold nofun

theorem refined_cons (hio : InOrder past) (hc : Ordinary (c :: past))
    (hfree : (store past).Unheld) (hpast : Refined past) : Refined (c :: past) where
  represents r q hq := by
    by_cases hr : r = (store past).subject c
    · subst hr
      exact represents_subject hio hfree hpast hq
    · have hl : lists (c :: past) r = lists past r := Store.listsAfter_other hr
      exact represents_other hio hc hr (hpast.represents r q (hl ▸ hq))
  listed _ hring := listed_cons hio hc hfree hpast hring

/-- No arena is held at the last moment. -/
theorem Unheld.store : ∀ {run : Run}, Unheld run → (store run).Unheld
  | [], _, g, hg => by simp [Run.store] at hg
  | _ :: _, h, g, hg => h.2 g hg

/-- **Rings and lists belong together at every moment.** -/
theorem refined {run : Run} (h : Ordinary run) (hy : Young run) (hu : Unheld run) :
    Refined run := by
  induction run with
  | nil =>
    refine ⟨nofun, ?_⟩
    rintro r ⟨c, hc, -⟩
    simp [store, Store.containerAt] at hc
  | cons c past ih =>
    exact refined_cons (inOrder h.1 hy.tail) h hu.1.store (ih h.1 hy.tail hu.1)

/-- **Rings refine lists.** Take any run in which callers change blocks only through handles that
they were issued, no arena is held, no two change places or share an identity, and no block is freed
so often that its generation comes round again. Then every ring has a list, which is only told
whether a ring can be made and whether a block is free. Every command to a ring is answered as
its list answers it, a ring is made as an empty list or refused, and a ring that is given up takes
its list with it. Arenas say that no block is free exactly if all their blocks are in use. -/
theorem lists_refined {run : Run} (h : Honest run) (hy : Young run) (hu : Unheld run)
    (hapart : (store run).ArenasApart) :
    (∀ r, (store run).HasRing r ↔ (lists run r).isSome = true) ∧
    (∀ r q, lists run r = some q → ∀ c, ∀ result ∈ q.answer ((store run).fullAt q.nodes) c,
      (Store.step (.ring r c) (store run)).result = result) ∧
    (∀ type n, (Store.step (.newRing type n) (store run)).result =
      ((store run).opening type n).map fun _ => .container (store run).containers.size) ∧
    (∀ r q, lists run r = some q → (Store.step (.drop r) (store run)).result = .ok .done) ∧
    ∀ k a, (store run).arenaAt k = some a →
      ((store run).fullAt k = some a.capacity ↔
        ∀ i : UInt32, i.toNat < a.capacity → a.InUse i) := by
  have hord := h.ordinary hy hapart
  have hio := inOrder hord hy
  have href := refined hord hy hu
  have hfree := hu.store
  refine ⟨fun r => ⟨href.listed r, fun hs => ?_⟩, fun r q hq c => ?_, fun type n => ?_,
    fun r q hq => ?_, fun k a ha => ?_⟩
  · obtain ⟨q, hq⟩ := Option.isSome_iff_exists.1 hs
    exact (href.represents r q hq).hasRing
  · exact (Store.ring_onList (href.represents r q hq) (hfree.freeAt _) (hio.settled _) c).1
  · exact (Store.opens type (hfree.freeAt n) (hio.settled n)).1
  · exact Store.result_drop (href.represents r q hq) (hfree.freeAt _)
  · rw [Store.fullAt, ha]
    exact ((hio.settled k).sound a ha).full_iff

/-- Two rings of different types and a caller's block on one arena. The caller's handle is used
when it is stale, and on another arena. -/
def mixed : Run :=
  [.ring 0 (.pop .back), .ring 0 (.push .front ⟨.unsigned 4, (4 : BitVec 32)⟩),
    .arena 1 (.free ⟨1, 3, 0⟩), .arena 0 (.free ⟨1, 3, 0⟩), .arena 0 (.free ⟨1, 3, 0⟩),
    .ring 1 (.push .front ⟨.unsigned 1, (9 : BitVec 8)⟩), .arena 0 (.write ⟨1, 3, 0⟩ 0 [7, 7]),
    .arena 0 .allocate, .ring 0 (.push .back ⟨.unsigned 4, (5 : BitVec 32)⟩),
    .newRing (.unsigned 1) 0, .newRing (.unsigned 4) 0, .reserveArena 4 32, .reserveArena 8 32]

theorem honest_mixed : Honest mixed := by
  have h₂ : (⟨1, 3, 0⟩ : BlockHandle) ∈ issued 0 (mixed.drop 3) := by decide +kernel
  have h₃ : (⟨1, 3, 0⟩ : BlockHandle) ∈ issued 0 (mixed.drop 4) := by decide +kernel
  have h₄ : (⟨1, 3, 0⟩ : BlockHandle) ∈ issued 0 (mixed.drop 5) := by decide +kernel
  have h₆ : (⟨1, 3, 0⟩ : BlockHandle) ∈ issued 0 (mixed.drop 7) := by decide +kernel
  refine ⟨⟨⟨⟨⟨⟨⟨⟨⟨⟨⟨⟨⟨trivial, ?_⟩, ?_⟩, ?_⟩, ?_⟩, ?_⟩, ?_⟩, ?_⟩, ?_⟩, ?_⟩, ?_⟩, ?_⟩, ?_⟩, ?_⟩
  all_goals refine ⟨nofun, fun k h hc => ?_⟩
  all_goals cases hc
  · exact ⟨0, h₆⟩
  · exact ⟨0, h₄⟩
  · exact ⟨0, h₃⟩
  · exact ⟨0, h₂⟩

/-- Both rings answer as the lists that are left of their commands. -/
theorem lists_refined_mixed : Honest mixed ∧ Young mixed ∧ Unheld mixed ∧
    (store mixed).ArenasApart ∧
    ((lists mixed 0).map (·.values.map Element.encode) = some [[4, 0, 0, 0]] ∧
      (lists mixed 1).map (·.values.map Element.encode) = some [[9]]) ∧
    ∀ r q, lists mixed r = some q → ∀ c, ∀ result ∈ q.answer ((store mixed).fullAt q.nodes) c,
      (Store.step (.ring r c) (store mixed)).result = result := by
  have hyoung : Young mixed := young_of_length (by decide)
  have hunheld : Unheld mixed := by decide +kernel
  have hids : ((store mixed).arenas.toList.map fun g => g.value.id).Nodup := by decide +kernel
  have hapart := Store.arenasApart_of_nodup hids
  have hrefined := lists_refined honest_mixed hyoung hunheld hapart
  refine ⟨honest_mixed, hyoung, hunheld, hapart, ?_, hrefined.2.1⟩
  decide +kernel

end Run

end FixedArena
