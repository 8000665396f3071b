import FixedArena.Proofs.Store.Ages
import FixedArena.Proofs.Store.Settling
import FixedArena.Proofs.Store.Steps
import Mathlib.Data.List.Perm.Subperm

/-!
Runs, and what is kept of their history: which handles callers were issued, which blocks were left
to nobody, and how often every block was freed. From this history the blocks in use are accounted
for at every moment.

Main facts:
* `Run.Ordinary`: callers change only blocks that they were issued; arenas stay in their places;
* `Run.inOrder`: at every moment of an ordinary run, all arenas are settled, and their blocks in
  use are those of the rings, those of handles that callers still hold, and those left to nobody.
-/

namespace FixedArena

/-- The commands of a run, the latest first. -/
abbrev Run : Type := List Command

namespace Store

/-- The block of an arena is handed out. -/
def inUse (s : Store) (k : Nat) (i : UInt32) : Bool := (s.arenaAt k).any fun a => a.InUse i

/-- The arena accepts the handle. -/
def accepts (s : Store) (k : Nat) (h : BlockHandle) : Bool := (s.arenaAt k).any (·.contains h)

/-- The handle carries another identity than the arena. -/
def Foreign (s : Store) (k : Nat) (h : BlockHandle) : Prop :=
  ∀ a, s.arenaAt k = some a → h.arena ≠ a.id

end Store

namespace Run

/-! ### Histories -/

/-- The store that a run ends with. -/
def store : Run → Store
  | [] => {}
  | c :: past => (Store.step c (store past)).state

/-- The handles of an arena that callers were issued. -/
def issued (k : Nat) : Run → List BlockHandle
  | [] => []
  | c :: past => ((store past).handed k c).toList ++ issued k past

/-- The issued handles that the arena still accepts. -/
def live (k : Nat) (run : Run) : List BlockHandle := (issued k run).filter ((store run).accepts k)

/-- The blocks of an arena that were left to nobody. -/
def lost (k : Nat) : Run → List UInt32
  | [] => []
  | c :: past => (store past).leavings k c ++ lost k past

/-- How often the block of an arena was freed. -/
def frees (k : Nat) (i : UInt32) : Run → Nat
  | [] => 0
  | c :: past => frees k i past +
      ((store past).inUse k i && !(store (c :: past)).inUse k i).toNat

/-- **A run of callers who keep to their blocks**: they change blocks only through handles that the
arena issued, fresh or stale, or through handles of other arenas. No two arenas change places. -/
def Ordinary : Run → Prop
  | [] => True
  | c :: past => Ordinary past ∧ c.KeepsArenas ∧
      ∀ k h, c.changed? = some (k, h) → h ∈ issued k past ∨ (store past).Foreign k h

/-- No block was freed so often that its generation came round again. -/
def Young (run : Run) : Prop := ∀ k i, frees k i run < indexLimit

/-- No handle that callers were issued saw the generation of its block come round again. So it is in
young runs, and in runs in which callers were issued none. -/
def Recent (run : Run) : Prop := ∀ k, ∀ h ∈ issued k run, frees k h.index run < indexLimit

variable {past : Run} {c : Command} {k : Nat}

theorem frees_le_length (k : Nat) (i : UInt32) (run : Run) : frees k i run ≤ run.length := by
  induction run with
  | nil => exact Nat.le_refl _
  | cons c past ih =>
    have hone := Bool.toNat_le ((store past).inUse k i && !(store (c :: past)).inUse k i)
    rw [frees, List.length_cons]
    omega

/-- Generations come round in long runs only. -/
theorem young_of_length {run : Run} (h : run.length < indexLimit) : Young run :=
  fun k i => Nat.lt_of_le_of_lt (frees_le_length k i run) h

theorem Young.tail (h : Young (c :: past)) : Young past :=
  fun k i => Nat.lt_of_le_of_lt (Nat.le_add_right ..) (h k i)

theorem Young.recent {run : Run} (h : Young run) : Recent run := fun k g _ => h k g.index

theorem Recent.tail (h : Recent (c :: past)) : Recent past :=
  fun k g hg => Nat.lt_of_le_of_lt (Nat.le_add_right ..) (h k g (List.mem_append_right _ hg))

theorem Ordinary.of_append {l : Run} (h : Ordinary (l ++ past)) : Ordinary past := by
  induction l with
  | nil => exact h
  | cons c l ih => exact ih h.1

theorem Ordinary.keeps_append {l : Run} (h : Ordinary (l ++ past)) : ∀ c ∈ l, c.KeepsArenas := by
  induction l with
  | nil => exact List.forall_mem_nil _
  | cons c l ih => exact List.forall_mem_cons.2 ⟨h.2.1, ih h.1⟩

theorem Recent.of_append {l : Run} (h : Recent (l ++ past)) : Recent past := by
  induction l with
  | nil => exact h
  | cons c l ih => exact ih h.tail

theorem Young.of_append {l : Run} (h : Young (l ++ past)) : Young past := by
  induction l with
  | nil => exact h
  | cons c l ih => exact ih h.tail

/-- Callers who change no block and no place keep to their blocks. -/
theorem ordinary_of_forall {run : Run} (h : ∀ c ∈ run, c.KeepsArenas ∧ c.changed? = none) :
    Ordinary run := by
  induction run with
  | nil => trivial
  | cons c past ih =>
    obtain ⟨hkeeps, hnone⟩ := h c List.mem_cons_self
    refine ⟨ih fun c' hc' => h c' (List.mem_cons_of_mem c hc'), hkeeps, fun k h' hc => ?_⟩
    rw [hnone] at hc
    cases hc

/-! ### Accounts -/

/-- The blocks of an arena, its handles and its generations agree with the history. -/
structure Accounts (k : Nat) (run : Run) (a : BlockArena) : Prop where
  covered : a.Covered ((store run).ringSlots k ++
    ((live k run).map BlockHandle.index ++ lost k run))
  arena : ∀ h ∈ issued k run, h.arena = a.id
  stale : ∀ h ∈ issued k run, a.Accepts h ∨ h.generation.toNat < frees k h.index run
  generation : ∀ i, a.generation i = UInt32.ofNat (frees k i run)

/-- All arenas are settled, and their blocks are accounted for. -/
structure InOrder (run : Run) : Prop where
  settled : ∀ k, (store run).Settled k
  accounts : ∀ k a, (store run).arenaAt k = some a → Accounts k run a
  absent : ∀ k, (store run).arenaAt k = none →
    issued k run = [] ∧ lost k run = [] ∧ ∀ i, frees k i run = 0

theorem inOrder_nil : InOrder [] where
  settled k := by
    refine ⟨fun a ha => ?_, fun a ha => ?_, fun r p hp => ?_⟩
    · simp [store, Store.arenaAt] at ha
    · simp [store, Store.arenaAt] at ha
    · simp [store, Store.placedAt, Store.containerAt] at hp
  accounts k a ha := by simp [store, Store.arenaAt] at ha
  absent k _ := ⟨rfl, rfl, fun _ => rfl⟩

/-! ### One step -/

section Step

variable {a b : BlockArena} {h : BlockHandle} {i : UInt32}

theorem frees_cons (ha : (store past).arenaAt k = some a)
    (hb : (store (c :: past)).arenaAt k = some b) :
    frees k i (c :: past) = frees k i past + if a.InUse i ∧ ¬b.InUse i then 1 else 0 := by
  simp only [frees, Store.inUse, ha, hb, Option.any_some]
  by_cases hu : a.InUse i <;> by_cases hu' : b.InUse i <;> simp [hu, hu']

/-- Generations agree with the count of frees after a step, too. -/
theorem generation_cons (hg : ∀ i, a.generation i = UInt32.ofNat (frees k i past))
    (hages : a.Ages b) (ha : (store past).arenaAt k = some a)
    (hb : (store (c :: past)).arenaAt k = some b) :
    b.generation i = UInt32.ofNat (frees k i (c :: past)) := by
  rw [hages.generation, hg, frees_cons ha hb]
  split
  · rw [UInt32.ofNat_add]
    rfl
  · simp

theorem generation_toNat {run : Run} (hlt : frees k i run < indexLimit)
    (hg : ∀ i, a.generation i = UInt32.ofNat (frees k i run)) :
    (a.generation i).toNat = frees k i run := by
  rw [hg]
  exact UInt32.toNat_ofNat_of_lt' hlt

/-- A handle that was stale stays stale, and one that was not is accepted while its block is in
use. -/
theorem accepts_cons (hacc : Accounts k past a) (hy : Recent (c :: past)) (hages : a.Ages b)
    (ha : (store past).arenaAt k = some a) (hb : (store (c :: past)).arenaAt k = some b)
    (hh : h ∈ issued k past) : b.Accepts h ↔ a.Accepts h ∧ b.InUse h.index := by
  constructor
  · intro hbh
    refine ⟨?_, hbh.inUse⟩
    rcases hacc.stale h hh with hah | hlt
    · exact hah
    · exfalso
      have hgen := generation_toNat (hy k h (List.mem_append_right _ hh))
        fun i => generation_cons hacc.generation hages ha hb
      have hle : frees k h.index past ≤ frees k h.index (c :: past) := Nat.le_add_right ..
      rw [hbh.generation] at hgen
      omega
  · rintro ⟨hah, hu⟩
    refine ⟨hah.arena.trans hages.id.symm, hu, ?_⟩
    rw [hages.generation, if_neg fun hout => hout.2 hu, hah.generation]
    simp

theorem stale_cons (hacc : Accounts k past a) (hy : Recent (c :: past)) (hages : a.Ages b)
    (ha : (store past).arenaAt k = some a) (hb : (store (c :: past)).arenaAt k = some b)
    (hh : h ∈ issued k past) :
    b.Accepts h ∨ h.generation.toNat < frees k h.index (c :: past) := by
  have hle : frees k h.index past ≤ frees k h.index (c :: past) := Nat.le_add_right ..
  rcases hacc.stale h hh with hah | hlt
  · by_cases hu : b.InUse h.index
    · exact .inl ((accepts_cons hacc hy hages ha hb hh).2 ⟨hah, hu⟩)
    · have hgen := generation_toNat (hy.tail k h hh) hacc.generation
      rw [hah.generation] at hgen
      have hfrees := frees_cons (i := h.index) ha hb
      rw [if_pos ⟨hah.inUse, hu⟩] at hfrees
      omega
  · exact .inr (Nat.lt_of_lt_of_le hlt hle)

theorem accepts_eq {run : Run} (ha : (store run).arenaAt k = some a) :
    (store run).accepts k h = true ↔ a.Accepts h := by
  rw [Store.accepts, ha, Option.any_some, BlockArena.contains_iff]

/-- The handles that are still held after a step. -/
theorem live_cons (hacc : Accounts k past a) (hy : Recent (c :: past)) (hages : a.Ages b)
    (ha : (store past).arenaAt k = some a) (hb : (store (c :: past)).arenaAt k = some b) :
    live k (c :: past) =
      (((store past).handed k c).toList.filter ((store (c :: past)).accepts k)) ++
      (live k past).filter fun h => b.InUse h.index := by
  rw [live, issued, List.filter_append, live, List.filter_filter]
  congr 1
  apply List.filter_congr
  intro h hh
  rw [Bool.eq_iff_iff, accepts_eq hb, accepts_cons hacc hy hages ha hb hh, Bool.and_eq_true,
    accepts_eq ha, decide_eq_true_iff]
  exact and_comm

theorem nodup_live (hacc : Accounts k past a) : (live k past).Nodup := by
  have hnd := (List.nodup_append.1 (List.nodup_append.1 hacc.covered.nodup).2.1).1
  exact List.Nodup.of_map _ hnd

theorem mem_live_iff (ha : (store past).arenaAt k = some a) :
    h ∈ live k past ↔ h ∈ issued k past ∧ a.Accepts h := by
  rw [live, List.mem_filter, accepts_eq ha]

/-- The accounts after a step, once the blocks in use are listed again. -/
theorem accounts_of_covered (hacc : Accounts k past a) (hy : Recent (c :: past)) (hages : a.Ages b)
    (ha : (store past).arenaAt k = some a) (hb : (store (c :: past)).arenaAt k = some b)
    (hhanded : ∀ h, (store past).handed k c = some h → b.Accepts h)
    (hcov : b.Covered ((store (c :: past)).ringSlots k ++
      ((live k (c :: past)).map BlockHandle.index ++ lost k (c :: past)))) :
    Accounts k (c :: past) b where
  covered := hcov
  arena h hh := by
    rw [issued, List.mem_append, Option.mem_toList] at hh
    rcases hh with hh | hh
    · exact (hhanded h hh).arena
    · exact (hacc.arena h hh).trans hages.id.symm
  stale h hh := by
    rw [issued, List.mem_append, Option.mem_toList] at hh
    rcases hh with hh | hh
    · exact .inl (hhanded h hh)
    · exact stale_cons hacc hy hages ha hb hh
  generation i := generation_cons hacc.generation hages ha hb

/-- Handles whose blocks stay in use stay held. -/
theorem live_kept (hacc : Accounts k past a) (hy : Recent (c :: past)) (hages : a.Ages b)
    (ha : (store past).arenaAt k = some a) (hb : (store (c :: past)).arenaAt k = some b)
    {xs ys : List UInt32}
    (hcov : b.Covered (xs ++ ((live k past).map BlockHandle.index ++ ys))) :
    live k (c :: past) = (((store past).handed k c).toList.filter
      ((store (c :: past)).accepts k)) ++ live k past := by
  rw [live_cons hacc hy hages ha hb]
  congr 1
  refine List.filter_eq_self.2 fun g hg => decide_eq_true ((hcov.mem_iff _).1 ?_)
  exact List.mem_append_right xs (List.mem_append_left ys (List.mem_map_of_mem hg))

/-- A handle that changes a block is one that its caller holds. -/
theorem mem_live_of_changed (hc : Ordinary (c :: past)) (ha : (store past).arenaAt k = some a)
    (hpres : c.changed? = some (k, h)) (hh : a.Accepts h) : h ∈ live k past := by
  obtain ⟨-, -, hpresented⟩ := hc
  refine (mem_live_iff ha).2 ⟨?_, hh⟩
  rcases hpresented k h hpres with hm | hforeign
  · exact hm
  · exact absurd hh.arena (hforeign a ha)

/-- The blocks of callers and of nobody, with the block of one handle first. -/
theorem perm_live (hm : h ∈ live k past) (xs : List UInt32) :
    (xs ++ ((live k past).map BlockHandle.index ++ lost k past)).Perm
      (xs ++ ([h.index] ++ (((live k past).erase h).map BlockHandle.index ++ lost k past))) :=
  List.Perm.append_left xs (((List.perm_cons_erase hm).map _).append_right _)

/-- A command of a container leaves what callers hold. -/
theorem covered_of_container (hacc : Accounts k past a) (hy : Recent (c :: past)) (hages : a.Ages b)
    (ha : (store past).arenaAt k = some a) (hb : (store (c :: past)).arenaAt k = some b)
    (hnone : (store past).handed k c = none)
    (hcov : b.Covered ((store (c :: past)).ringSlots k ++ ((store past).leavings k c ++
      ((live k past).map BlockHandle.index ++ lost k past)))) :
    b.Covered ((store (c :: past)).ringSlots k ++
      ((live k (c :: past)).map BlockHandle.index ++ lost k (c :: past))) := by
  have hcov' := hcov.perm (List.Perm.append_left _ (List.perm_append_comm_assoc ..))
  have hlive := live_kept hacc hy hages ha hb hcov'
  rw [hnone, Option.toList_none, List.filter_nil, List.nil_append] at hlive
  rw [hlive]
  exact hcov'

/-- A block that is handed out goes to a caller. -/
theorem covered_of_handed (hacc : Accounts k past a) (hy : Recent (c :: past)) (hages : a.Ages b)
    (ha : (store past).arenaAt k = some a) (hb : (store (c :: past)).arenaAt k = some b)
    (hsome : (store past).handed k c = some h) (hleft : (store past).leavings k c = [])
    (hh : b.Accepts h)
    (hcov : b.Covered ((store (c :: past)).ringSlots k ++ ([h.index] ++
      ((live k past).map BlockHandle.index ++ lost k past)))) :
    b.Covered ((store (c :: past)).ringSlots k ++
      ((live k (c :: past)).map BlockHandle.index ++ lost k (c :: past))) := by
  have hlive := live_kept hacc hy hages ha hb (by rwa [← List.append_assoc] at hcov)
  have hnew : (store (c :: past)).accepts k h = true := (accepts_eq hb).2 hh
  rw [hsome, Option.toList_some, List.filter_cons_of_pos hnew, List.filter_nil] at hlive
  rw [hlive, lost, hleft]
  exact hcov

/-- A block that is written to stays with its caller. -/
theorem covered_of_written (hacc : Accounts k past a) (hy : Recent (c :: past)) (hages : a.Ages b)
    (ha : (store past).arenaAt k = some a) (hb : (store (c :: past)).arenaAt k = some b)
    (hnone : (store past).handed k c = none) (hleft : (store past).leavings k c = [])
    (hm : h ∈ live k past)
    (hcov : b.Covered ((store (c :: past)).ringSlots k ++ ([h.index] ++
      (((live k past).erase h).map BlockHandle.index ++ lost k past)))) :
    b.Covered ((store (c :: past)).ringSlots k ++
      ((live k (c :: past)).map BlockHandle.index ++ lost k (c :: past))) := by
  have hcov' := hcov.perm (perm_live hm _).symm
  have hlive := live_kept hacc hy hages ha hb hcov'
  rw [hnone, Option.toList_none, List.filter_nil, List.nil_append] at hlive
  rw [hlive, lost, hleft]
  exact hcov'

/-- A block that is taken back is held no longer. -/
theorem covered_of_freed (hacc : Accounts k past a) (hy : Recent (c :: past)) (hages : a.Ages b)
    (ha : (store past).arenaAt k = some a) (hb : (store (c :: past)).arenaAt k = some b)
    (hnone : (store past).handed k c = none) (hleft : (store past).leavings k c = [])
    (hout : ¬b.InUse h.index)
    (hcov : b.Covered ((store (c :: past)).ringSlots k ++
      (((live k past).erase h).map BlockHandle.index ++ lost k past))) :
    b.Covered ((store (c :: past)).ringSlots k ++
      ((live k (c :: past)).map BlockHandle.index ++ lost k (c :: past))) := by
  have hkept : ((live k past).filter fun g => b.InUse g.index) = (live k past).erase h := by
    rw [(nodup_live hacc).erase_eq_filter h]
    apply List.filter_congr
    intro g hg
    by_cases hgh : g = h
    · simp [hgh, hout]
    · have hin : b.InUse g.index := by
        refine (hcov.mem_iff _).1 (List.mem_append_right _ (List.mem_append_left _ ?_))
        exact List.mem_map_of_mem ((List.mem_erase_of_ne hgh).2 hg)
      simp [hgh, hin]
  rw [live_cons hacc hy hages ha hb, hnone, Option.toList_none, List.filter_nil, List.nil_append,
    hkept, lost, hleft]
  exact hcov

/-- **A step keeps the accounts of an arena that was there.** -/
theorem accounts_cons (hio : InOrder past) (hc : Ordinary (c :: past)) (hy : Recent (c :: past))
    (ha : (store past).arenaAt k = some a) : (store (c :: past)).Settled k ∧
    ∀ b, (store (c :: past)).arenaAt k = some b → Accounts k (c :: past) b := by
  have hacc := hio.accounts k a ha
  have hset := hio.settled k
  obtain ⟨b, hb, hages⟩ := Store.step_ages hc.2.1 (store past) k a ha
  suffices h : (store (c :: past)).Settled k ∧
      (∀ h, (store past).handed k c = some h → b.Accepts h) ∧
      b.Covered ((store (c :: past)).ringSlots k ++
        ((live k (c :: past)).map BlockHandle.index ++ lost k (c :: past))) by
    obtain ⟨hset', hhanded, hcov⟩ := h
    refine ⟨hset', fun b' hb' => ?_⟩
    obtain rfl := Option.some.inj (hb.symm.trans hb')
    exact accounts_of_covered hacc hy hages ha hb hhanded hcov
  have hnobody : (store past).handed k c = none →
      ∀ h, (store past).handed k c = some h → b.Accepts h := by
    intro hnone h hh
    rw [hnone] at hh
    cases hh
  have hcov₀ : a.Covered ((store past).ringSlots k ++
      ([] ++ ((live k past).map BlockHandle.index ++ lost k past))) := hacc.covered
  cases Store.step_turn hc.2.1 hio.settled k with
  | container hnone hturn =>
    obtain ⟨hset', b', hb', hcov, -⟩ := hturn.settled hset ha hcov₀
    obtain rfl := Option.some.inj (hb.symm.trans hb')
    exact ⟨hset', hnobody hnone, covered_of_container hacc hy hages ha hb hnone hcov⟩
  | handed hsome hleft hb' hh hturn =>
    obtain ⟨hset', b', hb'', hcov, -⟩ := hturn.settled hset ha hcov₀
    obtain rfl := Option.some.inj (hb.symm.trans hb')
    obtain rfl := Option.some.inj (hb.symm.trans hb'')
    refine ⟨hset', fun g hg => ?_, covered_of_handed hacc hy hages ha hb hsome hleft hh hcov⟩
    rw [hsome] at hg
    exact Option.some.inj hg ▸ hh
  | written hnone hleft hpres ha' hh hturn =>
    obtain rfl := Option.some.inj (ha.symm.trans ha')
    have hm := mem_live_of_changed hc ha hpres hh
    obtain ⟨hset', b', hb', hcov, -⟩ := hturn.settled hset ha (hacc.covered.perm (perm_live hm _))
    obtain rfl := Option.some.inj (hb.symm.trans hb')
    exact ⟨hset', hnobody hnone, covered_of_written hacc hy hages ha hb hnone hleft hm hcov⟩
  | freed hnone hleft hpres ha' hh hb' hout hturn =>
    obtain rfl := Option.some.inj (ha.symm.trans ha')
    obtain rfl := Option.some.inj (hb.symm.trans hb')
    have hm := mem_live_of_changed hc ha hpres hh
    obtain ⟨hset', b', hb'', hcov, -⟩ := hturn.settled hset ha (hacc.covered.perm (perm_live hm _))
    obtain rfl := Option.some.inj (hb.symm.trans hb'')
    exact ⟨hset', hnobody hnone, covered_of_freed hacc hy hages ha hb hnone hleft hout hcov⟩

/-- What a step exchanges, beside the blocks of all others. -/
theorem exists_exchange (hio : InOrder past) (hc : Ordinary (c :: past))
    (ha : (store past).arenaAt k = some a) : ∃ l l' rest,
    Store.Exchanges k (store past) ((store past).subject c) l (store (c :: past)) l' ∧
    a.Covered ((store past).ringSlots k ++ (l ++ rest)) := by
  have hcov := (hio.accounts k a ha).covered
  cases Store.step_turn hc.2.1 hio.settled k with
  | container hnone hturn => exact ⟨[], _, _, hturn, hcov⟩
  | handed hsome hleft hb hh hturn => exact ⟨[], _, _, hturn, hcov⟩
  | written hnone hleft hpres ha' hh hturn =>
    obtain rfl := Option.some.inj (ha.symm.trans ha')
    exact ⟨_, _, _, hturn, hcov.perm (perm_live (mem_live_of_changed hc ha hpres hh) _)⟩
  | freed hnone hleft hpres ha' hh hb hout hturn =>
    obtain rfl := Option.some.inj (ha.symm.trans ha')
    exact ⟨_, _, _, hturn, hcov.perm (perm_live (mem_live_of_changed hc ha hpres hh) _)⟩

/-- **A ring that a command is not about keeps its list.** -/
theorem holds_other (hio : InOrder past) (hc : Ordinary (c :: past))
    (ha : (store past).arenaAt k = some a) : ∃ b, (store (c :: past)).arenaAt k = some b ∧
    ∀ r p, r ≠ (store past).subject c → (store past).placedAt r = some p → p.nodes = k →
      ∀ ns vs, p.ring.Holds a ns vs → p.ring.Holds b ns vs := by
  obtain ⟨l, l', rest, hturn, hcov⟩ := exists_exchange hio hc ha
  obtain ⟨-, b, hb, -, hother⟩ := hturn.settled (hio.settled k) ha hcov
  exact ⟨b, hb, hother⟩

/-- **A container that a command is not about stays.** -/
theorem container_other (hio : InOrder past) (hc : Ordinary (c :: past)) {r : Nat}
    (hr : r ≠ (store past).subject c) :
    (store (c :: past)).containerAt r = (store past).containerAt r := by
  cases Store.step_turn hc.2.1 hio.settled 0 with
  | container hnone hturn => exact hturn.others r hr
  | handed hsome hleft hb hh hturn => exact hturn.others r hr
  | written hnone hleft hpres ha hh hturn => exact hturn.others r hr
  | freed hnone hleft hpres ha hh hb hout hturn => exact hturn.others r hr

theorem leavings_of_absent (ha : (store past).arenaAt k = none) :
    (store past).leavings k c = [] := by
  have hleft : ∀ r, (store past).leftBy k r = [] := by
    intro r
    apply Store.leftBy_of_slotsAt_nil
    unfold Store.slotsAt
    rw [ha]
    split
    · next h => cases h
    · rfl
  unfold Store.leavings Store.leftByTextRing
  split
  · exact hleft _
  · split
    · split
      · exact hleft _
      · rfl
    · rfl
  · rfl

/-- **A step opens the accounts of an arena that is new.** -/
theorem accounts_new (hio : InOrder past) (hc : Ordinary (c :: past))
    (ha : (store past).arenaAt k = none) : (store (c :: past)).Settled k ∧
    (issued k (c :: past) = [] ∧ lost k (c :: past) = [] ∧ ∀ i, frees k i (c :: past) = 0) ∧
    ∀ b, (store (c :: past)).arenaAt k = some b → Accounts k (c :: past) b := by
  obtain ⟨hissued, hlost, hfrees⟩ := hio.absent k ha
  have hfrees' : ∀ i, frees k i (c :: past) = 0 := by
    intro i
    simp only [frees, hfrees, Store.inUse, ha, Option.any_none, Bool.false_and, Bool.toNat_false]
  have hlost' : lost k (c :: past) = [] := by rw [lost, hlost, leavings_of_absent ha]; rfl
  cases Store.step_turn hc.2.1 hio.settled k with
  | container hnone hturn =>
    have hissued' : issued k (c :: past) = [] := by rw [issued, hnone, hissued]; rfl
    obtain ⟨hset, hnew⟩ := hturn.settled_new (hio.settled k) ha
    refine ⟨hset, ⟨hissued', hlost', hfrees'⟩, fun b hb => ?_⟩
    obtain ⟨⟨id, capacity, blockSize, rfl, -⟩, hcov⟩ := hnew b hb
    refine ⟨?_, by simp [hissued'], by simp [hissued'], fun i => ?_⟩
    · rw [live, hissued', hlost', List.filter_nil, List.map_nil, List.append_nil, List.append_nil]
      exact hcov
    · rw [hfrees', BlockArena.generation, BlockArena.fresh, Memory.get_blank]
      rfl
  | handed hsome hleft hb hh hturn =>
    obtain ⟨-, hnew⟩ := hturn.settled_new (hio.settled k) ha
    obtain ⟨⟨id, capacity, blockSize, rfl, -⟩, -⟩ := hnew _ hb
    exact absurd hh.inUse (BlockArena.not_inUse_fresh id capacity blockSize)
  | written hnone hleft hpres ha' hh hturn =>
    rw [ha] at ha'
    cases ha'
  | freed hnone hleft hpres ha' hh hb hout hturn =>
    rw [ha] at ha'
    cases ha'

end Step

/-! ### Whole runs -/

theorem inOrder_cons (hio : InOrder past) (hc : Ordinary (c :: past)) (hy : Recent (c :: past)) :
    InOrder (c :: past) where
  settled k := by
    cases ha : (store past).arenaAt k with
    | none => exact (accounts_new hio hc ha).1
    | some a => exact (accounts_cons hio hc hy ha).1
  accounts k b hb := by
    cases ha : (store past).arenaAt k with
    | none => exact (accounts_new hio hc ha).2.2 b hb
    | some a => exact (accounts_cons hio hc hy ha).2 b hb
  absent k hb := by
    cases ha : (store past).arenaAt k with
    | none => exact (accounts_new hio hc ha).2.1
    | some a =>
      obtain ⟨b, hb', -⟩ := Store.step_ages hc.2.1 (store past) k a ha
      exact absurd (hb'.symm.trans hb) nofun

/-- **At every moment of an ordinary run the blocks of all arenas are accounted for.** -/
theorem inOrder_of_recent {run : Run} (h : Ordinary run) (hy : Recent run) : InOrder run := by
  induction run with
  | nil => exact inOrder_nil
  | cons c past ih => exact inOrder_cons (ih h.1 hy.tail) h hy

theorem inOrder {run : Run} (h : Ordinary run) (hy : Young run) : InOrder run :=
  inOrder_of_recent h hy.recent

end Run

end FixedArena
