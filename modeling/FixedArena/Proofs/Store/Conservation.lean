import FixedArena.Proofs.Store.Holdings
import FixedArena.Proofs.Store.Lists
import FixedArena.Proofs.Store.Partition
import Mathlib.Algebra.Ring.Nat

/-!
Nothing leaks. At every moment of a run in which no container is given up under a hold, the blocks in
use are those that the containers need and those that callers have, and so are the slots. Once all
containers are gone, only what callers have is in use.

Main facts:
* `Store.blocksOn`, `Store.slotsOn`: what the containers need;
* `Run.lost_eq_nil`: no block is left to nobody;
* `Run.conserved`: the counts of all arenas and pools.
-/

namespace FixedArena

/-- The blocks that a container has on an arena: those of its values, and its head. -/
def Container.blocksOn (k : Nat) : Container → Nat
  | .ring _ r n => if n = k then r.len + 1 else 0
  | .textRing tr n _ => if n = k then tr.len + 1 else 0
  | .text .. => 0

/-- The slots that a container has in a pool. -/
def Container.slotsOn (k : Nat) : Container → Nat
  | .ring .. => 0
  | .textRing tr _ pool => if pool = k then tr.len else 0
  | .text _ pool => if pool = k then 1 else 0

namespace Store

variable {s : Store} {k r : Nat} {c : Command} {x : Container}

/-! ### Counting -/

/-- The containers that were not given up. -/
def present (s : Store) : List Container := s.containers.toList.filterMap id

/-- The blocks of an arena that the containers need. -/
def blocksOn (s : Store) (k : Nat) : Nat := (s.present.map (Container.blocksOn k)).sum

/-- The slots of a pool that the containers need. -/
def slotsOn (s : Store) (k : Nat) : Nat := (s.present.map (Container.slotsOn k)).sum

theorem sum_filterMap_id (f : Container → Nat) (xs : List (Option Container)) :
    ((xs.filterMap id).map f).sum =
      ((List.range xs.length).map fun r => (xs[r]?.join.map f).getD 0).sum := by
  induction xs with
  | nil => rfl
  | cons x xs ih =>
    rw [List.length_cons, List.range_succ_eq_map, List.map_cons, List.map_map, List.sum_cons]
    cases x with
    | none => simpa [Function.comp_def] using ih
    | some c => simpa [Function.comp_def] using ih

/-- What is listed for every number is counted for the containers that are there. -/
theorem length_flatMap_range {α : Type} {f : Container → Nat} {g : Nat → List α}
    (h : ∀ r, (g r).length = ((s.containerAt r).map f).getD 0) :
    ((List.range s.containers.size).flatMap g).length = (s.present.map f).sum := by
  rw [List.length_flatMap, present, sum_filterMap_id, Array.length_toList]
  refine congrArg List.sum (List.map_congr_left fun r _ => ?_)
  rw [h, containerAt, Array.getElem?_toList]

section Settled

variable (hs : ∀ j, s.Settled j)

include hs

theorem length_ringSlots {a : BlockArena} (ha : s.arenaAt k = some a) :
    (s.ringSlots k).length = s.blocksOn k := by
  refine length_flatMap_range fun r => ?_
  have hring : ∀ p, s.placedAt r = some p →
      (s.slotsAt k r).length = if p.nodes = k then p.ring.len + 1 else 0 := by
    intro p hp
    rw [slotsAt_eq hp ha]
    split
    · next hk =>
      obtain ⟨ns, vs, hh⟩ := (hs k).valid a ha r p hp hk
      exact hh.round.length
    · rfl
  rcases hc : s.containerAt r with _ | ⟨type, ring, n⟩ | ⟨tr, n, pool⟩ | ⟨h, pool⟩
  · rw [slotsAt_of_placedAt_none (by rw [placedAt, hc]; rfl)]
    rfl
  · exact hring _ (placedAt_of_container hc)
  · exact hring _ (placedAt_of_container hc)
  · rw [slotsAt_of_placedAt_none (placedAt_of_container hc)]
    rfl

theorem length_ownedOn (k : Nat) : (s.ownedOn k).length = s.slotsOn k := by
  refine length_flatMap_range fun r => ?_
  rcases hc : s.containerAt r with _ | ⟨type, ring, n⟩ | ⟨tr, n, pool⟩ | ⟨h, pool⟩
  · rw [heldOn_of_absent hc]
    rfl
  · rw [heldOn_of_ring hc]
    rfl
  · obtain ⟨g, p, ns, vs, hg, -, -, hh⟩ := exists_site hc (hs n)
    by_cases hk : pool = k
    · subst hk
      rw [heldOn_of_textRing hc (arenaAt_of_get hg) hh, ← hh.len_eq]
      simp [Container.slotsOn, TextRing.len]
    · rw [heldOn_of_elsewhere (by simp [poolOf_of_containerAt hc, Container.pool?, hk])]
      simp [Container.slotsOn, hk]
  · rw [heldOn_of_text hc]
    simp only [Option.map_some, Option.getD_some, Container.slotsOn]
    split <;> rfl

end Settled

/-! ### Nothing is left to nobody -/

theorem Loose.freeAt {p : Placed} (h : s.Loose x) (hp : x.placed? = some p) : s.FreeAt p.nodes := by
  cases x with
  | ring type ring n =>
    obtain rfl := Option.some.inj hp
    exact h
  | textRing tr n pool =>
    obtain rfl := Option.some.inj hp
    exact h.1
  | text h pool => cases hp

theorem leftBy_of_loose (hc : s.containerAt r = some x) (h : s.Loose x) : s.leftBy k r = [] := by
  cases hp : x.placed? with
  | none => exact leftBy_of_slotsAt_nil (slotsAt_of_placedAt_none ((placedAt_of_container hc).trans hp))
  | some p =>
    by_cases hk : p.nodes = k
    · unfold leftBy
      split
      · next g hg => rw [if_pos (h.freeAt hp g (hk.symm ▸ hg))]
      · rfl
    · refine leftBy_of_slotsAt_nil (slotsAt_eq_nil fun p' hp' => ?_)
      rw [placedAt_of_container hc, hp] at hp'
      exact Option.some.inj hp' ▸ hk

theorem leavings_of_givesFreely (h : s.GivesFreely c) : s.leavings k c = [] := by
  have hleft : ∀ r, (∀ x, s.containerAt r = some x → s.Loose x) → s.leftBy k r = [] := by
    intro r hr
    cases hc : s.containerAt r with
    | none => exact leftBy_of_unknown hc
    | some x => exact leftBy_of_loose hc (hr x hc)
  cases c with
  | drop r => exact hleft r fun x hx => h x hx
  | textRing r c =>
    simp only [leavings, leftByTextRing]
    split
    · split
      · next tr n pool hc =>
        refine hleft r fun x hx => h x ?_
        rw [givenUp, hc]
        exact hc.symm.trans hx
      · rfl
    · rfl
  | _ => rfl

end Store

namespace Run

variable {k : Nat}

theorem lost_eq_nil {run : Run} (h : GivesFreely run) : lost k run = [] := by
  induction run with
  | nil => rfl
  | cons c past ih => rw [lost, Store.leavings_of_givesFreely h.2, ih h.1]; rfl

/-- **Nothing leaks.** Take any run in which callers change blocks only through handles that they were
issued, no arenas or pools change places, no two arenas share an identity, no block is freed so often
that its generation comes round again, and no container is given up while its arena or its pool is
held. At every moment the live blocks of an arena are those that its rings need and those that callers
have; the owned slots of a pool are those that its containers need, and every other slot is free or in
a caller's hands. Once all containers are gone, exactly what callers have is in use. -/
theorem conserved {run : Run} (h : Honest run) (hy : Young run) (hapart : (store run).ArenasApart)
    (hpools : ∀ c ∈ run, c.KeepsPools) (hfree : GivesFreely run) (k : Nat) :
    (∀ a, (store run).arenaAt k = some a →
      a.live = (store run).blocksOn k + (live k run).length ∧
      ((store run).present = [] → ∀ i, a.InUse i ↔ i ∈ (live k run).map BlockHandle.index)) ∧
    ∀ p, (store run).poolAt k = some p →
      p.owned = (store run).slotsOn k ∧
      p.owned + p.available + (lent k run).length = p.capacity ∧
      (lent k run).Nodup ∧
      (∀ h, h ∈ lent k run ↔ p.inUse h = true ∧ p.isOwned h = false) ∧
      ((store run).present = [] → ∀ h, p.inUse h = true ↔ h ∈ lent k run) := by
  have hord := h.ordinary hy hapart
  have hio := inOrder hord hy
  refine ⟨fun a ha => ?_, fun p hp => ?_⟩
  · have hcov := (hio.accounts k a ha).covered
    rw [lost_eq_nil hfree, List.append_nil] at hcov
    have hslots := Store.length_ringSlots hio.settled ha
    refine ⟨?_, fun hnone i => ?_⟩
    · rw [← ((hio.settled k).sound a ha).length_eq hcov, List.length_append, hslots,
        List.length_map]
    · rw [Store.blocksOn, hnone] at hslots
      rw [List.eq_nil_of_length_eq_zero hslots] at hcov
      exact (hcov.mem_iff i).symm
  · have hbooks := (Store.books_iff hp).1 (books hord hy hpools hfree k)
    have howned := Store.length_ownedOn hio.settled k
    refine ⟨hbooks.owned_eq.trans howned, ?_, hbooks.nodup_lent, fun h => hbooks.mem_lent_iff_inUse,
      fun hnone h => ?_⟩
    · rw [← hbooks.lent_eq]
      exact hbooks.owned_add_available
    · rw [Store.slotsOn, hnone] at howned
      rw [List.eq_nil_of_length_eq_zero howned] at hbooks
      rw [hbooks.mem_lent_iff_inUse]
      refine ⟨fun hu => ⟨hu, ?_⟩, fun hu => hu.1⟩
      rw [← Bool.not_eq_true, ← hbooks.mem_owned_iff_isOwned]
      exact List.not_mem_nil

/-- A ring, a text ring and a text, with all that can go wrong: a text finds no slot, and a handle
cannot be removed under a hold. A caller has two blocks, and gives one back, and two slots, one of
which goes into the text ring. -/
def spending : Run :=
  [.textRing 1 (.pop .back), .release (.pool 0) .shared, .textRing 1 (.pop .front),
    .hold (.pool 0) .shared, .textRing 1 (.pushText "full"), .newText 0 (some "b"),
    .pool 0 .allocate, .textRing 1 (.push .front ⟨1, 1⟩), .pool 0 .allocate,
    .textRing 1 (.pushText "a"), .arena 0 (.free ⟨1, 3, 0⟩), .arena 0 .allocate,
    .arena 0 .allocate, .newTextRing 0 0, .ring 0 (.push .back ⟨.unsigned 1, (7 : BitVec 8)⟩),
    .newRing (.unsigned 1) 0, .reservePool 4 8, .reserveArena 8 32]

/-- All containers are given up. -/
def spent : Run := [.drop 0, .textRing 1 .intoTexts, .drop 2] ++ spending

theorem honest_spending : Honest spending := by
  have hissued : (⟨1, 3, 0⟩ : BlockHandle) ∈ issued 0 (spending.drop 11) := by decide +kernel
  have hpast : Honest (spending.drop 11) := by
    refine Honest.append (l := spending.drop 11) (show Honest [] from trivial) ?_
    simp only [spending, List.drop_succ_cons, List.drop_zero, List.forall_mem_cons]
    exact ⟨⟨nofun, rfl⟩, ⟨nofun, rfl⟩, ⟨nofun, rfl⟩, ⟨nofun, rfl⟩, ⟨nofun, rfl⟩, ⟨nofun, rfl⟩,
      ⟨nofun, rfl⟩, nofun⟩
  have hfreed : Honest (.arena 0 (.free ⟨1, 3, 0⟩) :: spending.drop 11) := by
    refine ⟨hpast, nofun, fun k h hc => ?_⟩
    cases hc
    exact ⟨0, hissued⟩
  refine Honest.append (l := spending.take 10) hfreed ?_
  simp only [spending, List.take_succ_cons, List.take_zero, List.forall_mem_cons]
  exact ⟨⟨nofun, rfl⟩, ⟨nofun, rfl⟩, ⟨nofun, rfl⟩, ⟨nofun, rfl⟩, ⟨nofun, rfl⟩, ⟨nofun, rfl⟩,
    ⟨nofun, rfl⟩, ⟨nofun, rfl⟩, ⟨nofun, rfl⟩, ⟨nofun, rfl⟩, nofun⟩

theorem honest_spent : Honest spent := by
  refine honest_spending.append ?_
  simp only [List.forall_mem_cons]
  exact ⟨⟨nofun, rfl⟩, ⟨nofun, rfl⟩, ⟨nofun, rfl⟩, nofun⟩

/-- In the middle, two blocks of the ring, two of the text ring and one of the caller are live; in the
end only the caller's block and slot are in use. -/
theorem conserved_spent : Honest spent ∧ Young spent ∧ (store spent).ArenasApart ∧
    (∀ c ∈ spent, c.KeepsPools) ∧ GivesFreely spent ∧
    ((store spending).blocksOn 0 = 4 ∧ (live 0 spending).length = 1 ∧
      (store spending).slotsOn 0 = 2 ∧ (lent 0 spending).length = 1) ∧
    (∀ a, (store spending).arenaAt 0 = some a → a.live = 4 + 1) ∧
    (∀ p, (store spending).poolAt 0 = some p → p.owned = 2 ∧ 2 + p.available + 1 = p.capacity) ∧
    (∀ a, (store spent).arenaAt 0 = some a → ∀ i, a.InUse i ↔ i ∈ [4]) ∧
    ∀ p, (store spent).poolAt 0 = some p → ∀ h, p.inUse h = true ↔ h ∈ [⟨1, 2⟩] := by
  have hyoung : Young spent := young_of_length (by decide)
  have hids : ((store spent).arenas.toList.map fun g => g.value.id).Nodup := by decide +kernel
  have hapart := Store.arenasApart_of_nodup hids
  have hpools : ∀ c ∈ spent, c.KeepsPools := by
    intro c hc
    simp only [spent, spending, List.cons_append, List.nil_append, List.mem_cons, List.not_mem_nil,
      or_false] at hc
    rcases hc with rfl | rfl | rfl | rfl | rfl | rfl | rfl | rfl | rfl | rfl | rfl | rfl | rfl | rfl
      | rfl | rfl | rfl | rfl | rfl | rfl | rfl
    all_goals exact nofun
  have hfree : GivesFreely spent := by decide +kernel
  have hcounts : (store spending).blocksOn 0 = 4 ∧ (live 0 spending).length = 1 ∧
      (store spending).slotsOn 0 = 2 ∧ (lent 0 spending).length = 1 := by decide +kernel
  have hends : (store spent).present.length = 0 ∧ (live 0 spent).map BlockHandle.index = [4] ∧
      lent 0 spent = [⟨1, 2⟩] := by decide +kernel
  have hnone := List.eq_nil_of_length_eq_zero hends.1
  have hmiddle := conserved honest_spending (young_of_length (by decide))
    (Store.arenasApart_of_nodup (by decide +kernel))
    (fun c hc => hpools c (List.mem_append_right _ hc)) hfree.1.1.1 0
  have hend := conserved honest_spent hyoung hapart hpools hfree 0
  rw [hcounts.1, hcounts.2.1, hcounts.2.2.1, hcounts.2.2.2] at hmiddle
  rw [hends.2.1, hends.2.2] at hend
  refine ⟨honest_spent, hyoung, hapart, hpools, hfree, hcounts, fun a ha => (hmiddle.1 a ha).1,
    fun p hp => ?_, fun a ha => (hend.1 a ha).2 hnone, fun p hp => (hend.2 p hp).2.2.2.2 hnone⟩
  obtain ⟨howned, hsum, -⟩ := hmiddle.2 p hp
  rw [howned] at hsum
  exact ⟨howned, hsum⟩

end Run

end FixedArena
