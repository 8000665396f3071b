import FixedArena.Proofs.Store.Ownership
import FixedArena.Proofs.Store.Postings

/-!
The ledgers of the pools over whole runs. The handles that callers have are kept in the history of a
run: a slot that is handed out is theirs until they give it back or put it into a text ring.

Main facts:
* `Run.lent`: the handles of a pool that callers have;
* `Run.GivesFreely`: at no moment of a run is a container given up under a hold;
* `Run.books`: at every moment the handles of all containers and those of callers are the ledger of
  their pool;
* `Run.entry_kept`: what a container owns before and after a command keeps its text, unless the
  command writes to it.
-/

namespace FixedArena

namespace Store

variable {s t : Store} {k r n : Nat} {L W : List TextHandle}
  {f : List TextHandle → List TextHandle}

/-- The handles of a pool that all containers hold. -/
def ownedOn (s : Store) (k : Nat) : List TextHandle :=
  (List.range s.containers.size).flatMap (s.heldOn k)

/-- The handles of a pool that all containers but one hold, looked for among so many containers. -/
def othersOn (s : Store) (k r n : Nat) : List TextHandle :=
  ((List.range n).erase r).flatMap (s.heldOn k)

theorem perm_ownedOn (hn : s.containers.size ≤ n) (hr : r < n) :
    (s.ownedOn k).Perm (s.heldOn k r ++ s.othersOn k r n) := by
  have hall : s.ownedOn k = (List.range n).flatMap (s.heldOn k) :=
    flatMap_range_eq _ hn fun _ hr => heldOn_of_size_le hr
  rw [hall]
  exact perm_flatMap_erase (s.heldOn k) (List.mem_range.2 hr)

/-- **What one container posts, all containers post**, and so they do with what one of them leaves to
nobody. -/
theorem PostsTo.all_left {l X : List TextHandle}
    (h : PostsTo k W (s.heldOn k r) s f (t.heldOn k r ++ l) t)
    (hother : ∀ r', r' ≠ r → t.heldOn k r' = s.heldOn k r')
    (hb : s.Books k (s.ownedOn k ++ X) L) :
    t.Books k (t.ownedOn k ++ (l ++ X)) (f L) ∧
      ∀ g ∈ s.ownedOn k ++ X, g ∈ t.ownedOn k ++ (l ++ X) → g ∉ W →
        t.entryAt k g = s.entryAt k g := by
  obtain ⟨n, hns, hnt, hr⟩ : ∃ n, s.containers.size ≤ n ∧ t.containers.size ≤ n ∧ r < n :=
    ⟨s.containers.size + t.containers.size + (r + 1), by omega, by omega, by omega⟩
  have hsame : t.othersOn k r n = s.othersOn k r n :=
    List.flatMap_congr fun r' hr' => hother r' (List.nodup_range.mem_erase_iff.1 hr').1
  have hs : (s.ownedOn k ++ X).Perm (s.heldOn k r ++ (s.othersOn k r n ++ X)) := by
    rw [← List.append_assoc]
    exact (perm_ownedOn hns hr).append_right X
  have ht : (t.ownedOn k ++ (l ++ X)).Perm ((t.heldOn k r ++ l) ++ (s.othersOn k r n ++ X)) := by
    have hperm := perm_ownedOn (k := k) hnt hr
    rw [hsame] at hperm
    exact (hperm.append_right (l ++ X)).trans (perm_shuffle ..)
  have hb' := hb.perm hs
  refine ⟨(h.books _ _ hb').perm ht.symm, fun g hg hg' hW => ?_⟩
  exact h.kept _ _ hb' g (hs.mem_iff.1 hg) (ht.mem_iff.1 hg') hW

theorem PostsTo.all (h : PostsTo k W (s.heldOn k r) s f (t.heldOn k r) t)
    (hother : ∀ r', r' ≠ r → t.heldOn k r' = s.heldOn k r') (hb : s.Books k (s.ownedOn k) L) :
    t.Books k (t.ownedOn k) (f L) ∧
      ∀ g ∈ s.ownedOn k, g ∈ t.ownedOn k → g ∉ W → t.entryAt k g = s.entryAt k g := by
  rw [← List.append_nil (t.heldOn k r)] at h
  rw [← List.append_nil (s.ownedOn k)] at hb
  simpa only [List.append_nil] using h.all_left hother hb

end Store

namespace Run

variable {past : Run} {c : Command} {k : Nat}

/-- The handles of a pool that callers have. -/
def lent (k : Nat) : Run → List TextHandle
  | [] => []
  | c :: past => (store past).lentAfter k c (lent k past)

/-- No container is given up while its arena or its pool is held. -/
def GivesFreely : Run → Prop
  | [] => True
  | c :: past => GivesFreely past ∧ (store past).GivesFreely c

instance decidableGivesFreely : ∀ run, Decidable (GivesFreely run)
  | [] => .isTrue trivial
  | c :: past =>
    have := decidableGivesFreely past
    inferInstanceAs (Decidable (GivesFreely past ∧ (store past).GivesFreely c))

/-- A container that a command is not about holds what it held. -/
theorem heldOn_other (hio : InOrder past) (hc : Ordinary (c :: past)) {r : Nat}
    (hr : r ≠ (store past).holder c) :
    (store (c :: past)).heldOn k r = (store past).heldOn k r := by
  by_cases hsub : r = (store past).subject c
  · -- a command to a text is about no container; the text is there before and after
    obtain ⟨r', d, rfl, hne⟩ : ∃ r' d, c = .text r' d ∧ d ≠ .clone := by
      cases c with
      | text r' d =>
        refine ⟨r', d, rfl, ?_⟩
        rintro rfl
        exact hr hsub
      | _ => exact absurd hsub hr
    have hcalm := Store.calm_step (c := .text r' d) hne (store past)
    have hsize : (store (.text r' d :: past)).containers.size ≤ r := by
      rw [hsub]
      exact hcalm.containers ▸ Nat.le_refl _
    rw [Store.heldOn_of_size_le hsize, Store.heldOn_of_size_le (Nat.le_of_eq hsub.symm)]
  · unfold Store.heldOn Store.poolOf
    rw [heldAt_other hio hc hsub, container_other hio hc hsub]

section Step

variable (hio : InOrder past) (hc : Ordinary (c :: past)) (hp : c.KeepsPools)
  (hfree : (store past).GivesFreely c)

include hio hc hp hfree

/-- **A step keeps the ledgers.** -/
theorem books_cons (hb : (store past).Books k ((store past).ownedOn k) (lent k past)) :
    (store (c :: past)).Books k ((store (c :: past)).ownedOn k) (lent k (c :: past)) :=
  ((Store.step_posts hc.2.1 hp hio.settled hfree k).all
    (fun _ hr => heldOn_other hio hc hr) hb).1

/-- **What is owned before and after a step keeps its text**, unless it is written to. -/
theorem entry_kept (hb : (store past).Books k ((store past).ownedOn k) (lent k past))
    {g : TextHandle} (hg : g ∈ (store past).ownedOn k) (hg' : g ∈ (store (c :: past)).ownedOn k)
    (hW : g ∉ (store past).writtenAt k c) :
    (store (c :: past)).entryAt k g = (store past).entryAt k g :=
  ((Store.step_posts hc.2.1 hp hio.settled hfree k).all
    (fun _ hr => heldOn_other hio hc hr) hb).2 g hg hg' hW

end Step

/-- **The ledger of every pool at every moment.** -/
theorem books {run : Run} (h : Ordinary run) (hy : Young run) (hp : ∀ c ∈ run, c.KeepsPools)
    (hfree : GivesFreely run) (k : Nat) :
    (store run).Books k ((store run).ownedOn k) (lent k run) := by
  induction run with
  | nil => exact ⟨rfl, rfl⟩
  | cons c past ih =>
    have hpast := ih h.1 hy.tail (fun c' hc' => hp c' (List.mem_cons_of_mem c hc')) hfree.1
    exact books_cons (inOrder h.1 hy.tail) h (hp c List.mem_cons_self) hfree.2 hpast

end Run

end FixedArena
