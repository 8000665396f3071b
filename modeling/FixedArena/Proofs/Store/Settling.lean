import FixedArena.Proofs.Store.Placed

/-!
What an exchange keeps. It settles every arena again, and a list of all blocks in use stays one if
the blocks that went are taken from it and those that came are put in.

Main facts:
* `Exchanges.settled`: the arena stays sound, all rings on it hold lists, and its blocks in use stay
  accounted for;
* `Exchanges.settled_new`: so is an arena that was not there.
-/

namespace FixedArena

open BlockArena (Covered SameBlocks)

namespace Store

variable {s t : Store} {k r : Nat} {a b : BlockArena} {l l' rest : List UInt32}

/-! ### The blocks of one ring and of all others -/

/-- Numbers that stand for nothing may be looked through, too. -/
theorem flatMap_range_eq {α : Type} {m n : Nat} (f : Nat → List α) (hmn : m ≤ n)
    (hnil : ∀ r, m ≤ r → f r = []) : (List.range m).flatMap f = (List.range n).flatMap f := by
  obtain ⟨d, rfl⟩ := Nat.exists_eq_add_of_le hmn
  have hrest : ((List.range d).map (m + ·)).flatMap f = [] := by
    rw [List.flatMap_eq_nil_iff]
    intro r hr
    obtain ⟨i, -, rfl⟩ := List.mem_map.1 hr
    exact hnil _ (Nat.le_add_right ..)
  rw [List.range_add, List.flatMap_append, hrest, List.append_nil]

theorem ringSlots_eq {n : Nat} (hn : s.containers.size ≤ n) :
    s.ringSlots k = (List.range n).flatMap (s.slotsAt k) :=
  flatMap_range_eq _ hn fun _ hr => slotsAt_of_placedAt_none (placedAt_of_size_le hr)

theorem perm_flatMap_erase {α : Type} {rs : List Nat} (f : Nat → List α) (hr : r ∈ rs) :
    (rs.flatMap f).Perm (f r ++ (rs.erase r).flatMap f) :=
  (List.perm_cons_erase hr).flatMap_right f

/-- The blocks that all rings but one have on an arena, looked for among so many containers. -/
def otherSlots (s : Store) (k r n : Nat) : List UInt32 :=
  ((List.range n).erase r).flatMap (s.slotsAt k)

theorem perm_ringSlots {n : Nat} (hn : s.containers.size ≤ n) (hr : r < n) :
    (s.ringSlots k).Perm (s.slotsAt k r ++ s.otherSlots k r n) := by
  rw [ringSlots_eq hn]
  exact perm_flatMap_erase (s.slotsAt k) (List.mem_range.2 hr)

theorem slotsAt_subset_otherSlots {n r' : Nat} (hn : s.containers.size ≤ n) (hne : r' ≠ r) :
    s.slotsAt k r' ⊆ s.otherSlots k r n := by
  intro i hi
  have hr' : r' < s.containers.size := by
    by_contra hle
    rw [slotsAt_of_placedAt_none (placedAt_of_size_le (by omega))] at hi
    cases hi
  have hmem : r' ∈ (List.range n).erase r :=
    (List.mem_erase_of_ne hne).2 (List.mem_range.2 (by omega))
  exact List.mem_flatMap.2 ⟨r', hmem, hi⟩

/-- A ring on blocks that two arenas have in common. -/
theorem slotsAt_congr {p : Placed} {ns : List UInt32} {vs : List p.type.Value}
    (hp : s.placedAt r = some p) (hk : p.nodes = k) (hh : p.ring.Holds a ns vs)
    (ha : s.arenaAt k = some a) (hpt : t.placedAt r = some p) (hb : t.arenaAt k = some b)
    {common : List UInt32} (hab : a.SameBlocks b common) (hsub : s.slotsAt k r ⊆ common) :
    p.ring.Holds b ns vs ∧ t.slotsAt k r = s.slotsAt k r := by
  have hs : s.slotsAt k r = p.ring.head.index :: ns := by
    rw [slotsAt_eq hp ha, if_pos hk, hh.slots_eq]
  have hh' := hh.congr hab (hs ▸ hsub)
  refine ⟨hh', ?_⟩
  rw [hs, slotsAt_eq hpt hb, if_pos hk, hh'.slots_eq]

theorem perm_shuffle {α : Type} (xs us ys vs : List α) :
    ((xs ++ us) ++ (ys ++ vs)).Perm ((xs ++ ys) ++ (us ++ vs)) := by
  simp only [List.append_assoc]
  apply List.Perm.append_left xs
  rw [← List.append_assoc, ← List.append_assoc]
  exact List.perm_append_comm.append_right vs

/-- All blocks in use, with the blocks of one ring and of its callers first. -/
theorem perm_ring_first {n : Nat} (hn : s.containers.size ≤ n) (hr : r < n) (l rest : List UInt32) :
    (s.ringSlots k ++ (l ++ rest)).Perm
      ((s.slotsAt k r ++ l) ++ (s.otherSlots k r n ++ rest)) :=
  ((perm_ringSlots hn hr).append_right _).trans (perm_shuffle ..)

/-! ### Exchanges -/

namespace Exchanges

/-- A ring that the exchange is not about keeps its list and its blocks. -/
theorem other (h : Exchanges k s r l t l') (hs : s.Settled k) (ha : s.arenaAt k = some a)
    (hb : t.arenaAt k = some b) {common : List UInt32} (hab : a.SameBlocks b common) {r' : Nat}
    (hne : r' ≠ r) (hsub : s.slotsAt k r' ⊆ common) :
    (∀ p, s.placedAt r' = some p → p.nodes = k → ∀ ns vs, p.ring.Holds a ns vs →
      p.ring.Holds b ns vs) ∧ t.slotsAt k r' = s.slotsAt k r' := by
  have hpt := placedAt_congr (h.others r' hne)
  refine ⟨fun p hp hk ns vs hh => ?_, ?_⟩
  · exact (slotsAt_congr hp hk hh ha (hpt.trans hp) hb hab hsub).1
  · by_cases hex : ∃ p, s.placedAt r' = some p ∧ p.nodes = k
    · obtain ⟨p, hp, hk⟩ := hex
      obtain ⟨ns, vs, hh⟩ := hs.valid a ha r' p hp hk
      exact (slotsAt_congr hp hk hh ha (hpt.trans hp) hb hab hsub).2
    · have hnone : ∀ p, s.placedAt r' = some p → p.nodes ≠ k := fun p hp hk => hex ⟨p, hp, hk⟩
      rw [slotsAt_eq_nil hnone, slotsAt_eq_nil fun p hp => hnone p (hpt.symm.trans hp)]

theorem homed_all (h : Exchanges k s r l t l') (hs : s.Settled k) (r' : Nat) (p : Placed)
    (hp : t.placedAt r' = some p) : t.Homed p := by
  by_cases hr' : r' = r
  · exact h.homed p (hr' ▸ hp)
  · exact (hs.homed r' p (placedAt_congr (h.others r' hr') ▸ hp)).grown h.grown

/-- **An exchange settles the arena again, and the blocks in use stay accounted for.** -/
theorem settled (h : Exchanges k s r l t l') (hs : s.Settled k) (ha : s.arenaAt k = some a)
    (hc : a.Covered (s.ringSlots k ++ (l ++ rest))) : t.Settled k ∧
    ∃ b, t.arenaAt k = some b ∧ b.Covered (t.ringSlots k ++ (l' ++ rest)) ∧
      ∀ r' p, r' ≠ r → s.placedAt r' = some p → p.nodes = k → ∀ ns vs, p.ring.Holds a ns vs →
        p.ring.Holds b ns vs := by
  obtain ⟨n, hns, hnt, hr⟩ : ∃ n, s.containers.size ≤ n ∧ t.containers.size ≤ n ∧ r < n :=
    ⟨s.containers.size + t.containers.size + (r + 1), by omega, by omega, by omega⟩
  obtain ⟨b, hb, hvalid, hturns⟩ := h.arena a ha
  obtain ⟨hcov, hsame⟩ := hturns.covered _ (hc.perm (perm_ring_first hns hr l rest))
  have hother := fun (r' : Nat) (hne : r' ≠ r) => h.other hs ha hb hsame hne
    (List.subset_append_of_subset_left rest (slotsAt_subset_otherSlots hns hne))
  have hslots : t.otherSlots k r n = s.otherSlots k r n := by
    apply List.flatMap_congr
    intro r' hr'
    exact (hother r' (List.nodup_range.mem_erase_iff.1 hr').1).2
  refine ⟨⟨fun b' hb' => ?_, fun b' hb' r' p hp hk => ?_, h.homed_all hs⟩, b, hb, ?_,
    fun r' p hne => (hother r' hne).1 p⟩
  · obtain rfl := Option.some.inj (hb.symm.trans hb')
    exact hturns.sound (hs.sound a ha)
  · obtain rfl := Option.some.inj (hb.symm.trans hb')
    by_cases hne : r' = r
    · subst hne
      exact hvalid p hp hk
    · rw [placedAt_congr (h.others r' hne)] at hp
      obtain ⟨ns, vs, hh⟩ := hs.valid a ha r' p hp hk
      exact ⟨ns, vs, (hother r' hne).1 p hp hk ns vs hh⟩
  · apply hcov.perm
    rw [← hslots]
    exact (perm_ring_first hnt hr l' rest).symm

/-- An arena that is new has no block in use, and no ring is on it. -/
theorem settled_new (h : Exchanges k s r l t l') (hs : s.Settled k) (ha : s.arenaAt k = none) :
    t.Settled k ∧ ∀ b, t.arenaAt k = some b →
      b.New ∧ b.Covered (t.ringSlots k) := by
  have hhome : ∀ r' p, s.placedAt r' = some p → p.nodes ≠ k := by
    rintro r' p hp rfl
    have hlt := (hs.homed r' p hp).nodes
    rw [arenaAt, Array.getElem?_eq_getElem hlt] at ha
    cases ha
  obtain hb | ⟨b, hb, hnew, hplaced⟩ := h.absent ha
  · refine ⟨⟨fun b' hb' => ?_, fun b' hb' => ?_, h.homed_all hs⟩, fun b' hb' => ?_⟩
    all_goals
      rw [hb] at hb'
      cases hb'
  · have hsame : ∀ r', t.placedAt r' = s.placedAt r' := by
      intro r'
      by_cases hr' : r' = r
      · rw [hr', hplaced]
      · exact placedAt_congr (h.others r' hr')
    have hslots : t.ringSlots k = [] := by
      rw [ringSlots, List.flatMap_eq_nil_iff]
      intro r' _
      exact slotsAt_eq_nil fun p hp => hhome r' p ((hsame r').symm.trans hp)
    obtain ⟨id, capacity, blockSize, rfl, hlt⟩ := hnew
    refine ⟨⟨fun b' hb' => ?_, fun b' hb' r' p hp hk => ?_, h.homed_all hs⟩, fun b' hb' => ?_⟩
    · obtain rfl := Option.some.inj (hb.symm.trans hb')
      exact BlockArena.sound_fresh id blockSize hlt
    · exact absurd hk (hhome r' p ((hsame r').symm.trans hp))
    · obtain rfl := Option.some.inj (hb.symm.trans hb')
      refine ⟨⟨id, capacity, blockSize, rfl, hlt⟩, ?_⟩
      rw [hslots]
      refine ⟨List.nodup_nil, fun i => ?_⟩
      exact iff_of_false List.not_mem_nil (BlockArena.not_inUse_fresh id capacity blockSize)

end Exchanges

end Store

end FixedArena
