import FixedArena.Proofs.Ring.Linking

/-!
What a ring holds. A ring on an arena represents a list of values: its head and its nodes are blocks
in use, all different, linked to a circle, and the nodes hold the values in order.

Main facts:
* `Holds.congr`: a ring is not touched by what happens to other blocks;
* `Holds.linkedIn`, `Holds.linkedOut`, `Holds.putValue`: a value comes, goes, or is replaced;
* `Holds.slots_eq`: the blocks of a ring are found by walking round.
-/

namespace FixedArena

namespace Ring

variable {α : Type} [Element α] {a b : BlockArena} {r : Ring α} {ns : List UInt32} {vs : List α}

/-- The ring's nodes on an arena hold the values of a list, in order. -/
structure Holds (r : Ring α) (a : BlockArena) (ns : List UInt32) (vs : List α) : Prop where
  wide : nodeSize α ≤ a.blockSize
  head : a.Accepts r.head
  used : ∀ i ∈ ns, a.InUse i
  nodup : (r.head.index :: ns).Nodup
  circle : Circle a r.head.index ns
  values : ns.map (valueOf a) = vs.map Except.ok
  len : r.len = ns.length

/-- The nodes met on so many steps from a node on, as far as they can be read. -/
def walk (a : BlockArena) : Nat → UInt32 → List UInt32
  | 0, x => [x]
  | n + 1, x => x ::
    match linkOf a x .next with
    | .ok y => walk a n y
    | .error _ => []

/-- The blocks of a ring, head first, as they are found by walking round. -/
def slots (r : Ring α) (a : BlockArena) : List UInt32 := walk a r.len r.head.index

namespace Holds

theorem length_eq (h : r.Holds a ns vs) : vs.length = ns.length := by
  simpa using congrArg List.length h.values.symm

theorem len_eq (h : r.Holds a ns vs) : r.len = vs.length := h.len.trans h.length_eq.symm

theorem links_fit (h : r.Holds a ns vs) : linkBytes ≤ a.blockSize := linkBytes_le h.wide

theorem inUse (h : r.Holds a ns vs) {i : UInt32} (hi : i ∈ r.head.index :: ns) : a.InUse i := by
  rcases List.mem_cons.1 hi with rfl | hi
  · exact h.head.inUse
  · exact h.used i hi

/-- **A ring is not touched by what happens to other blocks.** -/
theorem congr (h : r.Holds a ns vs) {l : List UInt32} (hab : a.SameBlocks b l)
    (hl : r.head.index :: ns ⊆ l) : r.Holds b ns vs where
  wide := hab.blockSize ▸ h.wide
  head := hab.accepts (hl List.mem_cons_self) h.head
  used i hi := (hab.inUse_iff (hl (List.mem_cons_of_mem _ hi))).2 (h.used i hi)
  nodup := h.nodup
  circle := h.circle.congr hab hl
  values := by
    rw [← h.values]
    exact List.map_congr_left fun i hi => hab.valueOf (hl (List.mem_cons_of_mem _ hi))
  len := h.len

/-! ### Coming and going of values -/

section Change

variable {side : Side} {i : UInt32} {rest : FreeList} {v : α}

/-- The head of a ring and its nodes are different, with one node more at an end. -/
theorem nodup_add (h : r.Holds a ns vs) (side : Side) (hi : i ∉ r.head.index :: ns) :
    (r.head.index :: side.add i ns).Nodup :=
  (side.perm_cons_add _).nodup_iff.1 (List.nodup_cons.2 ⟨hi, h.nodup⟩)

/-- **A value comes at an end.** -/
theorem linkedIn (h : r.Holds a ns vs) (hs : a.Sound) (hn : a.freeList.next? = some (i, rest)) :
    Holds ⟨r.head, r.len + 1⟩ (Ring.linkedIn a i rest (side.before r.head.index ns)
      (side.behind r.head.index ns) v) (side.add i ns) (side.add v vs) := by
  have hp := h.inUse (side.before_mem r.head.index ns)
  have hq := h.inUse (side.behind_mem r.head.index ns)
  have hi : i ∉ r.head.index :: ns := fun hm => (hs.of_next? hn).2 (h.inUse hm)
  have hnd := h.nodup_add side hi
  refine ⟨h.wide, accepts_linkedIn hs hn h.head, fun j hj => ?_, hnd,
    circle_linkedIn hs hn h.wide h.circle (fun j hj => h.inUse hj) hnd, ?_, ?_⟩
  · exact (inUse_linkedIn hs hn).2 ((side.mem_add.1 hj).imp_right (h.used j))
  · rw [side.map_add, side.map_add, valueOf_linkedIn hs hn h.wide hp hq, if_pos rfl, ← h.values]
    congr 1
    apply List.map_congr_left
    intro j hj
    have hji : j ≠ i := fun hji => hi (hji ▸ List.mem_cons_of_mem _ hj)
    rw [valueOf_linkedIn hs hn h.wide hp hq, if_neg hji]
  · rw [side.length_add, h.len]

/-- **The value at an end goes.** -/
theorem linkedOut (h : r.Holds a (side.add i ns) (side.add v vs)) :
    Holds ⟨r.head, r.len - 1⟩ (Ring.linkedOut a i (side.before r.head.index ns)
      (side.behind r.head.index ns)) ns vs := by
  have hu : ∀ j ∈ r.head.index :: ns, a.InUse j := fun j hj => h.inUse (side.subset_add _ hj)
  have hnd : (i :: r.head.index :: ns).Nodup := (side.perm_cons_add _).nodup_iff.2 h.nodup
  obtain ⟨hi, hnd'⟩ := List.nodup_cons.1 hnd
  have hne : ∀ j ∈ r.head.index :: ns, j ≠ i := fun j hj hji => hi (hji ▸ hj)
  have hp := hu _ (side.before_mem r.head.index ns)
  have hq := hu _ (side.behind_mem r.head.index ns)
  refine ⟨h.wide, accepts_linkedOut h.head (hne _ List.mem_cons_self), fun j hj => ?_, hnd',
    circle_linkedOut h.links_fit h.circle hu h.nodup, ?_, ?_⟩
  · have hj' := List.mem_cons_of_mem r.head.index hj
    exact inUse_linkedOut.2 ⟨hne j hj', hu j hj'⟩
  · have hv := h.values
    rw [side.map_add, side.map_add, side.add_inj] at hv
    rw [← hv.2]
    apply List.map_congr_left
    intro j hj
    exact valueOf_linkedOut h.wide hp hq (hne j (List.mem_cons_of_mem _ hj))
  · have hlen := h.len
    rw [side.length_add] at hlen
    change r.len - 1 = ns.length
    omega

/-- The nodes at both ends of a ring that is not empty, and their value. -/
theorem exists_entry (h : r.Holds a ns vs) (side : Side) (hne : vs ≠ []) : ∃ i ns' v vs',
    ns = side.add i ns' ∧ vs = side.add v vs' := by
  have hns : ns ≠ [] := fun hn => hne (List.length_eq_zero_iff.1 (by rw [h.length_eq, hn]; rfl))
  obtain ⟨i, ns', rfl⟩ := side.exists_eq_add hns
  obtain ⟨v, vs', rfl⟩ := side.exists_eq_add hne
  exact ⟨i, ns', v, vs', rfl, rfl⟩

/-- The value at an end is read from the node at that end. -/
theorem valueOf_entry {vs : List α} (h : r.Holds a (side.add i ns) (side.add v vs)) :
    valueOf a i = .ok v := by
  have hv := h.values
  rw [side.map_add, side.map_add, side.add_inj] at hv
  exact hv.1

theorem valueOf_getElem (h : r.Holds a ns vs) {k : Nat} (hn : k < ns.length) (hv : k < vs.length) :
    valueOf a ns[k] = .ok vs[k] := by
  have := congrArg (·[k]?) h.values
  simpa [hn, hv] using this

/-- **A value is replaced.** -/
theorem putValue (h : r.Holds a ns vs) {k : Nat} (hn : k < ns.length) :
    r.Holds (a.putValue ns[k] v) ns (vs.set k v) := by
  have hk : a.InUse ns[k] := h.used _ (List.getElem_mem hn)
  refine ⟨h.wide, h.head.put, h.used, h.nodup, ?_, ?_, h.len⟩
  · refine isChain_of_links h.circle (fun x _ => ?_) fun y _ => ?_
    · exact linkOf_putValue hk h.wide
    · exact linkOf_putValue hk h.wide
  · have hnd := (List.nodup_cons.1 h.nodup).2
    apply List.ext_getElem (by simp [h.length_eq])
    intro m hm hm'
    simp only [List.length_map, List.length_set] at hm hm'
    rw [List.getElem_map, List.getElem_map, List.getElem_set, valueOf_putValue hk h.wide]
    by_cases hkm : k = m
    · simp [hkm]
    · have hne : ns[m] ≠ ns[k] := fun he => hkm ((List.Nodup.getElem_inj_iff hnd).1 he).symm
      rw [if_neg hne, if_neg hkm, h.valueOf_getElem hm hm']

end Change

/-! ### Walking round -/

theorem walk_eq {x : UInt32} {l : List UInt32} (hc : (x :: l).IsChain (Linked a)) :
    walk a l.length x = x :: l := by
  induction l generalizing x with
  | nil => rfl
  | cons y l ih =>
    rw [List.isChain_cons_cons] at hc
    rw [List.length_cons, walk, hc.1.1]
    exact congrArg (x :: ·) (ih hc.2)

/-- **The blocks of a ring are found by walking round.** -/
theorem slots_eq (h : r.Holds a ns vs) : r.slots a = r.head.index :: ns := by
  have hc : (r.head.index :: ns ++ [r.head.index]).IsChain (Linked a) := h.circle
  rw [slots, h.len]
  exact walk_eq (List.IsChain.left_of_append hc)

end Holds

end Ring

end FixedArena
