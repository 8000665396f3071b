import FixedArena.Proofs.Ring.Alike

/-!
Places of cursors. What a cursor knows of a ring is the node up next and how many there are from there
on. It knows this of the nodes as such: the arena that they are read from may change between two steps,
as long as the ring on it keeps its list.

Main facts:
* `Cursor.Faces`: the nodes ahead of a cursor;
* `Cursor.Faces.next_some`, `Cursor.Faces.next_end`: a step that can read the arena brings the value at
  the place of the cursor and moves one place on, or ends there;
* `Cursor.Faces.next_admitted`: both in one;
* `start_faces`: a cursor that starts beside readers has all nodes ahead.
-/

namespace FixedArena

namespace Ring

variable {α : Type} [Element α] {g : Guarded BlockArena} {r : Ring α} {ns : List UInt32} {vs : List α}
  {k : Nat}

namespace Cursor

variable {c : Cursor α} {head : UInt32} {l : List UInt32}

/-- The cursor has the nodes of a list ahead of it, and behind them the head. -/
structure Faces (c : Cursor α) (head : UInt32) (l : List UInt32) : Prop where
  remaining : c.remaining = l.length
  node : c.node = (l ++ [head]).head?

omit [Element α] in
theorem Faces.bounds_eq (h : c.Faces head l) : c.bounds = (l.length, l.length) := by
  rw [bounds, h.remaining]

theorem Leads.faces {a : BlockArena} (h : c.Leads a head l vs) : c.Faces head l := ⟨h.remaining, h.node⟩

/-- On a ring that holds a list, the values of the nodes ahead are the values ahead. -/
theorem Faces.leads (h : c.Faces r.head.index (ns.drop k)) (hh : r.Holds g.value ns vs) :
    c.Leads g.value r.head.index (ns.drop k) (vs.drop k) where
  remaining := h.remaining
  node := h.node
  chain := by
    have hc : (r.head.index :: ns ++ [r.head.index]).IsChain (Linked g.value) := hh.circle
    rcases Nat.le_total k ns.length with hk | hk
    · rw [← List.drop_append_of_le_length hk]
      exact hc.tail.suffix (List.drop_suffix ..)
    · rw [List.drop_eq_nil_of_le hk]
      exact List.IsChain.singleton _
  values := by rw [List.map_drop, List.map_drop, hh.values]

/-- **A step that can read the arena brings the value at the cursor's place.** -/
theorem Faces.next_some (h : c.Faces r.head.index (ns.drop k)) (hh : r.Holds g.value ns vs)
    (hf : g.hold.admits .shared = true) (hk : k < vs.length) : ∃ c' : Cursor α,
    c.next g = .ok (some vs[k], c') ∧ c'.Faces r.head.index (ns.drop (k + 1)) := by
  have hk' : k < ns.length := hh.length_eq ▸ hk
  have hleads := h.leads hh
  rw [List.drop_eq_getElem_cons hk', List.drop_eq_getElem_cons hk] at hleads
  obtain ⟨c', hnext, hc'⟩ := hleads.next_cons hf
  exact ⟨c', hnext, hc'.faces⟩

/-- Behind the last value a step ends, be the arena written to or not. -/
theorem Faces.next_end (h : c.Faces head []) (g : Guarded BlockArena) : c.next g = .ok (none, c) := by
  have h0 : c.remaining = 0 := h.remaining
  rw [next, if_pos h0]

/-- A step that can read the arena answers with what is at the place of the cursor, if there is anything. -/
theorem Faces.next_admitted (h : c.Faces r.head.index (ns.drop k)) (hh : r.Holds g.value ns vs)
    (hf : g.hold.admits .shared = true) : ∃ c' : Cursor α,
    c.next g = .ok (vs[k]?, c') ∧ c'.Faces r.head.index (ns.drop (k + 1)) := by
  by_cases hk : k < vs.length
  · rw [List.getElem?_eq_getElem hk]
    exact h.next_some hh hf hk
  · have hle : ns.length ≤ k := hh.length_eq ▸ Nat.le_of_not_lt hk
    rw [List.drop_eq_nil_of_le hle] at h
    rw [List.getElem?_eq_none (Nat.le_of_not_lt hk), List.drop_eq_nil_of_le (Nat.le_succ_of_le hle)]
    exact ⟨c, h.next_end g, h⟩

end Cursor

/-- **A cursor that starts beside readers has all nodes ahead.** -/
theorem start_faces {s : Site α} (h : s.Holds ns vs) (hf : s.nodes.hold.admits .shared = true) :
    ∃ c : Cursor α, start s = .ok c ∧ c.Faces s.ring.head.index ns := by
  obtain ⟨c, hstart, hc⟩ := start_ok h hf
  exact ⟨c, hstart, hc.faces⟩

end Ring

end FixedArena
