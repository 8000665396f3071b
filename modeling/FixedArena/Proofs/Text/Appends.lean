import FixedArena.Proofs.Text.Variable

/-!
Adding a text to a slot, and copying one from slot to slot. Whether a text is written behind the one that is
there, or both are written together over the start of the slot, the same characters fit, and the same pool is
left, byte for byte. So it is whether bytes are copied between slots or the text that they spell is assigned.

Main facts:
* `Memory.overwrite_append`: values that are there already need not be written;
* `Text.clip_append`: what fits of a concatenation, told from what fits behind its first part;
* `TextPool.append_eq_assign`: adding a text does what assigning the concatenation does;
* `TextPool.copy_eq_assign`: copying a text does what reading and assigning it does.
-/

namespace FixedArena

/-! ### Values that are there already -/

namespace Memory

variable {α : Type} [Inhabited α] {start mid stop : Nat} {f f' : Nat → α}

theorem update_of_le (m : Memory α) (h : stop ≤ start) (f : Nat → α) : m.update start stop f = m := by
  rw [update, if_pos h]

theorem update_of_lt (m : Memory α) (h : start < stop) (f : Nat → α) : m.update start stop f =
    node (if start = 0 then f 0 else m.first)
      (m.odd.update (start / 2) (stop / 2) fun k => f (2 * k + 1))
      (m.even.update ((start - 1) / 2) ((stop - 1) / 2) fun k => f (2 * k + 2)) := by
  rw [update, if_neg (Nat.not_le_of_lt h)]

/-- Only the values at its addresses count for a change. -/
theorem update_congr (m : Memory α) (h : ∀ k, start ≤ k → k < stop → f k = f' k) :
    m.update start stop f = m.update start stop f' := by
  induction stop using Nat.strongRecOn generalizing m start f f' with
  | _ stop ih =>
    by_cases hle : stop ≤ start
    · rw [update_of_le m hle, update_of_le m hle]
    · have hfirst : (if start = 0 then f 0 else m.first) = if start = 0 then f' 0 else m.first := by
        split
        · next h0 => rw [h 0 (by omega) (by omega)]
        · rfl
      rw [update_of_lt m (Nat.lt_of_not_le hle), update_of_lt m (Nat.lt_of_not_le hle), hfirst,
        ih (stop / 2) (by omega) m.odd fun k _ _ => h (2 * k + 1) (by omega) (by omega),
        ih ((stop - 1) / 2) (by omega) m.even fun k _ _ => h (2 * k + 2) (by omega) (by omega)]

/-- Values that are there already may be left out of a change. Where a value differs from the default the
path to its address is there too, so that not even the tree is another one. -/
theorem update_kept (m : Memory α) (hstart : start ≤ mid) (hstop : mid ≤ stop)
    (h : ∀ k, start ≤ k → k < mid → f k = m.get k ∧ m.get k ≠ default) :
    m.update start stop f = m.update mid stop f := by
  induction stop using Nat.strongRecOn generalizing m start mid f with
  | _ stop ih =>
    rcases Nat.eq_or_lt_of_le hstart with rfl | hlt
    · rfl
    · cases m with
      | blank => exact absurd (get_blank start) (h start (Nat.le_refl _) hlt).2
      | node v odd even =>
        have hodd : odd.update (start / 2) (stop / 2) (fun k => f (2 * k + 1)) =
            odd.update (mid / 2) (stop / 2) fun k => f (2 * k + 1) := by
          refine ih (stop / 2) (by omega) odd (by omega) (by omega) fun k _ _ => ?_
          have hk := h (2 * k + 1) (by omega) (by omega)
          rwa [get_succ, if_pos (by omega), show 2 * k / 2 = k by omega] at hk
        have heven : even.update ((start - 1) / 2) ((stop - 1) / 2) (fun k => f (2 * k + 2)) =
            even.update ((mid - 1) / 2) ((stop - 1) / 2) fun k => f (2 * k + 2) := by
          refine ih ((stop - 1) / 2) (by omega) even (by omega) (by omega) fun k _ _ => ?_
          have hk := h (2 * k + 2) (by omega) (by omega)
          rwa [get_succ, if_neg (by omega), show (2 * k + 1) / 2 = k by omega] at hk
        have hfirst : (if start = 0 then f 0 else v) = v := by
          split
          · next h0 => exact (h 0 (by omega) (by omega)).1
          · rfl
        rw [update_of_lt _ (by omega), first_node, hfirst, odd_node, even_node, hodd, heven]
        rcases Nat.eq_or_lt_of_le hstop with rfl | hmid
        · rw [update_of_le _ (Nat.le_refl _), update_of_le _ (Nat.le_refl _),
            update_of_le _ (Nat.le_refl _)]
        · rw [update_of_lt _ hmid, first_node, if_neg (by omega), odd_node, even_node]

/-- **Values that are there already need not be written.** -/
theorem overwrite_append (m : Memory α) {start : Nat} {vs : List α} (ws : List α)
    (h : ∀ j (hj : j < vs.length), m.get (start + j) = vs[j]) (hne : default ∉ vs) :
    m.overwrite start (vs ++ ws) = m.overwrite (start + vs.length) ws := by
  let f (k : Nat) : α := (vs ++ ws).toArray.getD (k - start) default
  have hkept : ∀ k, start ≤ k → k < start + vs.length → f k = m.get k ∧ m.get k ≠ default := by
    intro k hk hk'
    obtain ⟨j, rfl⟩ := Nat.exists_eq_add_of_le hk
    have hj : j < vs.length := by omega
    have hget := h j hj
    refine ⟨?_, fun h0 => hne (h0 ▸ hget ▸ List.getElem_mem hj)⟩
    simp only [f, Array.getD_eq_getD_getElem?, List.getElem?_toArray, Nat.add_sub_cancel_left]
    rw [List.getElem?_append_left hj, List.getElem?_eq_getElem hj, hget]
    rfl
  have hnew : ∀ k, start + vs.length ≤ k → k < start + (vs ++ ws).length →
      f k = ws.toArray.getD (k - (start + vs.length)) default := by
    intro k hk _
    have hle : vs.length ≤ k - start := by omega
    simp only [f, Array.getD_eq_getD_getElem?, List.getElem?_toArray]
    rw [List.getElem?_append_right hle, Nat.sub_sub]
  calc m.overwrite start (vs ++ ws)
      = m.update start (start + (vs ++ ws).length) f := rfl
    _ = m.update (start + vs.length) (start + (vs ++ ws).length) f := by
        refine update_kept m (Nat.le_add_right ..) ?_ hkept
        rw [List.length_append]
        omega
    _ = m.update (start + vs.length) (start + (vs ++ ws).length)
          (fun k => ws.toArray.getD (k - (start + vs.length)) default) := update_congr m hnew
    _ = m.overwrite (start + vs.length) ws := by
        rw [List.length_append, ← Nat.add_assoc]
        rfl

end Memory

/-! ### What fits of a concatenation -/

namespace Text

theorem takeFitting_append {cs ds : List Char} {room : Nat}
    (h : (cs.flatMap String.utf8EncodeChar).length ≤ room) : takeFitting room (cs ++ ds) =
      cs ++ takeFitting (room - (cs.flatMap String.utf8EncodeChar).length) ds := by
  induction cs generalizing room with
  | nil => rfl
  | cons c cs ih =>
    rw [List.flatMap_cons, List.length_append, String.length_utf8EncodeChar] at h ⊢
    rw [List.cons_append, takeFitting, if_pos (by omega), ih (by omega), Nat.sub_sub, List.cons_append]

/-- **What fits of a concatenation**: its first part, if that has no NUL and fits, and what fits behind
it. -/
theorem clip_append {s : String} {room : Nat} (hnul : '\x00' ∉ s.toList)
    (hfit : (bytes s).length ≤ room) (t : String) :
    clip (s ++ t) room = s ++ clip t (room - (bytes s).length) := by
  rw [clip, String.toList_append, List.takeWhile_append_of_pos (ne_nul_of_notMem hnul),
    takeFitting_append hfit, String.ofList_append, String.ofList_toList]
  rfl

end Text

/-! ### Adding and assigning -/

namespace TextPool

variable {p : TextPool} {h : TextHandle} {e : Entry} (hp : p.Tidy) (hf : p.catalog.find h = some e)

include hp hf

/-- The text that a slot holds may be written once more. -/
theorem putText_again (bs : List UInt8) : p.putText h.index.toNat 0 (Text.bytes e.text ++ bs) =
    p.putText h.index.toNat (Text.bytes e.text).length bs := by
  obtain ⟨rest, hcell⟩ := cell_of_find hp hf
  have hget : ∀ j (hj : j < (Text.bytes e.text).length),
      p.slab.bytes.get (p.slab.address h.index.toNat 0 + j) = (Text.bytes e.text)[j] := by
    intro j hj
    have hle := length_text_le hp hf
    have hwidth := hp.maxLen_lt
    have hcell' := congrArg (·[j]?) hcell
    rw [Slab.getElem?_cell, if_pos (by omega), List.getElem?_append_left hj,
      List.getElem?_eq_getElem hj] at hcell'
    exact Option.some.inj hcell'
  have hzero : (default : UInt8) ∉ Text.bytes e.text := by
    rw [show (default : UInt8) = 0 from rfl, Text.zero_mem_bytes_iff]
    exact noNul_text hp hf
  unfold putText Slab.overwriteCell
  rw [Memory.overwrite_append _ bs hget hzero]
  rfl

/-- Assigning writes what fits, and a zero byte. -/
theorem assign_put (t : String) : assign h t p =
    ⟨.ok (Text.bytes (Text.clip t p.maxLen)).length,
      p.putText h.index.toNat 0 (Text.bytes (Text.clip t p.maxLen) ++ [0]), []⟩ := by
  have hwidth := hp.maxLen_lt
  have hlt : h.index.toNat < p.capacity := (Array.getElem?_eq_some_iff.1 (slot_of_find hf)).1
  have hfit := Text.length_bytes_clip_le t p.maxLen
  refine (Act.get_bind _ p).trans ((locate_bind_some hf _).trans ?_)
  exact Act.bind_ok (writeBytes_ok hlt (by simp; omega))

/-- **Adding a text does what assigning the concatenation does**: the answer is the same, and so is the pool
that is left. -/
theorem append_eq_assign (t : String) : append h t p = assign h (e.text ++ t) p := by
  have hle := length_text_le hp hf
  have hwidth := hp.maxLen_lt
  have hlt : h.index.toNat < p.capacity := (Array.getElem?_eq_some_iff.1 (slot_of_find hf)).1
  have hfit := Text.length_bytes_clip_le t (p.maxLen - (Text.bytes e.text).length)
  have happend : append h t p = ⟨.ok ((Text.bytes e.text).length +
        (Text.bytes (Text.clip t (p.maxLen - (Text.bytes e.text).length))).length),
      p.putText h.index.toNat (Text.bytes e.text).length
        (Text.bytes (Text.clip t (p.maxLen - (Text.bytes e.text).length)) ++ [0]), []⟩ := by
    refine (Act.get_bind _ p).trans ((locate_bind_some hf _).trans ?_)
    rw [hp.content_eq_bytes (entries_of_find hf)]
    exact Act.bind_ok (writeBytes_ok hlt (by simp; omega))
  -- What assigning writes begins with the text that is there, so it may start behind it.
  rw [happend, assign_put hp hf, Text.clip_append (noNul_text hp hf) hle, Text.bytes_append,
    List.length_append, List.append_assoc, putText_again hp hf]

/-- **Copying a text does what reading and assigning it does.** The bytes that are copied, up to the zero
byte, are those of a text that fits, so nothing is cut off when it is assigned. -/
theorem copy_eq_assign {source : TextHandle} {e' : Entry} (hf' : p.catalog.find source = some e') :
    copy h source p = assign h e'.text p := by
  have hle := length_text_le hp hf'
  have hwidth := hp.maxLen_lt
  have hlt : h.index.toNat < p.capacity := (Array.getElem?_eq_some_iff.1 (slot_of_find hf)).1
  rw [assign_put hp hf, Text.clip_eq_self (noNul_text hp hf') hle]
  exact copy_writes hp hf hf' (writeBytes_ok hlt (by simp; omega))

end TextPool

end FixedArena
