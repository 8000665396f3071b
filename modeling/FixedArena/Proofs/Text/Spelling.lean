import FixedArena.Proofs.Block.Cells
import FixedArena.Text.Pool
import Mathlib.Data.List.TakeWhile

/-!
Texts in cells of bytes. A text without NUL has no zero byte in its image, so that a zero byte
behind it marks its end whatever follows; and a text written over a part of a cell, with a zero byte
behind it, is what the cell then holds after the part that stands before.

Main facts:
* `zero_mem_bytes_iff`: a zero byte is the image of NUL;
* `before_patched`: the bytes before the first zero after a write;
* `getElem?_patched_last`: the last byte stays zero.
-/

namespace FixedArena

namespace Text

variable {t : String}

/-! ### Zero bytes -/

theorem toNat_val_lt (c : Char) : c.val.toNat < 1114112 := by
  have hvalid := c.valid
  simp only [UInt32.isValidChar, Nat.isValidChar] at hvalid
  omega

theorem zero_mem_utf8EncodeChar_iff (c : Char) : 0 ∈ String.utf8EncodeChar c ↔ c = '\x00' := by
  have hzero : c = '\x00' ↔ c.val.toNat = 0 := by
    rw [← Char.val_inj, ← UInt32.toNat_inj]
    rfl
  have hlt := toNat_val_lt c
  rw [hzero]
  unfold String.utf8EncodeChar
  dsimp only
  split_ifs with h₁ h₂ h₃ <;>
    simp only [List.mem_cons, List.not_mem_nil, or_false, ← UInt8.toNat_inj, UInt8.toNat_ofNat',
      UInt8.toNat_zero] <;>
    omega

/-- A zero byte is the image of NUL, and of nothing else. -/
theorem zero_mem_bytes_iff : 0 ∈ bytes t ↔ '\x00' ∈ t.toList := by
  rw [bytes, List.mem_flatMap]
  constructor
  · rintro ⟨c, hc, h0⟩
    rwa [(zero_mem_utf8EncodeChar_iff c).1 h0] at hc
  · intro h
    exact ⟨'\x00', h, (zero_mem_utf8EncodeChar_iff _).2 rfl⟩

end Text

namespace TextPool

variable {bytes kept : List UInt8} {offset : Nat}

/-! ### What a cell holds -/

/-- The bytes before the first zero, among all but the last. -/
def before (bytes : List UInt8) : List UInt8 := (bytes.take (bytes.length - 1)).takeWhile (· ≠ 0)

theorem zero_notMem_before : 0 ∉ before bytes := by
  intro h
  simpa using List.mem_takeWhile_imp h

theorem length_before_le (bytes : List UInt8) : (before bytes).length ≤ bytes.length - 1 := by
  have hle := (List.takeWhile_prefix (l := bytes.take (bytes.length - 1)) (· ≠ 0)).length_le
  rw [List.length_take] at hle
  exact hle.trans (Nat.min_le_left _ _)

/-- What stands behind the first zero byte is of no account. -/
theorem before_append_zero (hk : 0 ∉ kept) (rest : List UInt8) :
    before (kept ++ 0 :: rest) = kept := by
  have hlen : (kept ++ 0 :: rest).length - 1 = kept.length + rest.length := by simp
  have hpos : ∀ b ∈ kept, decide (b ≠ 0) = true := by
    intro b hb
    simpa using fun h0 : b = 0 => hk (h0 ▸ hb)
  rw [before, hlen, List.take_length_add_append, List.takeWhile_append_of_pos hpos]
  cases rest with
  | nil => simp
  | cons b rest => simp

/-- A cell with a zero byte is its text, a zero byte, and some rest. -/
theorem exists_rest (hz : 0 ∈ bytes) : ∃ rest, bytes = before bytes ++ 0 :: rest := by
  obtain ⟨kept, rest, hsplit, hk⟩ := List.eq_append_cons_of_mem hz
  refine ⟨rest, ?_⟩
  conv_rhs => rw [hsplit, before_append_zero hk]
  exact hsplit

/-- **What a cell holds after a text is written at an offset**, with a zero byte behind it: all that
stands before the offset, and the text. -/
theorem before_patched (hk : 0 ∉ kept) (hstart : 0 ∉ bytes.take offset) :
    before (Slab.patched bytes offset (kept ++ [0])) = bytes.take offset ++ kept := by
  have hsplit : Slab.patched bytes offset (kept ++ [0]) =
      (bytes.take offset ++ kept) ++ 0 :: bytes.drop (offset + (kept ++ [0]).length) := by
    simp [Slab.patched]
  rw [hsplit]
  refine before_append_zero (fun h => ?_) _
  rcases List.mem_append.1 h with h | h
  · exact hstart h
  · exact hk h

theorem getElem?_patched_last (hfit : offset + kept.length < bytes.length)
    (hlast : bytes[bytes.length - 1]? = some 0) :
    (Slab.patched bytes offset (kept ++ [0]))[bytes.length - 1]? = some 0 := by
  rw [Slab.getElem?_patched (by simp; omega)]
  split
  · next h =>
    rw [List.length_append, List.length_singleton] at h
    have hk : bytes.length - 1 - offset = kept.length := by omega
    rw [hk, List.getElem?_concat_length]
  · exact hlast

end TextPool

end FixedArena
