import FixedArena.Slab
import Mathlib.Data.List.Basic

/-!
The cells of a slab as lists of bytes: what a write or a clearing leaves in the cell that it names,
and that it leaves every other cell alone.

Main facts:
* `cell_overwriteCell`, `cell_clear`: the cells after a write, and after a clearing;
* `slice_eq_cell`: a range inside a cell is read from the cell's list;
* `BlankFrom`: no byte from some cell on was ever written.
-/

namespace FixedArena

namespace Slab

variable {s : Slab} {i j offset len : Nat} {bs : List UInt8}

@[simp] theorem length_cell : (s.cell i).length = s.width := Memory.length_slice ..

theorem getElem?_cell (k : Nat) :
    (s.cell i)[k]? = if k < s.width then some (s.bytes.get (i * s.width + k)) else none :=
  Memory.getElem?_slice ..

/-- Addresses of different cells are different. -/
theorem address_ne {w k l : Nat} (hij : i ≠ j) (hk : k < w) (hl : l < w) :
    i * w + k ≠ j * w + l := by
  intro h
  rcases Nat.lt_or_gt_of_ne hij with hlt | hlt
  · have : (i + 1) * w ≤ j * w := Nat.mul_le_mul_right w hlt
    rw [Nat.add_mul] at this
    omega
  · have : (j + 1) * w ≤ i * w := Nat.mul_le_mul_right w hlt
    rw [Nat.add_mul] at this
    omega

theorem slice_eq_cell (h : offset + len ≤ s.width) :
    s.bytes.slice (s.address i offset) len = ((s.cell i).drop offset).take len := by
  refine List.ext_getElem? fun k => ?_
  rw [Memory.getElem?_slice, List.getElem?_take, List.getElem?_drop, getElem?_cell]
  by_cases hk : k < len
  · have : offset + k < s.width := by omega
    simp [hk, this, address, Nat.add_assoc]
  · simp [hk]

theorem read_eq_ok (hi : i < s.count) (h : offset + len ≤ s.width) :
    s.read i offset len = .ok (((s.cell i).drop offset).take len) := by
  rw [read, if_pos ⟨hi, h⟩, slice_eq_cell h]

/-! ### Writing -/

/-- A list with another written over a part of it. -/
def patched (bytes : List UInt8) (offset : Nat) (bs : List UInt8) : List UInt8 :=
  bytes.take offset ++ bs ++ bytes.drop (offset + bs.length)

theorem getElem?_patched {bytes : List UInt8} (h : offset + bs.length ≤ bytes.length) (k : Nat) :
    (patched bytes offset bs)[k]? = if offset ≤ k ∧ k < offset + bs.length then bs[k - offset]?
      else bytes[k]? := by
  have hlen : (bytes.take offset).length = offset := by
    rw [List.length_take]
    omega
  unfold patched
  by_cases h1 : k < offset
  · rw [if_neg (by omega), List.append_assoc, List.getElem?_append_left (by omega),
      List.getElem?_take_of_lt h1]
  by_cases h2 : k < offset + bs.length
  · rw [if_pos (by omega), List.getElem?_append_left (by simp; omega),
      List.getElem?_append_right (by omega), hlen]
  · rw [if_neg (by omega), List.getElem?_append_right (by simp; omega), List.getElem?_drop,
      List.length_append, hlen]
    congr 1
    omega

/-- Reading back what was written. -/
theorem read_patched {bytes : List UInt8} (h : offset + bs.length ≤ bytes.length) :
    ((patched bytes offset bs).drop offset).take bs.length = bs := by
  refine List.ext_getElem? fun k => ?_
  rw [List.getElem?_take, List.getElem?_drop, getElem?_patched h]
  by_cases hk : k < bs.length
  · rw [if_pos hk, if_pos (by omega), Nat.add_sub_cancel_left]
  · rw [if_neg hk, List.getElem?_eq_none (by omega)]

/-- Reading beside what was written. -/
theorem read_patched_of_disjoint {bytes : List UInt8} {start : Nat}
    (h : offset + bs.length ≤ bytes.length)
    (hd : start + len ≤ offset ∨ offset + bs.length ≤ start) :
    ((patched bytes offset bs).drop start).take len = (bytes.drop start).take len := by
  refine List.ext_getElem? fun k => ?_
  simp only [List.getElem?_take, List.getElem?_drop, getElem?_patched h]
  by_cases hk : k < len
  · rw [if_pos hk, if_pos hk, if_neg (by omega)]
  · rw [if_neg hk, if_neg hk]

/-- **The cells after a write.** -/
theorem cell_overwriteCell (h : offset + bs.length ≤ s.width) :
    (s.overwriteCell i offset bs).cell j =
      if j = i then patched (s.cell i) offset bs else s.cell j := by
  refine List.ext_getElem? fun k => ?_
  rw [getElem?_cell, width_overwriteCell, get_overwriteCell]
  by_cases hk : k < s.width
  · by_cases hj : j = i
    · subst hj
      rw [if_pos rfl, getElem?_patched (by simpa using h), getElem?_cell, if_pos hk, if_pos hk,
        address]
      by_cases h1 : offset ≤ k
      · by_cases h2 : k < offset + bs.length
        · have : k - offset < bs.length := by omega
          rw [if_pos (by omega), if_pos ⟨h1, h2⟩, Nat.add_sub_add_left]
          simp [this]
        · have : bs.length ≤ k - offset := by omega
          rw [if_pos (by omega), if_neg (by omega), Nat.add_sub_add_left]
          simp [this]
      · rw [if_neg (by omega), if_neg (by omega)]
    · rw [if_neg hj, getElem?_cell, if_pos hk, if_pos hk, address]
      by_cases h1 : i * s.width + offset ≤ j * s.width + k
      · have : bs.length ≤ j * s.width + k - (i * s.width + offset) := by
          by_contra hlt
          have := address_ne (w := s.width) (l := j * s.width + k - i * s.width) hj hk (by omega)
          omega
        rw [if_pos h1]
        simp [this]
      · rw [if_neg h1]
  · rw [if_neg hk, List.getElem?_eq_none]
    split
    · have : (s.cell i).length = s.width := length_cell
      simp only [patched, List.length_append, List.length_take, List.length_drop]
      omega
    · simp; omega

/-- **The cells after a clearing.** -/
theorem cell_clear : (s.clear i).cell j = if j = i then List.replicate s.width 0 else s.cell j := by
  refine List.ext_getElem? fun k => ?_
  rw [getElem?_cell, width_clear, get_clear, address, address]
  by_cases hk : k < s.width
  · by_cases hj : j = i
    · subst hj
      rw [if_pos rfl, if_pos hk, if_pos (by omega)]
      simp [hk]
    · rw [if_neg hj, getElem?_cell, if_pos hk, if_pos hk, if_neg]
      intro hin
      have := address_ne (w := s.width) (l := j * s.width + k - i * s.width) hj hk (by omega)
      omega
  · rw [if_neg hk, List.getElem?_eq_none]
    split
    · simp; omega
    · simp; omega

/-! ### Cells that were never written to -/

/-- All cells from one on are all zeros. -/
def BlankFrom (s : Slab) (n : Nat) : Prop := ∀ j, n ≤ j → s.cell j = List.replicate s.width 0

theorem blankFrom_zeros (count width n : Nat) : (zeros count width).BlankFrom n := by
  intro j _
  refine List.ext_getElem? fun k => ?_
  rw [getElem?_cell, zeros, Memory.get_blank, List.getElem?_replicate]
  rfl

theorem BlankFrom.mono {m n : Nat} (hs : s.BlankFrom m) (h : m ≤ n) : s.BlankFrom n :=
  fun j hj => hs j (Nat.le_trans h hj)

theorem BlankFrom.overwriteCell {n : Nat} (hs : s.BlankFrom n) (hi : i < n)
    (h : offset + bs.length ≤ s.width) : (s.overwriteCell i offset bs).BlankFrom n := by
  intro j hj
  rw [cell_overwriteCell h, if_neg (Nat.ne_of_gt (Nat.lt_of_lt_of_le hi hj)), hs j hj]
  rfl

theorem BlankFrom.clear {n : Nat} (hs : s.BlankFrom n) (i : Nat) : (s.clear i).BlankFrom n := by
  intro j hj
  rw [cell_clear]
  split
  · rfl
  · exact hs j hj

end Slab

end FixedArena
