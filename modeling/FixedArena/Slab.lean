import FixedArena.Error
import FixedArena.Memory

/-!
Slabs: a memory of bytes, cut into cells of equal width. Reading and writing name a cell, an offset
into it and a number of bytes, and are refused if they would reach past the cell's end.

Main facts:
* `get_overwriteCell`: a write changes the bytes that it names and no other;
* `write_eq_ok_iff`: bytes can be written exactly if they come to lie inside a cell.
-/

namespace FixedArena

/-- Equal cells in one memory of bytes. -/
structure Slab where
  /-- Number of cells. -/
  count : Nat
  /-- Bytes of a cell. -/
  width : Nat
  bytes : Memory UInt8

namespace Slab

/-- A slab of zero bytes. -/
def zeros (count width : Nat) : Slab := ⟨count, width, .blank⟩

/-- The address of a byte of a cell. -/
def address (s : Slab) (cell offset : Nat) : Nat := cell * s.width + offset

/-- The bytes of a cell. -/
def cell (s : Slab) (i : Nat) : List UInt8 := s.bytes.slice (s.address i 0) s.width

/-- The range lies inside a cell of the slab. -/
def Inside (s : Slab) (cell offset len : Nat) : Prop :=
  cell < s.count ∧ offset + len ≤ s.width

instance (s : Slab) (cell offset len : Nat) : Decidable (s.Inside cell offset len) := by
  unfold Inside; infer_instance

/-- Some bytes of a cell. -/
def read (s : Slab) (cell offset len : Nat) : Except Error (List UInt8) :=
  if s.Inside cell offset len then .ok (s.bytes.slice (s.address cell offset) len)
  else .error (.pastEnd (offset + len) s.width)

/-- The slab with bytes written over a part of a cell. -/
def overwriteCell (s : Slab) (cell offset : Nat) (bs : List UInt8) : Slab :=
  { s with bytes := s.bytes.overwrite (s.address cell offset) bs }

/-- Writes bytes over a part of a cell. -/
def write (s : Slab) (cell offset : Nat) (bs : List UInt8) : Except Error Slab :=
  if s.Inside cell offset bs.length then .ok (s.overwriteCell cell offset bs)
  else .error (.pastEnd (offset + bs.length) s.width)

/-- The slab with every byte of a cell zero. -/
def clear (s : Slab) (cell : Nat) : Slab :=
  { s with bytes := s.bytes.wipe (s.address cell 0) (s.address cell s.width) }

@[simp] theorem count_overwriteCell (s : Slab) (cell offset : Nat) (bs : List UInt8) :
    (s.overwriteCell cell offset bs).count = s.count := rfl

@[simp] theorem width_overwriteCell (s : Slab) (cell offset : Nat) (bs : List UInt8) :
    (s.overwriteCell cell offset bs).width = s.width := rfl

@[simp] theorem count_clear (s : Slab) (cell : Nat) : (s.clear cell).count = s.count := rfl

@[simp] theorem width_clear (s : Slab) (cell : Nat) : (s.clear cell).width = s.width := rfl

theorem get_overwriteCell (s : Slab) (cell offset : Nat) (bs : List UInt8) (k : Nat) :
    (s.overwriteCell cell offset bs).bytes.get k =
      if s.address cell offset ≤ k then bs[k - s.address cell offset]?.getD (s.bytes.get k)
      else s.bytes.get k :=
  Memory.get_overwrite ..

theorem get_clear (s : Slab) (cell k : Nat) :
    (s.clear cell).bytes.get k =
      if s.address cell 0 ≤ k ∧ k < s.address cell s.width then 0 else s.bytes.get k :=
  Memory.get_wipe ..

theorem write_eq_ok_iff (s s' : Slab) (cell offset : Nat) (bs : List UInt8) :
    s.write cell offset bs = .ok s' ↔
      s.Inside cell offset bs.length ∧ s' = s.overwriteCell cell offset bs := by
  unfold write
  split <;> simp_all [eq_comm]

theorem count_write {s s' : Slab} {cell offset : Nat} {bs : List UInt8}
    (h : s.write cell offset bs = .ok s') : s'.count = s.count := by
  rw [((write_eq_ok_iff ..).1 h).2, count_overwriteCell]

end Slab

end FixedArena
