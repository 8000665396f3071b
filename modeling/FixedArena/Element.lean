import FixedArena.Text.Handle

/-!
Elements: the types of value that a ring can store. A value is kept as a fixed number of bytes, its
image. Numbers are little-endian; signed numbers are in two's complement; floating-point numbers
are their bit patterns.

Main facts:
* `ofBytes_toBytes`: a number is read back from its bytes;
* every instance of `Element` carries the proof that values are read back from their images.
-/

namespace FixedArena

/-! ### Little-endian numbers -/

namespace LittleEndian

/-- The lowest bytes of a number, lowest first. -/
def toBytes : Nat → Nat → List UInt8
  | 0, _ => []
  | width + 1, n => UInt8.ofNat n :: toBytes width (n / 256)

/-- The number with the given bytes, lowest first. -/
def ofBytes : List UInt8 → Nat
  | [] => 0
  | b :: bs => b.toNat + 256 * ofBytes bs

@[simp] theorem length_toBytes (width n : Nat) : (toBytes width n).length = width := by
  induction width generalizing n with
  | zero => rfl
  | succ width ih => simp [toBytes, ih]

theorem ofBytes_toBytes (width n : Nat) :
    ofBytes (toBytes width n) = n % 1 <<< (8 * width) := by
  induction width generalizing n with
  | zero => simp [toBytes, ofBytes, Nat.mod_one]
  | succ width ih =>
    have h : 1 <<< (8 * (width + 1)) = 256 * 1 <<< (8 * width) := by
      rw [Nat.one_shiftLeft, Nat.one_shiftLeft, Nat.mul_add, Nat.pow_add, Nat.mul_comm]
    rw [toBytes, ofBytes, ih, h, Nat.mod_mul]
    simp

end LittleEndian

/-! ### Images -/

/-- A type whose values have images of one width, from which they are read back. -/
class Element (α : Type) where
  /-- Bytes of an image. -/
  width : Nat
  encode : α → List UInt8
  decode : List UInt8 → α
  length_encode : ∀ v, (encode v).length = width
  decode_encode : ∀ v, decode (encode v) = v

attribute [simp] Element.length_encode Element.decode_encode

instance (width : Nat) : Element (BitVec (8 * width)) where
  width := width
  encode v := LittleEndian.toBytes width v.toNat
  decode bs := BitVec.ofNat _ (LittleEndian.ofBytes bs)
  length_encode v := by simp
  decode_encode v := by
    have h : v.toNat < 1 <<< (8 * width) := Nat.one_shiftLeft _ ▸ v.isLt
    rw [LittleEndian.ofBytes_toBytes, Nat.mod_eq_of_lt h, BitVec.ofNat_toNat, BitVec.setWidth_eq]

instance : Element UInt32 where
  width := 4
  encode v := LittleEndian.toBytes 4 v.toNat
  decode bs := UInt32.ofNat (LittleEndian.ofBytes bs)
  length_encode v := by simp
  decode_encode v := by
    have h : v.toNat < 1 <<< (8 * 4) := v.toNat_lt
    rw [LittleEndian.ofBytes_toBytes, Nat.mod_eq_of_lt h, UInt32.ofNat_toNat]

instance : Element Unit where
  width := 0
  encode _ := []
  decode _ := ()
  length_encode _ := rfl
  decode_encode _ := rfl

instance (width : Nat) : Element (Vector UInt8 width) where
  width := width
  encode v := v.toList
  decode bs := Vector.ofFn fun i => bs.getD i 0
  length_encode v := by simp
  decode_encode v := by
    ext i hi
    simp

instance : Element TextHandle where
  width := 4
  encode h := LittleEndian.toBytes 2 h.pool.toNat ++ LittleEndian.toBytes 2 h.index.toNat
  decode bs :=
    ⟨UInt16.ofNat (LittleEndian.ofBytes (bs.take 2)),
      UInt16.ofNat (LittleEndian.ofBytes (bs.drop 2))⟩
  length_encode h := by simp
  decode_encode h := by
    have hp : h.pool.toNat < 1 <<< (8 * 2) := h.pool.toNat_lt
    have hi : h.index.toNat < 1 <<< (8 * 2) := h.index.toNat_lt
    simp only [List.take_left', List.drop_left', LittleEndian.length_toBytes,
      LittleEndian.ofBytes_toBytes, Nat.mod_eq_of_lt hp, Nat.mod_eq_of_lt hi, UInt16.ofNat_toNat]

/-! ### The types that rings are made for -/

/-- The element types that a caller can name. -/
inductive ElementType where
  /-- Whole numbers from zero on, of the given number of bytes. -/
  | unsigned (width : Nat)
  /-- Whole numbers in two's complement, of the given number of bytes. -/
  | signed (width : Nat)
  /-- Floating-point numbers as bit patterns, of the given number of bytes. -/
  | float (width : Nat)
  /-- Byte strings of the given length. -/
  | bytes (length : Nat)
  /-- The type with a single value. -/
  | unit
  /-- Handles of text slots. -/
  | handle
  deriving DecidableEq, Repr

namespace ElementType

/-- The values of an element type. A signed number is kept as the bits that represent it. -/
def Value : ElementType → Type
  | .unsigned width | .signed width | .float width => BitVec (8 * width)
  | .bytes length => Vector UInt8 length
  | .unit => Unit
  | .handle => TextHandle

instance (t : ElementType) : Element t.Value :=
  match t with
  | .unsigned width | .signed width | .float width =>
    inferInstanceAs (Element (BitVec (8 * width)))
  | .bytes length => inferInstanceAs (Element (Vector UInt8 length))
  | .unit => inferInstanceAs (Element Unit)
  | .handle => inferInstanceAs (Element TextHandle)

end ElementType

end FixedArena
