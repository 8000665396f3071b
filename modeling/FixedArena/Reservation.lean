import FixedArena.Word

/-!
Reserving an arena: the sizes that no arena can be reserved with. A failed reservation makes
nothing, so its fault is no refusal of an operation but a type of its own.

Sizes out of range are found before anything happens. That no memory is as large as the sizes ask
for is found only when the memory is taken, after the reservation was logged.
-/

namespace FixedArena

/-- The least number of bytes that no memory has: distances within a memory are signed words. -/
def memoryLimit : Nat := signedLimit

/-- Why an arena cannot be reserved. -/
inductive ReservationFault where
  /-- A block arena needs a block. -/
  | noBlocks
  /-- A block needs a byte. -/
  | emptyBlocks
  /-- The indices of the blocks do not fit a handle. -/
  | tooManyBlocks (capacity : Nat)
  /-- The bytes of all blocks are no machine word. -/
  | blocksOverflow (capacity blockSize : Nat)
  /-- A text pool needs a slot. -/
  | noSlots
  /-- A slot needs room for text. -/
  | emptySlots
  /-- An index would be the one that names no slot. -/
  | tooManySlots (slots : Nat)
  /-- The bytes of all slots are no machine word. -/
  | slotsOverflow (slots slotLen : Nat)
  /-- No memory has so many bytes. -/
  | beyondMemory (bytes : Nat)
  deriving DecidableEq, Repr

/-- The sentence that reports a fault. -/
def ReservationFault.message : ReservationFault → String
  | .noBlocks => "Capacity must be greater than zero"
  | .emptyBlocks => "Item size must be greater than zero"
  | .tooManyBlocks capacity => s!"Capacity {capacity} exceeds the handle range"
  | .blocksOverflow capacity blockSize =>
    s!"Pool of {capacity} x {blockSize} bytes overflows the address space"
  | .noSlots => "Slot count must be greater than zero"
  | .emptySlots => "String length must be greater than zero"
  | .tooManySlots slots => s!"Slot count {slots} collides with the none handle"
  | .slotsOverflow slots slotLen =>
    s!"String pool of {slots} x {slotLen} bytes overflows the address space"
  | .beyondMemory bytes => s!"No memory has {bytes} bytes"

end FixedArena
