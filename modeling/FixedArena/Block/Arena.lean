import FixedArena.Act
import FixedArena.Block.FreeList
import FixedArena.Block.Handle
import FixedArena.Reservation
import FixedArena.Slab

/-!
Block arenas: a fixed number of blocks of equal size, handed out and taken back through handles.
Freed blocks are handed out again last in, first out; a block is all zeros when it is handed out.
Every free raises the slot's generation, so old handles of the slot are told from the current one.

Main facts:
* `locate_eq_ok_iff`: which handles an arena accepts;
* `allocate_full`, `allocate_ok`, `free_error`, `free_ok`: the effect of the two operations.
-/

namespace FixedArena

/-- What an arena knows of a block besides its bytes. -/
structure BlockArena.Slot where
  /-- The block is handed out. -/
  used : Bool := false
  /-- How often the block was freed, up to wrapping round. -/
  generation : UInt32 := 0
  deriving DecidableEq, Repr

instance : Inhabited BlockArena.Slot := ⟨{}⟩

/-- A fixed number of blocks of equal size. -/
structure BlockArena where
  /-- The identity that handles of this arena carry. -/
  id : UInt32
  /-- The bytes of the blocks. -/
  slab : Slab
  slots : Memory BlockArena.Slot
  /-- The blocks that can be handed out, next one first. -/
  freeList : FreeList
  /-- Blocks handed out at present. -/
  live : Nat
  /-- The most blocks that were ever handed out at once. -/
  peak : Nat

namespace BlockArena

/-- The name of block arenas in reports of exhaustion. -/
def kind : String := "allocator"

/-- An arena with all blocks free and all bytes zero. -/
def fresh (id : UInt32) (capacity blockSize : Nat) : BlockArena where
  id := id
  slab := Slab.zeros capacity blockSize
  slots := .blank
  freeList := .fresh capacity
  live := 0
  peak := 0

/-- The sizes are in range, or the first of them that is not. -/
def checkSizes (capacity blockSize : Nat) : Except ReservationFault Unit :=
  if capacity = 0 then .error .noBlocks
  else if blockSize = 0 then .error .emptyBlocks
  else if capacity ≥ indexLimit then .error (.tooManyBlocks capacity)
  else if capacity * blockSize ≥ wordLimit then .error (.blocksOverflow capacity blockSize)
  else .ok ()

/-- Reserves an arena with all blocks free. -/
def reserve {σ : Type} (id : UInt32) (capacity blockSize : Nat) :
    Act ReservationFault σ BlockArena := do
  Act.read fun _ => checkSizes capacity blockSize
  Act.log (.blocksReserved capacity blockSize)
  if capacity * blockSize ≥ memoryLimit then
    Act.fail (.beyondMemory (capacity * blockSize))
  else
    return fresh id capacity blockSize

/-! ### Counts -/

/-- Number of blocks. -/
def capacity (a : BlockArena) : Nat := a.slab.count

/-- Bytes of a block. -/
def blockSize (a : BlockArena) : Nat := a.slab.width

/-- Blocks that are free. -/
def available (a : BlockArena) : Nat := a.capacity - a.live

/-- No block is free. -/
def isFull (a : BlockArena) : Bool := a.live = a.capacity

/-! ### Handles -/

/-- What the arena knows of a block, if it has one of this number. -/
def slot? (a : BlockArena) (i : Nat) : Option Slot :=
  if i < a.capacity then some (a.slots.get i) else none

/-- The slot that a handle names, if the arena accepts the handle: it is one of its own, of the
slot's current generation, and the block is in use. -/
def locate (a : BlockArena) (h : BlockHandle) : Except Error Nat :=
  if h.arena ≠ a.id then .error (.foreign h.index)
  else
    match a.slot? h.index.toNat with
    | none => .error (.foreign h.index)
    | some slot =>
      if slot.generation ≠ h.generation then
        .error (.stale h.index h.generation slot.generation)
      else if slot.used then .ok h.index.toNat
      else .error (.foreign h.index)

/-- The arena accepts the handle. -/
def contains (a : BlockArena) (h : BlockHandle) : Bool := (a.locate h).toBool

/-- The current handle of a slot in use. -/
def currentHandle (a : BlockArena) (index : UInt32) : Except Error BlockHandle :=
  match a.slot? index.toNat with
  | some slot => if slot.used then .ok ⟨a.id, index, slot.generation⟩ else .error (.foreign index)
  | none => .error (.foreign index)

/-! ### Handing out and taking back -/

/-- The arena after the block of slot `index` is handed out, with `rest` left to hand out. -/
def handOut (a : BlockArena) (index : UInt32) (rest : FreeList) : BlockArena where
  id := a.id
  slab := a.slab.clear index.toNat
  slots := a.slots.set index.toNat { a.slots.get index.toNat with used := true }
  freeList := rest
  live := a.live + 1
  peak := max a.peak (a.live + 1)

/-- The arena after the block of slot `index` is taken back. -/
def takeBack (a : BlockArena) (index : UInt32) : BlockArena where
  id := a.id
  slab := a.slab
  slots := a.slots.set index.toNat
    { used := false, generation := (a.slots.get index.toNat).generation + 1 }
  freeList := a.freeList.push index
  live := a.live - 1
  peak := a.peak

/-- The generation of a slot. -/
def generation (a : BlockArena) (index : UInt32) : UInt32 :=
  (a.slots.get index.toNat).generation

/-- Hands out a block, all zeros. -/
def allocate : Act Error BlockArena BlockHandle := fun a =>
  match a.freeList.next? with
  | none => ⟨.error (.full kind a.capacity), a, [.blocksExhausted a.capacity]⟩
  | some (index, rest) =>
    ⟨.ok ⟨a.id, index, a.generation index⟩, a.handOut index rest,
      if a.peak < a.live + 1 then [.blocksPeak (a.live + 1)] else []⟩

/-- Takes a block back. Its bytes stay until it is handed out again. -/
def free (h : BlockHandle) : Act Error BlockArena Unit := fun a =>
  match a.locate h with
  | .error e => ⟨.error e, a, [.blockNotFreed e]⟩
  | .ok _ => ⟨.ok (), a.takeBack h.index, []⟩

/-! ### Bytes -/

/-- Some bytes of a block. -/
def read (a : BlockArena) (h : BlockHandle) (offset len : Nat) : Except Error (List UInt8) := do
  let slot ← a.locate h
  a.slab.read slot offset len

/-- All bytes of a block. -/
def block (a : BlockArena) (h : BlockHandle) : Except Error (List UInt8) :=
  a.read h 0 a.blockSize

/-- Writes bytes over a part of a block. -/
def write (h : BlockHandle) (offset : Nat) (bs : List UInt8) : Act Error BlockArena Unit := fun a =>
  match a.locate h with
  | .error e => ⟨.error e, a, []⟩
  | .ok slot =>
    match a.slab.write slot offset bs with
    | .error e => ⟨.error e, a, []⟩
    | .ok slab => ⟨.ok (), { a with slab }, []⟩

/-- Gives every byte of a block the same value. -/
def fill (h : BlockHandle) (b : UInt8) : Act Error BlockArena Unit := fun a =>
  write h 0 (List.replicate a.blockSize b) a

/-! ### Reports -/

/-- One line with the blocks in use and the most that ever were. -/
def usage (a : BlockArena) : List String :=
  [s!"Allocator: num taken = {a.live}, max num taken = {a.peak}"]

/-- The line of a block in the list of all blocks. -/
def layoutLine (a : BlockArena) (index : Nat) (slot : Slot) : String :=
  let state := if slot.used then "taken" else "free"
  s!"  [{index}] +{index * a.blockSize} {state}"

/-- A line for every block, after a heading. Where the memory lies stays out of reports. -/
def layout (a : BlockArena) : List String :=
  ["Allocator: Pool address = <addr>", "Allocator: Taken address = <addr>",
    "Allocator: Pool block addresses ="] ++
  (List.range a.capacity).map fun i => a.layoutLine i (a.slots.get i)

/-- The arena with its counts. -/
def describe (a : BlockArena) : String :=
  Text.record "Allocator" [("id", "_"), ("capacity", toString a.capacity),
    ("item_size", toString a.blockSize), ("live", toString a.live),
    ("high_water", toString a.peak)] .partly

/-! ### Which handles are accepted, and what the operations do -/

theorem locate_eq_ok_iff (a : BlockArena) (h : BlockHandle) (slot : Nat) :
    a.locate h = .ok slot ↔
      h.arena = a.id ∧ slot = h.index.toNat ∧ a.slot? slot = some ⟨true, h.generation⟩ := by
  unfold locate
  split
  · next ha => simp [ha]
  · next ha =>
    rw [Decidable.not_not] at ha
    constructor
    · intro h'
      split at h'
      · simp at h'
      · next s hs =>
        split at h'
        · simp at h'
        · next hg =>
          split at h'
          · next hu =>
            obtain rfl := Except.ok.inj h'
            rw [Decidable.not_not] at hg
            exact ⟨ha, rfl, by rw [hs, ← hu, ← hg]⟩
          · simp at h'
    · rintro ⟨-, rfl, hs⟩
      simp [hs]

theorem allocate_full (a : BlockArena) (h : a.freeList.next? = none) :
    allocate a = ⟨.error (.full kind a.capacity), a, [.blocksExhausted a.capacity]⟩ := by
  simp [allocate, h]

theorem allocate_ok (a : BlockArena) {index : UInt32} {rest : FreeList}
    (h : a.freeList.next? = some (index, rest)) :
    allocate a = ⟨.ok ⟨a.id, index, a.generation index⟩, a.handOut index rest,
      if a.peak < a.live + 1 then [.blocksPeak (a.live + 1)] else []⟩ := by
  simp [allocate, h]

theorem free_ok (a : BlockArena) (h : BlockHandle) {slot : Nat} (hr : a.locate h = .ok slot) :
    free h a = ⟨.ok (), a.takeBack h.index, []⟩ := by
  simp [free, hr]

theorem free_error (a : BlockArena) (h : BlockHandle) {e : Error} (hr : a.locate h = .error e) :
    free h a = ⟨.error e, a, [.blockNotFreed e]⟩ := by
  simp [free, hr]

end BlockArena

end FixedArena
