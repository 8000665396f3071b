import FixedArena.Guarded
import FixedArena.Reservation
import FixedArena.Slab
import FixedArena.Text.Bytes

/-!
Text pools: a fixed number of slots of equal length, each holding a text that ends at its first
zero byte. A slot is free, lent to a caller, or owned by a container; only the owner gives an owned
slot back. Texts that are too long are cut, never split inside a character.

Main facts:
* `locate_eq_ok_iff`: which handles a pool accepts;
* `content_eq`: the text of a slot ends at its first zero byte;
* `allocate_full`, `allocate_ok`: the lowest free slot is handed out.
-/

namespace FixedArena

/-- What a pool knows of a slot besides its bytes. Two flags, in use and owned, would do the same; that they
stay in step is `Run.slots_flagged`. -/
inductive SlotState where
  | free
  /-- In use by a caller. -/
  | lent
  /-- In use by a container. -/
  | owned
  deriving DecidableEq, Repr

/-- A fixed number of slots for texts. -/
structure TextPool where
  /-- The identity that handles of this pool carry. -/
  id : UInt16
  /-- The bytes of the slots; a slot has one byte more than its longest text. -/
  slab : Slab
  slots : Array SlotState
  /-- Slots in use at present. -/
  live : Nat
  /-- The most slots that were ever in use at once. -/
  peak : Nat
  size_slots : slots.size = slab.count

namespace TextPool

/-- The name of text pools in reports. -/
def kind : String := "string pool"

/-- A pool with all slots free and all bytes zero. -/
def fresh (id : UInt16) (slots maxLen : Nat) : TextPool where
  id := id
  slab := Slab.zeros slots (maxLen + 1)
  slots := Array.replicate slots .free
  live := 0
  peak := 0
  size_slots := by simp [Slab.zeros]

/-- The sizes are in range, or the first of them that is not. -/
def checkSizes (slots maxLen : Nat) : Except ReservationFault Unit :=
  if slots = 0 then .error .noSlots
  else if maxLen = 0 then .error .emptySlots
  else if slots ≥ 65535 then .error (.tooManySlots slots)
  else if slots * (maxLen + 1) ≥ wordLimit then .error (.slotsOverflow slots (maxLen + 1))
  else .ok ()

/-- Reserves a pool with all slots free. -/
def reserve {σ : Type} (id : UInt16) (slots maxLen : Nat) : Act ReservationFault σ TextPool := do
  Act.read fun _ => checkSizes slots maxLen
  Act.log (.slotsReserved slots maxLen)
  if slots * (maxLen + 1) ≥ memoryLimit then
    Act.fail (.beyondMemory (slots * (maxLen + 1)))
  else
    return fresh id slots maxLen

/-! ### Counts -/

/-- Number of slots. -/
def capacity (p : TextPool) : Nat := p.slots.size

/-- Bytes of the longest text that a slot holds. -/
def maxLen (p : TextPool) : Nat := p.slab.width - 1

/-- Slots that are free. -/
def available (p : TextPool) : Nat := p.capacity - p.live

/-- Slots that containers own. -/
def owned (p : TextPool) : Nat := p.slots.count .owned

/-! ### Handles -/

/-- The slot that a handle names, if the pool accepts the handle: it is one of its own, and the
slot is in use. -/
def locate (p : TextPool) (h : TextHandle) : Except Error Nat :=
  if h.pool ≠ p.id then .error (.notAllocated h.index)
  else
    match p.slots[h.index.toNat]? with
    | none | some .free => .error (.notAllocated h.index)
    | some _ => .ok h.index.toNat

/-- The handle names a slot in use. -/
def inUse (p : TextPool) (h : TextHandle) : Bool := (p.locate h).toBool

/-- The handle names a slot that a container owns. -/
def isOwned (p : TextPool) (h : TextHandle) : Bool :=
  match p.locate h with
  | .ok i => p.slots[i]? = some .owned
  | .error _ => false

/-! ### Texts -/

/-- The bytes of a slot before its first zero byte. The last byte of a slot is never content. -/
def content (p : TextPool) (i : Nat) : List UInt8 :=
  let start := p.slab.address i 0
  p.slab.bytes.slice start (p.slab.bytes.run (· ≠ 0) start p.maxLen)

/-- The text of a slot. -/
def text (p : TextPool) (h : TextHandle) : Except Error String := do
  let i ← p.locate h
  match Text.ofBytes? (p.content i) with
  | some t => .ok t
  | none => .error (.notText h.index)

/-- The length of a slot's text in bytes. -/
def textLen (p : TextPool) (h : TextHandle) : Except Error Nat := do
  let i ← p.locate h
  return (p.content i).length

/-- The bytewise order of a slot's text and another. -/
def compare (p : TextPool) (h : TextHandle) (t : String) : Except Error Ordering := do
  let own ← p.text h
  return Text.compareBytes (Text.bytes own) (Text.bytes t)

/-- Writes bytes over a part of a slot. -/
def writeBytes (i offset : Nat) (bs : List UInt8) : Act Error TextPool Unit := fun p =>
  match hw : p.slab.write i offset bs with
  | .error e => ⟨.error e, p, []⟩
  | .ok slab =>
    ⟨.ok (), { p with slab, size_slots := by rw [p.size_slots, Slab.count_write hw] }, []⟩

/-- Replaces the text of a slot by as much of `t` as fits, and answers with the new length. -/
def assign (h : TextHandle) (t : String) : Act Error TextPool Nat := do
  let p ← Act.get
  let i ← Act.read (·.locate h)
  let kept := Text.bytes (Text.clip t p.maxLen)
  writeBytes i 0 (kept ++ [0])
  return kept.length

/-- Adds as much of `t` as fits to the text of a slot, and answers with the new length. -/
def append (h : TextHandle) (t : String) : Act Error TextPool Nat := do
  let p ← Act.get
  let i ← Act.read (·.locate h)
  let current := (p.content i).length
  let kept := Text.bytes (Text.clip t (p.maxLen - current))
  writeBytes i current (kept ++ [0])
  return current + kept.length

/-- Copies the text of slot `source`, with the byte that ends it, to slot `target`, and answers
with its length. -/
def copy (target source : TextHandle) : Act Error TextPool Nat := do
  let p ← Act.get
  let i ← Act.read (·.locate target)
  let j ← Act.read (·.locate source)
  let len := (p.content j).length
  let bs ← Act.read (·.slab.read j 0 (len + 1))
  writeBytes i 0 bs
  return len

/-! ### Handing out and taking back -/

/-- The pool with another state for a slot. -/
def setState (p : TextPool) (i : Nat) (state : SlotState) : TextPool :=
  { p with
    slots := p.slots.setIfInBounds i state
    size_slots := by simp [p.size_slots] }

/-- The pool after slot `i` is lent, with an empty text. -/
def lend (p : TextPool) (i : Nat) : TextPool where
  id := p.id
  slab := p.slab.overwriteCell i 0 [0]
  slots := p.slots.setIfInBounds i .lent
  live := p.live + 1
  peak := max p.peak (p.live + 1)
  size_slots := by simp [p.size_slots]

/-- The pool after slot `i` is taken back. -/
def takeBack (p : TextPool) (i : Nat) : TextPool :=
  { p.setState i .free with live := p.live - 1 }

/-- Lends the lowest free slot, with an empty text. -/
def allocate : Act Error TextPool TextHandle := fun p =>
  match p.slots.findIdx? (· = .free) with
  | none => ⟨.error (.full kind p.capacity), p, [.slotsExhausted p.capacity]⟩
  | some i =>
    ⟨.ok ⟨p.id, UInt16.ofNat i⟩, p.lend i,
      if p.peak < p.live + 1 then [.slotsPeak (p.live + 1)] else []⟩

/-- Takes a lent slot back, and answers whether the handle named one. -/
def free (h : TextHandle) : Act Error TextPool Bool := fun p =>
  match p.locate h with
  | .error _ => ⟨.ok false, p, [.slotNotAllocated h]⟩
  | .ok i =>
    if p.slots[i]? = some .owned then ⟨.ok false, p, [.slotOwned h]⟩
    else ⟨.ok true, p.takeBack i, []⟩

/-- Makes a container the owner of a lent slot. -/
def own (h : TextHandle) : Act Error TextPool Unit := fun p =>
  match p.locate h with
  | .error e => ⟨.error e, p, []⟩
  | .ok i =>
    if p.slots[i]? = some .owned then ⟨.error (.alreadyOwned h.index), p, []⟩
    else ⟨.ok (), p.setState i .owned, []⟩

/-- Makes an owned slot a lent one again. -/
def disown (h : TextHandle) : Act Error TextPool Unit := fun p =>
  match p.locate h with
  | .error _ => ⟨.ok (), p, []⟩
  | .ok i => ⟨.ok (), p.setState i .lent, []⟩

/-- Takes a slot back from the container that owns it, and answers whether the handle named one. -/
def reclaim (h : TextHandle) : Act Error TextPool Bool := fun p =>
  match p.locate h with
  | .error _ => ⟨.ok false, p, [.slotLost h]⟩
  | .ok i => ⟨.ok true, p.takeBack i, []⟩

/-! ### Access to a guarded pool -/

/-- An operation on a guarded pool. -/
abbrev GuardedAct (α : Type) : Type := Act Error (Guarded TextPool) α

/-- The refusal of an operation that finds the pool held. -/
def busy : Error := .busy kind

/-- Reads a guarded pool. -/
def reading {α : Type} (f : TextPool → Except Error α) : GuardedAct α := Guarded.reading busy f

/-- Changes a guarded pool. -/
def writing {α : Type} (x : Act Error TextPool α) : GuardedAct α := Guarded.writing busy x

/-! ### Reports -/

/-- One line with the slots in use, the most that ever were, and the free ones. -/
def usage (p : TextPool) : List String :=
  [s!"StringPool: num taken = {p.live}, max num taken = {p.peak}, available = {p.available}"]

/-- The pool with its counts. -/
def describe (p : TextPool) : String :=
  Text.record "StringPool" [("id", "_"), ("capacity", toString p.capacity),
    ("max_str_len", toString p.maxLen), ("live", toString p.live),
    ("high_water", toString p.peak)] .partly

/-! ### Which handles are accepted, what a slot holds, and what is handed out -/

theorem content_eq (p : TextPool) (i : Nat) :
    p.content i = (p.slab.bytes.slice (p.slab.address i 0) p.maxLen).takeWhile (· ≠ 0) :=
  Memory.slice_run ..

theorem locate_eq_ok_iff (p : TextPool) (h : TextHandle) (i : Nat) :
    p.locate h = .ok i ↔
      h.pool = p.id ∧ i = h.index.toNat ∧ ∃ s, p.slots[i]? = some s ∧ s ≠ .free := by
  unfold locate
  split
  · next hp => simp [hp]
  · next hp =>
    rw [Decidable.not_not] at hp
    split <;> simp_all [eq_comm] <;> grind

theorem free_of_findIdx? {p : TextPool} {i : Nat} (h : p.slots.findIdx? (· = .free) = some i) :
    p.slots[i]? = some .free := by
  obtain ⟨hlt, hfree, -⟩ := Array.findIdx?_eq_some_iff_getElem.1 h
  rw [Array.getElem?_eq_getElem hlt, of_decide_eq_true hfree]

theorem allocate_full (p : TextPool) (h : p.slots.findIdx? (· = .free) = none) :
    allocate p = ⟨.error (.full kind p.capacity), p, [.slotsExhausted p.capacity]⟩ := by
  simp only [allocate, h]

theorem allocate_ok (p : TextPool) {i : Nat} (h : p.slots.findIdx? (· = .free) = some i) :
    allocate p = ⟨.ok ⟨p.id, UInt16.ofNat i⟩, p.lend i,
      if p.peak < p.live + 1 then [.slotsPeak (p.live + 1)] else []⟩ := by
  simp only [allocate, h]

end TextPool

end FixedArena
