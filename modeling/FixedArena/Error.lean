import FixedArena.Text.Quoted

/-!
Why an operation is refused. Every refusal is a value: its cause, the words that report it, and
the broad category that tells a full arena from a misuse and from a bad sizing. One cause is a
fault: whoever meets it gives up, too, where any other refusal could be dealt with.

Main facts:
* `orNone_eq_error_iff`: only a fault remains a failure where refusals count as no value.
-/

namespace FixedArena

/-- The cause of a refusal. -/
inductive Error where
  /-- Every block or slot of the arena is in use. -/
  | full (arena : String) (capacity : Nat)
  /-- The handle comes from another arena, or its block is not in use. -/
  | foreign (index : UInt32)
  /-- The handle's block was freed since the handle was issued. -/
  | stale (index generation current : UInt32)
  /-- The sequence holds no value. -/
  | empty
  /-- The position lies past the end of the sequence. -/
  | outOfBounds (index len : Nat)
  /-- The text handle names no slot in use. -/
  | notAllocated (index : UInt16)
  /-- A container owns the slot of the text handle. -/
  | alreadyOwned (index : UInt16)
  /-- The slot holds bytes that are the image of no text. -/
  | notText (index : UInt16)
  /-- The arena is held elsewhere. -/
  | busy (arena : String)
  /-- A size is out of range. -/
  | badSizing (reason : String)
  /-- The sizing file cannot be read. -/
  | unreadable (reason : String)
  /-- The sizing file is no document of the right form. -/
  | malformed (reason : String)
  /-- The bytes asked for reach past the end of a block, which is a fault. -/
  | pastEnd (stop size : Nat)
  deriving DecidableEq, Repr

namespace Error

/-- The broad kinds of refusal. -/
inductive Category where
  | capacity
  | misuse
  | config
  deriving DecidableEq, Repr

/-- The name of a category in reports. -/
def Category.name : Category → String
  | .capacity => "Capacity"
  | .misuse => "Misuse"
  | .config => "Config"

/-- The category of a refusal. -/
def category : Error → Category
  | .full .. => .capacity
  | .badSizing _ | .unreadable _ | .malformed _ => .config
  | _ => .misuse

/-- The arena has run out of blocks or slots. -/
def isCapacity (e : Error) : Bool := e.category = .capacity

/-- The cause is a fault. -/
def isFault : Error → Bool
  | .pastEnd .. => true
  | _ => false

/-- A result in which refusals count as no value. A fault stays one. -/
def orNone {α : Type} : Except Error α → Except Error (Option α)
  | .ok a => .ok (some a)
  | .error e => if e.isFault then .error e else .ok none

theorem orNone_eq_error_iff {α : Type} (r : Except Error α) (e : Error) :
    orNone r = .error e ↔ r = .error e ∧ e.isFault = true := by
  cases r with
  | ok a => simp [orNone]
  | error e' =>
    by_cases h : e'.isFault = true
    · have : e' = e → e.isFault = true := by
        rintro rfl
        exact h
      simpa [orNone, h] using this
    · have : e' = e → ¬ e.isFault = true := by
        rintro rfl
        exact h
      simpa [orNone, h] using this

/-- The name of a cause in reports. -/
def name : Error → String
  | .full .. => "NoCapacity"
  | .foreign _ => "ForeignHandle"
  | .stale .. => "StaleHandle"
  | .empty => "Empty"
  | .outOfBounds .. => "IndexOutOfBounds"
  | .notAllocated _ => "InvalidHandle"
  | .alreadyOwned _ => "AlreadyOwned"
  | .notText _ => "InvalidUtf8"
  | .busy _ => "ArenaBusy"
  | .badSizing _ => "InvalidConfig"
  | .unreadable _ => "ConfigIo"
  | .malformed _ => "ConfigParse"
  | .pastEnd .. => "PastEnd"

/-- The sentence that reports a refusal. -/
def message : Error → String
  | .full arena capacity => s!"no capacity left in {arena} (capacity {capacity})"
  | .foreign index => s!"handle {index} does not belong to this allocator"
  | .stale index generation current =>
    s!"handle {index} is stale (generation {generation}, current {current})"
  | .empty => "sequence is empty"
  | .outOfBounds index len => s!"index {index} out of bounds for length {len}"
  | .notAllocated index => s!"string handle {index} is not allocated"
  | .alreadyOwned index => s!"string handle {index} is already owned by a container"
  | .notText index => s!"string slot {index} holds invalid UTF-8"
  | .busy arena => s!"{arena} is borrowed elsewhere"
  | .badSizing reason => s!"invalid configuration: {reason}"
  | .unreadable reason => s!"cannot read configuration: {reason}"
  | .malformed reason => s!"cannot parse configuration: {reason}"
  | .pastEnd stop size => s!"byte {stop} lies past the end of a block of {size}"

/-- The cause with its data, as programmers see it. -/
def describe (e : Error) : String :=
  match e with
  | .full arena capacity =>
    Text.record e.name [("arena", Text.quoted arena), ("capacity", toString capacity)] .whole
  | .foreign index => Text.record e.name [("index", toString index)] .whole
  | .stale index generation current =>
    Text.record e.name [("index", toString index), ("generation", toString generation),
      ("current", toString current)] .whole
  | .empty => e.name
  | .outOfBounds index len =>
    Text.record e.name [("index", toString index), ("len", toString len)] .whole
  | .notAllocated index | .alreadyOwned index | .notText index =>
    Text.applied e.name [toString index]
  | .busy arena => Text.applied e.name [Text.quoted arena]
  | .badSizing reason | .unreadable reason | .malformed reason =>
    Text.applied e.name [Text.quoted reason]
  | .pastEnd stop size =>
    Text.record e.name [("stop", toString stop), ("size", toString size)] .whole

end Error

end FixedArena
