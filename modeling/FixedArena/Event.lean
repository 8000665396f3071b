import FixedArena.Error
import FixedArena.Text.Handle
import FixedArena.Sizing.Basic

/-!
What the library logs. An event is a value: what happened, with its data. Each has a level and one
line of text.
-/

namespace FixedArena

/-- How grave an event is. -/
inductive Level where
  | trace
  | debug
  | info
  | warn
  | error
  deriving DecidableEq, Repr

/-- The name of a level in a log line. -/
def Level.name : Level → String
  | .trace => "TRACE"
  | .debug => "DEBUG"
  | .info => "INFO"
  | .warn => "WARN"
  | .error => "ERROR"

/-- What can be logged. -/
inductive Event where
  /-- A block arena came into being. -/
  | blocksReserved (capacity blockSize : Nat)
  /-- No block was free. -/
  | blocksExhausted (capacity : Nat)
  /-- More blocks are in use than ever before. -/
  | blocksPeak (peak : Nat)
  /-- A handle presented for freeing was rejected. -/
  | blockNotFreed (cause : Error)
  /-- A text pool came into being. -/
  | slotsReserved (slots maxStrLen : Nat)
  /-- No text slot was free. -/
  | slotsExhausted (capacity : Nat)
  /-- More text slots are in use than ever before. -/
  | slotsPeak (peak : Nat)
  /-- A caller tried to free a text slot that is not in use. -/
  | slotNotAllocated (handle : TextHandle)
  /-- A caller tried to free a text slot that a container owns. -/
  | slotOwned (handle : TextHandle)
  /-- A container gave up a text slot that is not in use. -/
  | slotLost (handle : TextHandle)
  /-- A ring could not unlink a node. -/
  | popFailed (cause : Error)
  /-- A ring was dropped and could not give its blocks back. -/
  | nodesLeaked (cause : Error) (len : Nat)
  /-- A text ring could not pop since its pool is held. -/
  | textPopRefused (cause : Error) (len : Nat)
  /-- A text ring was turned into a list while its pool could not be read. -/
  | textsUnreadable (cause : Error)
  /-- An owned text could not use its slot. -/
  | textAccessFailed (cause : Error) (handle : TextHandle)
  /-- An owned text was dropped and could not give its slot back. -/
  | textLeaked (cause : Error) (handle : TextHandle)
  /-- Arenas are about to be reserved. -/
  | reserving (blocks blockSize slots maxStrLen : Nat)
  /-- A sizing file was read. -/
  | sizingLoaded (path : String) (sizing : Sizing)
  /-- A line of a diagnostic report. -/
  | report (line : String)
  deriving DecidableEq, Repr

namespace Event

/-- The level of an event. -/
def level : Event → Level
  | .blocksPeak _ | .slotsPeak _ => .trace
  | .blocksReserved .. | .slotsReserved .. | .reserving .. | .sizingLoaded .. => .debug
  | .report _ => .info
  | .blocksExhausted _ | .blockNotFreed _ | .slotsExhausted _ | .slotNotAllocated _
  | .slotOwned _ | .slotLost _ => .warn
  | .popFailed _ | .nodesLeaked .. | .textPopRefused .. | .textsUnreadable _
  | .textAccessFailed .. | .textLeaked .. => .error

/-- The words of an event. -/
def message : Event → String
  | .blocksReserved .. => "allocator reserved"
  | .blocksExhausted _ => "allocator could not allocate new block from pool"
  | .blocksPeak _ => "allocator reached new high-water mark"
  | .blockNotFreed _ => "block given to allocator to deallocate did not come from pool"
  | .slotsReserved .. => "string pool reserved"
  | .slotsExhausted _ => "string pool has no free slot"
  | .slotsPeak _ => "string pool reached new high-water mark"
  | .slotNotAllocated _ => "string handle to deallocate is not allocated"
  | .slotOwned _ => "string handle is owned by a container"
  | .slotLost _ => "container released a string handle that is not allocated"
  | .popFailed _ => "deque pop failed"
  | .nodesLeaked .. => "deque dropped without returning its nodes"
  | .textPopRefused .. => "string deque pop refused"
  | .textsUnreadable _ => "string deque contents unreadable"
  | .textAccessFailed .. => "pool string access failed"
  | .textLeaked .. => "pool string dropped without releasing its slot"
  | .reserving .. => "reserving arenas"
  | .sizingLoaded .. => "arena configuration loaded"
  | .report line => line

/-- The data of an event, by name. -/
def fields : Event → List (String × String)
  | .blocksReserved capacity blockSize =>
    [("capacity", toString capacity), ("item_size", toString blockSize)]
  | .blocksExhausted capacity | .slotsExhausted capacity => [("capacity", toString capacity)]
  | .blocksPeak peak | .slotsPeak peak => [("high_water", toString peak)]
  | .blockNotFreed cause | .popFailed cause | .textsUnreadable cause => [("err", cause.message)]
  | .slotsReserved slots maxStrLen =>
    [("slots", toString slots), ("max_str_len", toString maxStrLen)]
  | .slotNotAllocated handle | .slotOwned handle | .slotLost handle =>
    [("handle", handle.display)]
  | .nodesLeaked cause len | .textPopRefused cause len =>
    [("err", cause.message), ("len", toString len)]
  | .textAccessFailed cause handle | .textLeaked cause handle =>
    [("err", cause.message), ("handle", handle.display)]
  | .reserving blocks blockSize slots maxStrLen =>
    [("blocks", toString blocks), ("item_size", toString blockSize), ("slots", toString slots),
      ("max_str_len", toString maxStrLen)]
  | .sizingLoaded path sizing => [("path", path), ("config", sizing.describe)]
  | .report _ => []

/-- The line of an event: its level, its words, and its data as pairs. -/
def line (e : Event) : String :=
  " ".intercalate
    (e.level.name :: e.message :: e.fields.map fun (key, value) => key ++ "=" ++ value)

end Event

end FixedArena
