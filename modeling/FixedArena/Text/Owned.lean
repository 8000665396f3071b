import FixedArena.Text.Pool

/-!
Owned texts: a text that owns one slot of a pool from its making to its end. Most operations cannot
be refused: a failed access is logged, and reads then answer as if the text were empty.

Operations work on the guarded pool and take the handle of the slot.
-/

namespace FixedArena

namespace OwnedText

open TextPool (GuardedAct reading writing)

/-- Runs an access to the slot of `h`. A refusal is logged and leaves no answer. -/
def reporting {α : Type} (h : TextHandle) (access : GuardedAct α) : GuardedAct (Option α) := do
  match ← Act.attempt access with
  | .ok a => return some a
  | .error e =>
    Act.log (.textAccessFailed e h)
    return none

/-! ### Making and giving up -/

/-- Takes a slot for a new text, which is empty. -/
def create : GuardedAct TextHandle :=
  writing do
    let h ← TextPool.allocate
    match ← Act.attempt (TextPool.own h) with
    | .ok () => return h
    | .error e =>
      let _ ← TextPool.free h
      Act.fail e

/-- Gives the slot back. While the pool is held the slot stays in use for good. -/
def drop (h : TextHandle) : GuardedAct Unit := do
  match ← Act.attempt (writing (TextPool.reclaim h)) with
  | .ok _ => pure ()
  | .error e => Act.log (.textLeaked e h)

/-! ### Reading -/

/-- The text, or the empty text if it cannot be read. -/
def content (h : TextHandle) : GuardedAct String := do
  return (← reporting h (reading (·.text h))).getD ""

/-- The bytewise order of the text and another. -/
def compare (h : TextHandle) (t : String) : GuardedAct Ordering := do
  let own ← content h
  return Text.compareBytes (Text.bytes own) (Text.bytes t)

/-- The text equals another. -/
def equals (h : TextHandle) (t : String) : GuardedAct Bool := do
  return (← compare h t) == .eq

/-- The length of the text in bytes. -/
def length (h : TextHandle) : GuardedAct Nat := do
  return (← reporting h (reading (·.textLen h))).getD 0

/-- The length is zero. -/
def isEmpty (h : TextHandle) : GuardedAct Bool := do
  return (← length h) == 0

/-- The most bytes that the slot can hold. -/
def maxLength (h : TextHandle) : GuardedAct Nat := do
  return (← reporting h (reading fun p => .ok p.maxLen)).getD 0

/-- The text with its handle. -/
def describe (h : TextHandle) : GuardedAct String := do
  let t ← content h
  return Text.record "PoolString" [("handle", h.describe), ("text", Text.quoted t)] .whole

/-! ### Writing -/

/-- Replaces the text by as much of `t` as fits. -/
def assign (h : TextHandle) (t : String) : GuardedAct Unit := do
  let _ ← reporting h (writing (TextPool.assign h t))

/-- Adds as much of `t` as fits. -/
def append (h : TextHandle) (t : String) : GuardedAct Unit := do
  let _ ← reporting h (writing (TextPool.append h t))

/-- Copies the text of another slot of the same pool. -/
def copy (h source : TextHandle) : GuardedAct Unit := do
  let _ ← reporting h (writing (TextPool.copy h source))

end OwnedText

end FixedArena
