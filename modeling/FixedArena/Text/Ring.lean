import FixedArena.Ring.Cursor
import FixedArena.Text.Owned

/-!
Text rings: rings of text handles that own every slot they hold. Adding a handle makes the ring the
owner of its slot; removing one gives the slot back to the pool.

Operations work on a ring together with both of its guarded arenas, a `TextRing.Site`.
-/

namespace FixedArena

/-- A ring of text handles that owns their slots. -/
structure TextRing where
  handles : Ring TextHandle
  deriving DecidableEq, Repr

namespace TextRing

/-- A text ring, the arena where its nodes live, and the pool where its texts live. -/
structure Site where
  ring : TextRing
  nodes : Guarded BlockArena
  pool : Guarded TextPool

/-- The part of a site that the ring of handles works on. -/
def Site.handles (s : Site) : Ring.Site TextHandle := ⟨s.ring.handles, s.nodes⟩

/-- Runs an operation of the ring of handles. -/
def onHandles {α : Type} (x : Act Error (Ring.Site TextHandle) α) : Act Error Site α :=
  Act.zoom Site.handles
    (fun part s => { s with ring := ⟨part.ring⟩, nodes := part.nodes }) x

/-- Runs an operation on the pool. -/
def onPool {α : Type} (x : TextPool.GuardedAct α) : Act Error Site α :=
  Act.zoom Site.pool (fun pool s => { s with pool }) x

/-- Number of texts. -/
def len (r : TextRing) : Nat := r.handles.len

/-! ### Adding -/

/-- Becomes the owner of a slot and adds its handle at an end. If the node cannot be linked in, the
caller keeps the slot. -/
def push (side : Ring.Side) (h : TextHandle) : Act Error Site Unit := do
  onPool (TextPool.writing (TextPool.own h))
  match ← Act.attempt (onHandles (Ring.push side h)) with
  | .ok () => pure ()
  | .error e =>
    let _ ← Act.attempt (onPool (TextPool.writing (TextPool.disown h)))
    Act.fail e

/-- Takes a slot for as much of `t` as fits and adds it at the back. If that fails the slot goes
back to the pool. -/
def pushText (t : String) : Act Error Site TextHandle := do
  let h ← onPool (TextPool.writing do
    let h ← TextPool.allocate
    let _ ← TextPool.assign h t
    return h)
  match ← Act.attempt (push .back h) with
  | .ok () => return h
  | .error e =>
    let _ ← Act.attempt (onPool (TextPool.writing (TextPool.free h)))
    Act.fail e

/-! ### Removing -/

/-- Removes the handle at an end and gives its slot back. The pool must be free before the ring is
touched, so that no handle is lost. -/
def pop (side : Ring.Side) : Act Error Site (Option TextHandle) := do
  let site ← Act.get
  if site.pool.hold.admits .exclusive then
    match ← onHandles (Ring.pop side) with
    | some h =>
      let _ ← onPool (TextPool.writing (TextPool.reclaim h))
      return some h
    | none => return none
  else
    Act.log (.textPopRefused TextPool.busy site.ring.len)
    return none

/-- Removes up to so many handles from the front, and tries one more. -/
def drain : Nat → Act Error Site Unit
  | 0 => do
    let _ ← pop .front
  | n + 1 => do
    match ← pop .front with
    | some _ => drain n
    | none => pure ()

/-- Removes every handle. -/
def clear : Act Error Site Unit := do
  let site ← Act.get
  drain site.ring.len

/-- Gives up a text ring: its handles are removed, then its nodes are given back. -/
def drop : Act Error Site Unit := do
  clear
  onHandles Ring.drop

/-! ### Reading -/

/-- The handle at an end. -/
def peek (side : Ring.Side) : Act Error Site TextHandle := onHandles (Ring.peek side)

/-- The handle at a position. -/
def get (index : Nat) : Act Error Site TextHandle := onHandles (Ring.get index)

/-- The text at a position. -/
def text (index : Nat) : Act Error Site String := do
  let h ← get index
  onPool (TextPool.reading (·.text h))

/-- The handles from front to back, as far as they can be read. -/
def toList (site : Site) : Except Error (List TextHandle) := Ring.toList site.handles

/-- The position of the first text that equals `t`. There is none while the pool is being
written. -/
def position (t : String) (site : Site) : Except Error (Option Nat) :=
  if site.pool.hold.admits .shared then do
    let handles ← toList site
    return handles.findIdx? fun h => (site.pool.value.text h).toOption == some t
  else
    .ok none

/-- The texts from front to back, each quoted. -/
def shownTexts (site : Site) : Except Error (List String) := do
  let handles ← toList site
  return handles.map fun h => Text.quoted ((site.pool.value.text h).toOption.getD "<freed>")

/-- The texts in brackets, or just their number while the pool is being written. -/
def describe (site : Site) : Except Error String :=
  if site.pool.hold.admits .shared then do
    return "[" ++ ", ".intercalate (← shownTexts site) ++ "]"
  else
    .ok (Text.record "StringDeque" [("len", toString site.ring.len)] .partly)

/-- As `describe`, with every entry on a line of its own. -/
def describeLong (site : Site) : Except Error String :=
  if site.pool.hold.admits .shared then do
    match ← shownTexts site with
    | [] => return "[]"
    | shown => return "[\n" ++ String.join (shown.map fun t => "    " ++ t ++ ",\n") ++ "]"
  else
    .ok ("StringDeque \x7b\n    len: " ++ toString site.ring.len ++ ",\n    ..\n\x7d")

/-- The texts from front to back. A text that cannot be read counts as empty; while the pool is
being written there are no texts at all. -/
def texts : Act Error Site (List String) := do
  let site ← Act.get
  if site.pool.hold.admits .shared then
    let handles ← Act.read toList
    return handles.map fun h => (site.pool.value.text h).toOption.getD ""
  else
    Act.log (.textsUnreadable TextPool.busy)
    return []

/-- Turns a text ring into the list of its texts and gives it up, also if the list cannot be
made. -/
def intoTexts : Act Error Site (List String) := do
  let found ← Act.settled texts
  drop
  Act.read fun _ => found

end TextRing

end FixedArena
