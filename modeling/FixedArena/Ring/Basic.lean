import FixedArena.Guarded
import FixedArena.Ring.Node

/-!
Rings: double-ended queues of values on a shared block arena. The nodes of a ring form a circle
through a head that holds no value; the ring keeps the handle of the head and the number of values.

Operations work on a ring together with its guarded arena, a `Site`. While somebody holds the arena
they are refused, or answer that there is no value; they never wait. Another arena may have come in
the place of the one that the ring was made on: blocks that are not in use are refused as nodes, and
blocks too narrow for a node are a fault.
-/

namespace FixedArena

/-- A ring of values of type `α`. -/
structure Ring (α : Type) where
  /-- The block of the head. -/
  head : BlockHandle
  /-- Number of values. -/
  len : Nat
  deriving DecidableEq, Repr

namespace Ring

variable {α : Type} [Element α]

/-- A ring and the arena where its nodes live. -/
structure Site (α : Type) where
  ring : Ring α
  nodes : Guarded BlockArena

/-- The refusal of an operation that finds the arena held. -/
def nodesBusy : Error := .busy "node allocator"

/-- The two ends of a ring. -/
inductive Side where
  | front
  | back
  deriving DecidableEq, Repr

/-- The link of the head that leads to the value at an end. -/
def Side.link : Side → Link
  | .front => .next
  | .back => .prev

/-- The ring holds no value. -/
def isEmpty (r : Ring α) : Bool := r.len = 0

/-- The ring with its head's slot and its length. -/
def describe (r : Ring α) : String :=
  Text.record "Deque" [("head", toString r.head.index), ("len", toString r.len)] .partly

/-! ### Access to the arena -/

/-- Reads the arena. -/
def reading {β : Type} (f : Ring α → BlockArena → Except Error β) : Act Error (Site α) β := do
  let site ← Act.get
  Act.zoom Site.nodes (fun nodes s => { s with nodes })
    (Guarded.reading nodesBusy (f site.ring))

/-- Changes the arena. -/
def writing {β : Type} (x : Ring α → Act Error BlockArena β) : Act Error (Site α) β := do
  let site ← Act.get
  Act.zoom Site.nodes (fun nodes s => { s with nodes })
    (Guarded.writing nodesBusy (x site.ring))

/-- Sets the number of values. -/
def setLen (f : Nat → Nat) : Act Error (Site α) Unit :=
  Act.modify fun s => { s with ring := { s.ring with len := f s.ring.len } }

/-! ### Making a ring -/

/-- A head linked to itself. -/
def newHead : Act Error BlockArena BlockHandle := do
  let head ← BlockArena.allocate
  BlockArena.write head Link.next.offset (Element.encode head.index)
  BlockArena.write head Link.prev.offset (Element.encode head.index)
  return head

/-- An empty ring, which takes one block for its head. The blocks must be wide enough for nodes. -/
def create : Act Error (Guarded BlockArena) (Ring α) :=
  Guarded.writing nodesBusy do
    let arena ← Act.get
    if arena.blockSize < nodeSize α then
      Act.fail (.badSizing
        s!"deque nodes need {nodeSize α} bytes, allocator blocks hold {arena.blockSize}")
    else
      let head ← newHead
      return { head, len := 0 }

/-- The blocks that a lone ring of up to `maxLen` values needs. -/
def blocksFor (maxLen : Nat) : Nat := maxLen + 1

/-! ### Values at the ends -/

/-- Adds a value at an end. -/
def push (side : Side) (v : α) : Act Error (Site α) Unit := do
  writing fun r => do
    let head := r.head.index
    let neighbour ← Act.read (linkOf · head side.link)
    match side with
    | .front => linkIn head neighbour v
    | .back => linkIn neighbour head v
  setLen (· + 1)

/-- Removes the value at an end, if there is one and the arena lets it go. A refusal is logged. -/
def pop (side : Side) : Act Error (Site α) (Option α) := do
  let site ← Act.get
  if site.ring.isEmpty then
    return none
  else
    match ← Act.attempt (writing fun r => linkOut r.head.index side.link) with
    | .ok v =>
      setLen (· - 1)
      return some v
    | .error e =>
      Act.log (.popFailed e)
      return none

/-- The value at an end. -/
def peek (side : Side) : Act Error (Site α) α := do
  let site ← Act.get
  if site.ring.isEmpty then
    Act.fail .empty
  else
    reading fun r a => do
      let node ← linkOf a r.head.index side.link
      valueOf a node

/-! ### Values by position -/

/-- The node that lies so many steps behind another. -/
def follow (a : BlockArena) : Nat → UInt32 → Except Error UInt32
  | 0, node => .ok node
  | n + 1, node => do
    let next ← linkOf a node .next
    follow a n next

/-- The node of the value at a position. -/
def nodeAt (r : Ring α) (a : BlockArena) (index : Nat) : Except Error UInt32 :=
  if index ≥ r.len then .error (.outOfBounds index r.len)
  else do
    let first ← linkOf a r.head.index .next
    follow a index first

/-- The value at a position. -/
def get (index : Nat) : Act Error (Site α) α :=
  reading fun r a => do
    let node ← r.nodeAt a index
    valueOf a node

/-- Replaces the value at a position. -/
def set (index : Nat) (v : α) : Act Error (Site α) Unit :=
  writing fun r => do
    let node ← Act.read (r.nodeAt · index)
    setValue node v

/-! ### Emptying and dropping -/

/-- Removes up to so many values from the front, stopping at the first that cannot be removed. -/
def drain : Nat → Act Error (Site α) Unit
  | 0 => pure ()
  | n + 1 => do
    match ← pop .front with
    | some _ => drain n
    | none => pure ()

/-- Removes every value. -/
def clear : Act Error (Site α) Unit := do
  let site ← Act.get
  drain site.ring.len

/-- Gives up a ring: every value is removed and the block of the head goes back. While the arena is
held its blocks stay in use for good. -/
def drop : Act Error (Site α) Unit := do
  clear
  match ← Act.attempt (writing fun r => BlockArena.free r.head) with
  | .ok () => pure ()
  | .error e =>
    let site ← Act.get
    Act.log (.nodesLeaked e site.ring.len)

end Ring

end FixedArena
