import FixedArena.Ring.Basic

/-!
Cursors: walking over a ring from front to back, a value at a time, while the arena may be held and
given back between two steps. A step that cannot read its node moves nothing; only a block too
narrow for a node, which is a fault, ends the walk.
-/

namespace FixedArena.Ring

variable {α : Type} [Element α]

/-- A place in a ring: the node up next, if it is known, and the number of values still to come. -/
structure Cursor (α : Type) where
  ring : Ring α
  node : Option UInt32
  remaining : Nat
  deriving DecidableEq, Repr

/-- The cursor before the first value. If the arena cannot be read now, it knows no node. -/
def start (site : Site α) : Except Error (Cursor α) := do
  let first := (reading (fun r a => linkOf a r.head.index .next) site).result
  return { ring := site.ring, node := ← Error.orNone first, remaining := site.ring.len }

namespace Cursor

/-- The next value, if there is one and it can be read, and the cursor behind it. -/
def next (c : Cursor α) (nodes : Guarded BlockArena) : Except Error (Option α × Cursor α) :=
  if c.remaining = 0 then .ok (none, c)
  else
    match c.node with
    | none => .ok (none, c)
    | some node => do
      let value := (Guarded.reading nodesBusy (fun a => valueOf a node) nodes).result
      match ← Error.orNone value with
      | none => return (none, c)
      | some v =>
        let next ← Error.orNone (linkOf nodes.value node .next)
        return (some v, { c with node := next, remaining := c.remaining - 1 })

/-- How many values are still to come: the least and the most. -/
def bounds (c : Cursor α) : Nat × Nat := (c.remaining, c.remaining)

/-- The values of up to so many steps, stopping at the first step without a value. -/
def collect (nodes : Guarded BlockArena) : Nat → Cursor α → Except Error (List α × Cursor α)
  | 0, c => .ok ([], c)
  | n + 1, c => do
    match ← c.next nodes with
    | (none, c') => return ([], c')
    | (some v, c') =>
      let (vs, last) ← collect nodes n c'
      return (v :: vs, last)

/-- The values still to come, up to the first step without one. -/
def rest (c : Cursor α) (nodes : Guarded BlockArena) : Except Error (List α × Cursor α) :=
  collect nodes c.remaining c

/-- The cursor with its place. -/
def describe (c : Cursor α) : String :=
  Text.record "Iter" [("deque", c.ring.describe),
    ("cursor", Text.optional (c.node.map toString)), ("remaining", toString c.remaining)] .whole

end Cursor

/-- The values of a ring from front to back, as far as they can be read. -/
def toList (site : Site α) : Except Error (List α) := do
  let c ← start site
  let (vs, _) ← c.rest site.nodes
  return vs

/-! ### Scripts -/

/-- What a caller does while walking over a ring. -/
inductive ScanStep where
  | next
  | hint
  | rest
  | describe
  /-- Takes one more hold of the arena. -/
  | hold (mode : Mode)
  /-- Gives back every hold that the script took. -/
  | release
  deriving DecidableEq, Repr

/-- What a step of a script answers. -/
inductive ScanAnswer (α : Type) where
  | value (v : Option α)
  | hint (lower upper : Nat)
  | values (vs : List α)
  | text (t : String)
  | flag (b : Bool)
  deriving Repr

/-- A walk under way: where it is, the arena, and the holds that it took. -/
structure Walk (α : Type) where
  cursor : Cursor α
  nodes : Guarded BlockArena
  taken : List Mode

/-- The arena after every hold of the walk is given back. -/
def Walk.released (w : Walk α) : Guarded BlockArena := w.taken.foldl (·.release ·) w.nodes

/-- Takes a step of a script. -/
def scanStep : ScanStep → Act Error (Walk α) (ScanAnswer α)
  | .next => do
    let (v, cursor) ← Act.read fun w => w.cursor.next w.nodes
    Act.modify ({ · with cursor })
    return .value v
  | .hint => do
    let w ← Act.get
    return .hint w.cursor.bounds.1 w.cursor.bounds.2
  | .rest => do
    let (vs, cursor) ← Act.read fun w => w.cursor.rest w.nodes
    Act.modify ({ · with cursor })
    return .values vs
  | .describe => do
    let w ← Act.get
    return .text w.cursor.describe
  | .hold mode => do
    let w ← Act.get
    match w.nodes.take? mode with
    | some nodes =>
      Act.modify ({ · with nodes, taken := mode :: w.taken })
      return .flag true
    | none => return .flag false
  | .release => do
    Act.modify fun w => { w with nodes := w.released, taken := [] }
    return .flag true

/-- Walks over a ring as a script says. Every hold that the script took is given back at the end. -/
def scan (steps : List ScanStep) : Act Error (Site α) (List (ScanAnswer α)) := do
  let cursor ← Act.read start
  Act.zoom (fun s => ⟨cursor, s.nodes, []⟩) (fun w s => { s with nodes := w.released })
    (steps.mapM scanStep)

end FixedArena.Ring
