import FixedArena.Toml.Value

/-!
Documents: lines that open tables and lines that add values to the table opened last.
-/

namespace FixedArena.Toml

/-- What a line of a document says. -/
inductive Line where
  /-- A table begins. -/
  | header (path : List String)
  /-- One more table under this name begins. -/
  | element (path : List String)
  /-- A value of the table that was begun last. -/
  | entry (path : List String) (v : Value)

/-- A header in single or double brackets. -/
def header : Reader Line := fun cs =>
  match cs with
  | '[' :: '[' :: rest => (do
    let path ← keyPath
    Reader.char ']'
    Reader.char ']'
    return .element path : Reader Line) rest
  | _ => (do
    Reader.char '['
    let path ← keyPath
    Reader.char ']'
    return .header path : Reader Line) cs

/-- One line, which may say nothing. -/
def line : Reader (Option Line) := do
  blanks
  let found ← (fun cs =>
    match cs with
    | [] | '#' :: _ | '\n' :: _ | '\r' :: _ => some (none, cs)
    | '[' :: _ => (some <$> header : Reader (Option Line)) cs
    | _ => (do
      let (path, v) ← entry value
      return some (.entry path v) : Reader (Option Line)) cs : Reader (Option Line))
  lineEnd
  return found

/-- The lines of a text that say something. -/
def lines? (cs : List Char) : Option (List Line) := do
  let (found, rest) ← Reader.many line cs
  if rest = [] then some (found.filterMap id) else none

/-- A document that is being put together: its root, and the path to the table begun last. -/
structure Draft where
  root : Table := []
  path : List String := []

/-- Adds what a line says. -/
def Draft.add (d : Draft) : Line → Option Draft
  | .header path => (d.root.openTable path).map ({ root := ·, path })
  | .element path => (d.root.openElement path).map ({ root := ·, path })
  | .entry path v =>
    (Table.alter .header (fun _ t => t.insertAt path v) d.path .header d.root).map
      ({ d with root := · })

/-- The root of a document. A mark of byte order before the first line is left out. -/
def document? (text : String) : Option Table := do
  let cs := match text.toList with
    | '\ufeff' :: cs => cs
    | cs => cs
  let lines ← lines? cs
  let draft ← lines.foldlM Draft.add {}
  some draft.root

end FixedArena.Toml
