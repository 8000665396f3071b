import FixedArena.Toml.Table

/-!
Reading values: words, texts, arrays in brackets and tables in braces. Arrays may run over several
lines; tables in braces stay on one.
-/

namespace FixedArena.Toml

/-- A list in brackets: values with commas in between, and perhaps one behind the last. -/
def bracketed (value : Reader Value) : Reader (List Value) := do
  Reader.char '['
  let items ← Reader.orElse (Reader.sepBy (do
    gap
    let v ← value
    gap
    return v) (Reader.char ',')) (pure [])
  if items.isEmpty then
    gap
  else
    Reader.orElse (do Reader.char ','; gap) (pure ())
  Reader.char ']'
  return items

/-- A key and its value on one line. -/
def entry (value : Reader Value) : Reader (List String × Value) := do
  let path ← keyPath
  Reader.char '='
  blanks
  let v ← value
  return (path, v)

/-- A table in braces: entries with commas in between. -/
def braced (value : Reader Value) : Reader Table := do
  Reader.char '\x7b'
  blanks
  let entries ← Reader.orElse (Reader.sepBy (do
    let found ← entry value
    blanks
    return found) (Reader.char ',')) (pure [])
  Reader.char '\x7d'
  Reader.ofOption (entries.foldlM (fun (t : Table) found => t.insertAt found.1 found.2) [])

/-- A value with so many levels of brackets and braces at most. -/
def valueWithin : Nat → Reader Value
  | 0 => fun cs =>
    match cs with
    | '"' :: _ | '\'' :: _ => do
      let (t, rest) ← text cs
      some (.scalar (.text (String.ofList t)), rest)
    | _ => do
      let (found, rest) ← word cs
      some (.scalar found, rest)
  | depth + 1 => fun cs =>
    match cs with
    | '[' :: _ => do
      let (items, rest) ← bracketed (valueWithin depth) cs
      some (.array items, rest)
    | '\x7b' :: _ => do
      let (entries, rest) ← braced (valueWithin depth) cs
      some (.table .inline entries, rest)
    | _ => valueWithin depth cs

/-- A value. -/
def value : Reader Value := valueWithin nestingLimit

end FixedArena.Toml
