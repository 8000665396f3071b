import FixedArena.Text.Printable

/-!
Quoted text, and the text of a record: how values are shown in reports meant for programmers.
-/

namespace FixedArena.Text

/-! ### Quoted text -/

/-- A number in base sixteen, lower case, without leading zeros. -/
def hex (n : Nat) : String := String.ofList (Nat.toDigits 16 n)

/-- How a character stands between quotes: the six characters with a short escape take it, and a
character without a glyph is given by its number. -/
def quotedChar (c : Char) : String :=
  match c with
  | '"' => "\\\""
  | '\\' => "\\\\"
  | '\n' => "\\n"
  | '\r' => "\\r"
  | '\t' => "\\t"
  | '\x00' => "\\0"
  | c => if isPrintable c then String.singleton c else "\\u\x7b" ++ hex c.toNat ++ "\x7d"

/-- A text between double quotes. -/
def quoted (t : String) : String :=
  "\"" ++ String.join (t.toList.map quotedChar) ++ "\""

/-! ### Records and lists -/

/-- Whether the text of a record names all of its fields. -/
inductive Extent where
  | whole
  | partly
  deriving DecidableEq, Repr

/-- The text of a record: its name, then its fields between braces. Two dots stand for the fields
that are not named. -/
def record (name : String) (fields : List (String × String)) (extent : Extent) : String :=
  let shown := fields.map fun (key, value) => key ++ ": " ++ value
  let dots := match extent with
    | .whole => []
    | .partly => [".."]
  name ++ " \x7b " ++ ", ".intercalate (shown ++ dots) ++ " \x7d"

/-- The text of a constructor applied to its arguments. -/
def applied (name : String) (arguments : List String) : String :=
  name ++ "(" ++ ", ".intercalate arguments ++ ")"

/-- The text of a value that may be absent. -/
def optional : Option String → String
  | none => "None"
  | some shown => applied "Some" [shown]

example : quoted "a\"b\n\x01" = "\"a\\\"b\\n\\u\x7b1\x7d\"" := by decide +kernel
example : record "Ring" [("len", "2")] .partly = "Ring \x7b len: 2, .. \x7d" := by decide +kernel

end FixedArena.Text
