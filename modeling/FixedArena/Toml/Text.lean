import FixedArena.Toml.Trivia

/-!
Texts and keys of documents. A text stands between double quotes, where a backslash starts an
escape, or between single quotes, where nothing is escaped. Tripled quotes let a text run over
several lines. A key is a bare word or a text on one line.
-/

namespace FixedArena.Toml

/-! ### Characters of texts -/

/-- The value of a digit in base sixteen. -/
def hexDigit? (c : Char) : Option Nat :=
  if c.isDigit then some (c.toNat - '0'.toNat)
  else if 'a' ≤ c ∧ c ≤ 'f' then some (c.toNat - 'a'.toNat + 10)
  else if 'A' ≤ c ∧ c ≤ 'F' then some (c.toNat - 'A'.toNat + 10)
  else none

/-- The character with the number that the digits give in base sixteen, if there is one. -/
def charOfHex? (digits : List Char) : Option Char := do
  let values ← digits.mapM hexDigit?
  let n := values.foldl (fun n d => 16 * n + d) 0
  if h : n.isValidChar then some (Char.ofNatAux n h) else none

/-- The character that a short escape stands for. -/
def shortEscape? : Char → Option Char
  | 'b' => some '\x08'
  | 't' => some '\t'
  | 'n' => some '\n'
  | 'f' => some '\x0c'
  | 'r' => some '\r'
  | '"' => some '"'
  | '\\' => some '\\'
  | _ => none

/-- An escape, behind its backslash. -/
def escape : Reader Char
  | 'u' :: a :: b :: c :: d :: cs => do
    let found ← charOfHex? [a, b, c, d]
    some (found, cs)
  | 'U' :: a :: b :: c :: d :: e :: f :: g :: h :: cs => do
    let found ← charOfHex? [a, b, c, d, e, f, g, h]
    some (found, cs)
  | c :: cs => do
    let found ← shortEscape? c
    some (found, cs)
  | [] => none

/-! ### Texts on one line -/

/-- One character between double quotes. -/
def basicChar : Reader Char
  | '\\' :: cs => escape cs
  | c :: cs => if c ≠ '"' ∧ isTextChar c then some (c, cs) else none
  | [] => none

/-- A text between double quotes, with escapes. -/
def basicText : Reader (List Char) := do
  Reader.char '"'
  let cs ← Reader.many basicChar
  Reader.char '"'
  return cs

/-- A text between single quotes, as it stands. -/
def literalText : Reader (List Char) := do
  Reader.char '\''
  let cs ← Reader.run fun c => c ≠ '\'' && isTextChar c
  Reader.char '\''
  return cs

/-! ### Texts over several lines -/

/-- Takes three given characters in a row. -/
def triple (quote : Char) : Reader Unit := do
  Reader.char quote
  Reader.char quote
  Reader.char quote

/-- A backslash at the end of a line, with all blanks and ends of lines behind it. -/
def lineJoin : Reader Unit := do
  Reader.char '\\'
  blanks
  newline
  let _ ← Reader.many (Reader.orElse newline (Reader.orElse (Reader.char ' ') (Reader.char '\t')))

/-- A piece of a long text between double quotes. One or two quotes are a part of the text; three
are not. -/
def longBasicPiece : Reader (List Char) := fun cs =>
  match triple '"' cs, cs with
  | some _, _ => none
  | none, '"' :: rest => some (['"'], rest)
  | none, _ =>
    Reader.orElse (do lineJoin; return [])
      (Reader.orElse (do newline; return ['\n']) (do return [← basicChar])) cs

/-- A piece of a long text between single quotes. -/
def longLiteralPiece : Reader (List Char) := fun cs =>
  match triple '\'' cs, cs with
  | some _, _ => none
  | none, c :: rest =>
    Reader.orElse (do newline; return ['\n'])
      (fun _ => if isTextChar c then some ([c], rest) else none) cs
  | none, [] => none

/-- A long text: its quotes, its pieces, and its quotes again. A line end right behind the first
quotes is left out, and up to two quotes right before the last ones are a part of the text. -/
def longText (quote : Char) (piece : Reader (List Char)) : Reader (List Char) := do
  triple quote
  Reader.orElse newline (pure ())
  let pieces ← Reader.many piece
  triple quote
  let last : Reader (List Char) := do
    Reader.char quote
    return [quote]
  let one ← Reader.orElse last (pure [])
  let two ← Reader.orElse last (pure [])
  return pieces.flatten ++ one ++ two

/-- A text in any of the four ways to write one. -/
def text : Reader (List Char) := fun cs =>
  match cs with
  | '"' :: '"' :: '"' :: _ => longText '"' longBasicPiece cs
  | '"' :: _ => basicText cs
  | '\'' :: '\'' :: '\'' :: _ => longText '\'' longLiteralPiece cs
  | _ => literalText cs

/-! ### Keys -/

/-- A character that a bare key may hold. -/
def isBareChar (c : Char) : Bool := c.isAlphanum || c = '_' || c = '-'

/-- A bare key: one character or more. -/
def bareKey : Reader (List Char) := do
  let cs ← Reader.run isBareChar
  if cs.isEmpty then Reader.fail else return cs

/-- A key without dots. -/
def simpleKey : Reader String := fun cs =>
  (match cs with
  | '"' :: _ => basicText
  | '\'' :: _ => literalText
  | _ => bareKey : Reader (List Char)) cs |>.map fun (key, rest) => (String.ofList key, rest)

/-- The most keys that a path may have, and the deepest that values may be nested. -/
def nestingLimit : Nat := 79

/-- Keys with dots in between, with blanks around each. -/
def keyPath : Reader (List String) := do
  let path ← Reader.sepBy (do
    blanks
    let key ← simpleKey
    blanks
    return key) (Reader.char '.')
  if path.length ≤ nestingLimit then return path else Reader.fail

end FixedArena.Toml
