import FixedArena.Toml.Reader

/-!
What stands between the parts of a document and means nothing: blanks, ends of lines, and comments.
-/

namespace FixedArena.Toml

/-- A blank inside a line. -/
def isBlank (c : Char) : Bool := c = ' ' || c = '\t'

/-- A character that comments and texts may hold: a tab, or a character that is no control of
ASCII. -/
def isTextChar (c : Char) : Bool := c = '\t' || (' ' ≤ c && c ≠ '\x7f')

/-- Blanks. -/
def blanks : Reader Unit := do
  let _ ← Reader.run isBlank

/-- The end of a line: a line feed, with or without a carriage return before it. -/
def newline : Reader Unit
  | '\n' :: cs => some ((), cs)
  | '\r' :: '\n' :: cs => some ((), cs)
  | _ => none

/-- A comment, up to the end of its line. -/
def comment : Reader Unit := do
  Reader.char '#'
  let _ ← Reader.run isTextChar

/-- The rest of a line on which nothing more is said: blanks, perhaps a comment, and the end of the
line or of the text. -/
def lineEnd : Reader Unit := do
  blanks
  Reader.orElse comment (pure ())
  Reader.orElse newline Reader.done

/-- Blanks, comments and ends of lines. -/
def gap : Reader Unit := do
  let _ ← Reader.many (Reader.orElse newline (Reader.orElse comment do
    Reader.orElse (Reader.char ' ') (Reader.char '\t')))

end FixedArena.Toml
