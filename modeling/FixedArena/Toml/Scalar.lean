import FixedArena.Toml.Text
import FixedArena.Word

/-!
Words: numbers, truth values, dates and times. A word is a run of letters, digits and a few signs;
its form decides what it says. Only whole numbers are read out in full; of the others the word is
kept as it stands.
-/

namespace FixedArena.Toml

/-! ### Runs of digits -/

/-- The digits of a run in which single underscores may stand between digits. -/
def plainDigits? (isDigit : Char → Bool) : List Char → Option (List Char)
  | [] => none
  | [c] => if isDigit c then some [c] else none
  | c :: '_' :: cs =>
    if isDigit c then (plainDigits? isDigit cs).map (c :: ·) else none
  | c :: cs => if isDigit c then (plainDigits? isDigit cs).map (c :: ·) else none

/-- The value of a digit. -/
def digitValue (c : Char) : Nat := (hexDigit? c).getD 0

/-- The number with the given digits. -/
def ofDigits (base : Nat) (digits : List Char) : Nat :=
  digits.foldl (fun n c => base * n + digitValue c) 0

/-- A number written with the given digits, which must all belong to the base. -/
def number? (base : Nat) (word : List Char) : Option Nat :=
  (plainDigits? (fun c => (hexDigit? c).any (· < base)) word).map (ofDigits base)

/-- The digits of a decimal number without leading zeros. -/
def decimalDigits? (word : List Char) : Option (List Char) := do
  let digits ← plainDigits? Char.isDigit word
  match digits with
  | '0' :: _ :: _ => none
  | _ => some digits

/-- A sign, if there is one, and the rest of the word. -/
def splitSign : List Char → Bool × List Char
  | '-' :: cs => (true, cs)
  | '+' :: cs => (false, cs)
  | cs => (false, cs)

/-! ### Whole numbers -/

/-- A whole number that fits a signed word. -/
def inRange? (n : Int) : Option Int :=
  if -signedLimit ≤ n ∧ n < signedLimit then some n else none

/-- The whole number that a word says. -/
def integer? (word : List Char) : Option Int :=
  match word with
  | '0' :: 'x' :: cs => do inRange? (← number? 16 cs)
  | '0' :: 'o' :: cs => do inRange? (← number? 8 cs)
  | '0' :: 'b' :: cs => do inRange? (← number? 2 cs)
  | _ => do
    let (negative, cs) := splitSign word
    let n := ofDigits 10 (← decimalDigits? cs)
    inRange? (if negative then -n else n)

/-! ### Floating-point numbers -/

/-- The number whose decimal digits are those of `n` with so many zeros behind them. -/
def shiftDigits (n zeros : Nat) : Nat := Nat.repeat (10 * ·) zeros n

/-- A decimal fraction is beyond the largest finite number of 64 bits: it is at least half a unit
above it. The fraction is `digits` with the decimal point moved `exponent` places to the right. -/
def overflows (digits : Nat) (exponent : Int) : Bool :=
  let limit := (1 <<< 54 - 1) <<< 970
  let length : Int := (Nat.toDigits 10 digits).length
  if digits = 0 ∨ length + exponent ≤ 308 then false
  else if length + exponent > 310 then true
  else shiftDigits digits exponent.toNat ≥ shiftDigits limit (-exponent).toNat

/-- The number after the sign that scales a decimal fraction. -/
def exponent? (cs : List Char) : Option Int := do
  let (negative, digits) := splitSign cs
  let n := ofDigits 10 (← plainDigits? Char.isDigit digits)
  some (if negative then -n else n)

/-- The word is a floating-point number. The largest finite number bounds those from above. -/
def isFloat (word : List Char) : Bool :=
  let (negative, body) := splitSign word
  let isScale (c : Char) : Bool := c = 'e' || c = 'E'
  let mantissa := body.takeWhile (!isScale ·)
  let scale := body.dropWhile (!isScale ·)
  let whole := mantissa.takeWhile (· ≠ '.')
  let fraction := mantissa.dropWhile (· ≠ '.')
  let parts : Option (Nat × Int) := do
    let wholeDigits ← decimalDigits? whole
    let fractionDigits ←
      match fraction with
      | [] => some []
      | _ :: cs => plainDigits? Char.isDigit cs
    let exponent ←
      match scale with
      | [] => if fraction.isEmpty then none else some 0
      | _ :: cs => exponent? cs
    some (ofDigits 10 (wholeDigits ++ fractionDigits), exponent - fractionDigits.length)
  match parts with
  | some (digits, exponent) => negative || !overflows digits exponent
  | none => body = "inf".toList || body = "nan".toList

/-! ### Dates and times -/

/-- Two digits with a value up to a bound. -/
def upTo (bound : Nat) : List Char → Bool
  | [a, b] => a.isDigit && b.isDigit && ofDigits 10 [a, b] ≤ bound
  | _ => false

/-- The days of a month. -/
def daysIn (year month : Nat) : Nat :=
  match month with
  | 2 => if year % 4 = 0 ∧ (year % 100 ≠ 0 ∨ year % 400 = 0) then 29 else 28
  | 4 | 6 | 9 | 11 => 30
  | _ => 31

/-- The word is a day of the calendar. -/
def isDate : List Char → Bool
  | [y₁, y₂, y₃, y₄, '-', m₁, m₂, '-', d₁, d₂] =>
    let year := [y₁, y₂, y₃, y₄]
    let month := ofDigits 10 [m₁, m₂]
    let day := ofDigits 10 [d₁, d₂]
    [y₁, y₂, y₃, y₄, m₁, m₂, d₁, d₂].all Char.isDigit &&
      1 ≤ month && month ≤ 12 && 1 ≤ day && day ≤ daysIn (ofDigits 10 year) month
  | _ => false

/-- The word is a time of day. A minute may have a leap second. -/
def isTime : List Char → Bool
  | h₁ :: h₂ :: ':' :: m₁ :: m₂ :: ':' :: s₁ :: s₂ :: fraction =>
    upTo 23 [h₁, h₂] && upTo 59 [m₁, m₂] && upTo 60 [s₁, s₂] &&
      match fraction with
      | [] => true
      | '.' :: cs => !cs.isEmpty && cs.all Char.isDigit
      | _ => false
  | _ => false

/-- The word is a distance from universal time. -/
def isOffset : List Char → Bool
  | ['Z'] | ['z'] => true
  | [sign, h₁, h₂, ':', m₁, m₂] =>
    (sign = '+' || sign = '-') && upTo 23 [h₁, h₂] && upTo 59 [m₁, m₂]
  | _ => false

/-- The word is a time of day, with or without a distance from universal time. -/
def isClock (word : List Char) : Bool :=
  let startsOffset (c : Char) : Bool := c = 'Z' || c = 'z' || c = '+' || c = '-'
  let offset := word.dropWhile (!startsOffset ·)
  isTime (word.takeWhile (!startsOffset ·)) && (offset.isEmpty || isOffset offset)

/-- The word is a day and a time on it. -/
def isMoment (word : List Char) : Bool :=
  match word.drop 10 with
  | 'T' :: clock | 't' :: clock => isDate (word.take 10) && isClock clock
  | _ => false

/-! ### Words -/

/-- What a word can say. -/
inductive Scalar where
  | integer (n : Int)
  | float (word : String)
  | flag (b : Bool)
  | time (word : String)
  | text (t : String)
  deriving DecidableEq, Repr

/-- A character of words. -/
def isWordChar (c : Char) : Bool :=
  c.isAlphanum || c = '+' || c = '-' || c = '_' || c = '.' || c = ':'

/-- What a word says, if it says anything. -/
def scalarOf? (word : List Char) : Option Scalar :=
  if word = "true".toList then some (.flag true)
  else if word = "false".toList then some (.flag false)
  else if isDate word || isTime word || isMoment word then some (.time (String.ofList word))
  else if isFloat word then some (.float (String.ofList word))
  else (integer? word).map .integer

/-- A time of day behind a date and one space. -/
def spacedClock : Reader (List Char) := do
  Reader.char ' '
  let word ← Reader.run isWordChar
  if isClock word then return ' ' :: word else Reader.fail

/-- A word. A day may be followed by one space and a time on it. -/
def word : Reader Scalar := do
  let cs ← Reader.run isWordChar
  let found ← Reader.ofOption (scalarOf? cs)
  if isDate cs then
    let clock ← Reader.orElse spacedClock (pure [])
    return .time (String.ofList (cs ++ clock))
  else
    return found

end FixedArena.Toml
