/-!
Readers: functions that take a value off the front of a text and leave the rest.

Main facts:
* `bind_some`, `bind_none`: what a sequence of two readers does;
* `many_none`, `many_some`: repetition goes on as long as there is a value.
-/

namespace FixedArena.Toml

/-- Takes a value off the front of a text, or finds none there. -/
def Reader (α : Type) : Type := List Char → Option (α × List Char)

namespace Reader

variable {α β : Type}

instance : Monad Reader where
  pure a := fun cs => some (a, cs)
  bind p f := fun cs =>
    match p cs with
    | some (a, rest) => f a rest
    | none => none

/-- Finds no value. -/
def fail : Reader α := fun _ => none

/-- Answers with a value that may be missing. -/
def ofOption : Option α → Reader α
  | some a => pure a
  | none => fail

/-- The first reader's value, or else the second's. -/
def orElse (p q : Reader α) : Reader α := fun cs =>
  match p cs with
  | some found => some found
  | none => q cs

/-- Takes one given character. -/
def char (c : Char) : Reader Unit
  | d :: cs => if d = c then some ((), cs) else none
  | [] => none

/-- Takes the longest run of characters of a class. -/
def run (p : Char → Bool) : Reader (List Char) := fun cs => some (cs.takeWhile p, cs.dropWhile p)

/-- Takes a value as often as there is one and text is left, after the values in `found`, the last
of which stands first. A list at least as long as the text bounds the repetition. -/
def manyFrom (p : Reader α) : List Char → List α → List Char → List α × List Char
  | _ :: bound, found, c :: cs =>
    match p (c :: cs) with
    | some (a, rest) => manyFrom p bound (a :: found) rest
    | none => (found.reverse, c :: cs)
  | _, found, cs => (found.reverse, cs)

/-- As many values as there are. -/
def many (p : Reader α) : Reader (List α) := fun cs => some (manyFrom p cs [] cs)

/-- One value, and further ones that each follow a separator. -/
def sepBy (p : Reader α) (sep : Reader Unit) : Reader (List α) := do
  let first ← p
  let others ← many do
    sep
    p
  return first :: others

/-- Takes nothing, at the end of the text only. -/
def done : Reader Unit
  | [] => some ((), [])
  | _ :: _ => none

/-! ### What the readers do -/

@[simp] theorem pure_apply (a : α) (cs : List Char) : (pure a : Reader α) cs = some (a, cs) := rfl

theorem bind_some {p : Reader α} {f : α → Reader β} {cs rest : List Char} {a : α}
    (h : p cs = some (a, rest)) : (p >>= f) cs = f a rest := by
  change (match p cs with | some (a, rest) => f a rest | none => none) = _
  rw [h]

theorem bind_none {p : Reader α} {f : α → Reader β} {cs : List Char} (h : p cs = none) :
    (p >>= f) cs = none := by
  change (match p cs with | some (a, rest) => f a rest | none => none) = _
  rw [h]

/-- Whatever the reader takes, it takes text. -/
def Shortens (p : Reader α) : Prop :=
  ∀ cs a rest, p cs = some (a, rest) → rest.length < cs.length

theorem manyFrom_eq {p : Reader α} (h : Shortens p) (bound : List Char) (found : List α)
    (cs : List Char) (hb : cs.length ≤ bound.length) :
    manyFrom p bound found cs =
      (found.reverse ++ (manyFrom p cs [] cs).1, (manyFrom p cs [] cs).2) := by
  induction hn : cs.length using Nat.strongRecOn generalizing bound found cs with
  | _ n ih =>
    match bound, cs with
    | _, [] => simp [manyFrom]
    | [], _ :: _ => simp at hb
    | _ :: bound, c :: cs =>
      rw [manyFrom, manyFrom]
      match hp : p (c :: cs) with
      | none => simp
      | some (a, rest) =>
        have hlt := h _ _ _ hp
        simp only [List.length_cons] at hlt hb hn
        dsimp only
        rw [ih rest.length (by omega) bound (a :: found) rest (by omega) rfl,
          ih rest.length (by omega) cs [a] rest (by omega) rfl]
        simp

theorem many_none {p : Reader α} {c : Char} {cs : List Char} (hp : p (c :: cs) = none) :
    many p (c :: cs) = some ([], c :: cs) := by
  simp [many, manyFrom, hp]

theorem many_some {p : Reader α} (h : Shortens p) {c : Char} {cs rest : List Char} {a : α}
    (hp : p (c :: cs) = some (a, rest)) :
    many p (c :: cs) = (many p rest).map fun (as, last) => (a :: as, last) := by
  have hlt := h _ _ _ hp
  simp only [List.length_cons] at hlt
  simp [many, manyFrom, hp, manyFrom_eq h cs [a] rest (by omega)]

end Reader

end FixedArena.Toml
