import FixedArena.Toml.Scalar

/-!
Tables: named values in the order in which they were written. A table remembers how it came about,
since that decides what may still be added to it.

Main facts:
* `insert_eq_some`: a value is added behind the others;
* `insert_eq_none_iff`: nothing is added under a name that is taken.
-/

namespace FixedArena.Toml

/-- How a table came about. -/
inductive Origin where
  /-- A header names it. -/
  | header
  /-- It lies on the path of a header. -/
  | implied
  /-- It lies on the path of a dotted key. -/
  | dotted
  /-- It was written in braces. -/
  | inline
  deriving DecidableEq, Repr

/-- A value of a document. -/
inductive Value where
  | scalar (s : Scalar)
  | array (items : List Value)
  | table (origin : Origin) (entries : List (String × Value))
  /-- Tables under one name, each with a header of its own. -/
  | tables (elements : List (List (String × Value)))

/-- Named values, in order. -/
abbrev Table : Type := List (String × Value)

namespace Table

/-- Adds a value under a name that is not taken yet. -/
def insert (t : Table) (key : String) (v : Value) : Option Table :=
  match t.lookup key with
  | none => some (t ++ [(key, v)])
  | some _ => none

/-- The table with another value under a name. -/
def replace (t : Table) (key : String) (v : Value) : Table :=
  t.map fun entry => if entry.1 = key then (key, v) else entry

/-- The way in which a path is written: with dots before a value, or in a header. -/
inductive Way where
  | key
  | header
  deriving DecidableEq, Repr

/-- The origin of a table that a path brings about. -/
def Way.origin : Way → Origin
  | .key => .dotted
  | .header => .implied

/-- A path leads into a table. A dotted key leads into no table that a header or braces define. -/
def Way.enters : Way → Origin → Bool
  | .key, .header | .key, .inline => false
  | .header, .inline => false
  | _, _ => true

/-- Changes the table at the end of a path; tables that are missing on the way are brought about.
A path leads into the last of several tables under one name. -/
def alter (way : Way) (f : Origin → Table → Option Table) :
    List String → Origin → Table → Option Table
  | [], origin, t => f origin t
  | key :: path, _, t =>
    match t.lookup key with
    | none => do
      let inner ← alter way f path way.origin []
      t.insert key (.table way.origin inner)
    | some (.table origin inner) =>
      if way.enters origin then do
        let inner' ← alter way f path origin inner
        some (t.replace key (.table origin inner'))
      else none
    | some (.tables elements) => do
      let last ← elements.getLast?
      let last' ← alter way f path .header last
      some (t.replace key (.tables (elements.dropLast ++ [last'])))
    | some _ => none

/-- Splits the last key off a path. -/
def splitLast (path : List String) : Option (List String × String) :=
  path.getLast?.map fun key => (path.dropLast, key)

/-- Adds a value under a dotted key. Dotted keys add to tables of dotted keys only, and plain keys
to the others. -/
def insertAt (t : Table) (path : List String) (v : Value) : Option Table := do
  let (parents, key) ← splitLast path
  alter .key (fun origin t =>
    if (origin == .dotted) == parents.isEmpty then none else t.insert key v) parents .header t

/-- Opens the table that a header names. -/
def openTable (t : Table) (path : List String) : Option Table := do
  let (parents, key) ← splitLast path
  alter .header (fun _ t =>
    match t.lookup key with
    | none => t.insert key (.table .header [])
    | some (.table .implied inner) => some (t.replace key (.table .header inner))
    | some _ => none) parents .header t

/-- Opens one more table under the name that a doubled header gives. -/
def openElement (t : Table) (path : List String) : Option Table := do
  let (parents, key) ← splitLast path
  alter .header (fun _ t =>
    match t.lookup key with
    | none => t.insert key (.tables [[]])
    | some (.tables elements) => some (t.replace key (.tables (elements ++ [[]])))
    | some _ => none) parents .header t

theorem insert_eq_none_iff (t : Table) (key : String) (v : Value) :
    t.insert key v = none ↔ (t.lookup key).isSome := by
  unfold insert
  cases t.lookup key <;> simp

theorem insert_eq_some {t t' : Table} {key : String} {v : Value} (h : t.insert key v = some t') :
    t.lookup key = none ∧ t' = t ++ [(key, v)] := by
  unfold insert at h
  split at h
  · next hl => exact ⟨hl, (Option.some.inj h).symm⟩
  · simp at h

end Table

end FixedArena.Toml
