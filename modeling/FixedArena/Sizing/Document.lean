import FixedArena.Act
import FixedArena.Text.Bytes
import FixedArena.Toml.Document

/-!
Sizings as documents: reading one from a text or a file, and writing one. A document names the
sizes that it sets; the others keep their defaults. Either group of sizes may be a table by name or
an array by position.

Main facts:
* `SizeGroup`: a group of sizes, read by name or by position in one way for all groups;
* `write?_eq_none_iff`: a sizing can be written unless a size exceeds the numbers of documents.
-/

namespace FixedArena

/-! ### Reading -/

/-- A size: a whole number from zero on. -/
def Sizing.size? : Toml.Value → Option Nat
  | .scalar (.integer n) => if 0 ≤ n then some n.toNat else none
  | _ => none

/-- A group of sizes: their names, in the order in which an array gives them, and how each is set. -/
abbrev SizeGroup (σ : Type) : Type := List (String × (Nat → σ → σ))

namespace SizeGroup

variable {σ : Type}

/-- The names of the sizes. -/
def keys (group : SizeGroup σ) : List String := group.map Prod.fst

/-- The sizing with one size set by name. -/
def set? (group : SizeGroup σ) (s : σ) (key : String) (v : Toml.Value) : Option σ := do
  let put ← group.lookup key
  let n ← Sizing.size? v
  return put n s

theorem set?_eq_some_iff {group : SizeGroup σ} {s t : σ} {key : String} {v : Toml.Value} :
    group.set? s key v = some t ↔
      ∃ put n, group.lookup key = some put ∧ Sizing.size? v = some n ∧ put n s = t := by
  simp [set?, Option.bind_eq_some_iff]

/-- The sizing with the sizes that a table names. -/
def ofTable? (group : SizeGroup σ) (s : σ) (t : Toml.Table) : Option σ :=
  t.foldlM (fun s entry => group.set? s entry.1 entry.2) s

/-- The sizing with the sizes that a value gives, by name or by position. -/
def ofValue? (group : SizeGroup σ) (s : σ) : Toml.Value → Option σ
  | .table _ entries => group.ofTable? s entries
  | .array items => group.ofTable? s (group.keys.zip items)
  | _ => none

end SizeGroup

namespace BlockSizing

/-- The sizes of the block arena. -/
def group : SizeGroup BlockSizing := [
  ("max_len", fun n s => { s with maxLen := n }),
  ("max_deques", fun n s => { s with maxDeques := n }),
  ("item_size", fun n s => { s with blockSize := some n })]

/-- The names of the sizes, in the order in which an array gives them. -/
def keys : List String := group.keys

/-- The sizing with the sizes that a table names. -/
def ofTable? : Toml.Table → Option BlockSizing := group.ofTable? {}

/-- The sizing that a value describes. -/
def ofValue? : Toml.Value → Option BlockSizing := group.ofValue? {}

end BlockSizing

namespace TextSizing

/-- The sizes of the text pool. -/
def group : SizeGroup TextSizing := [
  ("slots", fun n s => { s with slots := n }),
  ("max_str_len", fun n s => { s with maxStrLen := n })]

/-- The names of the sizes, in the order in which an array gives them. -/
def keys : List String := group.keys

/-- The sizing with the sizes that a table names. -/
def ofTable? : Toml.Table → Option TextSizing := group.ofTable? {}

/-- The sizing that a value describes. -/
def ofValue? : Toml.Value → Option TextSizing := group.ofValue? {}

end TextSizing

namespace Sizing

/-- The sizing with one group of sizes set by name. -/
def set? (s : Sizing) (key : String) (v : Toml.Value) : Option Sizing :=
  if key = "nodes" then (BlockSizing.ofValue? v).map ({ s with nodes := · })
  else if key = "strings" then (TextSizing.ofValue? v).map ({ s with strings := · })
  else none

/-- The sizing with the groups that a document names. -/
def ofTable? (t : Toml.Table) : Option Sizing :=
  t.foldlM (fun s entry => s.set? entry.1 entry.2) {}

/-- The sizing that a text describes. It is checked only after all of the text was understood. -/
def parse (text : String) : Except Error Sizing :=
  match (Toml.document? text).bind ofTable? with
  | none => .error (.malformed "no document of sizes")
  | some s =>
    match s.check with
    | .ok () => .ok s
    | .error fault => .error (.badSizing fault.reason)

/-! ### Files -/

/-- Why a file cannot be read. -/
inductive FileFault where
  | missing
  | isDirectory
  | parentIsFile
  | notText
  deriving DecidableEq, Repr

/-- The words that report why a file cannot be read. -/
def FileFault.reason : FileFault → String
  | .missing => "No such file or directory (os error 2)"
  | .isDirectory => "Is a directory (os error 21)"
  | .parentIsFile => "Not a directory (os error 20)"
  | .notText => "stream did not contain valid UTF-8"

/-- The text of a file with the given bytes. -/
def fileText (bytes : Except FileFault (List UInt8)) : Except FileFault String := do
  match Text.ofBytes? (← bytes) with
  | some t => .ok t
  | none => .error .notText

/-- The sizing that the file at `path` describes, where `bytes` is what the file holds. -/
def load (path : String) (bytes : Except FileFault (List UInt8)) : Act Error Unit Sizing := do
  match fileText bytes with
  | .error fault => Act.fail (.unreadable (path ++ ": " ++ fault.reason))
  | .ok text =>
    let s ← Act.read fun _ => parse text
    Act.log (.sizingLoaded path s)
    return s

/-! ### Writing -/

/-- The line that sets a size. -/
def writtenSize (key : String) (n : Nat) : String := key ++ " = " ++ toString n ++ "\n"

/-- The document of a sizing. -/
def written (s : Sizing) : String :=
  "[nodes]\n" ++ writtenSize "max_len" s.nodes.maxLen ++
    writtenSize "max_deques" s.nodes.maxDeques ++
    (match s.nodes.blockSize with
    | none => ""
    | some n => writtenSize "item_size" n) ++
    "\n[strings]\n" ++ writtenSize "slots" s.strings.slots ++
    writtenSize "max_str_len" s.strings.maxStrLen

/-- The sizes that a sizing gives. -/
def sizes (s : Sizing) : List Nat :=
  [s.nodes.maxLen, s.nodes.maxDeques] ++ s.nodes.blockSize.toList ++
    [s.strings.slots, s.strings.maxStrLen]

/-- The document of a sizing, if a document can hold its sizes: numbers there have a sign and 64
bits. -/
def write? (s : Sizing) : Option String :=
  if s.sizes.all (· < signedLimit) then some s.written else none

theorem write?_eq_none_iff (s : Sizing) : s.write? = none ↔ ∃ n ∈ s.sizes, signedLimit ≤ n := by
  unfold write?
  split <;> simp_all

end Sizing

end FixedArena
