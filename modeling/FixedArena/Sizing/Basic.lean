import FixedArena.Text.Quoted
import FixedArena.Word

/-!
Sizings: how many blocks and slots the arenas have and how long each is. The module holds the five
sizes, their defaults, and the check that a sizing passes before arenas are reserved from it.
-/

namespace FixedArena

/-- The sizes of the block arena that rings share. -/
structure BlockSizing where
  /-- Values that all rings together may hold. -/
  maxLen : Nat := 32
  /-- Rings that may exist at once; each takes a block for its head. -/
  maxDeques : Nat := 2
  /-- Bytes of a block, if the sizing says so. -/
  blockSize : Option Nat := none
  deriving DecidableEq, Repr

/-- The sizes of the text pool. -/
structure TextSizing where
  /-- Slots of the pool. -/
  slots : Nat := 16
  /-- Bytes of text that a slot can hold. -/
  maxStrLen : Nat := 20
  deriving DecidableEq, Repr

/-- The sizes of all arenas. -/
structure Sizing where
  nodes : BlockSizing := {}
  strings : TextSizing := {}
  deriving DecidableEq, Repr

namespace Sizing

/-- What is wrong with a sizing. -/
inductive Fault where
  /-- The size named by the key is zero. -/
  | zero (key : String)
  /-- The number of blocks is no machine word. -/
  | blocksOverflow
  /-- The number of slots is zero or reaches the index that names no slot. -/
  | slotsOutOfRange
  deriving DecidableEq, Repr

/-- The words that report a fault. -/
def Fault.reason : Fault → String
  | .zero key => s!"{key} must be at least 1"
  | .blocksOverflow => "nodes.max_len + nodes.max_deques overflows"
  | .slotsOutOfRange => "strings.slots must be in 1..65535"

/-- The first fault of a sizing, if it has one. -/
def check (s : Sizing) : Except Fault Unit :=
  if s.nodes.maxLen = 0 then .error (.zero "nodes.max_len")
  else if s.nodes.maxDeques = 0 then .error (.zero "nodes.max_deques")
  else if s.nodes.maxLen + s.nodes.maxDeques ≥ wordLimit then .error .blocksOverflow
  else if s.nodes.blockSize = some 0 then .error (.zero "nodes.item_size")
  else if s.strings.slots = 0 ∨ s.strings.slots ≥ 65535 then .error .slotsOutOfRange
  else if s.strings.maxStrLen = 0 then .error (.zero "strings.max_str_len")
  else .ok ()

/-- The sizing with its data. -/
def describe (s : Sizing) : String :=
  Text.record "CoreConfig" [
    ("nodes", Text.record "NodeSizing" [
      ("max_len", toString s.nodes.maxLen),
      ("max_deques", toString s.nodes.maxDeques),
      ("item_size", Text.optional (s.nodes.blockSize.map toString))] .whole),
    ("strings", Text.record "StringSizing" [
      ("slots", toString s.strings.slots),
      ("max_str_len", toString s.strings.maxStrLen)] .whole)] .whole

end Sizing

end FixedArena
