import FixedArena.Text.Quoted

/-!
Handles of text slots. A handle is plain data, four bytes wide: the pool it belongs to and the
index of the slot. One index is kept back to say "no slot".
-/

namespace FixedArena

/-- The name of a text slot: its pool and its index. -/
structure TextHandle where
  pool : UInt16
  index : UInt16
  deriving DecidableEq, Repr

namespace TextHandle

/-- The index that names no slot. -/
def noneIndex : UInt16 := 65535

/-- The handle that names no slot. Identity zero belongs to no pool. -/
protected def none : TextHandle := ⟨0, noneIndex⟩

instance : Inhabited TextHandle := ⟨TextHandle.none⟩

/-- The handle whose bytes are all zero. It names no slot either. -/
def zero : TextHandle := ⟨0, 0⟩

/-- The handle carries the index that names no slot. -/
def isNone (h : TextHandle) : Bool := h.index = noneIndex

/-- A handle of the same pool with another index. -/
def withIndex (h : TextHandle) (index : UInt16) : TextHandle := { h with index }

/-- The handle as reports show it: its index. -/
def display (h : TextHandle) : String := if h.isNone then "none" else toString h.index

/-- The handle with its data. The pool's identity stays out of reports. -/
def describe (h : TextHandle) : String :=
  Text.record "StrHandle" [("pool", "_"), ("index", toString h.index)] .whole

end TextHandle

end FixedArena
