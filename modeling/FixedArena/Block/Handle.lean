import FixedArena.Text.Quoted

/-!
Handles of blocks. A handle names an arena, a slot of it, and the slot's generation at the time
the block was handed out, so that a handle kept beyond the block's life is recognised.
-/

namespace FixedArena

/-- The name of a block: its arena, its slot, and the slot's generation. -/
structure BlockHandle where
  arena : UInt32
  index : UInt32
  generation : UInt32
  deriving DecidableEq, Repr

/-- The handle with its data. The arena's identity stays out of reports. -/
def BlockHandle.describe (h : BlockHandle) : String :=
  Text.record "BlockHandle" [("arena", "_"), ("index", toString h.index),
    ("generation", toString h.generation)] .whole

end FixedArena
