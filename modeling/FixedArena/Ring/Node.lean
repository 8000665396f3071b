import FixedArena.Block.Arena
import FixedArena.Element

/-!
Nodes of rings. A node is a block: first the index of the next node, then the index of the one
before, then the image of the value. Nodes name each other by slot index; the arena turns an index
back into the handle of whatever block is in use there.
-/

namespace FixedArena.Ring

/-- The two links of a node. -/
inductive Link where
  | next
  | prev
  deriving DecidableEq, Repr

/-- Where a link stands in a node. -/
def Link.offset : Link → Nat
  | .next => 0
  | .prev => 4

/-- Bytes of both links, and so where the value stands in a node. -/
def linkBytes : Nat := 8

/-- Bytes that a node with a value of this type needs. -/
def nodeSize (α : Type) [Element α] : Nat := linkBytes + Element.width α

/-! ### Reading -/

/-- Some bytes of the block in use at a slot. -/
def nodeBytes (a : BlockArena) (index : UInt32) (offset len : Nat) : Except Error (List UInt8) := do
  let handle ← a.currentHandle index
  a.read handle offset len

/-- A link of a node. -/
def linkOf (a : BlockArena) (index : UInt32) (link : Link) : Except Error UInt32 :=
  (nodeBytes a index link.offset 4).map Element.decode

/-- The value of a node. -/
def valueOf {α : Type} [Element α] (a : BlockArena) (index : UInt32) : Except Error α :=
  (nodeBytes a index linkBytes (Element.width α)).map Element.decode

/-! ### Writing -/

/-- Writes bytes over a part of the block in use at a slot. -/
def setNodeBytes (index : UInt32) (offset : Nat) (bs : List UInt8) : Act Error BlockArena Unit := do
  let handle ← Act.read (·.currentHandle index)
  BlockArena.write handle offset bs

/-- Sets a link of a node. -/
def setLink (index : UInt32) (link : Link) (target : UInt32) : Act Error BlockArena Unit :=
  setNodeBytes index link.offset (Element.encode target)

/-- Sets the value of a node. -/
def setValue {α : Type} [Element α] (index : UInt32) (v : α) : Act Error BlockArena Unit :=
  setNodeBytes index linkBytes (Element.encode v)

/-! ### Linking in and out -/

/-- Takes a block for a node, with both links set. -/
def newNode (prev next : UInt32) : Act Error BlockArena UInt32 := do
  let handle ← BlockArena.allocate
  BlockArena.write handle Link.next.offset (Element.encode next)
  BlockArena.write handle Link.prev.offset (Element.encode prev)
  return handle.index

/-- Takes a block for a node that holds `v` and links it in between two nodes. -/
def linkIn {α : Type} [Element α] (prev next : UInt32) (v : α) :
    Act Error BlockArena Unit := do
  let node ← newNode prev next
  setValue node v
  setLink prev .next node
  setLink next .prev node

/-- Links the neighbour of `head` on one side out of its ring, gives its block back, and answers
with its value. -/
def linkOut {α : Type} [Element α] (head : UInt32) (side : Link) : Act Error BlockArena α := do
  let victim ← Act.read (linkOf · head side)
  let v ← Act.read (valueOf · victim)
  let next ← Act.read (linkOf · victim .next)
  let prev ← Act.read (linkOf · victim .prev)
  setLink prev .next next
  setLink next .prev prev
  let handle ← Act.read (·.currentHandle victim)
  BlockArena.free handle
  return v

end FixedArena.Ring
