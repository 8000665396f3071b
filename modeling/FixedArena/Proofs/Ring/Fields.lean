import FixedArena.Proofs.Acts
import FixedArena.Proofs.Block.Frame
import FixedArena.Ring.Node

/-!
The fields of a node. A node that is in use and wide enough has two links and a value; setting one
of the three leaves the other two alone, and all other nodes.

Main facts:
* `setLink_ok`, `setValue_ok`: setting a field of a node in use succeeds;
* `linkOf_putLink`, `valueOf_putLink`, `linkOf_putValue`, `valueOf_putValue`: the fields afterwards;
* `SameBlocks.linkOf`, `SameBlocks.valueOf`: common blocks have the same fields;
* `Turns.putLink`, `Turns.putValue`: an owner may set the fields of his nodes.
-/

namespace FixedArena

/-- The arena with a link of a node set. -/
def BlockArena.putLink (a : BlockArena) (i : UInt32) (link : Ring.Link) (target : UInt32) :
    BlockArena :=
  a.put i link.offset (Element.encode target)

/-- The arena with the value of a node set. -/
def BlockArena.putValue {α : Type} [Element α] (a : BlockArena) (i : UInt32) (v : α) : BlockArena :=
  a.put i Ring.linkBytes (Element.encode v)

namespace Ring

variable {α : Type} [Element α] {a b : BlockArena} {i j t : UInt32} {link link' : Link}
  {offset len : Nat} {bs : List UInt8} {l : List UInt32} {v : α}

/-! ### Bytes of a node -/

theorem nodeBytes_ok (hu : a.InUse i) (hw : offset + len ≤ a.blockSize) :
    nodeBytes a i offset len = .ok (((a.slab.cell i.toNat).drop offset).take len) := by
  unfold nodeBytes
  rw [BlockArena.currentHandle_ok hu]
  exact BlockArena.read_ok (BlockArena.accepts_handleAt hu) hw

theorem setNodeBytes_ok (hu : a.InUse i) (hw : offset + bs.length ≤ a.blockSize) :
    setNodeBytes i offset bs a = ⟨.ok (), a.put i offset bs, []⟩ := by
  unfold setNodeBytes
  exact Eq.trans (Act.read_bind_ok (BlockArena.currentHandle_ok hu))
    (BlockArena.write_ok (BlockArena.accepts_handleAt hu) hw)

theorem currentHandle_eq (hab : a.SameBlocks b l) (hi : i ∈ l) :
    b.currentHandle i = a.currentHandle i := by
  unfold BlockArena.currentHandle BlockArena.slot?
  rw [hab.capacity, hab.slots i hi, hab.id]

theorem nodeBytes_eq (hab : a.SameBlocks b l) (hi : i ∈ l) :
    nodeBytes b i offset len = nodeBytes a i offset len := by
  unfold nodeBytes
  rw [currentHandle_eq hab hi]
  cases hc : a.currentHandle i with
  | error e => rfl
  | ok h =>
    have hu := BlockArena.inUse_of_currentHandle hc
    obtain rfl : a.handleAt i = h := by
      rw [BlockArena.currentHandle_ok hu] at hc
      exact Except.ok.inj hc
    exact hab.read hi (BlockArena.accepts_handleAt hu) len

theorem nodeBytes_put_of_ne (hw : offset + bs.length ≤ a.blockSize) (hij : j ≠ i) (start : Nat) :
    nodeBytes (a.put i offset bs) j start len = nodeBytes a j start len :=
  nodeBytes_eq (BlockArena.sameBlocks_put hw (l := [j]) (by simpa using hij.symm)) (by simp)

theorem cell_put (hw : offset + bs.length ≤ a.blockSize) :
    (a.put i offset bs).slab.cell i.toNat = Slab.patched (a.slab.cell i.toNat) offset bs := by
  rw [BlockArena.put, Slab.cell_overwriteCell hw, if_pos rfl]

theorem nodeBytes_put_self (hu : a.InUse i) (hw : offset + bs.length ≤ a.blockSize) :
    nodeBytes (a.put i offset bs) i offset bs.length = .ok bs := by
  rw [nodeBytes_ok (BlockArena.inUse_put.2 hu) hw, cell_put hw, Slab.read_patched]
  rwa [Slab.length_cell]

theorem nodeBytes_put_of_disjoint (hu : a.InUse i) (hw : offset + bs.length ≤ a.blockSize)
    {start : Nat} (hl : start + len ≤ a.blockSize)
    (hd : start + len ≤ offset ∨ offset + bs.length ≤ start) :
    nodeBytes (a.put i offset bs) i start len = nodeBytes a i start len := by
  rw [nodeBytes_ok (BlockArena.inUse_put.2 hu) hl, nodeBytes_ok hu hl, cell_put hw,
    Slab.read_patched_of_disjoint _ hd]
  rwa [Slab.length_cell]

/-! ### Setting a field -/

@[simp] theorem blockSize_putLink : (a.putLink i link t).blockSize = a.blockSize := rfl

@[simp] theorem blockSize_putValue : (a.putValue i v).blockSize = a.blockSize := rfl

@[simp] theorem inUse_putLink : (a.putLink i link t).InUse j ↔ a.InUse j := Iff.rfl

@[simp] theorem inUse_putValue : (a.putValue i v).InUse j ↔ a.InUse j := Iff.rfl

/-- A link lies before the value, and apart from the other link. -/
theorem offset_add_le (link : Link) : link.offset + 4 ≤ linkBytes := by cases link <;> decide

theorem offset_disjoint (h : link' ≠ link) :
    link'.offset + 4 ≤ link.offset ∨ link.offset + 4 ≤ link'.offset := by
  revert h
  cases link <;> cases link' <;> decide

theorem linkBytes_le {n : Nat} (hw : nodeSize α ≤ n) : linkBytes ≤ n := by
  unfold nodeSize at hw
  omega

theorem link_fits (hw : linkBytes ≤ a.blockSize) (link : Link) (t : UInt32) :
    link.offset + (Element.encode t).length ≤ a.blockSize := by
  have := offset_add_le link
  have ht : (Element.encode t).length = 4 := Element.length_encode t
  omega

theorem value_fits (hw : nodeSize α ≤ a.blockSize) (v : α) :
    linkBytes + (Element.encode v).length ≤ a.blockSize := by
  rwa [Element.length_encode]

theorem setLink_ok (hu : a.InUse i) (hw : linkBytes ≤ a.blockSize) :
    setLink i link t a = ⟨.ok (), a.putLink i link t, []⟩ :=
  setNodeBytes_ok hu (link_fits hw link t)

theorem setValue_ok (hu : a.InUse i) (hw : nodeSize α ≤ a.blockSize) :
    setValue i v a = ⟨.ok (), a.putValue i v, []⟩ :=
  setNodeBytes_ok hu (value_fits hw v)

/-! ### The fields afterwards -/

/-- **The links after a link is set.** -/
theorem linkOf_putLink (hu : a.InUse i) (hw : linkBytes ≤ a.blockSize) :
    linkOf (a.putLink i link t) j link' =
      if j = i ∧ link' = link then .ok t else linkOf a j link' := by
  have hf := link_fits hw link t
  by_cases hj : j = i
  · subst hj
    by_cases hl : link' = link
    · subst hl
      rw [if_pos ⟨rfl, rfl⟩, linkOf, show 4 = (Element.encode t).length from
        (Element.length_encode t).symm, BlockArena.putLink, nodeBytes_put_self hu hf]
      simp [Except.map]
    · rw [if_neg fun h => hl h.2, linkOf, linkOf, BlockArena.putLink,
        nodeBytes_put_of_disjoint hu hf]
      · have := offset_add_le link'
        omega
      · rw [Element.length_encode]
        exact offset_disjoint hl
  · rw [if_neg fun h => hj h.1, linkOf, linkOf, BlockArena.putLink, nodeBytes_put_of_ne hf hj]

/-- **The values after a link is set.** -/
theorem valueOf_putLink (hu : a.InUse i) (hw : nodeSize α ≤ a.blockSize) :
    (valueOf (a.putLink i link t) j : Except Error α) = valueOf a j := by
  have hf := link_fits (linkBytes_le hw) link t
  unfold valueOf BlockArena.putLink
  by_cases hj : j = i
  · subst hj
    rw [nodeBytes_put_of_disjoint hu hf hw]
    rw [Element.length_encode]
    exact .inr (offset_add_le link)
  · rw [nodeBytes_put_of_ne hf hj]

/-- **The links after a value is set.** -/
theorem linkOf_putValue (hu : a.InUse i) (hw : nodeSize α ≤ a.blockSize) :
    linkOf (a.putValue i v) j link = linkOf a j link := by
  have hf := value_fits hw v
  have ho := offset_add_le link
  unfold linkOf BlockArena.putValue
  by_cases hj : j = i
  · subst hj
    rw [nodeBytes_put_of_disjoint hu hf (by omega) (.inl ho)]
  · rw [nodeBytes_put_of_ne hf hj]

/-- **The values after a value is set.** -/
theorem valueOf_putValue (hu : a.InUse i) (hw : nodeSize α ≤ a.blockSize) :
    valueOf (a.putValue i v) j = if j = i then .ok v else valueOf a j := by
  have hf := value_fits hw v
  unfold valueOf BlockArena.putValue
  by_cases hj : j = i
  · subst hj
    rw [if_pos rfl, ← Element.length_encode v, nodeBytes_put_self hu hf]
    simp [Except.map]
  · rw [if_neg hj, nodeBytes_put_of_ne hf hj]

end Ring

namespace BlockArena.SameBlocks

variable {α : Type} [Element α] {a b : BlockArena} {i : UInt32} {l : List UInt32}

theorem linkOf (hab : a.SameBlocks b l) (hi : i ∈ l) (link : Ring.Link) :
    Ring.linkOf b i link = Ring.linkOf a i link := by
  rw [Ring.linkOf, Ring.linkOf, Ring.nodeBytes_eq hab hi]

theorem valueOf (hab : a.SameBlocks b l) (hi : i ∈ l) :
    (Ring.valueOf b i : Except Error α) = Ring.valueOf a i := by
  rw [Ring.valueOf, Ring.valueOf, Ring.nodeBytes_eq hab hi]

end BlockArena.SameBlocks

namespace BlockArena.Turns

variable {α : Type} [Element α] {a b : BlockArena} {i t : UInt32} {l l' : List UInt32}

theorem putLink (hab : a.Turns l b l') (hw : Ring.linkBytes ≤ b.blockSize) (hi : i ∈ l')
    (link : Ring.Link) : a.Turns l (b.putLink i link t) l' :=
  hab.trans (turns_put (Ring.link_fits hw link t) hi)

theorem putValue (hab : a.Turns l b l') (hw : Ring.nodeSize α ≤ b.blockSize) (hi : i ∈ l') (v : α) :
    a.Turns l (b.putValue i v) l' :=
  hab.trans (turns_put (Ring.value_fits hw v) hi)

end BlockArena.Turns

end FixedArena
