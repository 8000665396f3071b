import FixedArena.Proofs.Block.Frame

/-!
Changes of bytes alone. A write changes no more than the bytes that it names: which blocks are in
use, in what order the others go out, and every other byte stay as they were.

Main facts:
* `Rewrites`: nothing changed but bytes at some spots, with `Rewrites.sound`, `Rewrites.inUse_iff`;
* `rewrites_put`: a write into a block;
* `Sound.live_pos`: an arena with a block in use counts one.
-/

namespace FixedArena.BlockArena

variable {a b c : BlockArena} {i j : UInt32} {k offset : Nat} {bs : List UInt8} {h : BlockHandle}
  {spots spots' : UInt32 → Nat → Prop}

/-- A byte of a block, if the block has one of this number. -/
def byte? (a : BlockArena) (i : UInt32) (k : Nat) : Option UInt8 := (a.slab.cell i.toNat)[k]?

/-- From one arena to the other nothing changed but bytes, and these at some spots only: at a spot are a
block and the number of a byte. -/
structure Rewrites (spots : UInt32 → Nat → Prop) (a b : BlockArena) : Prop where
  rest : b = { a with slab := b.slab }
  count : b.slab.count = a.slab.count
  width : b.slab.width = a.slab.width
  byte?_eq : ∀ i k, ¬spots i k → b.byte? i k = a.byte? i k

instance : IsPreorder BlockArena (Rewrites spots) where
  refl _ := ⟨rfl, rfl, rfl, fun _ _ _ => rfl⟩
  trans _ _ c hab hbc :=
    ⟨hbc.rest.trans (congrArg (fun d : BlockArena => { d with slab := c.slab }) hab.rest),
      hbc.count.trans hab.count, hbc.width.trans hab.width,
      fun i k hk => (hbc.byte?_eq i k hk).trans (hab.byte?_eq i k hk)⟩

namespace Rewrites

theorem mono (hab : Rewrites spots a b) (h : ∀ i k, spots i k → spots' i k) :
    Rewrites spots' a b :=
  ⟨hab.rest, hab.count, hab.width, fun i k hk => hab.byte?_eq i k fun hs => hk (h i k hs)⟩

theorem slots (hab : Rewrites spots a b) : b.slots = a.slots := hab.rest ▸ rfl

theorem freeList (hab : Rewrites spots a b) : b.freeList = a.freeList := hab.rest ▸ rfl

theorem live (hab : Rewrites spots a b) : b.live = a.live := hab.rest ▸ rfl

theorem capacity (hab : Rewrites spots a b) : b.capacity = a.capacity := hab.count

theorem blockSize (hab : Rewrites spots a b) : b.blockSize = a.blockSize := hab.width

theorem inUse_iff (hab : Rewrites spots a b) : b.InUse i ↔ a.InUse i := by
  unfold InUse
  rw [hab.slots, hab.capacity]

theorem sound (hab : Rewrites spots a b) (hs : a.Sound) : b.Sound where
  capacity_lt := hab.capacity ▸ hs.capacity_lt
  nodup_free := hab.freeList ▸ hs.nodup_free
  mem_free_iff i := by rw [hab.freeList, hab.capacity, hab.inUse_iff, hs.mem_free_iff]
  live_add_free := by rw [hab.freeList, hab.capacity, hab.live, hs.live_add_free]

end Rewrites

/-- **A write changes the bytes that it names.** -/
theorem rewrites_put (hw : offset + bs.length ≤ a.blockSize) :
    Rewrites (fun j k => j = i ∧ offset ≤ k ∧ k < offset + bs.length) a (a.put i offset bs) where
  rest := rfl
  count := rfl
  width := rfl
  byte?_eq j k hk := by
    unfold byte?
    rw [BlockArena.put, Slab.cell_overwriteCell hw]
    split
    · next hj =>
      obtain rfl := UInt32.toNat_inj.1 hj
      have hlen : offset + bs.length ≤ (a.slab.cell j.toNat).length := by rwa [Slab.length_cell]
      rw [Slab.getElem?_patched hlen, if_neg fun hin => hk ⟨rfl, hin⟩]
    · rfl

/-- A block that is handed out is all zeros; no other byte changes. -/
theorem byte?_handOut {rest : FreeList} (hj : j ≠ i) : (a.handOut i rest).byte? j k = a.byte? j k := by
  have hne : j.toNat ≠ i.toNat := fun h => hj (UInt32.toNat_inj.1 h)
  unfold byte?
  rw [handOut, Slab.cell_clear, if_neg hne]

@[simp] theorem byte?_takeBack : (a.takeBack i).byte? j k = a.byte? j k := rfl

theorem currentHandle_of_not_inUse (hu : ¬a.InUse i) : a.currentHandle i = .error (.foreign i) := by
  unfold currentHandle
  cases hs : a.slot? i.toNat with
  | none => rfl
  | some slot =>
    obtain ⟨hlt, rfl⟩ := slot?_eq_some_iff.1 hs
    exact if_neg fun hused => hu ⟨hlt, hused⟩

/-- An arena with a block in use counts at least one. -/
theorem Sound.live_pos (hs : a.Sound) (hu : a.InUse i) : 0 < a.live := by
  have hbefore := hs.live_add_free
  have hafter := (hs.takeBack hu).live_add_free
  change a.live - 1 + (a.freeList.push i).toList.length = a.capacity at hafter
  rw [FreeList.toList_push, List.length_cons] at hafter
  omega

end FixedArena.BlockArena
