import FixedArena.Proofs.Block.Cells
import FixedArena.Proofs.Block.Sound
import Mathlib.Data.List.Perm.Basic

/-!
Who owns the blocks of an arena. The blocks in use are listed by their owners; an operation of one
owner changes his list and leaves the blocks of all others as they were, whoever they are.

Main facts:
* `SameBlocks`: blocks that two arenas have in common, down to the last byte;
* `Turns`: what an operation of one owner does, with the trivial and the composed case;
* `turns_handOut`, `turns_put`, `turns_takeBack`: the three ways to change an arena;
* `Frees`, `Turns.frees`: an operation after which its owner has no block.
-/

namespace FixedArena

namespace BlockArena

variable {a b c : BlockArena} {i j : UInt32} {l l' l'' : List UInt32} {rest : FreeList}
  {h : BlockHandle} {offset : Nat} {bs : List UInt8}

/-! ### Writing into a block -/

/-- The arena with bytes written over a part of a block. -/
def put (a : BlockArena) (i : UInt32) (offset : Nat) (bs : List UInt8) : BlockArena :=
  { a with slab := a.slab.overwriteCell i.toNat offset bs }

@[simp] theorem id_put : (a.put i offset bs).id = a.id := rfl

@[simp] theorem slots_put : (a.put i offset bs).slots = a.slots := rfl

@[simp] theorem freeList_put : (a.put i offset bs).freeList = a.freeList := rfl

@[simp] theorem capacity_put : (a.put i offset bs).capacity = a.capacity := rfl

@[simp] theorem blockSize_put : (a.put i offset bs).blockSize = a.blockSize := rfl

@[simp] theorem generation_put : (a.put i offset bs).generation j = a.generation j := rfl

@[simp] theorem inUse_put : (a.put i offset bs).InUse j ↔ a.InUse j := Iff.rfl

theorem Accepts.put (ha : a.Accepts h) : (a.put i offset bs).Accepts h := ⟨ha.1, ha.2, ha.3⟩

theorem Sound.put (hs : a.Sound) : (a.put i offset bs).Sound := ⟨hs.1, hs.2, hs.3, hs.4⟩

theorem write_ok (ha : a.Accepts h) (hw : offset + bs.length ≤ a.blockSize) :
    write h offset bs a = ⟨.ok (), a.put h.index offset bs, []⟩ := by
  have hin : a.slab.Inside h.index.toNat offset bs.length := ⟨ha.inUse.1, hw⟩
  simp [write, ha.locate, Slab.write, hin, BlockArena.put]

theorem read_ok {len : Nat} (ha : a.Accepts h) (hw : offset + len ≤ a.blockSize) :
    a.read h offset len = .ok (((a.slab.cell h.index.toNat).drop offset).take len) := by
  unfold read
  rw [ha.locate]
  exact Slab.read_eq_ok ha.inUse.1 hw

/-! ### Common blocks -/

/-- Two arenas of one identity and shape whose blocks of the given numbers agree. -/
structure SameBlocks (a b : BlockArena) (l : List UInt32) : Prop where
  id : b.id = a.id
  capacity : b.capacity = a.capacity
  blockSize : b.blockSize = a.blockSize
  slots : ∀ i ∈ l, b.slots.get i.toNat = a.slots.get i.toNat
  bytes : ∀ i ∈ l, b.slab.cell i.toNat = a.slab.cell i.toNat

namespace SameBlocks

theorem refl (a : BlockArena) (l : List UInt32) : a.SameBlocks a l :=
  ⟨rfl, rfl, rfl, fun _ _ => rfl, fun _ _ => rfl⟩

theorem trans (hab : a.SameBlocks b l) (hbc : b.SameBlocks c l) : a.SameBlocks c l where
  id := hbc.id.trans hab.id
  capacity := hbc.capacity.trans hab.capacity
  blockSize := hbc.blockSize.trans hab.blockSize
  slots i hi := (hbc.slots i hi).trans (hab.slots i hi)
  bytes i hi := (hbc.bytes i hi).trans (hab.bytes i hi)

theorem generation (hab : a.SameBlocks b l) (hi : i ∈ l) : b.generation i = a.generation i := by
  unfold BlockArena.generation
  rw [hab.slots i hi]

theorem inUse_iff (hab : a.SameBlocks b l) (hi : i ∈ l) : b.InUse i ↔ a.InUse i := by
  unfold InUse
  rw [hab.slots i hi, hab.capacity]

theorem accepts (hab : a.SameBlocks b l) (hi : h.index ∈ l) (ha : a.Accepts h) : b.Accepts h :=
  ⟨ha.1.trans hab.id.symm, (hab.inUse_iff hi).2 ha.2, (hab.generation hi).trans ha.3⟩

theorem read (hab : a.SameBlocks b l) (hi : h.index ∈ l) (ha : a.Accepts h) (len : Nat) :
    b.read h offset len = a.read h offset len := by
  by_cases hw : offset + len ≤ a.blockSize
  · rw [read_ok ha hw, read_ok (hab.accepts hi ha) (hab.blockSize ▸ hw), hab.bytes _ hi]
  · have hw' : ¬offset + len ≤ b.blockSize := hab.blockSize ▸ hw
    have hin : ¬a.slab.Inside h.index.toNat offset len := fun hin => hw hin.2
    have hin' : ¬b.slab.Inside h.index.toNat offset len := fun hin => hw' hin.2
    have hbs : b.slab.width = a.slab.width := hab.blockSize
    unfold BlockArena.read
    rw [ha.locate, (hab.accepts hi ha).locate]
    change b.slab.read _ _ _ = a.slab.read _ _ _
    rw [Slab.read, Slab.read, if_neg hin, if_neg hin', hbs]

end SameBlocks

theorem sameBlocks_put (hw : offset + bs.length ≤ a.blockSize) (hi : i ∉ l) :
    a.SameBlocks (a.put i offset bs) l where
  id := rfl
  capacity := rfl
  blockSize := rfl
  slots _ _ := rfl
  bytes j hj := by
    have hne : j.toNat ≠ i.toNat := fun h => hi (UInt32.toNat_inj.1 h ▸ hj)
    rw [BlockArena.put, Slab.cell_overwriteCell hw, if_neg hne]

theorem sameBlocks_handOut (hi : i ∉ l) : a.SameBlocks (a.handOut i rest) l where
  id := rfl
  capacity := rfl
  blockSize := rfl
  slots j hj := by
    have hne : j ≠ i := fun h => hi (h ▸ hj)
    rw [slots_handOut, if_neg hne]
  bytes j hj := by
    have hne : j.toNat ≠ i.toNat := fun h => hi (UInt32.toNat_inj.1 h ▸ hj)
    rw [handOut, Slab.cell_clear, if_neg hne]

theorem sameBlocks_takeBack (hi : i ∉ l) : a.SameBlocks (a.takeBack i) l where
  id := rfl
  capacity := rfl
  blockSize := rfl
  slots j hj := by
    have hne : j ≠ i := fun h => hi (h ▸ hj)
    rw [slots_takeBack, if_neg hne]
  bytes _ _ := rfl

/-! ### Lists of all blocks in use -/

/-- The list names the blocks in use, each once. -/
structure Covered (a : BlockArena) (l : List UInt32) : Prop where
  nodup : l.Nodup
  mem_iff : ∀ i, i ∈ l ↔ a.InUse i

theorem Covered.perm (hc : a.Covered l) (hp : l.Perm l') : a.Covered l' :=
  ⟨hp.nodup_iff.1 hc.nodup, fun i => hp.mem_iff.symm.trans (hc.mem_iff i)⟩

/-- A list of the blocks in use counts them. -/
theorem Sound.length_eq (hs : a.Sound) (hc : a.Covered l) : l.length = a.live := by
  have hperm : (l ++ a.freeList.toList).Perm ((List.range a.capacity).map UInt32.ofNat) := by
    have hcap := Nat.le_of_lt hs.capacity_lt
    refine (List.perm_ext_iff_of_nodup ?_ (nodup_map_ofNat hcap)).2 fun i => ?_
    · refine List.nodup_append'.2 ⟨hc.nodup, hs.nodup_free, fun i hi hfree => ?_⟩
      exact ((hs.mem_free_iff i).1 hfree).2 ((hc.mem_iff i).1 hi)
    · rw [List.mem_append, hc.mem_iff, hs.mem_free_iff, mem_map_ofNat_iff hcap]
      refine ⟨fun h => h.elim (fun hu => hu.1) fun h => h.1, fun hlt => ?_⟩
      by_cases hu : a.InUse i
      · exact .inl hu
      · exact .inr ⟨hlt, hu⟩
  have hlen := hperm.length_eq
  rw [List.length_append, List.length_map, List.length_range, ← hs.live_add_free] at hlen
  omega

/-- **An operation of one owner**, who has the blocks of one list before and of another after it:
the blocks in use are his and those of the others, and the others see no change. -/
structure Turns (a : BlockArena) (l : List UInt32) (b : BlockArena) (l' : List UInt32) : Prop where
  sound : a.Sound → b.Sound
  covered : ∀ r, a.Covered (l ++ r) → b.Covered (l' ++ r) ∧ a.SameBlocks b r

namespace Turns

theorem refl (a : BlockArena) (l : List UInt32) : a.Turns l a l :=
  ⟨fun hs => hs, fun r hc => ⟨hc, .refl a r⟩⟩

theorem trans (hab : a.Turns l b l') (hbc : b.Turns l' c l'') : a.Turns l c l'' where
  sound hs := hbc.sound (hab.sound hs)
  covered r hc := by
    obtain ⟨hc', hr⟩ := hab.covered r hc
    obtain ⟨hc'', hr'⟩ := hbc.covered r hc'
    exact ⟨hc'', hr.trans hr'⟩

theorem perm_right (hab : a.Turns l b l') (hp : l'.Perm l'') : a.Turns l b l'' where
  sound := hab.sound
  covered r hc := by
    obtain ⟨hc', hr⟩ := hab.covered r hc
    exact ⟨hc'.perm (hp.append_right r), hr⟩

theorem perm_left (hab : a.Turns l b l') (hp : l.Perm l'') : a.Turns l'' b l' where
  sound := hab.sound
  covered r hc := hab.covered r (hc.perm (hp.symm.append_right r))

end Turns

theorem turns_handOut (hs : a.Sound) (hn : a.freeList.next? = some (i, rest)) :
    a.Turns l (a.handOut i rest) (i :: l) where
  sound _ := hs.handOut hn
  covered r hc := by
    obtain ⟨hlt, hu⟩ := hs.of_next? hn
    have hi : i ∉ l ++ r := fun hm => hu ((hc.mem_iff i).1 hm)
    refine ⟨⟨List.nodup_cons.2 ⟨hi, hc.nodup⟩, fun j => ?_⟩,
      sameBlocks_handOut fun hm => hi (List.mem_append_right l hm)⟩
    rw [List.cons_append, List.mem_cons, hc.mem_iff, inUse_handOut hlt]

theorem turns_put (hw : offset + bs.length ≤ a.blockSize) (hi : i ∈ l) :
    a.Turns l (a.put i offset bs) l where
  sound hs := hs.put
  covered r hc := by
    refine ⟨⟨hc.nodup, hc.mem_iff⟩, sameBlocks_put hw fun hm => ?_⟩
    exact (List.nodup_append.1 hc.nodup).2.2 i hi i hm rfl

theorem turns_takeBack (hu : a.InUse i) : a.Turns (i :: l) (a.takeBack i) l where
  sound hs := hs.takeBack hu
  covered r hc := by
    obtain ⟨hi, hnd⟩ := List.nodup_cons.1 hc.nodup
    refine ⟨⟨hnd, fun j => ?_⟩, sameBlocks_takeBack fun hm => hi (List.mem_append_right l hm)⟩
    have hm := hc.mem_iff j
    rw [List.cons_append, List.mem_cons] at hm
    rw [inUse_takeBack, ← hm]
    constructor
    · intro hj
      exact ⟨fun h => hi (h ▸ hj), .inr hj⟩
    · rintro ⟨hne, rfl | hj⟩
      · exact absurd rfl hne
      · exact hj

/-! ### Blocks that are given back -/

/-- **Exactly these blocks are given back**; blocks that stay in use keep their generations and bytes. -/
structure Frees (l : List UInt32) (a b : BlockArena) : Prop where
  nodup : l.Nodup
  before : ∀ i ∈ l, a.InUse i
  inUse_iff : ∀ i, b.InUse i ↔ a.InUse i ∧ i ∉ l
  live : b.live + l.length = a.live
  others : ∀ m : List UInt32, (∀ i ∈ m, b.InUse i) → a.SameBlocks b m

/-- Blocks that are turned over to nobody are given back. -/
theorem Turns.frees (ht : a.Turns l b []) (hs : a.Sound) (hc : a.Covered (l ++ l')) :
    Frees l a b := by
  obtain ⟨hcov, hsame⟩ := ht.covered l' hc
  have hnd := List.nodup_append'.1 hc.nodup
  have hiff : ∀ i, b.InUse i ↔ a.InUse i ∧ i ∉ l := by
    intro i
    rw [← hcov.mem_iff, ← hc.mem_iff, List.nil_append, List.mem_append]
    constructor
    · exact fun hi => ⟨.inr hi, fun hl => hnd.2.2 hl hi⟩
    · rintro ⟨hi | hi, hl⟩
      · exact absurd hi hl
      · exact hi
  refine ⟨hnd.1, fun i hi => (hc.mem_iff i).1 (List.mem_append_left _ hi), hiff, ?_, ?_⟩
  · have hlen := hs.length_eq hc
    have hlen' := (ht.sound hs).length_eq hcov
    rw [List.length_append] at hlen
    rw [List.nil_append] at hlen'
    omega
  · intro m hm
    have hmem : ∀ i ∈ m, i ∈ l' := fun i hi => (hcov.mem_iff i).2 (hm i hi)
    exact ⟨hsame.id, hsame.capacity, hsame.blockSize, fun i hi => hsame.slots i (hmem i hi),
      fun i hi => hsame.bytes i (hmem i hi)⟩

/-! ### Direct operations -/

/-- A caller is handed a block, or the arena stays as it was. -/
theorem allocate_cases (a : BlockArena) (hs : a.Sound) :
    (∃ e log, allocate a = ⟨.error e, a, log⟩) ∨
    ∃ h b log, allocate a = ⟨.ok h, b, log⟩ ∧ b.Accepts h ∧ a.Turns [] b [h.index] := by
  rcases hn : a.freeList.next? with _ | ⟨i, rest⟩
  · exact .inl ⟨_, _, allocate_full a hn⟩
  · refine .inr ⟨_, _, _, allocate_ok a hn, ⟨rfl, ?_, generation_handOut⟩, turns_handOut hs hn⟩
    exact (inUse_handOut (hs.of_next? hn).1).2 (.inl rfl)

/-- A caller gives a block back, or the arena stays as it was. -/
theorem free_cases (h : BlockHandle) (a : BlockArena) (_ : a.Sound) :
    (∃ e log, free h a = ⟨.error e, a, log⟩) ∨
    ∃ v b log, free h a = ⟨.ok v, b, log⟩ ∧ (a.Accepts h ∧ ¬b.InUse h.index) ∧
      a.Turns [h.index] b [] := by
  cases hl : a.locate h with
  | error e => exact .inl ⟨_, _, free_error a h hl⟩
  | ok slot =>
    have ha := accepts_of_locate hl
    have hout : ¬(a.takeBack h.index).InUse h.index := fun hu => (inUse_takeBack.1 hu).1 rfl
    exact .inr ⟨(), _, _, free_ok a h hl, ⟨ha, hout⟩, turns_takeBack ha.inUse⟩

/-- A caller writes into a block, or the arena stays as it was. -/
theorem write_cases (h : BlockHandle) (offset : Nat) (bs : List UInt8) (a : BlockArena) :
    (∃ e log, write h offset bs a = ⟨.error e, a, log⟩) ∨
    ∃ v b log, write h offset bs a = ⟨.ok v, b, log⟩ ∧ a.Accepts h ∧
      a.Turns [h.index] b [h.index] := by
  cases hl : a.locate h with
  | error e => exact .inl ⟨e, [], by simp [write, hl]⟩
  | ok slot =>
    have ha := accepts_of_locate hl
    by_cases hw : offset + bs.length ≤ a.blockSize
    · exact .inr ⟨(), _, _, write_ok ha hw, ha, turns_put hw (List.mem_singleton_self _)⟩
    · obtain ⟨e, he⟩ : ∃ e, a.slab.write slot offset bs = .error e := by
        rw [Slab.write, if_neg fun hin => hw hin.2]
        exact ⟨_, rfl⟩
      exact .inl ⟨e, [], by simp [write, hl, he]⟩

end BlockArena

end FixedArena
