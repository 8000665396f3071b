import FixedArena.Proofs.Acts
import FixedArena.Proofs.Block.Sound

/-!
Generations count frees. An operation either only hands blocks out or only takes blocks back, and
either way the generation of a block rises by one if the block goes out of use, and stays otherwise.
This holds of every arena, sound or not.

Main facts:
* `Ages`: generations rise with frees;
* `Grows`, `Releases`: the two kinds of operations;
* `grows_allocate`, `grows_write`, `releases_write`, `releases_free`: the operations of an arena.
-/

namespace FixedArena

namespace BlockArena

variable {a b c : BlockArena} {i : UInt32}

/-- The generation of a block rose by one if the block went out of use, and stayed otherwise. -/
structure Ages (a b : BlockArena) : Prop where
  id : b.id = a.id
  capacity : b.capacity = a.capacity
  generation : ∀ i, b.generation i = a.generation i + if a.InUse i ∧ ¬b.InUse i then 1 else 0

/-- No block was taken back. -/
structure Grows (a b : BlockArena) : Prop where
  id : b.id = a.id
  capacity : b.capacity = a.capacity
  inUse : ∀ i, a.InUse i → b.InUse i
  generation : ∀ i, b.generation i = a.generation i

/-- No block was handed out. -/
structure Releases (a b : BlockArena) : Prop extends Ages a b where
  inUse : ∀ i, b.InUse i → a.InUse i

instance : IsPreorder BlockArena Grows where
  refl _ := ⟨rfl, rfl, fun _ h => h, fun _ => rfl⟩
  trans _ _ _ h₁ h₂ := ⟨h₂.id.trans h₁.id, h₂.capacity.trans h₁.capacity,
    fun i h => h₂.inUse i (h₁.inUse i h), fun i => (h₂.generation i).trans (h₁.generation i)⟩

theorem Ages.refl (a : BlockArena) : a.Ages a := ⟨rfl, rfl, fun i => by simp⟩

theorem Grows.ages (h : a.Grows b) : a.Ages b := by
  refine ⟨h.id, h.capacity, fun i => ?_⟩
  have hi : ¬(a.InUse i ∧ ¬b.InUse i) := fun hi => hi.2 (h.inUse i hi.1)
  rw [if_neg hi, h.generation]
  simp

instance : IsPreorder BlockArena Releases where
  refl a := ⟨.refl a, fun _ h => h⟩
  trans a b c h₁ h₂ := by
    refine ⟨⟨h₂.id.trans h₁.id, h₂.capacity.trans h₁.capacity, fun i => ?_⟩,
      fun i h => h₁.inUse i (h₂.inUse i h)⟩
    have hab := h₁.inUse i
    have hbc := h₂.inUse i
    rw [h₂.generation, h₁.generation]
    -- a block goes out of use once
    by_cases ha : a.InUse i <;> by_cases hb : b.InUse i <;> by_cases hc : c.InUse i <;>
      simp_all

/-! ### Operations -/

theorem grows_allocate : Act.Within Grows allocate := by
  intro a
  rcases hn : a.freeList.next? with _ | ⟨index, rest⟩
  · rw [allocate_full a hn]
    exact refl_of Grows a
  · rw [allocate_ok a hn]
    refine ⟨rfl, rfl, fun i hi => ⟨hi.1, ?_⟩, fun i => generation_handOut⟩
    rw [slots_handOut]
    split
    · rfl
    · exact hi.2

/-- Bytes are of no account. -/
theorem same_write (h : BlockHandle) (offset : Nat) (bs : List UInt8) (a : BlockArena) :
    (write h offset bs a).state.id = a.id ∧ (write h offset bs a).state.capacity = a.capacity ∧
      (write h offset bs a).state.slots = a.slots := by
  unfold write
  match a.locate h with
  | .error e => exact ⟨rfl, rfl, rfl⟩
  | .ok slot =>
    cases hw : a.slab.write slot offset bs with
    | error e =>
      dsimp only
      rw [hw]
      exact ⟨rfl, rfl, rfl⟩
    | ok slab =>
      dsimp only
      rw [hw]
      exact ⟨rfl, Slab.count_write hw, rfl⟩

theorem grows_write (h : BlockHandle) (offset : Nat) (bs : List UInt8) :
    Act.Within Grows (write h offset bs) := by
  intro a
  obtain ⟨hid, hcap, hslots⟩ := same_write h offset bs a
  refine ⟨hid, hcap, fun i hi => ?_, fun i => ?_⟩
  · rwa [InUse, hcap, hslots]
  · rw [generation, hslots, generation]

theorem releases_write (h : BlockHandle) (offset : Nat) (bs : List UInt8) :
    Act.Within Releases (write h offset bs) := by
  intro a
  refine ⟨(grows_write h offset bs a).ages, fun i hi => ?_⟩
  obtain ⟨-, hcap, hslots⟩ := same_write h offset bs a
  rwa [InUse, hcap, hslots] at hi

theorem releases_free (h : BlockHandle) : Act.Within Releases (free h) := by
  intro a
  cases hl : a.locate h with
  | error e => exact free_error a h hl ▸ refl_of Releases a
  | ok slot =>
    rw [free_ok a h hl]
    have hu := (accepts_of_locate hl).inUse
    refine ⟨⟨rfl, rfl, fun i => ?_⟩, fun i hi => (inUse_takeBack.1 hi).2⟩
    rw [generation_takeBack]
    by_cases hi : i = h.index
    · have hout : a.InUse i ∧ ¬(a.takeBack h.index).InUse i :=
        ⟨hi ▸ hu, fun hb => (inUse_takeBack.1 hb).1 hi⟩
      rw [if_pos hi, if_pos hout, hi]
    · have hin : ¬(a.InUse i ∧ ¬(a.takeBack h.index).InUse i) :=
        fun hb => hb.2 (inUse_takeBack.2 ⟨hi, hb.1⟩)
      rw [if_neg hi, if_neg hin]
      simp

end BlockArena

end FixedArena
