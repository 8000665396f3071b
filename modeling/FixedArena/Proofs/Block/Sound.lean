import FixedArena.Block.Arena
import Mathlib.Data.List.Nodup

/-!
Sound arenas: the free list holds the blocks that are not in use, each once, and the count of
blocks in use is what the free list leaves over. Handing out and taking back keep an arena sound,
and either changes the state of one block only.

Main facts:
* `sound_fresh`, `Sound.handOut`, `Sound.takeBack`: how sound arenas come about;
* `inUse_handOut`, `inUse_takeBack`, `generation_takeBack`: what becomes of the blocks;
* `accepts_iff`, `accepts_of_locate`: the handles that an arena accepts.
-/

namespace FixedArena

namespace BlockArena

variable {a : BlockArena} {i j : UInt32} {rest : FreeList} {h : BlockHandle}

/-! ### Blocks in use -/

/-- The block of this number is handed out. -/
def InUse (a : BlockArena) (i : UInt32) : Prop :=
  i.toNat < a.capacity ∧ (a.slots.get i.toNat).used = true

instance (a : BlockArena) (i : UInt32) : Decidable (a.InUse i) := by
  unfold InUse; infer_instance

@[simp] theorem id_handOut : (a.handOut i rest).id = a.id := rfl

@[simp] theorem id_takeBack : (a.takeBack i).id = a.id := rfl

@[simp] theorem capacity_handOut : (a.handOut i rest).capacity = a.capacity := rfl

@[simp] theorem capacity_takeBack : (a.takeBack i).capacity = a.capacity := rfl

@[simp] theorem blockSize_handOut : (a.handOut i rest).blockSize = a.blockSize := rfl

@[simp] theorem blockSize_takeBack : (a.takeBack i).blockSize = a.blockSize := rfl

theorem slots_handOut :
    (a.handOut i rest).slots.get j.toNat =
      if j = i then { a.slots.get i.toNat with used := true } else a.slots.get j.toNat := by
  simp only [handOut, Memory.get_set, UInt32.toNat_inj]

theorem slots_takeBack :
    (a.takeBack i).slots.get j.toNat =
      if j = i then ⟨false, a.generation i + 1⟩ else a.slots.get j.toNat := by
  simp only [takeBack, Memory.get_set, UInt32.toNat_inj, BlockArena.generation]

theorem inUse_handOut (hi : i.toNat < a.capacity) :
    (a.handOut i rest).InUse j ↔ j = i ∨ a.InUse j := by
  unfold InUse
  rw [slots_handOut]
  by_cases hj : j = i
  · simp [hj, hi]
  · simp [hj]

theorem inUse_takeBack : (a.takeBack i).InUse j ↔ j ≠ i ∧ a.InUse j := by
  unfold InUse
  rw [slots_takeBack]
  by_cases hj : j = i
  · simp [hj]
  · simp [hj]

@[simp] theorem generation_handOut : (a.handOut i rest).generation j = a.generation j := by
  unfold generation
  rw [slots_handOut]
  split
  · next h => rw [h]
  · rfl

theorem generation_takeBack :
    (a.takeBack i).generation j = if j = i then a.generation i + 1 else a.generation j := by
  unfold generation
  rw [slots_takeBack]
  split <;> rfl

/-! ### Handles that are accepted -/

/-- The arena accepts the handle: it is one of its own, of a block in use, and of the present
generation of the block. -/
structure Accepts (a : BlockArena) (h : BlockHandle) : Prop where
  arena : h.arena = a.id
  inUse : a.InUse h.index
  generation : a.generation h.index = h.generation

theorem slot?_eq_some_iff {slot : Slot} {k : Nat} :
    a.slot? k = some slot ↔ k < a.capacity ∧ a.slots.get k = slot := by
  unfold slot?
  by_cases hk : k < a.capacity <;> simp [hk]

theorem slots_eq_iff {s : Slot} {g : UInt32} :
    s = ⟨true, g⟩ ↔ s.used = true ∧ s.generation = g := by
  cases s
  simp

theorem accepts_iff : a.Accepts h ↔ a.locate h = .ok h.index.toNat := by
  rw [locate_eq_ok_iff, slot?_eq_some_iff, slots_eq_iff]
  constructor
  · rintro ⟨ha, ⟨hlt, hu⟩, hg⟩
    exact ⟨ha, rfl, hlt, hu, hg⟩
  · rintro ⟨ha, -, hlt, hu, hg⟩
    exact ⟨ha, ⟨hlt, hu⟩, hg⟩

theorem Accepts.locate (ha : a.Accepts h) : a.locate h = .ok h.index.toNat := accepts_iff.1 ha

theorem accepts_of_locate {slot : Nat} (hl : a.locate h = .ok slot) : a.Accepts h := by
  have hs := ((locate_eq_ok_iff ..).1 hl).2.1
  exact accepts_iff.2 (hs ▸ hl)

theorem contains_iff : a.contains h = true ↔ a.Accepts h := by
  unfold contains
  cases hl : a.locate h with
  | ok slot => simp [Except.toBool, accepts_of_locate hl]
  | error e =>
    simp only [Except.toBool, Bool.false_eq_true, false_iff]
    intro ha
    rw [ha.locate] at hl
    cases hl

/-- The present handle of a block. -/
def handleAt (a : BlockArena) (i : UInt32) : BlockHandle := ⟨a.id, i, a.generation i⟩

theorem currentHandle_ok (hu : a.InUse i) : a.currentHandle i = .ok (a.handleAt i) := by
  have hs : a.slot? i.toNat = some (a.slots.get i.toNat) := slot?_eq_some_iff.2 ⟨hu.1, rfl⟩
  simp [currentHandle, hs, hu.2, handleAt, BlockArena.generation]

theorem inUse_of_currentHandle (hc : a.currentHandle i = .ok h) : a.InUse i := by
  unfold currentHandle at hc
  split at hc
  · next slot hs =>
    obtain ⟨hlt, rfl⟩ := slot?_eq_some_iff.1 hs
    split at hc
    · next hu => exact ⟨hlt, hu⟩
    · cases hc
  · cases hc

theorem accepts_handleAt (hu : a.InUse i) : a.Accepts (a.handleAt i) := ⟨rfl, hu, rfl⟩

/-! ### Sound arenas -/

/-- The free list and the count of blocks in use agree with the blocks. -/
structure Sound (a : BlockArena) : Prop where
  capacity_lt : a.capacity < indexLimit
  nodup_free : a.freeList.toList.Nodup
  mem_free_iff : ∀ i, i ∈ a.freeList.toList ↔ i.toNat < a.capacity ∧ ¬a.InUse i
  live_add_free : a.live + a.freeList.toList.length = a.capacity

theorem not_inUse_fresh (id : UInt32) (capacity blockSize : Nat) :
    ¬(fresh id capacity blockSize).InUse i := by
  rintro ⟨-, hu⟩
  rw [fresh, Memory.get_blank] at hu
  cases hu

theorem mem_map_ofNat_iff {n : Nat} (hn : n ≤ indexLimit) :
    i ∈ (List.range n).map UInt32.ofNat ↔ i.toNat < n := by
  rw [List.mem_map]
  constructor
  · rintro ⟨k, hk, rfl⟩
    rw [List.mem_range] at hk
    rwa [UInt32.toNat_ofNat_of_lt' (Nat.lt_of_lt_of_le hk hn)]
  · intro hi
    exact ⟨i.toNat, List.mem_range.2 hi, UInt32.ofNat_toNat⟩

theorem nodup_map_ofNat {n : Nat} (hn : n ≤ indexLimit) :
    ((List.range n).map UInt32.ofNat).Nodup := by
  refine List.Nodup.map_on (fun x hx y hy hxy => ?_) List.nodup_range
  rw [List.mem_range] at hx hy
  have hx' : x < indexLimit := by omega
  have hy' : y < indexLimit := by omega
  rw [← UInt32.toNat_ofNat_of_lt' hx', hxy, UInt32.toNat_ofNat_of_lt' hy']

theorem length_le_of_nodup {l : List UInt32} {n : Nat} (hnd : l.Nodup)
    (hlt : ∀ i ∈ l, i.toNat < n) : l.length ≤ n := by
  have hsub : l.map UInt32.toNat ⊆ List.range n := by
    intro k hk
    obtain ⟨i, hi, rfl⟩ := List.mem_map.1 hk
    exact List.mem_range.2 (hlt i hi)
  simpa using (hnd.map fun _ _ h => UInt32.toNat_inj.1 h).length_le_of_subset hsub

theorem sound_fresh (id : UInt32) {capacity : Nat} (blockSize : Nat) (hc : capacity < indexLimit) :
    (fresh id capacity blockSize).Sound where
  capacity_lt := hc
  nodup_free := by
    rw [fresh, FreeList.toList_fresh]
    exact nodup_map_ofNat (Nat.le_of_lt hc)
  mem_free_iff i := by
    change i ∈ (FreeList.fresh capacity).toList ↔ i.toNat < capacity ∧ _
    rw [FreeList.toList_fresh, mem_map_ofNat_iff (Nat.le_of_lt hc)]
    simp [not_inUse_fresh]
  live_add_free := by simp [fresh, FreeList.toList_fresh, BlockArena.capacity, Slab.zeros]

namespace Sound

/-- What goes out next is a block of the arena that is not in use. -/
theorem of_next? (hs : a.Sound) (hn : a.freeList.next? = some (i, rest)) :
    i.toNat < a.capacity ∧ ¬a.InUse i :=
  (hs.mem_free_iff i).1 (by simp [FreeList.toList_of_next? hn])

theorem handOut (hs : a.Sound) (hn : a.freeList.next? = some (i, rest)) :
    (a.handOut i rest).Sound where
  capacity_lt := hs.capacity_lt
  nodup_free := by
    have := hs.nodup_free
    rw [FreeList.toList_of_next? hn, List.nodup_cons] at this
    exact this.2
  mem_free_iff j := by
    have hnd := hs.nodup_free
    have hm := hs.mem_free_iff j
    rw [FreeList.toList_of_next? hn] at hm hnd
    rw [List.nodup_cons] at hnd
    rw [inUse_handOut (hs.of_next? hn).1, capacity_handOut]
    change j ∈ rest.toList ↔ _
    by_cases hj : j = i
    · simp [hj, hnd.1]
    · rw [List.mem_cons] at hm
      simpa [hj] using hm
  live_add_free := by
    have := hs.live_add_free
    rw [FreeList.toList_of_next? hn, List.length_cons] at this
    change a.live + 1 + rest.toList.length = a.capacity
    omega

theorem takeBack (hs : a.Sound) (hu : a.InUse i) : (a.takeBack i).Sound where
  capacity_lt := hs.capacity_lt
  nodup_free := by
    change (a.freeList.push i).toList.Nodup
    rw [FreeList.toList_push, List.nodup_cons]
    exact ⟨fun hm => ((hs.mem_free_iff i).1 hm).2 hu, hs.nodup_free⟩
  mem_free_iff j := by
    change j ∈ (a.freeList.push i).toList ↔ _
    rw [FreeList.toList_push, List.mem_cons, hs.mem_free_iff, inUse_takeBack, capacity_takeBack]
    have := hu.1
    by_cases hj : j = i
    · simp [hj, this]
    · simp [hj]
  live_add_free := by
    have hl := hs.live_add_free
    have hlen : (i :: a.freeList.toList).length ≤ a.capacity := by
      refine length_le_of_nodup (List.nodup_cons.2 ⟨?_, hs.nodup_free⟩) fun j hj => ?_
      · exact fun hm => ((hs.mem_free_iff i).1 hm).2 hu
      · rcases List.mem_cons.1 hj with rfl | hj
        · exact hu.1
        · exact ((hs.mem_free_iff j).1 hj).1
    rw [List.length_cons] at hlen
    change a.live - 1 + (a.freeList.push i).toList.length = a.capacity
    rw [FreeList.toList_push, List.length_cons]
    omega

end Sound

end BlockArena

end FixedArena
