import FixedArena.Proofs.Block.Liveness
import FixedArena.Proofs.Stock

/-!
The most blocks of an arena that were ever in use at once. Freed blocks go out before any that was never
out, and those go out in ascending order; so the blocks that were ever handed out are the first ones, as
many as were ever in use at once.

Main facts:
* `stock`: arenas as stocks of blocks;
* `Gauged`: the count of the most ever in use agrees with the free list and the blocks;
* `tallies_gauged`: every call keeps it so, and what one call may do to the counts.
-/

namespace FixedArena

namespace BlockArena

variable {a : BlockArena} {i : UInt32} {rest : FreeList} {h : BlockHandle}

/-! ### Arenas as stocks -/

/-- The block is as it was when the arena was new: free, never freed, and all zeros. -/
def Untouched (a : BlockArena) (n : Nat) : Prop :=
  a.slots.get n = {} ∧ a.slab.cell n = List.replicate a.blockSize 0

/-- **Arenas as stocks of blocks.** -/
def stock : Stock BlockArena (Call Unit) where
  act c := (·.map (·.index.toNat)) <$> c.act
  mark?
    | .blocksPeak n => some n
    | _ => none
  live := live
  peak := peak
  capacity := capacity
  Untouched := Untouched

theorem marks_rise (a : BlockArena) :
    stock.marks (if a.peak < a.live + 1 then [.blocksPeak (a.live + 1)] else []) =
      if a.peak < a.live + 1 then [a.live + 1] else [] := by
  split <;> rfl

/-! ### Counts that agree with the blocks -/

/-- The count of the most blocks ever in use agrees with the free list and the blocks: it is the first
block that was never out, and from there on all are untouched. -/
structure Gauged (a : BlockArena) : Prop extends a.Sound where
  frontier : a.freeList.frontier = a.peak
  bound : a.freeList.bound = a.capacity
  peak_le : a.peak ≤ a.capacity
  slots : ∀ n, a.peak ≤ n → a.slots.get n = {}
  blank : a.slab.BlankFrom a.peak

theorem gauged_fresh (id : UInt32) {capacity : Nat} (blockSize : Nat) (hc : capacity < indexLimit) :
    (fresh id capacity blockSize).Gauged where
  toSound := sound_fresh id blockSize hc
  frontier := rfl
  bound := rfl
  peak_le := Nat.zero_le _
  slots n _ := Memory.get_blank n
  blank := Slab.blankFrom_zeros capacity blockSize 0

namespace Gauged

/-- Blocks that were ever out are in use, or came back. -/
theorem live_add_returned (ha : a.Gauged) : a.live + a.freeList.returned.length = a.peak := by
  have hall := ha.live_add_free
  have hle := ha.peak_le
  rw [FreeList.toList, List.length_append, List.length_map, List.length_range', ha.frontier,
    ha.bound] at hall
  omega

theorem live_le (ha : a.Gauged) : a.live ≤ a.peak := ha.live_add_returned ▸ Nat.le_add_right ..

theorem lt_peak_of_inUse (ha : a.Gauged) (hu : a.InUse i) : i.toNat < a.peak := by
  by_contra hle
  have hused := hu.2
  rw [ha.slots _ (Nat.not_lt.1 hle)] at hused
  cases hused

/-- What came back was out. -/
theorem lt_peak_of_returned (ha : a.Gauged) (hi : i ∈ a.freeList.returned) : i.toNat < a.peak := by
  by_contra hle
  have hlt := ((ha.mem_free_iff i).1 (List.mem_append_left _ hi)).1
  have hnever : i ∈ (List.range' a.peak (a.capacity - a.peak)).map UInt32.ofNat :=
    List.mem_map.2 ⟨i.toNat, List.mem_range'_1.2 (by omega), UInt32.ofNat_toNat⟩
  have hnd := ha.nodup_free
  rw [FreeList.toList, ha.frontier, ha.bound] at hnd
  exact List.disjoint_of_nodup_append hnd hi hnever

/-- **What goes out next** came back before; or else all that were ever out are in use, and it is the
first that never was. -/
theorem next?_cases (ha : a.Gauged) (hn : a.freeList.next? = some (i, rest)) :
    rest.bound = a.capacity ∧ (rest.frontier = a.peak ∧ i.toNat < a.peak ∧ a.live + 1 ≤ a.peak ∨
      rest.frontier = a.peak + 1 ∧ i.toNat = a.peak ∧ a.live = a.peak ∧ a.peak < a.capacity) := by
  have hcount := ha.live_add_returned
  unfold FreeList.next? at hn
  split at hn
  · next j back hr =>
    obtain ⟨rfl, rfl⟩ := Prod.mk.inj (Option.some.inj hn)
    have hlt := ha.lt_peak_of_returned (hr ▸ List.mem_cons_self)
    rw [hr, List.length_cons] at hcount
    exact ⟨ha.bound, .inl ⟨ha.frontier, hlt, by omega⟩⟩
  · next hr =>
    split at hn
    · next hlt =>
      obtain ⟨rfl, rfl⟩ := Prod.mk.inj (Option.some.inj hn)
      rw [hr, List.length_nil] at hcount
      rw [ha.frontier, ha.bound] at hlt
      have hsmall : a.freeList.frontier < indexLimit :=
        ha.frontier.symm ▸ Nat.lt_trans hlt ha.capacity_lt
      refine ⟨ha.bound, .inr ⟨congrArg (· + 1) ha.frontier, ?_, hcount, hlt⟩⟩
      rw [UInt32.toNat_ofNat_of_lt' hsmall, ha.frontier]
    · cases hn

theorem handOut (ha : a.Gauged) (hn : a.freeList.next? = some (i, rest)) :
    (a.handOut i rest).Gauged := by
  obtain ⟨hbound, hnext⟩ := ha.next?_cases hn
  have hpeak : (a.handOut i rest).peak = max a.peak (a.live + 1) := rfl
  have hle : a.peak ≤ max a.peak (a.live + 1) := Nat.le_max_left ..
  have hi : i.toNat < max a.peak (a.live + 1) := by omega
  refine ⟨ha.toSound.handOut hn, ?_, hbound, ?_, fun n hn' => ?_, ?_⟩
  · change rest.frontier = max a.peak (a.live + 1)
    omega
  · rw [hpeak, capacity_handOut]
    have := ha.peak_le
    omega
  · rw [hpeak] at hn'
    have hne : n ≠ i.toNat := (Nat.ne_of_lt (Nat.lt_of_lt_of_le hi hn')).symm
    rw [BlockArena.handOut, Memory.get_set, if_neg hne, ha.slots n (Nat.le_trans hle hn')]
  · rw [hpeak]
    exact (ha.blank.clear i.toNat).mono hle

theorem takeBack (ha : a.Gauged) (hu : a.InUse i) : (a.takeBack i).Gauged where
  toSound := ha.toSound.takeBack hu
  frontier := ha.frontier
  bound := ha.bound
  peak_le := ha.peak_le
  slots n hn := by
    have hne : n ≠ i.toNat := (Nat.ne_of_lt (Nat.lt_of_lt_of_le (ha.lt_peak_of_inUse hu) hn)).symm
    rw [BlockArena.takeBack, Memory.get_set, if_neg hne]
    exact ha.slots n hn
  blank := ha.blank

theorem put {offset : Nat} {bs : List UInt8} (ha : a.Gauged) (hu : a.InUse i)
    (hw : offset + bs.length ≤ a.blockSize) : (a.put i offset bs).Gauged where
  toSound := ha.toSound.put
  frontier := ha.frontier
  bound := ha.bound
  peak_le := ha.peak_le
  slots := ha.slots
  blank := ha.blank.overwriteCell (ha.lt_peak_of_inUse hu) hw

end Gauged

/-! ### Calls -/

/-- **What an arena does when it is asked for a block.** -/
theorem gauged_allocate (ha : a.Gauged) : (stock.act (.allocate ()) a).state.Gauged ∧
    stock.Step a (stock.act (.allocate ()) a) := by
  have hcall : stock.act (.allocate ()) a = ⟨(allocate a).result.map fun h => some h.index.toNat,
      (allocate a).state, (allocate a).events⟩ := by
    simp only [stock, Call.act, Act.map_apply, Except.map]
    cases (allocate a).result <;> rfl
  rw [hcall]
  cases hn : a.freeList.next? with
  | none =>
    rw [allocate_full a hn]
    exact ⟨ha, .level rfl rfl fun n hres => by cases hres⟩
  | some next =>
    obtain ⟨i, rest⟩ := next
    rw [allocate_ok a hn]
    refine ⟨ha.handOut hn, Stock.step_of_next rfl (marks_rise a) rfl rfl ?_⟩
    exact (ha.next?_cases hn).2.imp (fun h => h.2) fun h => ⟨h.2.1, h.2.2.1⟩

theorem gauged_free (ha : a.Gauged) (h : BlockHandle) : (free h a).state.Gauged ∧
    (free h a).state.peak = a.peak ∧ stock.marks (free h a).events = [] := by
  cases hl : a.locate h with
  | error e =>
    rw [free_error a h hl]
    exact ⟨ha, rfl, rfl⟩
  | ok slot =>
    rw [free_ok a h hl]
    exact ⟨ha.takeBack (accepts_of_locate hl).inUse, rfl, rfl⟩

theorem gauged_write (ha : a.Gauged) (h : BlockHandle) (offset : Nat) (bs : List UInt8) :
    (write h offset bs a).state.Gauged ∧ (write h offset bs a).state.peak = a.peak ∧
      stock.marks (write h offset bs a).events = [] := by
  cases hl : a.locate h with
  | error e =>
    have hw : write h offset bs a = ⟨.error e, a, []⟩ := by simp [write, hl]
    rw [hw]
    exact ⟨ha, rfl, rfl⟩
  | ok slot =>
    have hacc := accepts_of_locate hl
    by_cases hfits : offset + bs.length ≤ a.blockSize
    · rw [write_ok hacc hfits]
      exact ⟨ha.put hacc.inUse hfits, rfl, rfl⟩
    · have hpast : ¬a.slab.Inside slot offset bs.length := fun hin => hfits hin.2
      have hw : write h offset bs a = ⟨.error (.pastEnd (offset + bs.length) a.blockSize), a, []⟩ := by
        simp [write, hl, Slab.write, hpast, blockSize]
      rw [hw]
      exact ⟨ha, rfl, rfl⟩

/-- A call that hands nothing out. -/
theorem step_of_level {α : Type} {x : Act Error BlockArena α}
    (hx : (x a).state.Gauged ∧ (x a).state.peak = a.peak ∧ stock.marks (x a).events = [])
    {c : Call Unit} (hc : c.act = (fun _ => none) <$> x) :
    (stock.act c a).state.Gauged ∧ stock.Step a (stock.act c a) := by
  have hcall : stock.act c a = ⟨(x a).result.map fun _ => none, (x a).state, (x a).events⟩ := by
    simp only [stock, hc, Act.map_apply, Except.map]
    cases (x a).result <;> rfl
  rw [hcall]
  refine ⟨hx.1, .level hx.2.2 hx.2.1 fun n hres => ?_⟩
  cases hr : (x a).result with
  | ok v => simp [hr, Except.map] at hres
  | error e => simp [hr, Except.map] at hres

theorem gauged_act (ha : a.Gauged) (c : Call Unit) :
    (stock.act c a).state.Gauged ∧ stock.Step a (stock.act c a) := by
  cases c with
  | allocate => exact gauged_allocate ha
  | free k h => exact step_of_level (gauged_free ha h) rfl
  | write k h offset bs => exact step_of_level (gauged_write ha h offset bs) rfl

/-- **The counts of an arena tally**, whatever is called. -/
theorem tallies_gauged : stock.Tallies Gauged where
  live_le ha := ha.live_le
  peak_le ha := ha.peak_le
  untouched ha n hn _ := ⟨ha.slots n hn, ha.blank n hn⟩
  act ha c := (gauged_act ha c).1
  step ha c := (gauged_act ha c).2

end BlockArena

end FixedArena
