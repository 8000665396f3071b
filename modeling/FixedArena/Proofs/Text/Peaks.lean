import FixedArena.Proofs.Block.Peaks
import FixedArena.Proofs.Text.Accesses

/-!
The most slots of a pool that were ever in use at once. The lowest free slot goes out; so no slot is in
use beyond those that were ever in use at once, and the slots that were ever handed out are the first
ones, as many as that.

Main facts:
* `stock`: pools as stocks of slots;
* `Gauged`: the slots beyond the most ever in use are untouched;
* `Spares`: calls that hand nothing out leave all free slots alone;
* `tallies_gauged`: every call keeps the counts, and what one call may do to them.
-/

namespace FixedArena

open Act

namespace TextPool

variable {p p' : TextPool} {h : TextHandle} {i n : Nat} {l : List Event} {c : Call}

/-! ### Pools as stocks -/

/-- The slot is as it was when the pool was new: free, and all zeros. -/
def Untouched (p : TextPool) (n : Nat) : Prop :=
  p.slots[n]? = some .free ∧ p.slab.cell n = List.replicate p.slab.width 0

/-- The slot that an answer hands out. -/
def Answer.slot? : Answer → Option Nat
  | .handle h => some h.index.toNat
  | .freed _ | .length _ | .done => none

/-- **Pools as stocks of slots.** -/
def stock : Stock TextPool Call where
  act c := Answer.slot? <$> c.act
  mark?
    | .slotsPeak n => some n
    | _ => none
  live := live
  peak := peak
  capacity := capacity
  Untouched := Untouched

theorem marks_rise (p : TextPool) :
    stock.marks (if p.peak < p.live + 1 then [.slotsPeak (p.live + 1)] else []) =
      if p.peak < p.live + 1 then [p.live + 1] else [] := by
  split <;> rfl

/-- The log tells of no count, of blocks or of slots. -/
structure Unmarked (l : List Event) : Prop where
  blocks : BlockArena.stock.marks l = []
  slots : stock.marks l = []

theorem Unmarked.append {l' : List Event} (h : Unmarked l) (h' : Unmarked l') : Unmarked (l ++ l') :=
  ⟨by rw [Stock.marks_append, h.blocks, h'.blocks, List.append_nil],
    by rw [Stock.marks_append, h.slots, h'.slots, List.append_nil]⟩

/-! ### Counts that agree with the slots -/

/-- All slots beyond the most ever in use are untouched. -/
structure Gauged (p : TextPool) : Prop extends p.Tidy where
  peak_le : p.peak ≤ p.capacity
  untouched : ∀ n, p.peak ≤ n → n < p.capacity → p.Untouched n

theorem gauged_fresh (id : UInt16) {slots maxLen : Nat} (hs : slots < 65535) :
    (fresh id slots maxLen).Gauged where
  toTidy := tidy_fresh id hs
  peak_le := Nat.zero_le _
  untouched n _ hn := by
    have hlt : n < slots := by simpa [fresh, capacity] using hn
    exact ⟨by simp [fresh, hlt], Slab.blankFrom_zeros slots (maxLen + 1) 0 n (Nat.zero_le n)⟩

namespace Gauged

/-- All slots in use are among those that were ever in use at once. -/
theorem live_eq (hp : p.Gauged) : p.live = (p.slots.toList.take p.peak).countP (· ≠ .free) := by
  have hrest : (p.slots.toList.drop p.peak).countP (· ≠ .free) = 0 := by
    refine List.countP_eq_zero.2 fun state hstate => ?_
    obtain ⟨k, hk⟩ := List.mem_iff_getElem?.1 hstate
    rw [List.getElem?_drop, Array.getElem?_toList] at hk
    have hfree := (hp.untouched _ (Nat.le_add_right p.peak k) (Array.getElem?_eq_some_iff.1 hk).1).1
    obtain rfl := Option.some.inj (hk.symm.trans hfree)
    simp
  have hsplit : p.slots.countP (· ≠ .free) = (p.slots.toList.take p.peak).countP (· ≠ .free) +
      (p.slots.toList.drop p.peak).countP (· ≠ .free) := by
    rw [← List.countP_append, List.take_append_drop, Array.countP_toList]
  rw [hrest, Nat.add_zero] at hsplit
  rw [hp.live, hsplit]

theorem length_take (hp : p.Gauged) : (p.slots.toList.take p.peak).length = p.peak := by
  rw [List.length_take, Array.length_toList]
  exact Nat.min_eq_left hp.peak_le

theorem live_le (hp : p.Gauged) : p.live ≤ p.peak := by
  have hle := List.countP_le_length (p := (· ≠ SlotState.free)) (l := p.slots.toList.take p.peak)
  rwa [← hp.live_eq, hp.length_take] at hle

/-- As many slots are in use as ever if the first ones all are. -/
theorem live_eq_peak_iff (hp : p.Gauged) :
    p.live = p.peak ↔ ∀ n (h : n < p.slots.size), n < p.peak → p.slots[n] ≠ .free := by
  have hall := List.countP_eq_length (p := (· ≠ SlotState.free)) (l := p.slots.toList.take p.peak)
  rw [← hp.live_eq, hp.length_take] at hall
  rw [hall]
  constructor
  · intro hused n hn hlt
    have hmem : p.slots[n] ∈ p.slots.toList.take p.peak := by
      refine List.mem_take_iff_getElem.2 ⟨n, ?_, by simp⟩
      rw [Array.length_toList]
      exact Nat.lt_min.2 ⟨hlt, hn⟩
    exact of_decide_eq_true (hused _ hmem)
  · intro hused state hstate
    obtain ⟨k, hk, rfl⟩ := List.mem_take_iff_getElem.1 hstate
    rw [Array.length_toList] at hk
    exact decide_eq_true (hused k (Nat.lt_min.1 hk).2 (Nat.lt_min.1 hk).1)

/-- **The lowest free slot** was in use before; or else all that ever were are in use, and it is the
first that never was. -/
theorem lowest_cases (hp : p.Gauged) (hi : p.slots.findIdx? (· = .free) = some i) :
    i < p.peak ∧ p.live + 1 ≤ p.peak ∨ i = p.peak ∧ p.live = p.peak ∧ p.peak < p.capacity := by
  obtain ⟨hlt, hfree, hmin⟩ := Array.findIdx?_eq_some_iff_getElem.1 hi
  have hused : ∀ n (h : n < i), p.slots[n] ≠ .free := fun n hn he => hmin n hn (decide_eq_true he)
  rcases Nat.lt_trichotomy i p.peak with hlow | rfl | hhigh
  · have hne : p.live ≠ p.peak := fun he =>
      hp.live_eq_peak_iff.1 he i hlt hlow (of_decide_eq_true hfree)
    exact .inl ⟨hlow, Nat.lt_of_le_of_ne hp.live_le hne⟩
  · exact .inr ⟨rfl, hp.live_eq_peak_iff.2 fun n _ hn => hused n hn, hlt⟩
  · -- the first slot that was never in use is free, and lower
    have hcap : p.peak < p.capacity := Nat.lt_trans hhigh hlt
    have hnever := (hp.untouched p.peak (Nat.le_refl _) hcap).1
    exact absurd (Array.getElem?_eq_some_iff.1 hnever).2 (hused p.peak hhigh)

theorem lend (hp : p.Gauged) (hi : p.slots.findIdx? (· = .free) = some i) : (p.lend i).Gauged := by
  have hold : p.slots[i]? = some .free := free_of_findIdx? hi
  have hlt : i < p.slots.size := (Array.getElem?_eq_some_iff.1 hold).1
  have hsize : (p.lend i).capacity = p.capacity := Array.size_setIfInBounds
  have hpeak : (p.lend i).peak = max p.peak (p.live + 1) := rfl
  have hcap : p.peak ≤ p.capacity := hp.peak_le
  have hcases := hp.lowest_cases hi
  refine ⟨(changes_lend hp.toTidy hold).tidy hp.toTidy, ?_, fun n hn hn' => ?_⟩
  · rw [hpeak, hsize]
    omega
  · rw [hpeak] at hn
    rw [hsize] at hn'
    have hne : n ≠ i := by omega
    obtain ⟨hstate, hzero⟩ := hp.untouched n (Nat.le_trans (Nat.le_max_left ..) hn) hn'
    have hwidth : 0 + [(0 : UInt8)].length ≤ p.slab.width := hp.width
    refine ⟨(Array.getElem?_setIfInBounds_ne hne.symm).trans hstate, ?_⟩
    exact (Slab.cell_overwriteCell hwidth).trans ((if_neg hne).trans hzero)

end Gauged

/-! ### Calls that hand nothing out -/

/-- **All free slots are left alone**, and nothing is marked. -/
structure Spares (p : TextPool) (l : List Event) (p' : TextPool) : Prop where
  unmarked : Unmarked l
  peak : p'.peak = p.peak
  capacity : p'.capacity = p.capacity
  width : p'.slab.width = p.slab.width
  slots : ∀ n : Nat, p.slots[n]? = some .free → p'.slots[n]? = some .free
  cells : ∀ n : Nat, p.slots[n]? = some .free → p'.slab.cell n = p.slab.cell n

instance : IsTrail Spares where
  nil _ := ⟨⟨rfl, rfl⟩, rfl, rfl, rfl, fun _ h => h, fun _ _ => rfl⟩
  append h h' := ⟨h.unmarked.append h'.unmarked,
    h'.peak.trans h.peak, h'.capacity.trans h.capacity, h'.width.trans h.width,
    fun n hn => h'.slots n (h.slots n hn),
    fun n hn => (h'.cells n (h.slots n hn)).trans (h.cells n hn)⟩

theorem Spares.gauged (h : p.Spares l p') (hp : p.Gauged) (ht : p'.Tidy) : p'.Gauged where
  toTidy := ht
  peak_le := by
    rw [h.peak, h.capacity]
    exact hp.peak_le
  untouched n hn hlt := by
    rw [h.peak] at hn
    rw [h.capacity] at hlt
    obtain ⟨hfree, hzero⟩ := hp.untouched n hn hlt
    exact ⟨h.slots n hfree, by rw [h.cells n hfree, hzero, h.width]⟩

theorem spares_unmarked (hl : Unmarked l) : p.Spares l p :=
  ⟨hl, rfl, rfl, rfl, fun _ h => h, fun _ _ => rfl⟩

theorem slot_of_locate (hl : p.locate h = .ok i) : p.slots[i]? ≠ some .free := by
  obtain ⟨-, -, state, hs, hne⟩ := (locate_eq_ok_iff p h i).1 hl
  rw [hs]
  exact fun he => hne (Option.some.inj he)

theorem spares_writeBytes (hi : p.slots[i]? ≠ some .free) (offset : Nat) (bs : List UInt8) :
    p.Spares (writeBytes i offset bs p).events (writeBytes i offset bs p).state := by
  unfold writeBytes
  split
  · exact IsTrail.nil p
  · next slab hw =>
    obtain ⟨hin, rfl⟩ := (Slab.write_eq_ok_iff ..).1 hw
    refine ⟨⟨rfl, rfl⟩, rfl, rfl, rfl, fun n hn => hn, fun n hn => ?_⟩
    have hne : n ≠ i := fun he => hi (he ▸ hn)
    exact (Slab.cell_overwriteCell hin.2).trans (if_neg hne)

/-- The state of a slot in use changes. -/
theorem spares_setState (hi : p.slots[i]? ≠ some .free) (state : SlotState) (live : Nat) :
    p.Spares [] { p.setState i state with live } where
  unmarked := ⟨rfl, rfl⟩
  peak := rfl
  capacity := Array.size_setIfInBounds
  width := rfl
  slots n hn := by
    have hne : i ≠ n := fun he => hi (he ▸ hn)
    exact (Array.getElem?_setIfInBounds_ne hne).trans hn
  cells _ _ := rfl

/-- What is done with the slot that a handle names, and starts with writing to it. -/
theorem spares_located {α : Type} (h : TextHandle) {y : Nat → Act Error TextPool α}
    (hy : ∀ (p : TextPool) (i : Nat), p.slots[i]? ≠ some .free → p.Spares (y i p).events (y i p).state) :
    Along Spares (Act.read (·.locate h) >>= y) :=
  fun p => along_read_bind_at fun i hi => hy p i (slot_of_locate hi)

theorem spares_assign (h : TextHandle) (t : String) : Along Spares (assign h t) :=
  along_get.bind fun _ => spares_located h fun _ _ hi =>
    along_bind_at (spares_writeBytes hi _ _) fun _ => along_pure _

theorem spares_append (h : TextHandle) (t : String) : Along Spares (append h t) :=
  along_get.bind fun _ => spares_located h fun _ _ hi =>
    along_bind_at (spares_writeBytes hi _ _) fun _ => along_pure _

theorem spares_copy (target source : TextHandle) : Along Spares (copy target source) :=
  along_get.bind fun _ => spares_located target fun _ _ hi =>
    along_read_bind_at fun _ _ => along_read_bind_at fun _ _ =>
      along_bind_at (spares_writeBytes hi _ _) fun _ => along_pure _

theorem spares_free (h : TextHandle) : Along Spares (free h) := by
  intro p
  unfold free
  split
  · exact spares_unmarked ⟨rfl, rfl⟩
  · next i hi =>
    split
    · exact spares_unmarked ⟨rfl, rfl⟩
    · exact spares_setState (slot_of_locate hi) .free _

theorem spares_own (h : TextHandle) : Along Spares (own h) := by
  intro p
  unfold own
  split
  · exact spares_unmarked ⟨rfl, rfl⟩
  · next i hi =>
    split
    · exact spares_unmarked ⟨rfl, rfl⟩
    · exact spares_setState (slot_of_locate hi) .owned _

theorem spares_disown (h : TextHandle) : Along Spares (disown h) := by
  intro p
  unfold disown
  split
  · exact spares_unmarked ⟨rfl, rfl⟩
  · next i hi => exact spares_setState (slot_of_locate hi) .lent _

theorem spares_reclaim (h : TextHandle) : Along Spares (reclaim h) := by
  intro p
  unfold reclaim
  split
  · exact spares_unmarked ⟨rfl, rfl⟩
  · next i hi => exact spares_setState (slot_of_locate hi) .free _

/-! ### Calls -/

theorem act_stock (c : Call) (p : TextPool) : stock.act c p =
    ⟨(c.act p).result.map Answer.slot?, (c.act p).state, (c.act p).events⟩ :=
  map_apply ..

/-- **What a pool does when it is asked for a slot.** -/
theorem gauged_allocate (hp : p.Gauged) : (stock.act .allocate p).state.Gauged ∧
    stock.Step p (stock.act .allocate p) := by
  rw [act_stock, Call.act, map_apply]
  cases hf : p.slots.findIdx? (· = .free) with
  | none =>
    rw [allocate_full p hf]
    exact ⟨hp, .level rfl rfl fun n hres => by cases hres⟩
  | some i =>
    have hlt : i < p.capacity := (Array.findIdx?_eq_some_iff_getElem.1 hf).1
    have hindex : (UInt16.ofNat i).toNat = i :=
      UInt16.toNat_ofNat_of_lt' (Nat.lt_trans (Nat.lt_trans hlt hp.small) (by decide))
    have hresult : Except.ok (some (UInt16.ofNat i).toNat) = Except.ok (ε := Error) (some i) := by
      rw [hindex]
    rw [allocate_ok p hf]
    refine ⟨hp.lend hf, Stock.step_of_next hresult (marks_rise p) rfl rfl ?_⟩
    exact (hp.lowest_cases hf).imp_right fun h => ⟨h.1, h.2.1⟩

/-- A call that hands nothing out. -/
theorem step_of_spares {α : Type} (hp : p.Gauged) {x : Act Error TextPool α} (hx : Along Spares x)
    {f : α → Answer} (hc : c.act = f <$> x) (hf : ∀ a, (f a).slot? = none) :
    (stock.act c p).state.Gauged ∧ stock.Step p (stock.act c p) := by
  have htidy : (c.act p).state.Tidy := lasting_tidy.call c p hp.toTidy
  rw [act_stock]
  rw [hc, map_apply] at htidy ⊢
  refine ⟨(hx p).gauged hp htidy, .level (hx p).unmarked.slots (hx p).peak fun n hres => ?_⟩
  cases hr : (x p).result with
  | ok a => simp [hr, Except.map, hf] at hres
  | error e => simp [hr, Except.map] at hres

theorem gauged_act (hp : p.Gauged) (c : Call) :
    (stock.act c p).state.Gauged ∧ stock.Step p (stock.act c p) := by
  cases c with
  | allocate => exact gauged_allocate hp
  | free h => exact step_of_spares hp (spares_free h) rfl fun _ => rfl
  | assign h t => exact step_of_spares hp (spares_assign h t) rfl fun _ => rfl
  | append h t => exact step_of_spares hp (spares_append h t) rfl fun _ => rfl
  | copy target source => exact step_of_spares hp (spares_copy target source) rfl fun _ => rfl
  | own h => exact step_of_spares hp (spares_own h) rfl fun _ => rfl
  | disown h => exact step_of_spares hp (spares_disown h) rfl fun _ => rfl
  | reclaim h => exact step_of_spares hp (spares_reclaim h) rfl fun _ => rfl

/-- **The counts of a pool tally**, whatever is called. -/
theorem tallies_gauged : stock.Tallies Gauged where
  live_le hp := hp.live_le
  peak_le hp := hp.peak_le
  untouched hp := hp.untouched
  act hp c := (gauged_act hp c).1
  step hp c := (gauged_act hp c).2

end TextPool

end FixedArena
