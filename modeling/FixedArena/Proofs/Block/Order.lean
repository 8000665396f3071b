import FixedArena.Proofs.Block.Liveness
import FixedArena.Proofs.Block.Peaks

/-!
The order in which blocks go out. Several arenas are called in any order, with handles of any origin. What
became of an arena's blocks is told as a list of passages, the first one first: a block went out, or it came
back. A call that is refused is no passage. The passages tell which blocks are in use, and which one goes out
next: of the blocks that came back and did not go out since, the last one to come back; if there are none,
the least number that was never out.

Main facts:
* `Sound.live_eq`: the count of blocks in use counts them;
* `Passage`, `passages`, `waiting`: what became of the blocks, and the ones that wait to go out again;
* `Recalls`, `Recalls.run`: the free list agrees with the passages, whatever is called;
* `blocks_in_order`: which blocks are free after any run, and which one goes out next.
-/

namespace FixedArena

namespace BlockArena

variable {a : BlockArena} {i j : UInt32} {rest : FreeList}

/-! ### The count of blocks in use -/

/-- The numbers of the free blocks, in some order. -/
theorem Sound.perm_free (ha : a.Sound) : (a.freeList.toList.map UInt32.toNat).Perm
    ((List.range a.capacity).filter fun n => !(a.slots.get n).used) := by
  have hnd : (a.freeList.toList.map UInt32.toNat).Nodup :=
    ha.nodup_free.map fun _ _ h => UInt32.toNat_inj.1 h
  refine (List.perm_ext_iff_of_nodup hnd (List.nodup_range.filter _)).2 fun n => ?_
  rw [List.mem_map, List.mem_filter, List.mem_range]
  constructor
  · rintro ⟨i, hi, rfl⟩
    obtain ⟨hlt, hfree⟩ := (ha.mem_free_iff i).1 hi
    exact ⟨hlt, by simpa [InUse, hlt] using hfree⟩
  · rintro ⟨hlt, hfree⟩
    have hn : (UInt32.ofNat n).toNat = n :=
      UInt32.toNat_ofNat_of_lt' (Nat.lt_trans hlt ha.capacity_lt)
    refine ⟨UInt32.ofNat n, (ha.mem_free_iff _).2 ?_, hn⟩
    rw [InUse, hn]
    exact ⟨hlt, fun hu => by simp [hu.2] at hfree⟩

/-- **The count of blocks in use counts them.** -/
theorem Sound.live_eq (ha : a.Sound) :
    a.live = (List.range a.capacity).countP fun n => (a.slots.get n).used := by
  have hall := ha.live_add_free
  have hfree := ha.perm_free.length_eq
  have hsplit := (List.filter_append_perm (fun n => (a.slots.get n).used)
    (List.range a.capacity)).length_eq
  rw [List.length_map] at hfree
  rw [List.length_append, List.length_range] at hsplit
  rw [List.countP_eq_length_filter]
  omega

/-- No block can go out if all are in use. -/
theorem Sound.noneFree_iff (ha : a.Sound) :
    a.freeList.next? = none ↔ ∀ i, i.toNat < a.capacity → a.InUse i := by
  rw [FreeList.next?_eq_none_iff, List.eq_nil_iff_forall_not_mem]
  refine forall_congr' fun i => ?_
  rw [ha.mem_free_iff, not_and, not_not]

/-- Bytes are of no account to the free list. -/
theorem freeList_write (h : BlockHandle) (offset : Nat) (bs : List UInt8) (a : BlockArena) :
    (write h offset bs a).state.freeList = a.freeList := by
  unfold write
  split
  · rfl
  · split <;> rfl

/-! ### Passages -/

/-- A block went out, or it came back. -/
inductive Passage where
  | out (i : UInt32)
  | back (i : UInt32)
  deriving DecidableEq, Repr

variable {past : List Passage}

/-- The block came back and did not go out since. -/
def Waits (past : List Passage) (i : UInt32) : Prop :=
  ∃ earlier later, past = earlier ++ .back i :: later ∧ .out i ∉ later

/-- Of the blocks that came back and did not go out since, this one came back last. -/
def BackLast (past : List Passage) (i : UInt32) : Prop :=
  ∃ earlier later, past = earlier ++ .back i :: later ∧ .out i ∉ later ∧ ∀ j, ¬Waits later j

/-- The block was never out, and all blocks before it were. -/
def FirstNew (past : List Passage) (i : UInt32) : Prop :=
  .out i ∉ past ∧ ∀ j < i, .out j ∈ past

/-- The blocks that came back and did not go out since, the last one first. -/
def waiting : List Passage → List UInt32
  | [] => []
  | .out _ :: past => waiting past
  | .back i :: past => waiting past ++ if .out i ∈ past then [] else [i]

theorem waits_cons_iff {t : Passage} :
    Waits (t :: past) i ↔ Waits past i ∨ t = .back i ∧ .out i ∉ past := by
  constructor
  · rintro ⟨earlier, later, heq, hout⟩
    cases earlier with
    | nil =>
      obtain ⟨rfl, rfl⟩ := List.cons.inj heq
      exact .inr ⟨rfl, hout⟩
    | cons t' earlier =>
      obtain ⟨rfl, rfl⟩ := List.cons.inj heq
      exact .inl ⟨earlier, later, rfl, hout⟩
  · rintro (⟨earlier, later, rfl, hout⟩ | ⟨rfl, hout⟩)
    · exact ⟨t :: earlier, later, rfl, hout⟩
    · exact ⟨[], past, rfl, hout⟩

theorem mem_waiting_iff : i ∈ waiting past ↔ Waits past i := by
  induction past with
  | nil => simp [waiting, Waits]
  | cons t past ih =>
    rw [waits_cons_iff, ← ih]
    cases t with
    | out j => simp [waiting]
    | back j =>
      rw [waiting, List.mem_append]
      refine or_congr_right ?_
      split
      · next hout =>
        simp only [List.not_mem_nil, Passage.back.injEq, false_iff, not_and, not_not]
        exact fun h => h ▸ hout
      · next hout =>
        simp only [List.mem_singleton, Passage.back.injEq]
        exact ⟨fun h => ⟨h.symm, h ▸ hout⟩, fun h => h.1.symm⟩

/-- **The first that waits is the last that came back.** -/
theorem backLast_of_waiting {w : List UInt32} (hw : waiting past = i :: w) : BackLast past i := by
  induction past generalizing w with
  | nil => cases hw
  | cons t past ih =>
    have hold {w : List UInt32} (hw : waiting past = i :: w) : BackLast (t :: past) i := by
      obtain ⟨earlier, later, rfl, hlater⟩ := ih hw
      exact ⟨t :: earlier, later, rfl, hlater⟩
    cases t with
    | out j => exact hold hw
    | back j =>
      rw [waiting] at hw
      split at hw
      · next hout => exact hold ((List.append_nil _).symm.trans hw)
      · next hout =>
        cases hpast : waiting past with
        | nil =>
          -- nothing that came back later waits, so `j` is the first
          rw [hpast] at hw
          obtain ⟨rfl, -⟩ := List.cons.inj hw
          refine ⟨[], past, rfl, hout, fun i hi => ?_⟩
          rw [← mem_waiting_iff, hpast] at hi
          cases hi
        | cons i' w' =>
          rw [hpast, List.cons_append] at hw
          obtain ⟨rfl, -⟩ := List.cons.inj hw
          exact hold hpast

theorem waiting_back : waiting (past ++ [.back i]) = i :: waiting past := by
  induction past with
  | nil => rfl
  | cons t past ih =>
    cases t with
    | out j => exact ih
    | back j => simp [waiting, ih]

theorem waiting_out : waiting (past ++ [.out i]) = (waiting past).filter (· ≠ i) := by
  induction past with
  | nil => rfl
  | cons t past ih =>
    cases t with
    | out j => exact ih
    | back j =>
      have hmem : Passage.out j ∈ past ++ [.out i] ↔ Passage.out j ∈ past ∨ j = i := by simp
      simp only [waiting, List.cons_append, List.filter_append, ih, hmem]
      by_cases hj : j = i <;> by_cases hout : Passage.out j ∈ past <;> simp [hj, hout]

/-! ### Passages and free list -/

/-- **The free list agrees with the passages**: it remembers what waits, and the blocks that were ever out
are the first ones. -/
structure Recalls (past : List Passage) (a : BlockArena) : Prop extends a.Gauged where
  returned : a.freeList.returned = waiting past
  went : ∀ i, .out i ∈ past ↔ i.toNat < a.peak

theorem recalls_fresh (id : UInt32) {capacity : Nat} (blockSize : Nat) (hc : capacity < indexLimit) :
    Recalls [] (fresh id capacity blockSize) where
  toGauged := gauged_fresh id blockSize hc
  returned := rfl
  went i := by simp [fresh]

/-- What came back goes out first. -/
theorem returned_of_next? {l : FreeList} (hn : l.next? = some (i, rest)) :
    l.returned = i :: rest.returned ∨ l.returned = [] ∧ rest.returned = [] := by
  unfold FreeList.next? at hn
  split at hn
  · next i' back hr =>
    obtain ⟨rfl, rfl⟩ := Prod.mk.inj (Option.some.inj hn)
    exact .inl hr
  · next hr =>
    split at hn
    · obtain ⟨rfl, rfl⟩ := Prod.mk.inj (Option.some.inj hn)
      exact .inr ⟨hr, hr⟩
    · cases hn

namespace Recalls

/-- **The passages tell which blocks are in use.** -/
theorem inUse_iff (ha : Recalls past a) : a.InUse i ↔ .out i ∈ past ∧ ¬Waits past i := by
  rw [← mem_waiting_iff, ← ha.returned, ha.went]
  constructor
  · intro hu
    refine ⟨ha.lt_peak_of_inUse hu, fun hi => ?_⟩
    exact ((ha.mem_free_iff i).1 (List.mem_append_left _ hi)).2 hu
  · rintro ⟨hlt, hi⟩
    by_contra hfree
    have hmem := (ha.mem_free_iff i).2 ⟨Nat.lt_of_lt_of_le hlt ha.peak_le, hfree⟩
    rw [FreeList.toList, ha.frontier, ha.bound, List.mem_append] at hmem
    obtain ⟨n, hn, rfl⟩ := List.mem_map.1 (hmem.resolve_left hi)
    have hn' := List.mem_range'_1.1 hn
    rw [UInt32.toNat_ofNat_of_lt' (Nat.lt_of_lt_of_le (by omega) (Nat.le_of_lt ha.capacity_lt))] at hlt
    omega

/-- **What goes out next**: what came back last, or else the least that was never out. -/
theorem next (ha : Recalls past a) (hn : a.freeList.next? = some (i, rest)) :
    BackLast past i ∨ (∀ j, ¬Waits past j) ∧ FirstNew past i := by
  rcases returned_of_next? hn with hr | ⟨hr, -⟩
  · exact .inl (backLast_of_waiting (ha.returned ▸ hr))
  · refine .inr ⟨fun j hj => ?_, ?_⟩
    · rw [← mem_waiting_iff, ← ha.returned, hr] at hj
      cases hj
    · have hcount := ha.live_add_returned
      rw [hr, List.length_nil] at hcount
      have hi : i.toNat = a.peak := by
        rcases (ha.next?_cases hn).2 with hback | hnew <;> omega
      refine ⟨fun hout => ?_, fun j hj => (ha.went j).2 ?_⟩
      · have := (ha.went i).1 hout
        omega
      · have := UInt32.lt_iff_toNat_lt.1 hj
        omega

theorem handOut (ha : Recalls past a) (hn : a.freeList.next? = some (i, rest)) :
    Recalls (past ++ [.out i]) (a.handOut i rest) where
  toGauged := ha.toGauged.handOut hn
  returned := by
    change rest.returned = _
    rw [waiting_out, ← ha.returned]
    rcases returned_of_next? hn with hr | ⟨hr, hrest⟩
    · -- no block is on the free list twice
      have hnd := ha.nodup_free.of_append_left
      rw [hr] at hnd ⊢
      have hi := (List.nodup_cons.1 hnd).1
      rw [List.filter_cons_of_neg (by simp), List.filter_eq_self.2]
      exact fun j hj => decide_eq_true fun h => hi (h ▸ hj)
    · rw [hr, hrest, List.filter_nil]
  went j := by
    have hpeak : rest.frontier = (a.handOut i rest).peak := (ha.toGauged.handOut hn).frontier
    rw [← hpeak, List.mem_append, List.mem_singleton, Passage.out.injEq, ha.went j, ← UInt32.toNat_inj]
    rcases (ha.next?_cases hn).2 with hback | hnew <;> omega

theorem takeBack (ha : Recalls past a) (hu : a.InUse i) :
    Recalls (past ++ [.back i]) (a.takeBack i) where
  toGauged := ha.toGauged.takeBack hu
  returned := by
    rw [waiting_back, ← ha.returned]
    rfl
  went j := by
    rw [List.mem_append, ha.went j]
    simp [BlockArena.takeBack]

end Recalls

/-! ### The passages of a run -/

section Runs

variable {ι : Type} {s : ι → BlockArena} {k : ι}

/-- The passage that a call makes at this arena, if it makes one. -/
def Call.passage? (a : BlockArena) : Call ι → Option Passage
  | allocate _ => (BlockArena.allocate a).result.toOption.map fun h => .out h.index
  | free _ h => (BlockArena.free h a).result.toOption.map fun _ => .back h.index
  | write _ _ _ _ => none

theorem Recalls.act (ha : Recalls past a) (c : Call ι) :
    Recalls (past ++ (c.passage? a).toList) (c.act a).state := by
  cases c with
  | allocate k =>
    rw [Call.act, Act.map_apply, Call.passage?]
    cases hn : a.freeList.next? with
    | none =>
      rw [allocate_full a hn]
      simpa [Except.toOption] using ha
    | some next =>
      rw [allocate_ok a hn]
      exact ha.handOut hn
  | free k h =>
    rw [Call.act, Act.map_apply, Call.passage?]
    cases hl : a.locate h with
    | error e =>
      rw [free_error a h hl]
      simpa [Except.toOption] using ha
    | ok slot =>
      rw [free_ok a h hl]
      exact ha.takeBack (accepts_of_locate hl).inUse
  | write k h offset bs =>
    rw [Call.act, Act.map_apply, Call.passage?, Option.toList_none, List.append_nil]
    obtain ⟨hgauged, hpeak, -⟩ := gauged_write ha.toGauged h offset bs
    refine ⟨hgauged, ?_, fun i => ?_⟩
    · exact (congrArg FreeList.returned (freeList_write h offset bs a)).trans ha.returned
    · exact hpeak.symm ▸ ha.went i

variable [DecidableEq ι]

/-- The passages that a call makes at arena `k`. -/
def Call.passages (k : ι) (s : ι → BlockArena) (c : Call ι) : List Passage :=
  if c.target = k then (c.passage? (s k)).toList else []

/-- The passages of the blocks of arena `k`, the first one first. -/
def passages (k : ι) (s : ι → BlockArena) : List (Call ι) → List Passage
  | [] => []
  | c :: calls => c.passages k s ++ passages k (c.step s).state calls

theorem Recalls.step (hs : Recalls past (s k)) (c : Call ι) :
    Recalls (past ++ c.passages k s) ((c.step s).state k) := by
  rw [c.state_step, Call.passages]
  by_cases hk : c.target = k
  · subst hk
    rw [Function.update_self, if_pos rfl]
    exact hs.act c
  · rw [Function.update_of_ne (Ne.symm hk), if_neg hk, List.append_nil]
    exact hs

/-- **The free list agrees with the passages, whatever is called.** -/
theorem Recalls.run (hs : Recalls past (s k)) (calls : List (Call ι)) :
    Recalls (past ++ BlockArena.passages k s calls) (BlockArena.run s calls k) := by
  induction calls generalizing s past with
  | nil => simpa [BlockArena.passages, BlockArena.run] using hs
  | cons c calls ih =>
    rw [BlockArena.passages, ← List.append_assoc]
    exact ih (hs.step c)

theorem Reserved.recalls (hs : Reserved s) (calls : List (Call ι)) (k : ι) :
    Recalls (passages k s calls) (run s calls k) := by
  have hfresh : Recalls [] (s k) := by
    have hlt := (hs.sound k).capacity_lt
    obtain ⟨id, capacity, blockSize, -, hk⟩ := hs.fresh k
    rw [hk] at hlt ⊢
    exact recalls_fresh id blockSize hlt
  exact hfresh.run calls

/-- **The order of blocks.** After any calls to several arenas, with handles of any origin, the free list
of an arena holds the blocks that are not in use, each once, and the counts agree with it. A block is in
use if it went out and did not come back since. The arena is asked for a block in vain if all are in use,
and only then. What it hands out is not in use: of the blocks that came back and did not go out since it is
the one that came back last, and if there are none, it is the first that was never out. -/
theorem blocks_in_order (hs : Reserved s) (calls : List (Call ι)) (k : ι) :
    let a := run s calls k
    let past := passages k s calls
    (a.freeList.toList.Nodup ∧
      (∀ i, i ∈ a.freeList.toList ↔ i.toNat < a.capacity ∧ ¬a.InUse i) ∧
      a.live = ((List.range a.capacity).countP fun n => (a.slots.get n).used) ∧
      a.live + a.freeList.toList.length = a.capacity) ∧
    (∀ i, a.InUse i ↔ .out i ∈ past ∧ ¬Waits past i) ∧
    ((∃ e, (allocate a).result = .error e) ↔ ∀ i, i.toNat < a.capacity → a.InUse i) ∧
    ∀ h, (allocate a).result = .ok h →
      h.index.toNat < a.capacity ∧ ¬a.InUse h.index ∧
      (BackLast past h.index ∨ (∀ j, ¬Waits past j) ∧ FirstNew past h.index) := by
  intro a past
  have ha : Recalls past a := hs.recalls calls k
  refine ⟨⟨ha.nodup_free, ha.mem_free_iff, ha.live_eq, ha.live_add_free⟩, fun i => ha.inUse_iff, ?_,
    fun h hh => ?_⟩
  · rw [← ha.noneFree_iff]
    cases hn : a.freeList.next? with
    | none => simp [allocate_full a hn]
    | some next => simp [allocate_ok a hn]
  · cases hn : a.freeList.next? with
    | none =>
      rw [allocate_full a hn] at hh
      cases hh
    | some next =>
      rw [allocate_ok a hn] at hh
      cases hh
      obtain ⟨hlt, hfree⟩ := ha.of_next? hn
      exact ⟨hlt, hfree, ha.next hn⟩

end Runs

/-- An arena of three blocks. -/
def trio (_ : Unit) : BlockArena := .fresh 1 3 8

theorem reserved_trio : Reserved trio where
  fresh _ := ⟨1, 3, 8, rfl, rfl⟩
  apart _ _ _ := rfl

/-- Two blocks come back, and the first of them is given back once more, in vain. The one that came back
last goes out next, although a third was never out. -/
theorem blocks_in_order_trio :
    let calls := [.allocate (), .allocate (), .free () ⟨1, 0, 0⟩, .free () ⟨1, 1, 0⟩,
      .free () ⟨1, 0, 0⟩]
    let a := run trio calls ()
    let past := passages () trio calls
    past = [.out 0, .out 1, .back 0, .back 1] ∧ a.freeList.toList.Nodup ∧
      (allocate a).result = .ok ⟨1, 1, 1⟩ ∧ BackLast past 1 := by
  intro calls a past
  have hpast : past = [.out 0, .out 1, .back 0, .back 1] := by decide +kernel
  have hh : (allocate a).result = .ok ⟨1, 1, 1⟩ := by decide +kernel
  have hout : .out 1 ∈ past := by
    rw [hpast]
    decide
  obtain ⟨⟨hnd, -⟩, -, -, hnext⟩ := blocks_in_order reserved_trio calls ()
  exact ⟨hpast, hnd, hh, (hnext _ hh).2.2.resolve_right fun hnew => hnew.2.1 hout⟩

end BlockArena

end FixedArena
