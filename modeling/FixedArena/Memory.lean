/-!
Memories: a value at every address, which is the default value at all but a few of them. A memory
is a binary tree: the root holds the value at address zero, address `2 * k + 1` is address `k` of
one branch, and address `2 * k + 2` is address `k` of the other. A change rebuilds the paths to the
changed addresses and shares the rest with the memory before it, so that memories of any size cost
only what was written to them.

Main facts:
* `get_update`: a change shows at its addresses and nowhere else;
* `get_set`, `get_overwrite`, `get_wipe`: the same for one value, for a list, and for defaults;
* `getElem?_slice`: what is read from a range;
* `slice_run`: the values before the first one that fails a test.
-/

namespace FixedArena

/-- A value at every address. -/
inductive Memory (α : Type) where
  /-- The default value everywhere. -/
  | blank
  /-- A value at address zero, and the values at odd and at other even addresses. -/
  | node (first : α) (odd even : Memory α)

namespace Memory

variable {α : Type}

/-- The values at odd addresses. -/
def odd : Memory α → Memory α
  | blank => blank
  | node _ m _ => m

/-- The values at even addresses from two on. -/
def even : Memory α → Memory α
  | blank => blank
  | node _ _ m => m

@[simp] theorem odd_node (v : α) (odd even : Memory α) : (node v odd even).odd = odd := rfl

@[simp] theorem even_node (v : α) (odd even : Memory α) : (node v odd even).even = even := rfl

variable [Inhabited α]

/-- The value at address zero. -/
def first : Memory α → α
  | blank => default
  | node v _ _ => v

@[simp] theorem first_node (v : α) (odd even : Memory α) : (node v odd even).first = v := rfl

/-- The value at an address. -/
def get : Memory α → Nat → α
  | blank, _ => default
  | node v _ _, 0 => v
  | node _ odd even, k + 1 => if k % 2 = 0 then odd.get (k / 2) else even.get (k / 2)

/-- The memory with the values of a function from one address up to, but not at, another. -/
def update (m : Memory α) (start stop : Nat) (f : Nat → α) : Memory α :=
  if stop ≤ start then m
  else
    node (if start = 0 then f 0 else m.first)
      (m.odd.update (start / 2) (stop / 2) fun k => f (2 * k + 1))
      (m.even.update ((start - 1) / 2) ((stop - 1) / 2) fun k => f (2 * k + 2))
termination_by stop

/-- The memory with another value at an address. -/
def set (m : Memory α) (k : Nat) (v : α) : Memory α := m.update k (k + 1) fun _ => v

theorem get_zero (m : Memory α) : m.get 0 = m.first := by cases m <;> rfl

theorem get_succ (m : Memory α) (k : Nat) :
    m.get (k + 1) = if k % 2 = 0 then m.odd.get (k / 2) else m.even.get (k / 2) := by
  cases m with
  | blank => simp [get, odd, even]
  | node => rfl

@[simp] theorem get_blank (k : Nat) : (blank : Memory α).get k = default := by
  cases k <;> rfl

/-- **A change shows at its addresses and nowhere else.** -/
theorem get_update (m : Memory α) (start stop : Nat) (f : Nat → α) (k : Nat) :
    (m.update start stop f).get k = if start ≤ k ∧ k < stop then f k else m.get k := by
  induction stop using Nat.strongRecOn generalizing m start f k with
  | _ stop ih =>
    rw [update]
    split
    · next h =>
      have : ¬(start ≤ k ∧ k < stop) := by omega
      rw [if_neg this]
    · next h =>
      match k with
      | 0 =>
        have : start ≤ 0 ∧ 0 < stop ↔ start = 0 := by omega
        simp only [this, get_zero, first_node]
      | k + 1 =>
        by_cases hp : k % 2 = 0
        · have : start / 2 ≤ k / 2 ∧ k / 2 < stop / 2 ↔ start ≤ k + 1 ∧ k + 1 < stop := by omega
          simp only [get_succ, odd_node, if_pos hp, ih (stop / 2) (by omega), this,
            show 2 * (k / 2) + 1 = k + 1 by omega]
        · have : (start - 1) / 2 ≤ k / 2 ∧ k / 2 < (stop - 1) / 2 ↔
              start ≤ k + 1 ∧ k + 1 < stop := by omega
          simp only [get_succ, even_node, if_neg hp, ih ((stop - 1) / 2) (by omega), this,
            show 2 * (k / 2) + 2 = k + 1 by omega]

theorem get_set (m : Memory α) (k : Nat) (v : α) (j : Nat) :
    (m.set k v).get j = if j = k then v else m.get j := by
  have : k ≤ j ∧ j < k + 1 ↔ j = k := by omega
  simp only [set, get_update, this]

/-! ### Ranges of addresses -/

/-- The values at so many addresses in a row. -/
def slice (m : Memory α) (start len : Nat) : List α :=
  (List.range len).map fun i => m.get (start + i)

/-- The memory with values written one after the other. -/
def overwrite (m : Memory α) (start : Nat) (vs : List α) : Memory α :=
  let values := vs.toArray
  m.update start (start + values.size) fun k => values.getD (k - start) default

/-- The memory with the default value from one address up to, but not at, another. -/
def wipe : Memory α → Nat → Nat → Memory α
  | blank, _, _ => blank
  | node v odd even, start, stop =>
    if stop ≤ start then node v odd even
    else
      node (if start = 0 then default else v) (odd.wipe (start / 2) (stop / 2))
        (even.wipe ((start - 1) / 2) ((stop - 1) / 2))

/-- How many values in a row from an address on pass a test, among so many at most. -/
def run (m : Memory α) (p : α → Bool) (start limit : Nat) : Nat := go 0 limit
where
  go (len : Nat) : Nat → Nat
    | 0 => len
    | n + 1 => if p (m.get (start + len)) then go (len + 1) n else len

@[simp] theorem length_slice (m : Memory α) (start len : Nat) :
    (m.slice start len).length = len := by
  simp [slice]

theorem getElem?_slice (m : Memory α) (start len i : Nat) :
    (m.slice start len)[i]? = if i < len then some (m.get (start + i)) else none := by
  by_cases h : i < len <;> simp [slice, h]

theorem slice_succ (m : Memory α) (start len : Nat) :
    m.slice start (len + 1) = m.get start :: m.slice (start + 1) len := by
  simp [slice, List.range_succ_eq_map, Function.comp_def, Nat.add_comm, Nat.add_left_comm]

theorem run_go_eq (m : Memory α) (p : α → Bool) (start len n : Nat) :
    run.go m p start len n = len + ((m.slice (start + len) n).takeWhile p).length := by
  induction n generalizing len with
  | zero => rfl
  | succ n ih =>
    rw [run.go, slice_succ, List.takeWhile_cons]
    split
    · rw [ih, List.length_cons, Nat.add_assoc start]
      omega
    · rfl

theorem run_eq (m : Memory α) (p : α → Bool) (start limit : Nat) :
    m.run p start limit = ((m.slice start limit).takeWhile p).length := by
  rw [run, run_go_eq, Nat.zero_add, Nat.add_zero]

/-- **The values before the first one that fails a test.** -/
theorem slice_run (m : Memory α) (p : α → Bool) (start limit : Nat) :
    m.slice start (m.run p start limit) = (m.slice start limit).takeWhile p := by
  rw [run_eq]
  induction limit generalizing start with
  | zero => rfl
  | succ limit ih =>
    rw [slice_succ, List.takeWhile_cons]
    split
    · rw [List.length_cons, slice_succ, ih]
    · rfl

theorem get_overwrite (m : Memory α) (start : Nat) (vs : List α) (k : Nat) :
    (m.overwrite start vs).get k =
      if start ≤ k then vs[k - start]?.getD (m.get k) else m.get k := by
  simp only [overwrite, get_update, List.size_toArray]
  by_cases hs : start ≤ k
  · by_cases hk : k < start + vs.length
    · have : k - start < vs.length := by omega
      simp [hs, hk, this]
    · have : vs.length ≤ k - start := by omega
      simp [hs, hk, this]
  · simp [hs]

theorem get_wipe (m : Memory α) (start stop k : Nat) :
    (m.wipe start stop).get k = if start ≤ k ∧ k < stop then default else m.get k := by
  induction m generalizing start stop k with
  | blank => simp [wipe]
  | node v odd even ihOdd ihEven =>
    rw [wipe]
    split
    · next h =>
      have : ¬(start ≤ k ∧ k < stop) := by omega
      rw [if_neg this]
    · next h =>
      match k with
      | 0 =>
        have : start ≤ 0 ∧ 0 < stop ↔ start = 0 := by omega
        simp only [this, get]
      | k + 1 =>
        by_cases hp : k % 2 = 0
        · have : start / 2 ≤ k / 2 ∧ k / 2 < stop / 2 ↔ start ≤ k + 1 ∧ k + 1 < stop := by omega
          simp only [get, if_pos hp, ihOdd, this]
        · have : (start - 1) / 2 ≤ k / 2 ∧ k / 2 < (stop - 1) / 2 ↔
              start ≤ k + 1 ∧ k + 1 < stop := by omega
          simp only [get, if_neg hp, ihEven, this]

end Memory

end FixedArena
