/-!
Free lists: the slot numbers that can be handed out, next one first. Numbers that came back go out
again before any that was never out, and those go out in ascending order. So a list keeps only the
numbers that came back and the least number that was never out; a new list of any length costs
nothing.

Main facts:
* `toList_fresh`, `toList_push`: the numbers of a new list, and of a list that one came back to;
* `next?_eq_none_iff`, `toList_of_next?`: the number that goes out is the first of the list.
-/

namespace FixedArena

/-- The slot numbers that can be handed out. -/
structure FreeList where
  /-- The numbers that came back, last one first. -/
  returned : List UInt32
  /-- The least number that was never out. -/
  frontier : Nat
  /-- All numbers are below this one. -/
  bound : Nat

namespace FreeList

/-- All numbers below `count`. -/
def fresh (count : Nat) : FreeList := ⟨[], 0, count⟩

/-- The numbers in the order in which they go out. -/
def toList (l : FreeList) : List UInt32 :=
  l.returned ++ (List.range' l.frontier (l.bound - l.frontier)).map UInt32.ofNat

/-- The list after a number came back. -/
def push (l : FreeList) (i : UInt32) : FreeList := { l with returned := i :: l.returned }

/-- The number that goes out next, if there is one, and the list after it. -/
def next? (l : FreeList) : Option (UInt32 × FreeList) :=
  match l.returned with
  | i :: rest => some (i, { l with returned := rest })
  | [] =>
    if l.frontier < l.bound then
      some (UInt32.ofNat l.frontier, { l with frontier := l.frontier + 1 })
    else none

theorem toList_fresh (count : Nat) :
    (fresh count).toList = (List.range count).map UInt32.ofNat := by
  simp [fresh, toList, List.range_eq_range']

theorem toList_push (l : FreeList) (i : UInt32) : (l.push i).toList = i :: l.toList := rfl

/-- **What goes out is the first of the list.** -/
theorem toList_of_next? {l rest : FreeList} {i : UInt32} (h : l.next? = some (i, rest)) :
    l.toList = i :: rest.toList := by
  unfold next? at h
  split at h
  · next hr =>
    cases h
    simp [toList, hr]
  · next hr =>
    split at h
    · next hlt =>
      cases h
      rw [toList, toList, hr, show l.bound - l.frontier = l.bound - (l.frontier + 1) + 1 by omega]
      simp [List.range'_succ]
    · cases h

theorem next?_eq_none_iff (l : FreeList) : l.next? = none ↔ l.toList = [] := by
  constructor
  · intro h
    unfold next? at h
    split at h
    · cases h
    · next hr =>
      split at h
      · cases h
      · next hlt => simp [toList, hr, Nat.sub_eq_zero_of_le (Nat.le_of_not_lt hlt)]
  · intro h
    match hn : l.next? with
    | none => rfl
    | some (i, rest) =>
      rw [toList_of_next? hn] at h
      cases h

end FreeList

end FixedArena
