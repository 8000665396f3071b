import FixedArena.Proofs.Store.Reserving
import FixedArena.Sizing.Document
import FixedArena.Store.Step

/-!
Sizings that pass their check and cannot be reserved. The check looks at every size, but at no
product of sizes, and at the sum of two of them only as a machine word; handles are narrower, and
arenas are as large as products.

Main facts:
* `Sizing.check_eq_ok_iff`: what the check of a sizing promises;
* `Sizing.overlooked?`: the range that a checked sizing may leave all the same;
* `Store.reserve_checked`: reserving a checked sizing fails of a range in these cases, and of
  nothing but memory in all others.
-/

namespace FixedArena

variable {s : Sizing} {capacity blockSize slots maxLen : Nat}

/-- The sizes are out of range, whatever memory there is. -/
def ReservationFault.OutOfRange : ReservationFault → Prop
  | .beyondMemory _ => False
  | _ => True

/-! ### What is checked -/

namespace Sizing

theorem check_eq_ok_iff : s.check = .ok () ↔
    0 < s.nodes.maxLen ∧ 0 < s.nodes.maxDeques ∧ s.nodes.maxLen + s.nodes.maxDeques < wordLimit ∧
    s.nodes.blockSize ≠ some 0 ∧ 0 < s.strings.slots ∧ s.strings.slots < 65535 ∧
    0 < s.strings.maxStrLen := by
  unfold check
  grind

/-- Every document that is understood passes the check. -/
theorem check_of_parse {text : String} (h : parse text = .ok s) : s.check = .ok () := by
  unfold parse at h
  split at h
  · cases h
  · split at h
    · next hcheck =>
      obtain rfl := Except.ok.inj h
      exact hcheck
    · cases h

/-- The first range that a sizing leaves although it passed the check. A pool is asked for only
after the arena has found memory. -/
def overlooked? (s : Sizing) : Option ReservationFault :=
  let blocks := Store.blocksOf s
  let width := Store.widthOf s
  let slotLen := s.strings.maxStrLen + 1
  if indexLimit ≤ blocks then some (.tooManyBlocks blocks)
  else if wordLimit ≤ blocks * width then some (.blocksOverflow blocks width)
  else if blocks * width < memoryLimit ∧ wordLimit ≤ s.strings.slots * slotLen then
    some (.slotsOverflow s.strings.slots slotLen)
  else none

end Sizing

/-! ### What is refused -/

theorem BlockArena.room_eq (hc : 0 < capacity) (hb : 0 < blockSize) : room capacity blockSize =
    if indexLimit ≤ capacity then .error (.tooManyBlocks capacity)
    else if wordLimit ≤ capacity * blockSize then .error (.blocksOverflow capacity blockSize)
    else if memoryLimit ≤ capacity * blockSize then .error (.beyondMemory (capacity * blockSize))
    else .ok () := by
  unfold room memoryFor checkSizes
  grind

theorem TextPool.room_eq (hs : 0 < slots) (hlt : slots < 65535) (hm : 0 < maxLen) :
    room slots maxLen =
      if wordLimit ≤ slots * (maxLen + 1) then .error (.slotsOverflow slots (maxLen + 1))
      else if memoryLimit ≤ slots * (maxLen + 1) then .error (.beyondMemory (slots * (maxLen + 1)))
      else .ok () := by
  unfold room memoryFor checkSizes
  grind

namespace Store

variable {st : Store}

theorem result_reserve (s : Sizing) (st : Store) : (step (.reserve s) st).result =
    match BlockArena.room (blocksOf s) (widthOf s),
      TextPool.room s.strings.slots s.strings.maxStrLen with
    | .error e, _ => .error (.unreserved e)
    | .ok (), .error e => .error (.unreserved e)
    | .ok (), .ok () => .ok (.both st.arenas.size st.pools.size) := by
  rw [step, Act.map_apply]
  match hroom : BlockArena.room (blocksOf s) (widthOf s),
    hslots : TextPool.room s.strings.slots s.strings.maxStrLen with
  | .error e, _ => exact congrArg (Except.map _) (addArenas_noBlocks hroom st).1
  | .ok (), .error e => exact congrArg (Except.map _) (addArenas_noSlots hroom hslots st).1
  | .ok (), .ok () => exact congrArg (Except.map _) (addArenas_ok hroom hslots st).1

theorem widthOf_pos (h : s.nodes.blockSize ≠ some 0) : 0 < widthOf s := by
  unfold widthOf
  cases hb : s.nodes.blockSize with
  | none => decide
  | some n =>
    have hn : n ≠ 0 := fun h0 => h (by rw [hb, h0])
    exact Nat.pos_of_ne_zero hn

/-- A checked sizing fails of what its check overlooked, or of memory, or is reserved. -/
theorem reserve_cases (h : s.check = .ok ()) (st : Store) :
    (∃ f, s.overlooked? = some f ∧ f.OutOfRange ∧
      (step (.reserve s) st).result = .error (.unreserved f)) ∨
    s.overlooked? = none ∧
      ((∃ bytes, (step (.reserve s) st).result = .error (.unreserved (.beyondMemory bytes))) ∨
        (step (.reserve s) st).result = .ok (.both st.arenas.size st.pools.size)) := by
  obtain ⟨hlen, hdeques, -, hsize, hslots, hlt, hstr⟩ := Sizing.check_eq_ok_iff.1 h
  have hblocks : 0 < blocksOf s := Nat.lt_of_lt_of_le hlen (Nat.le_add_right ..)
  rw [result_reserve, BlockArena.room_eq hblocks (widthOf_pos hsize),
    TextPool.room_eq hslots hlt hstr]
  unfold Sizing.overlooked?
  dsimp only
  by_cases hindex : indexLimit ≤ blocksOf s
  · simp only [if_pos hindex]
    exact .inl ⟨_, rfl, trivial, rfl⟩
  by_cases hword : wordLimit ≤ blocksOf s * widthOf s
  · simp only [if_neg hindex, if_pos hword]
    exact .inl ⟨_, rfl, trivial, rfl⟩
  by_cases hmem : memoryLimit ≤ blocksOf s * widthOf s
  · have hover : ¬(blocksOf s * widthOf s < memoryLimit ∧
        wordLimit ≤ s.strings.slots * (s.strings.maxStrLen + 1)) := fun hb =>
      absurd hmem (Nat.not_le.2 hb.1)
    simp only [if_neg hindex, if_neg hword, if_pos hmem, if_neg hover]
    exact .inr ⟨trivial, .inl ⟨_, rfl⟩⟩
  have hfound := Nat.lt_of_not_le hmem
  by_cases hslot : wordLimit ≤ s.strings.slots * (s.strings.maxStrLen + 1)
  · simp only [if_neg hindex, if_neg hword, if_neg hmem, if_pos hslot,
      if_pos (And.intro hfound hslot)]
    exact .inl ⟨_, rfl, trivial, rfl⟩
  · have hover : ¬(blocksOf s * widthOf s < memoryLimit ∧
        wordLimit ≤ s.strings.slots * (s.strings.maxStrLen + 1)) := fun hb => hslot hb.2
    simp only [if_neg hindex, if_neg hword, if_neg hmem, if_neg hslot, if_neg hover]
    refine .inr ⟨trivial, ?_⟩
    by_cases hlarge : memoryLimit ≤ s.strings.slots * (s.strings.maxStrLen + 1)
    · simp only [if_pos hlarge]
      exact .inl ⟨_, rfl⟩
    · simp only [if_neg hlarge]
      exact .inr trivial

/-- **What a sizing's own check overlooks.** Reserving a checked sizing fails of a range exactly if
the blocks do not fit handles, or the bytes of all blocks or of all slots are no machine word.
Otherwise it is reserved, unless there is no memory for it. -/
theorem reserve_checked (h : s.check = .ok ()) (st : Store) :
    (∀ f : ReservationFault, f.OutOfRange →
      ((step (.reserve s) st).result = .error (.unreserved f) ↔ s.overlooked? = some f)) ∧
    (s.overlooked? = none →
      (step (.reserve s) st).result = .ok (.both st.arenas.size st.pools.size) ∨
      ∃ bytes, (step (.reserve s) st).result = .error (.unreserved (.beyondMemory bytes))) ∧
    (s.overlooked? = none ↔ blocksOf s < indexLimit ∧ blocksOf s * widthOf s < wordLimit ∧
      (blocksOf s * widthOf s < memoryLimit →
        s.strings.slots * (s.strings.maxStrLen + 1) < wordLimit)) := by
  refine ⟨fun f hf => ?_, fun hnone => ?_, ?_⟩
  · obtain ⟨f', hover, -, hresult⟩ | ⟨hnone, ⟨bytes, hresult⟩ | hresult⟩ := reserve_cases h st
    · rw [hover, hresult]
      constructor
      · intro heq
        cases heq
        rfl
      · intro heq
        cases heq
        rfl
    · rw [hnone, hresult]
      refine iff_of_false (fun heq => ?_) nofun
      cases heq
      exact hf
    · rw [hnone, hresult]
      exact iff_of_false nofun nofun
  · obtain ⟨f', hover, -⟩ | ⟨-, hmem | hresult⟩ := reserve_cases h st
    · rw [hnone] at hover
      cases hover
    · exact .inr hmem
    · exact .inl hresult
  · unfold Sizing.overlooked?
    grind

/-- A document that is understood and checked, and describes more blocks than handles can name. -/
def overfull : String := "[nodes]\nmax_len = 4294967295\n"

theorem reserve_checked_overfull : ∃ s, Sizing.parse overfull = .ok s ∧ s.check = .ok () ∧
    s.overlooked? = some (.tooManyBlocks 4294967297) ∧
    (step (.reserve s) {}).result = .error (.unreserved (.tooManyBlocks 4294967297)) := by
  let s : Sizing := { nodes := { maxLen := 4294967295 } }
  have hparse : Sizing.parse overfull = .ok s := by
    have hsome : (Sizing.parse overfull).toOption = some s := by decide +kernel
    cases hp : Sizing.parse overfull with
    | ok s' =>
      rw [hp] at hsome
      exact congrArg Except.ok (Option.some.inj hsome)
    | error e =>
      rw [hp] at hsome
      cases hsome
  have hcheck := Sizing.check_of_parse hparse
  have hover : s.overlooked? = some (.tooManyBlocks 4294967297) := by decide +kernel
  have hresult := (reserve_checked hcheck {}).1 (.tooManyBlocks 4294967297) trivial
  exact ⟨s, hparse, hcheck, hover, hresult.2 hover⟩

end Store

end FixedArena
