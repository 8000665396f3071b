import FixedArena.Proofs.Acts
import FixedArena.Proofs.Text.Spelling
import Mathlib.Logic.Function.Basic

/-!
What a text pool comes to: a map from the numbers of the slots in use to their texts, and to who
has them. The bytes of a slot spell a text as long as every slot ends with a zero byte; whatever
changes one slot then changes the map at its number, and nowhere else.

Main facts:
* `Tidy`: every slot ends with a zero byte, every slot in use spells a text, slots in use are counted;
* `Tidy.text_eq`, `Tidy.textLen_eq`: what is read from a slot is its entry in the map;
* `Changes`: one slot changes; `Tidy.changes`: the pool stays tidy, and the map changes there;
* `changes_putText`, `changes_lend`, `changes_setState`, `changes_takeBack`: the four ways to do it.
-/

namespace FixedArena

/-- What is set to what it is already stays. -/
theorem set_back {β : Type} {xs : Array β} {x : β} {n : Nat} (h : xs[n]? = some x) :
    xs.setIfInBounds n x = xs := by
  obtain ⟨hn, rfl⟩ := Array.getElem?_eq_some_iff.1 h
  rw [Array.setIfInBounds, dif_pos hn, Array.set_getElem_self]

namespace TextPool

variable {p p' : TextPool} {h : TextHandle} {i j offset : Nat} {s t : String} {bs : List UInt8}
  {old state : SlotState}

/-! ### The map -/

/-- A slot in use: its text, and whether a container owns it. -/
structure Entry where
  text : String
  owned : Bool
  deriving DecidableEq, Repr

/-- What a pool comes to: an entry at the number of every slot in use. -/
@[ext]
structure Catalog where
  id : UInt16
  capacity : Nat
  maxLen : Nat
  entries : Nat → Option Entry

namespace Catalog

/-- The map with another entry, or none, at a number. -/
def put (m : Catalog) (i : Nat) (e : Option Entry) : Catalog :=
  { m with entries := Function.update m.entries i e }

@[simp] theorem entries_put_self (m : Catalog) (i : Nat) (e : Option Entry) :
    (m.put i e).entries i = e := Function.update_self ..

theorem entries_put_of_ne (m : Catalog) (e : Option Entry) (hj : j ≠ i) :
    (m.put i e).entries j = m.entries j := Function.update_of_ne hj ..

/-- The entry that a handle names. -/
def find (m : Catalog) (h : TextHandle) : Option Entry :=
  if h.pool = m.id then m.entries h.index.toNat else none

/-- The lowest number without an entry. -/
def firstFree (m : Catalog) : Option Nat :=
  (List.range m.capacity).find? fun i => (m.entries i).isNone

end Catalog

/-- The text that the bytes of a slot spell, if they do. -/
def spelled (p : TextPool) (i : Nat) : String := (Text.ofBytes? (p.content i)).getD ""

/-- The entry of a slot with this text. -/
def entryOf (t : String) : SlotState → Option Entry
  | .free => none
  | .lent => some ⟨t, false⟩
  | .owned => some ⟨t, true⟩

/-- What the pool comes to. -/
def catalog (p : TextPool) : Catalog where
  id := p.id
  capacity := p.capacity
  maxLen := p.maxLen
  entries i := p.slots[i]?.bind (entryOf (p.spelled i))

theorem entries_of_slot (hs : p.slots[i]? = some state) :
    p.catalog.entries i = entryOf (p.spelled i) state := by
  simp [catalog, hs]

theorem entryOf_eq_none_iff : entryOf t state = none ↔ state = .free := by
  cases state <;> simp [entryOf]

/-- A number has an entry if its slot is in use. -/
theorem entries_eq_none_iff :
    p.catalog.entries i = none ↔ ∀ state, p.slots[i]? = some state → state = .free := by
  cases hs : p.slots[i]? with
  | none => simp [catalog, hs]
  | some state => simp [entries_of_slot hs, entryOf_eq_none_iff]

theorem slot_of_entries_none (hi : i < p.capacity) (hn : p.catalog.entries i = none) :
    p.slots[i]? = some .free := by
  have hslot : p.slots[i]? = some p.slots[i] := Array.getElem?_eq_getElem hi
  rw [hslot, entries_eq_none_iff.1 hn _ hslot]

/-! ### Contents -/

theorem content_eq_before (hw : 0 < p.slab.width) (i : Nat) :
    p.content i = before (p.slab.cell i) := by
  have hle : 0 + p.maxLen ≤ p.slab.width := by
    rw [maxLen]
    omega
  rw [content_eq, Slab.slice_eq_cell hle, List.drop_zero, before, Slab.length_cell, maxLen]

theorem content_of_slab (hs : p'.slab = p.slab) (i : Nat) : p'.content i = p.content i := by
  simp only [content, maxLen, hs]

theorem spelled_of_content (hc : p.content i = Text.bytes t) : p.spelled i = t := by
  rw [spelled, hc, Text.ofBytes?_bytes, Option.getD_some]

/-! ### Tidy pools -/

/-- Every slot ends with a zero byte, every slot in use spells a text, and the slots in use are
counted. -/
structure Tidy (p : TextPool) : Prop where
  small : p.capacity < 65535
  width : 0 < p.slab.width
  ended : ∀ i < p.capacity, (p.slab.cell i)[p.maxLen]? = some 0
  spells : ∀ i, p.catalog.entries i ≠ none → ∃ t, p.content i = Text.bytes t
  live : p.live = p.slots.countP (· ≠ .free)

theorem tidy_fresh (id : UInt16) {slots maxLen : Nat} (hs : slots < 65535) :
    (fresh id slots maxLen).Tidy where
  small := by simpa [fresh, capacity] using hs
  width := by simp [fresh, Slab.zeros]
  ended i _ := by
    rw [Slab.getElem?_cell]
    simp [fresh, Slab.zeros, TextPool.maxLen]
    rfl
  spells i hi := by
    refine absurd (entries_eq_none_iff.2 fun state hstate => ?_) hi
    simp only [fresh, Array.getElem?_replicate] at hstate
    split at hstate
    · exact (Option.some.inj hstate).symm
    · cases hstate
  live := by simp [fresh, Array.countP_replicate]

namespace Tidy

/-- The bytes of a slot in use are those of its text. -/
theorem content_eq (hp : p.Tidy) (hi : p.catalog.entries i ≠ none) :
    p.content i = Text.bytes (p.spelled i) := by
  obtain ⟨t, ht⟩ := hp.spells i hi
  rw [spelled_of_content ht, ht]

theorem length_content_le (hp : p.Tidy) (i : Nat) : (p.content i).length ≤ p.maxLen := by
  rw [content_eq_before hp.width]
  have hle := length_before_le (p.slab.cell i)
  rwa [Slab.length_cell] at hle

theorem zero_notMem_content (hp : p.Tidy) (i : Nat) : 0 ∉ p.content i := by
  rw [content_eq_before hp.width]
  exact zero_notMem_before

theorem maxLen_lt (hp : p.Tidy) : p.maxLen < p.slab.width := by
  have := hp.width
  rw [maxLen]
  omega

/-- The slots in use are no more than there are. -/
theorem live_le (hp : p.Tidy) : p.live ≤ p.capacity := by
  rw [hp.live]
  exact Array.countP_le_size

end Tidy

/-! ### Changing one slot -/

/-- How many slots one slot in this state adds to those in use. -/
def SlotState.uses (state : SlotState) : Nat := if state = .free then 0 else 1

/-- **One slot changes**, from state `old` to another, and comes to hold the text `t`. -/
structure Changes (p : TextPool) (i : Nat) (old state : SlotState) (t : String) (p' : TextPool) :
    Prop where
  id : p'.id = p.id
  width : p'.slab.width = p.slab.width
  before : p.slots[i]? = some old
  after : p'.slots = p.slots.setIfInBounds i state
  cells : ∀ j, j ≠ i → p'.slab.cell j = p.slab.cell j
  ended : (p'.slab.cell i)[p.maxLen]? = some 0
  content : p'.content i = Text.bytes t
  live : p'.live + SlotState.uses old = p.live + SlotState.uses state

theorem countP_set (q : SlotState → Bool) (state : SlotState) (hs : p.slots[i]? = some old) :
    (p.slots.setIfInBounds i state).countP q + (if q old then 1 else 0) =
      p.slots.countP q + if q state then 1 else 0 := by
  obtain ⟨hlt, hold⟩ := Array.getElem?_eq_some_iff.1 hs
  have hpos : (if q old then 1 else 0) ≤ p.slots.countP q := by
    split
    · next hq => exact Array.countP_pos_iff.2 ⟨old, hold ▸ Array.getElem_mem hlt, hq⟩
    · exact Nat.zero_le _
  rw [Array.setIfInBounds_def, dif_pos hlt, Array.countP_set, hold]
  omega

namespace Changes

variable (hc : Changes p i old state t p')

include hc

theorem capacity_eq : p'.capacity = p.capacity := by
  rw [capacity, hc.after, Array.size_setIfInBounds, capacity]

theorem maxLen_eq : p'.maxLen = p.maxLen := by rw [maxLen, hc.width, maxLen]

theorem slots_at (j : Nat) : p'.slots[j]? = if j = i then some state else p.slots[j]? := by
  have hlt := (Array.getElem?_eq_some_iff.1 hc.before).1
  rw [hc.after]
  by_cases hj : j = i
  · rw [if_pos hj, hj, Array.getElem?_setIfInBounds_self_of_lt hlt]
  · rw [if_neg hj, Array.getElem?_setIfInBounds_ne (Ne.symm hj)]

/-- The texts of the other slots stay. -/
theorem content_of_ne (hw : 0 < p.slab.width) (hj : j ≠ i) : p'.content j = p.content j := by
  rw [content_eq_before (hc.width ▸ hw), content_eq_before hw, hc.cells j hj]

/-- **The map changes at the number of the slot**, and nowhere else. -/
theorem catalog_eq (hp : p.Tidy) : p'.catalog = p.catalog.put i (entryOf t state) := by
  refine Catalog.ext hc.id hc.capacity_eq hc.maxLen_eq (funext fun j => ?_)
  change p'.slots[j]?.bind (entryOf (p'.spelled j)) = _
  rw [hc.slots_at j]
  by_cases hj : j = i
  · subst hj
    rw [if_pos rfl, Catalog.entries_put_self, Option.bind_some, spelled_of_content hc.content]
  · rw [if_neg hj, Catalog.entries_put_of_ne _ _ hj, spelled, hc.content_of_ne hp.width hj]
    rfl

/-- **The pool stays tidy.** -/
theorem tidy (hp : p.Tidy) : p'.Tidy where
  small := hc.capacity_eq ▸ hp.small
  width := hc.width ▸ hp.width
  ended j hj := by
    rw [hc.maxLen_eq]
    by_cases hji : j = i
    · exact hji ▸ hc.ended
    · rw [hc.cells j hji]
      exact hp.ended j (hc.capacity_eq ▸ hj)
  spells j hj := by
    by_cases hji : j = i
    · exact ⟨t, hji ▸ hc.content⟩
    · rw [hc.catalog_eq hp, Catalog.entries_put_of_ne _ _ hji] at hj
      rw [hc.content_of_ne hp.width hji]
      exact hp.spells j hj
  live := by
    have hlive := hc.live
    have hcount : p'.slots.countP (· ≠ .free) + SlotState.uses old = p.live + SlotState.uses state := by
      rw [hc.after, hp.live]
      simpa [SlotState.uses] using countP_set (· ≠ .free) state hc.before
    omega

omit hc in
/-- A slot that changes twice changes once. -/
theorem trans {p'' : TextPool} {state' : SlotState} {t' : String} (h₁ : Changes p i old state t p')
    (h₂ : Changes p' i state state' t' p'') : Changes p i old state' t' p'' where
  id := h₂.id.trans h₁.id
  width := h₂.width.trans h₁.width
  before := h₁.before
  after := by rw [h₂.after, h₁.after, Array.setIfInBounds_setIfInBounds]
  cells j hj := (h₂.cells j hj).trans (h₁.cells j hj)
  ended := h₁.maxLen_eq ▸ h₂.ended
  content := h₂.content
  live := by
    have hfirst := h₁.live
    have hsecond := h₂.live
    omega

end Changes

/-- **Nothing that is in use changed**: free slots may hold other bytes, and more slots may have been
in use at once. -/
structure Restored (p p' : TextPool) : Prop where
  id : p'.id = p.id
  width : p'.slab.width = p.slab.width
  slots : p'.slots = p.slots
  live : p'.live = p.live
  cells : ∀ j, p.slots[j]? ≠ some .free → p'.slab.cell j = p.slab.cell j

theorem Restored.refl (p : TextPool) : Restored p p := ⟨rfl, rfl, rfl, rfl, fun _ _ => rfl⟩

/-- A slot that is free in the end as it was in the beginning. -/
theorem Changes.restored (hc : Changes p i .free .free t p') : Restored p p' where
  id := hc.id
  width := hc.width
  slots := hc.after.trans (set_back hc.before)
  live := Nat.add_right_cancel hc.live
  cells j hj := hc.cells j fun hji => hj (hji ▸ hc.before)

/-! ### The four ways to change a slot -/

/-- The pool with bytes written over a part of a slot. -/
def putText (p : TextPool) (i offset : Nat) (bs : List UInt8) : TextPool :=
  { p with slab := p.slab.overwriteCell i offset bs }

theorem writeBytes_ok (hi : i < p.capacity) (hw : offset + bs.length ≤ p.slab.width) :
    writeBytes i offset bs p = ⟨.ok (), p.putText i offset bs, []⟩ := by
  have hin : p.slab.write i offset bs = .ok (p.slab.overwriteCell i offset bs) := by
    rw [Slab.write, if_pos ⟨p.size_slots ▸ hi, hw⟩]
  unfold writeBytes
  split
  · next e he =>
    rw [hin] at he
    cases he
  · next slab hs =>
    rw [hin] at hs
    obtain rfl := Except.ok.inj hs
    rfl

/-- A text written behind the start of a slot's text. -/
theorem changes_putText (hp : p.Tidy) (hold : p.slots[i]? = some old)
    (hs : (p.slab.cell i).take offset = Text.bytes s) (hnul : '\x00' ∉ (s ++ t).toList)
    (hfit : offset + (Text.bytes t).length ≤ p.maxLen) :
    Changes p i old old (s ++ t) (p.putText i offset (Text.bytes t ++ [0])) := by
  have hi : i < p.capacity := (Array.getElem?_eq_some_iff.1 hold).1
  have hlt := hp.maxLen_lt
  have hfit' : offset + (Text.bytes t ++ [0]).length ≤ p.slab.width := by
    rw [List.length_append, List.length_singleton]
    omega
  have hlen : (p.slab.cell i).length - 1 = p.maxLen := by rw [Slab.length_cell, maxLen]
  have hzero : 0 ∉ Text.bytes s ++ Text.bytes t := by
    rwa [← Text.bytes_append, Text.zero_mem_bytes_iff]
  rw [List.mem_append, not_or] at hzero
  have hcell : (p.slab.overwriteCell i offset (Text.bytes t ++ [0])).cell i =
      Slab.patched (p.slab.cell i) offset (Text.bytes t ++ [0]) := by
    rw [Slab.cell_overwriteCell hfit', if_pos rfl]
  refine ⟨rfl, rfl, hold, (set_back hold).symm, fun j hj => ?_, ?_, ?_, rfl⟩
  · rw [putText, Slab.cell_overwriteCell hfit', if_neg hj]
  · rw [putText, hcell, ← hlen]
    refine getElem?_patched_last ?_ (hlen ▸ hp.ended i hi)
    rw [Slab.length_cell]
    omega
  · rw [content_eq_before (p := p.putText i offset _) hp.width]
    change before ((p.slab.overwriteCell i offset _).cell i) = _
    rw [hcell, before_patched hzero.2 (hs ▸ hzero.1), hs, Text.bytes_append]

theorem changes_lend (hp : p.Tidy) (hold : p.slots[i]? = some .free) :
    Changes p i .free .lent "" (p.lend i) := by
  have hput : Changes p i .free .free ("" ++ "") (p.putText i 0 (Text.bytes "" ++ [0])) :=
    changes_putText hp hold (by simp [Text.bytes_empty]) (by simp) (by simp [Text.bytes_empty])
  rw [Text.bytes_empty] at hput
  refine ⟨rfl, rfl, hold, rfl, hput.cells, hput.ended, ?_, rfl⟩
  exact (content_of_slab rfl i).trans hput.content

/-- The bytes stay when the state changes. -/
theorem changes_state (hp : p.Tidy) (hold : p.slots[i]? = some old) (hu : old ≠ .free)
    (hid : p'.id = p.id) (hslab : p'.slab = p.slab)
    (hslots : p'.slots = p.slots.setIfInBounds i state)
    (hlive : p'.live + SlotState.uses old = p.live + SlotState.uses state) :
    Changes p i old state (p.spelled i) p' := by
  have hi : i < p.capacity := (Array.getElem?_eq_some_iff.1 hold).1
  have hentry : p.catalog.entries i ≠ none := by
    rw [entries_of_slot hold, ne_eq, entryOf_eq_none_iff]
    exact hu
  refine ⟨hid, by rw [hslab], hold, hslots, fun j _ => by rw [hslab], ?_, ?_, hlive⟩
  · rw [hslab]
    exact hp.ended i hi
  · rw [content_of_slab hslab]
    exact hp.content_eq hentry

theorem changes_setState (hp : p.Tidy) (hold : p.slots[i]? = some old) (hu : old ≠ .free)
    (hu' : state ≠ .free) : Changes p i old state (p.spelled i) (p.setState i state) := by
  refine changes_state hp hold hu rfl rfl rfl ?_
  simp only [SlotState.uses, if_neg hu, if_neg hu']
  rfl

/-- A slot that is taken back was counted, so that the count does not fall below zero. -/
theorem changes_takeBack (hp : p.Tidy) (hold : p.slots[i]? = some old) (hu : old ≠ .free) :
    0 < p.live ∧ Changes p i old .free (p.spelled i) (p.takeBack i) := by
  obtain ⟨hlt, hold'⟩ := Array.getElem?_eq_some_iff.1 hold
  have hpos : 0 < p.live := by
    rw [hp.live]
    exact Array.countP_pos_iff.2 ⟨old, hold' ▸ Array.getElem_mem hlt, by simpa using hu⟩
  refine ⟨hpos, changes_state hp hold hu rfl rfl rfl ?_⟩
  simp only [SlotState.uses, if_neg hu, takeBack]
  simp only [if_true]
  omega

end TextPool

end FixedArena
