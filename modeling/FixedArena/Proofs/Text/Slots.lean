import FixedArena.Proofs.Text.Accesses
import FixedArena.Proofs.Text.Ledger

/-!
The slots of a text pool, handed out and taken back. The lowest free slot is handed out first; a slot is
taken back from a caller only, by the handle that names it; and nothing but the one slot changes. Handles
may come from anywhere.

Main facts:
* `Counted`, `Tidy.counted`: what is counted is in use;
* `HandsLowest`, `Tidy.handsLowest`: what is handed out, and when nothing is;
* `TakesBack`, `Tidy.takesBack`: what is taken back, and when nothing is;
* `free_again`: a slot that was taken back is not taken back again before it is handed out.
-/

namespace FixedArena

namespace TextPool

variable {p p' : TextPool} {h g : TextHandle} {i : Nat} {old state : SlotState} {t : String}
  {m : Catalog} {c : Call}

/-- The handle of a slot. -/
def handleAt (p : TextPool) (i : Nat) : TextHandle := ⟨p.id, UInt16.ofNat i⟩

/-! ### Counts -/

theorem inUse_iff : p.inUse h = true ↔ h.pool = p.id ∧
    ∃ state, p.slots[h.index.toNat]? = some state ∧ state ≠ .free := by
  unfold inUse
  cases hl : p.locate h with
  | ok i =>
    obtain ⟨hid, rfl, hslot⟩ := (locate_eq_ok_iff p h i).1 hl
    exact ⟨fun _ => ⟨hid, hslot⟩, fun _ => rfl⟩
  | error e =>
    refine ⟨nofun, fun ⟨hid, hslot⟩ => ?_⟩
    rw [(locate_eq_ok_iff p h _).2 ⟨hid, rfl, hslot⟩] at hl
    cases hl

/-- **What a pool counts**: the slots in use, of which those with owners are some. All others are
available. -/
structure Counted (p : TextPool) : Prop where
  live : p.live = (List.range p.capacity).countP fun i => p.inUse (p.handleAt i)
  owned : p.owned = (List.range p.capacity).countP fun i => p.isOwned (p.handleAt i)
  inUse_iff : ∀ h, p.inUse h = true ↔ h.pool = p.id ∧
    ∃ state, p.slots[h.index.toNat]? = some state ∧ state ≠ .free
  inUse_of_isOwned : ∀ h, p.isOwned h = true → p.inUse h = true
  available : p.live + p.available = p.capacity

namespace Tidy

variable (hp : p.Tidy)

include hp

theorem index_handleAt (hi : i < p.capacity) : (p.handleAt i).index.toNat = i := hp.toNat_ofNat hi

/-- The slots of a kind are the handles of that kind. -/
theorem countP_slots {q : SlotState → Bool} {f : TextHandle → Bool}
    (hf : ∀ h, f h = true ↔ h.pool = p.id ∧ ∃ state, p.slots[h.index.toNat]? = some state ∧ q state) :
    p.slots.countP q = (List.range p.capacity).countP fun i => f (p.handleAt i) := by
  rw [← Array.countP_toList, Ledger.toList_slots, List.countP_map]
  refine List.countP_congr fun i hi => ?_
  have hlt : i < p.slots.size := List.mem_range.1 hi
  rw [hf, hp.index_handleAt hlt, Function.comp_apply, Array.getElem?_eq_getElem hlt, Option.getD_some]
  constructor
  · exact fun hq => ⟨rfl, _, rfl, hq⟩
  · rintro ⟨-, state, hs, hq⟩
    exact Option.some.inj hs ▸ hq

theorem counted : p.Counted where
  live := by
    rw [hp.live]
    refine hp.countP_slots fun h => inUse_iff.trans ?_
    simp only [decide_eq_true_iff]
  owned := by
    refine hp.countP_slots fun h => isOwned_iff.trans ?_
    simp
  inUse_iff _ := inUse_iff
  inUse_of_isOwned _ := inUse_of_isOwned
  available := by
    have hle := hp.live_le
    rw [TextPool.available]
    omega

end Tidy

/-! ### One slot -/

/-- **One slot comes to a state**, while all others keep their states and their texts. -/
structure Sets (h : TextHandle) (state : SlotState) (p p' : TextPool) : Prop where
  id : p'.id = p.id
  slots : p'.slots = p.slots.setIfInBounds h.index.toNat state
  text : ∀ g, g ≠ h → p'.text g = p.text g

theorem Changes.sets (hc : Changes p h.index.toNat old state t p') (hp : p.Tidy)
    (hid : h.pool = p.id) : Sets h state p p' where
  id := hc.id
  slots := hc.after
  text g hg := by
    rw [(hc.tidy hp).text_eq, hp.text_eq, hc.catalog_eq hp, Catalog.find_put_of_ne hid hg]

/-! ### Handing out -/

/-- **The lowest handle that is free**, and a handle like any other. -/
structure Lowest (p : TextPool) (h : TextHandle) : Prop where
  pool : h.pool = p.id
  index_lt : h.index.toNat < p.capacity
  notNone : h.isNone = false
  free : p.inUse h = false
  below : ∀ g, g.pool = p.id → g.index < h.index → p.inUse g = true

/-- **A pool hands out its lowest free slot**, or has none. -/
structure HandsLowest (p : TextPool) (out : Outcome Error TextPool TextHandle) : Prop where
  full_iff : (∃ e, out.result = .error e) ↔ ∀ i < p.capacity, p.inUse (p.handleAt i) = true
  full : ∀ e, out.result = .error e → e = .full kind p.capacity ∧ out.state = p
  handed : ∀ h, out.result = .ok h →
    p.Lowest h ∧ Sets h .lent p out.state ∧ out.state.live = p.live + 1

namespace Tidy

variable (hp : p.Tidy)

include hp

theorem inUse_handleAt (hi : i < p.capacity) :
    p.inUse (p.handleAt i) = true ↔ p.slots[i]? ≠ some .free := by
  have hslot : p.slots[i]? = some p.slots[i] := Array.getElem?_eq_getElem hi
  rw [inUse_iff, hp.index_handleAt hi, hslot]
  simp [handleAt]

theorem lowest (hf : p.slots.findIdx? (· = .free) = some i) : p.Lowest (p.handleAt i) := by
  obtain ⟨hlt, -, hmin⟩ := Array.findIdx?_eq_some_iff_getElem.1 hf
  have hindex := hp.index_handleAt hlt
  have hslot : p.slots[i]? = some .free := free_of_findIdx? hf
  refine ⟨rfl, hindex.symm ▸ hlt, ?_, ?_, fun g hid hg => ?_⟩
  · refine Bool.eq_false_iff.2 fun hnone => ?_
    have hlast : (p.handleAt i).index = 65535 := of_decide_eq_true hnone
    have hsmall := hp.small
    rw [hlast] at hindex
    have : p.slots.size < 65535 := hsmall
    change 65535 = i at hindex
    omega
  · rw [← Bool.not_eq_true, hp.inUse_handleAt hlt, not_not]
    exact hslot
  · have hgi : g.index.toNat < i := hindex ▸ UInt16.lt_iff_toNat_lt.1 hg
    have hgsize : g.index.toNat < p.slots.size := Nat.lt_trans hgi hlt
    refine inUse_iff.2 ⟨hid, p.slots[g.index.toNat], Array.getElem?_eq_getElem hgsize, ?_⟩
    simpa using hmin g.index.toNat hgi

/-- **The lowest free slot is handed out.** -/
theorem handsLowest : p.HandsLowest (allocate p) := by
  cases hf : p.slots.findIdx? (· = .free) with
  | none =>
    rw [allocate_full p hf]
    rw [Array.findIdx?_eq_none_iff] at hf
    refine ⟨⟨fun _ i hi => ?_, fun _ => ⟨_, rfl⟩⟩, fun e he => ⟨(Except.error.inj he).symm, rfl⟩, nofun⟩
    rw [hp.inUse_handleAt hi, Array.getElem?_eq_getElem hi]
    simpa using hf _ (Array.getElem_mem hi)
  | some i =>
    have hlowest := hp.lowest hf
    have hold : p.slots[i]? = some .free := free_of_findIdx? hf
    have hlt : i < p.capacity := (Array.getElem?_eq_some_iff.1 hold).1
    have hc : Changes p (p.handleAt i).index.toNat .free .lent "" (p.lend i) := by
      rw [hp.index_handleAt hlt]
      exact changes_lend hp hold
    rw [allocate_ok p hf]
    refine ⟨⟨nofun, fun hall => ?_⟩, nofun, fun h hh => ?_⟩
    · have hused := hall i hlt
      rw [hlowest.free] at hused
      cases hused
    · obtain rfl := Except.ok.inj hh
      exact ⟨hlowest, hc.sets hp rfl, rfl⟩

end Tidy

/-! ### Taking back -/

/-- **A pool takes back a slot that a caller has**, by its handle, and refuses every other handle. -/
structure TakesBack (p : TextPool) (h : TextHandle) (out : Outcome Error TextPool Bool) : Prop where
  true_iff : out.result = .ok true ↔ h.pool = p.id ∧ p.inUse h = true ∧ p.isOwned h = false
  taken : out.result = .ok true → Sets h .free p out.state ∧ p.live = out.state.live + 1
  refused : out.result ≠ .ok true → out.result = .ok false ∧ out.state = p

theorem free_unused (hu : p.inUse h = false) : free h p = ⟨.ok false, p, [.slotNotAllocated h]⟩ := by
  unfold inUse at hu
  unfold free
  cases hl : p.locate h with
  | ok i =>
    rw [hl] at hu
    cases hu
  | error e => rfl

theorem free_owned (ho : p.isOwned h = true) : free h p = ⟨.ok false, p, [.slotOwned h]⟩ := by
  obtain ⟨hid, hslot⟩ := isOwned_iff.1 ho
  unfold free
  rw [(locate_eq_ok_iff p h _).2 ⟨hid, rfl, _, hslot, by decide⟩]
  simp only [if_pos hslot]

/-- **A caller's slot is taken back**, and that of nobody else. -/
theorem Tidy.takesBack (hp : p.Tidy) (h : TextHandle) : p.TakesBack h (free h p) := by
  by_cases hu : p.inUse h = true
  · cases ho : p.isOwned h with
    | true =>
      rw [free_owned ho]
      exact ⟨⟨nofun, fun hlent => nomatch ho.symm.trans hlent.2.2⟩, nofun, fun _ => ⟨rfl, rfl⟩⟩
    | false =>
      obtain ⟨t, hf⟩ := Ledger.lent_iff.1 ⟨hu, ho⟩
      have hid := Catalog.pool_of_find hf
      obtain ⟨hpos, hc⟩ := takeBack_found hp hf
      rw [free_lent hf]
      refine ⟨⟨fun _ => ⟨hid, hu, ho⟩, fun _ => rfl⟩, fun _ => ⟨hc.sets hp hid, ?_⟩, ?_⟩
      · change p.live = p.live - 1 + 1
        omega
      · exact fun hne => absurd rfl hne
  · rw [free_unused (Bool.eq_false_iff.2 hu)]
    exact ⟨⟨nofun, fun hlent => absurd hlent.2.1 hu⟩, nofun, fun _ => ⟨rfl, rfl⟩⟩

/-- A slot that was taken back is free. -/
theorem inUse_taken (hp : p.Tidy) (hb : (free h p).result = .ok true) :
    (free h p).state.inUse h = false := by
  obtain ⟨hsets, -⟩ := (hp.takesBack h).taken hb
  refine Bool.eq_false_iff.2 fun hu => ?_
  obtain ⟨-, state, hstate, hne⟩ := inUse_iff.1 hu
  rw [hsets.slots, Array.getElem?_setIfInBounds_self] at hstate
  split at hstate
  · exact hne (Option.some.inj hstate).symm
  · cases hstate

/-! ### Until the next slot is handed out -/

theorem inUse_eq_false_iff : p.inUse h = false ↔ p.catalog.find h = none := by
  rw [Ledger.inUse_eq, Option.isSome_eq_false_iff, Option.isNone_iff_eq_none]

/-- A call that takes no slot leaves free slots free. -/
theorem find_spec (hc : c ≠ .allocate) (hf : m.find h = none) : (c.spec m).2.find h = none := by
  have hput : ∀ {g : TextHandle} {e : Entry} (e' : Option Entry), m.find g = some e →
      (m.put g.index.toNat e').find h = none := by
    intro g e e' hg
    have hne : h ≠ g := by
      rintro rfl
      rw [hf] at hg
      cases hg
    rw [Catalog.find_put_of_ne (Catalog.pool_of_find hg) hne]
    exact hf
  -- Every call but `allocate` changes the entry of a handle that has one, or none.
  fun_cases Call.spec m c <;> first | exact absurd rfl hc | exact hput _ ‹_› | exact hf

/-- **A free slot stays free** until a slot is taken. -/
theorem outlasts_unused (h : TextHandle) : Outlasts False fun p => p.Tidy ∧ p.inUse h = false where
  fresh id slots maxLen _ _ hslots := by
    refine ⟨tidy_fresh id hslots, inUse_eq_false_iff.2 ?_⟩
    rw [catalog_fresh]
    unfold Catalog.find
    split <;> rfl
  call c p hc := fun ⟨hp, hu⟩ => by
    have hcomes := hp.comesTo c
    refine ⟨hcomes.tidy, inUse_eq_false_iff.2 ?_⟩
    rw [hcomes.catalog]
    exact find_spec hc (inUse_eq_false_iff.1 hu)

theorem Outlasts.run {takes : Prop} {P : TextPool → Prop} (hP : Outlasts takes P) {calls : List Call}
    (hc : ∀ c ∈ calls, c = .allocate → takes) (hp : P p) : P (p.run calls) := by
  induction calls generalizing p with
  | nil => exact hp
  | cons c calls ih =>
    exact ih (fun c' hc' => hc c' (List.mem_cons_of_mem c hc'))
      (hP.call c p (hc c List.mem_cons_self) hp)

/-- **A slot that was taken back is not taken back again** by any calls that hand out no slot. -/
theorem free_again (hp : p.Tidy) (hb : (free h p).result = .ok true) {calls : List Call}
    (hc : ∀ c ∈ calls, c ≠ .allocate) : free h ((free h p).state.run calls) =
      ⟨.ok false, (free h p).state.run calls, [.slotNotAllocated h]⟩ := by
  have htidy := (hp.comesTo (.free h)).tidy
  rw [Call.act, Act.map_apply] at htidy
  exact free_unused ((outlasts_unused h).run hc ⟨htidy, inUse_taken hp hb⟩).2

end TextPool

end FixedArena
