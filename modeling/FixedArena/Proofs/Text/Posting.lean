import FixedArena.Proofs.Text.Ledger
import FixedArena.Proofs.Text.Owned

/-!
What calls to a pool, and the operations of owned texts, post to its ledger. A tidy pool never meets
a fault, so that an owned text, once its slot is taken, is made to the end.

Main facts:
* `allocate_posts`, `free_posts`, `reclaim_posts`: handing out and taking back;
* `Puts`, `Rewrites`: a change of one slot, and of nothing else;
* `OwnedText.create_eq`, `OwnedText.create_cases`, `OwnedText.make_cases`: a text is made, or nothing
  happens;
* `OwnedText.drop_posts`: a text that is given up gives its slot back.
-/

namespace FixedArena

namespace TextPool

variable {α : Type} {p p' : TextPool} {h : TextHandle} {i : Nat} {W F H L : List TextHandle}

/-! ### Handing out and taking back -/

/-- A slot's number is the index of its handle. -/
theorem Tidy.toNat_ofNat (hp : p.Tidy) (hi : i < p.capacity) : (UInt16.ofNat i).toNat = i :=
  UInt16.toNat_ofNat_of_lt' (Nat.lt_trans (Nat.lt_trans hi hp.small) (by decide))

theorem Tidy.find_ofNat (hp : p.Tidy) (hi : i < p.capacity) :
    p.catalog.find ⟨p.id, UInt16.ofNat i⟩ = p.catalog.entries i := by
  unfold Catalog.find
  rw [if_pos (show p.id = p.catalog.id from rfl), hp.toNat_ofNat hi]

/-- **What the lowest free slot becomes**, if there is one. -/
theorem Tidy.firstFree_cases (hp : p.Tidy) :
    (∃ i, p.catalog.firstFree = some i ∧ i < p.capacity ∧ p.catalog.entries i = none ∧
      (p.lend i).Tidy ∧ (p.lend i).catalog = p.catalog.put i (some ⟨"", false⟩) ∧
      ∃ log, allocate p = ⟨.ok ⟨p.id, UInt16.ofNat i⟩, p.lend i, log⟩) ∨
    p.catalog.firstFree = none ∧ ∃ e log, allocate p = ⟨.error e, p, log⟩ := by
  cases hf : p.slots.findIdx? (· = .free) with
  | none => exact .inr ⟨(firstFree_eq p).trans hf, _, _, allocate_full p hf⟩
  | some i =>
    have hold : p.slots[i]? = some .free := free_of_findIdx? hf
    have hlt : i < p.capacity := (Array.getElem?_eq_some_iff.1 hold).1
    have hc := changes_lend hp hold
    exact .inl ⟨i, (firstFree_eq p).trans hf, hlt, entries_of_slot hold, hc.tidy hp,
      hc.catalog_eq hp, _, allocate_ok p hf⟩

/-- A slot is handed to a caller, or nothing happens. -/
theorem allocate_posts (p : TextPool) :
    (∃ h p' log, allocate p = ⟨.ok h, p', log⟩ ∧ ∀ W F, Posts W F p (h :: ·) F p') ∨
    ∃ e log, allocate p = ⟨.error e, p, log⟩ := by
  cases hf : p.slots.findIdx? (· = .free) with
  | none => exact .inr ⟨_, _, allocate_full p hf⟩
  | some i =>
    refine .inl ⟨_, _, _, allocate_ok p hf, fun W F => .of_tidy fun hp => ?_⟩
    obtain ⟨j, hj, hlt, hnone, hp', hcat, -⟩ | ⟨hnone, -⟩ := hp.firstFree_cases
    · obtain rfl : i = j := Option.some.inj (hf.symm.trans ((firstFree_eq p).symm.trans hj))
      have hput : (p.lend i).catalog = p.catalog.put (UInt16.ofNat i).toNat (some ⟨"", false⟩) := by
        rw [hp.toNat_ofNat hlt, hcat]
      exact .lend (h := ⟨p.id, UInt16.ofNat i⟩) rfl hp' hput ((hp.find_ofNat hlt).trans hnone) rfl
    · rw [firstFree_eq, hf] at hnone
      cases hnone

theorem free_lent {t : String} (hf : p.catalog.find h = some ⟨t, false⟩) :
    free h p = ⟨.ok true, p.takeBack h.index.toNat, []⟩ := by
  have hs : p.slots[h.index.toNat]? = some .lent := slot_of_find hf
  unfold free
  rw [locate_eq, hf]
  simp only [hs, if_neg (show some SlotState.lent ≠ some .owned by decide)]

/-- A caller's slot is taken back, or nothing happens. -/
theorem free_posts (h : TextHandle) (p : TextPool) :
    (∃ p', free h p = ⟨.ok true, p', []⟩ ∧ ∀ W F, Posts W F p (·.erase h) F p') ∨
    ∃ log, free h p = ⟨.ok false, p, log⟩ := by
  unfold free
  rw [locate_eq]
  cases hf : p.catalog.find h with
  | none => exact .inr ⟨_, rfl⟩
  | some e =>
    have hs := slot_of_find hf
    obtain ⟨text, owned⟩ := e
    cases owned with
    | true =>
      have ho : p.slots[h.index.toNat]? = some .owned := hs
      exact .inr ⟨[.slotOwned h], by simp only [if_pos ho]⟩
    | false =>
      have ho : p.slots[h.index.toNat]? ≠ some .owned := by
        rw [hs]
        simp [Entry.state]
      refine .inl ⟨p.takeBack h.index.toNat, by simp only [if_neg ho], fun W F => ?_⟩
      refine .of_tidy fun hp => ?_
      have hc := (takeBack_found hp hf).2
      exact .retire (Catalog.pool_of_find hf) (hc.tidy hp) (hc.catalog_eq hp) hf rfl

/-- **An owner gives his slot back.** -/
theorem reclaim_posts (h : TextHandle) (W F : List TextHandle) (p : TextPool) :
    Posts W (h :: F) p (fun L => L) F (reclaim h p).state := by
  refine .of_tidy fun hp => ?_
  unfold reclaim
  rw [locate_eq]
  cases hf : p.catalog.find h with
  | none =>
    have hnone : ∀ H L, ¬Ledger (h :: F ++ H) L p := fun H L hl =>
      hl.notMem_owned (by simp [hf]) List.mem_cons_self
    exact ⟨fun H L hl => absurd hl (hnone H L), fun H L hl => absurd hl (hnone H L)⟩
  | some e =>
    have hc := (takeBack_found hp hf).2
    exact .release (Catalog.pool_of_find hf) (hc.tidy hp) (hc.catalog_eq hp) rfl

/-! ### Owners -/

/-- A caller's slot goes to a container. -/
theorem own_eq {t : String} (hf : p.catalog.find h = some ⟨t, false⟩) :
    own h p = ⟨.ok (), p.setState h.index.toNat .owned, []⟩ := by
  have hs : p.slots[h.index.toNat]? ≠ some .owned := by
    rw [slot_of_find hf]
    simp [Entry.state]
  unfold own
  rw [locate_eq, hf]
  exact if_neg hs

theorem own_lent {t : String} (hp : p.Tidy) (hf : p.catalog.find h = some ⟨t, false⟩) :
    own h p = ⟨.ok (), p.setState h.index.toNat .owned, []⟩ ∧
      (p.setState h.index.toNat .owned).Tidy ∧
      (p.setState h.index.toNat .owned).catalog =
        p.catalog.put h.index.toNat (some ⟨t, true⟩) := by
  have hc := setState_found hp hf .owned (by decide)
  exact ⟨own_eq hf, hc.tidy hp, hc.catalog_eq hp⟩

/-- Nobody becomes the owner of a slot that no caller has. -/
theorem own_refused (hf : ∀ t, p.catalog.find h ≠ some ⟨t, false⟩) :
    ∃ e, own h p = ⟨.error e, p, []⟩ ∧ e.isFault = false := by
  unfold own
  rw [locate_eq]
  cases hfind : p.catalog.find h with
  | none => exact ⟨_, rfl, rfl⟩
  | some e =>
    have hs := slot_of_find hfind
    obtain ⟨text, owned⟩ := e
    cases owned with
    | true =>
      have ho : p.slots[h.index.toNat]? = some .owned := hs
      exact ⟨_, if_pos ho, rfl⟩
    | false => exact absurd hfind (hf text)

/-! ### Changing a text -/

/-- **The slot of a handle gets an entry**, and no other slot changes. -/
structure Puts (h : TextHandle) (e : Entry) (p p' : TextPool) : Prop where
  pool : h.pool = p.id
  tidy : p'.Tidy
  catalog : p'.catalog = p.catalog.put h.index.toNat (some e)

/-- **At most the text of one slot changes**, which is in use. -/
structure Rewrites (h : TextHandle) (p p' : TextPool) : Prop where
  tidy : p'.Tidy
  catalog : p'.catalog = p.catalog ∨ ∃ e t, p.catalog.find h = some e ∧
    p'.catalog = p.catalog.put h.index.toNat (some { e with text := t })

theorem Rewrites.refl (hp : p.Tidy) : Rewrites h p p := ⟨hp, .inl rfl⟩

theorem Rewrites.posts (hr : Rewrites h p p') (hW : h ∈ W) : Posts W F p (fun L => L) F p' := by
  rcases hr.catalog with hcat | ⟨⟨text, owned⟩, t, hf, hcat⟩
  · exact .of_catalog hr.tidy hcat
  · exact .rewrite (Catalog.pool_of_find hf) hr.tidy hcat hf rfl hW

/-- An operation never meets a fault in a tidy pool, and changes at most one text. -/
def Writes (h : TextHandle) (x : Act Error TextPool α) : Prop := ∀ p : TextPool, p.Tidy →
  Rewrites h p (x p).state ∧ ∀ e, (x p).result = .error e → e.isFault = false

/-- The handle that a call writes to. -/
def Call.written? : Call → Option TextHandle
  | assign h _ | append h _ | copy h _ => some h
  | allocate | free _ | own _ | disown _ | reclaim _ => none

/-- A call that writes to a handle changes the text there, or nothing. -/
theorem spec_written {c : Call} (hc : c.written? = some h) (m : Catalog) :
    (c.spec m).2 = m ∨ ∃ e t, m.find h = some e ∧
      (c.spec m).2 = m.put h.index.toNat (some { e with text := t }) := by
  cases c with
  | assign g t =>
    obtain rfl := Option.some.inj hc
    simp only [Call.spec]
    cases m.find g with
    | none => exact .inl rfl
    | some e => exact .inr ⟨e, _, rfl, rfl⟩
  | append g t =>
    obtain rfl := Option.some.inj hc
    simp only [Call.spec]
    cases m.find g with
    | none => exact .inl rfl
    | some e => exact .inr ⟨e, _, rfl, rfl⟩
  | copy g source =>
    obtain rfl := Option.some.inj hc
    simp only [Call.spec]
    cases m.find g with
    | none => exact .inl rfl
    | some e =>
      cases m.find source with
      | none => exact .inl rfl
      | some e' => exact .inr ⟨e, _, rfl, rfl⟩
  | _ => cases hc

theorem isFault_of_ne {e : Error} (he : ∀ stop size, e ≠ .pastEnd stop size) :
    e.isFault = false := by
  cases e with
  | pastEnd stop size => exact absurd rfl (he stop size)
  | _ => rfl

/-- What a call answers, its operation answers. -/
theorem writes_of_call {x : Act Error TextPool α} {c : Call} {f : α → Answer}
    (hx : c.act = f <$> x) (hc : c.written? = some h) : Writes h x := by
  intro p hp
  have hcomes := hp.comesTo c
  rw [hx, Act.map_apply] at hcomes
  refine ⟨⟨hcomes.tidy, hcomes.catalog ▸ spec_written hc p.catalog⟩, fun e he => ?_⟩
  refine isFault_of_ne fun stop size hfault => spec_ne_pastEnd p.catalog c stop size ?_
  rw [← hcomes.result, he, ← hfault]
  rfl

theorem writes_assign (h : TextHandle) (t : String) : Writes h (assign h t) :=
  writes_of_call (c := .assign h t) rfl rfl

theorem writes_append (h : TextHandle) (t : String) : Writes h (append h t) :=
  writes_of_call (c := .append h t) rfl rfl

theorem writes_copy (h source : TextHandle) : Writes h (copy h source) :=
  writes_of_call (c := .copy h source) rfl rfl

/-! ### Guarded pools -/

theorem Writes.writing {x : Act Error TextPool α} (hx : Writes h x) {g : Guarded TextPool}
    (hg : g.value.Tidy) : Rewrites h g.value (writing x g).state.value ∧
      (writing x g).state.hold = g.hold ∧
      ∀ e, (writing x g).result = .error e → e.isFault = false := by
  unfold TextPool.writing
  by_cases hf : g.hold = .free
  · rw [Guarded.writing_free busy x g hf]
    exact ⟨(hx g.value hg).1, rfl, (hx g.value hg).2⟩
  · rw [Guarded.writing_busy busy x g hf]
    refine ⟨.refl hg, rfl, fun e he => ?_⟩
    exact Except.error.inj he ▸ rfl

end TextPool

namespace OwnedText

open TextPool (GuardedAct Posts Puts Rewrites Writes writing)

variable {α : Type} {h : TextHandle} {g : Guarded TextPool} {y : TextHandle → GuardedAct Unit}

/-! ### Edits of an owned text -/

/-- An access that meets no fault is reported, and no more. -/
theorem reporting_eq {access : GuardedAct α}
    (hx : ∀ e, (access g).result = .error e → e.isFault = false) :
    ∃ a log, reporting h access g = ⟨.ok a, (access g).state, log⟩ := by
  unfold reporting
  cases hr : (access g).result with
  | ok a =>
    rw [Act.bind_ok (Act.attempt_ok hr)]
    exact ⟨_, _, rfl⟩
  | error e =>
    rw [Act.bind_ok (Act.attempt_error hr (hx e hr))]
    exact ⟨_, _, rfl⟩

/-- In a tidy pool the operation is carried out, and changes at most the text of one slot. -/
def Edits (h : TextHandle) (x : GuardedAct Unit) : Prop := ∀ g : Guarded TextPool, g.value.Tidy →
  ∃ g' log, x g = ⟨.ok (), g', log⟩ ∧ g'.hold = g.hold ∧ Rewrites h g.value g'.value

theorem edits_pure (h : TextHandle) : Edits h (pure ()) :=
  fun g hg => ⟨g, [], rfl, rfl, .refl hg⟩

theorem edits_of_writes {x : Act Error TextPool α} (hx : Writes h x) :
    Edits h (reporting h (writing x) >>= fun _ => pure ()) := by
  intro g hg
  obtain ⟨hr, hhold, hfault⟩ := hx.writing hg
  obtain ⟨a, log, hreport⟩ := reporting_eq hfault
  rw [Act.bind_ok hreport]
  exact ⟨_, _, rfl, hhold, hr⟩

theorem edits_assign (h : TextHandle) (t : String) : Edits h (assign h t) :=
  edits_of_writes (TextPool.writes_assign h t)

theorem edits_append (h : TextHandle) (t : String) : Edits h (append h t) :=
  edits_of_writes (TextPool.writes_append h t)

theorem edits_copy (h source : TextHandle) : Edits h (copy h source) :=
  edits_of_writes (TextPool.writes_copy h source)

/-! ### Making and giving up -/

/-- **A free slot is taken and owned**, or none is free. -/
theorem take_eq {p : TextPool} (hp : p.Tidy) :
    (∃ h log, take p = ⟨.ok h, (p.lend h.index.toNat).setState h.index.toNat .owned, log⟩ ∧
      p.slots[h.index.toNat]? = some .free ∧ p.catalog.find h = none ∧
      Puts h ⟨"", true⟩ p ((p.lend h.index.toNat).setState h.index.toNat .owned)) ∨
    p.catalog.firstFree = none ∧
      take p = ⟨.error (.full TextPool.kind p.capacity), p, [.slotsExhausted p.capacity]⟩ := by
  obtain ⟨i, -, hi, hnone, hp', hcat, log, halloc⟩ | ⟨hfull, -⟩ := hp.firstFree_cases
  · let h : TextHandle := ⟨p.id, UInt16.ofNat i⟩
    have hnum : h.index.toNat = i := hp.toNat_ofNat hi
    rw [← hnum] at hi hnone hp' hcat halloc
    have hfind : (p.lend h.index.toNat).catalog.find h = some ⟨"", false⟩ := by
      rw [hcat]
      exact TextPool.Catalog.find_put_self rfl
    obtain ⟨hown, hp'', hcat'⟩ := TextPool.own_lent hp' hfind
    have halloc' : TextPool.allocate p = ⟨.ok h, p.lend h.index.toNat, log⟩ := by
      rw [halloc, hnum]
    have htake : take p = _ := (Act.bind_ok halloc').trans (by rw [Act.bind_ok (Act.attempt_of_ok hown)])
    refine .inl ⟨h, _, htake, TextPool.slot_of_entries_none hi hnone, ?_, rfl, hp'', ?_⟩
    · exact (if_pos rfl).trans hnone
    · rw [hcat', hcat, TextPool.Catalog.put_put]
  · have halloc := TextPool.allocate_full p ((TextPool.firstFree_eq _).symm.trans hfull)
    exact .inr ⟨hfull, Act.bind_error halloc⟩

/-- **A text is made, and is empty**, or no slot is free. -/
theorem create_eq (hf : g.hold = .free) (hg : g.value.Tidy) :
    (∃ h p log, create g = ⟨.ok h, { g with value := p }, log⟩ ∧
      g.value.catalog.find h = none ∧ Puts h ⟨"", true⟩ g.value p) ∨
    g.value.catalog.firstFree = none ∧ create g =
      ⟨.error (.full TextPool.kind g.value.capacity), g, [.slotsExhausted g.value.capacity]⟩ := by
  have hcreate : create g = _ := Guarded.writing_free TextPool.busy take g hf
  rw [hcreate]
  obtain ⟨h, log, htake, -, hnone, hputs⟩ | ⟨hfull, htake⟩ := take_eq hg
  · rw [htake]
    exact .inl ⟨h, _, _, rfl, hnone, hputs⟩
  · rw [htake]
    exact .inr ⟨hfull, rfl⟩

/-- A text is made, or nothing happens. -/
theorem create_cases (hg : g.value.Tidy) :
    (∃ h p log, create g = ⟨.ok h, { g with value := p }, log⟩ ∧ h.pool = g.value.id ∧
      g.value.catalog.find h = none ∧ p.Tidy ∧
      p.catalog = g.value.catalog.put h.index.toNat (some ⟨"", true⟩)) ∨
    ∃ e log, create g = ⟨.error e, g, log⟩ := by
  by_cases hf : g.hold = .free
  · obtain ⟨h, p, log, hcreate, hnone, hputs⟩ | ⟨-, hcreate⟩ := create_eq hf hg
    · exact .inl ⟨h, p, log, hcreate, hputs.pool, hnone, hputs.tidy, hputs.catalog⟩
    · exact .inr ⟨_, _, hcreate⟩
  · exact .inr ⟨_, _, Guarded.writing_busy TextPool.busy take g hf⟩

/-- Making a text and editing it. -/
def make (y : TextHandle → GuardedAct Unit) : GuardedAct TextHandle := do
  let h ← create
  (fun _ => h) <$> y h

/-- **A text is made to the end**, or nothing happens. -/
theorem make_cases (hy : ∀ h, Edits h (y h)) (hg : g.value.Tidy) :
    (∃ h g' log, make y g = ⟨.ok h, g', log⟩ ∧ g'.hold = g.hold ∧
      ∀ W F, Posts W F g.value (fun L => L) (h :: F) g'.value) ∨
    ∃ e log, make y g = ⟨.error e, g, log⟩ := by
  unfold make
  obtain ⟨h, p, log, hcreate, hid, hnone, hp, hcat⟩ | ⟨e, log, hcreate⟩ := create_cases hg
  · obtain ⟨g', log', hedit, hhold, hr⟩ := hy h { g with value := p } hp
    rw [Act.bind_ok hcreate, Act.map_apply, hedit]
    refine .inl ⟨h, g', _, rfl, hhold, fun W F => ?_⟩
    have hcat' : ∃ t, g'.value.catalog = g.value.catalog.put h.index.toNat (some ⟨t, true⟩) := by
      rcases hr.catalog with hsame | ⟨e, t, hf, hput⟩
      · exact ⟨"", hsame.trans hcat⟩
      · rw [hcat, TextPool.Catalog.find_put_self hid] at hf
        obtain rfl := Option.some.inj hf
        exact ⟨t, by rw [hput, hcat, TextPool.Catalog.put_put]⟩
    obtain ⟨t, hcat'⟩ := hcat'
    exact .take hid hr.tidy hcat' hnone rfl
  · rw [Act.bind_error hcreate]
    exact .inr ⟨e, log, rfl⟩

/-- **A text that is given up gives its slot back**, unless the pool is held. -/
theorem drop_posts (h : TextHandle) (hf : g.hold = .free) (W F : List TextHandle) :
    Posts W (h :: F) g.value (fun L => L) F (drop h g).state.value := by
  rw [state_drop]
  unfold TextPool.writing
  rw [Guarded.writing_free _ _ _ hf]
  exact TextPool.reclaim_posts h W F g.value

end OwnedText

end FixedArena
