import FixedArena.Proofs.Store.Harmless
import FixedArena.Proofs.Text.Appends
import FixedArena.Proofs.Text.Ledger

/-!
Assignments between texts, and to the slots of a pool, in every run.

Main facts:
* `Run.assignFrom_unread`: a text that is assigned from another one which cannot be read stays as it was if
  both are in one pool, and is emptied if they are in different pools;
* `Run.appends_are_assignments`: adding a text to a slot is assigning the concatenation;
* `Run.copies_are_assignments`: copying from slot to slot is assigning what is read.
-/

namespace FixedArena

/-! ### Texts that cannot be read -/

namespace OwnedText

open Act
open TextPool (GuardedAct)

variable {α : Type} {g : Guarded TextPool} {h source : TextHandle} {access : GuardedAct α} {e : Error}

/-- The text of a slot cannot be read: somebody writes to the pool, or the slot is not in use there. -/
def Unread (g : Guarded TextPool) (h : TextHandle) : Prop := g.hold = .writer ∨ g.value.inUse h = false

theorem find_of_not_inUse {p : TextPool} (hu : p.inUse h = false) : p.catalog.find h = none := by
  rw [TextPool.Ledger.inUse_eq] at hu
  exact Option.isNone_iff_eq_none.1 (by simpa using hu)

/-- An access that is refused is reported, and no more. -/
theorem reporting_refused (h : TextHandle) (hx : access g = ⟨.error e, g, []⟩) (he : e.isFault = false) :
    Says (reporting h access) g none := by
  unfold reporting
  rw [Says, bind_ok (attempt_of_error hx he)]
  exact ⟨_, rfl⟩

/-- **A text that cannot be read reads as empty.** -/
theorem Unread.content (hu : Unread g h) : Says (content h) g "" := by
  by_cases ha : g.hold.admits .shared = true
  · obtain hw | hu := hu
    · rw [hw] at ha
      cases ha
    · have hread : TextPool.reading (·.text h) g = ⟨.error (.notAllocated h.index), g, []⟩ := by
        rw [TextPool.reading, Guarded.reading_apply, if_pos ha, TextPool.text, TextPool.locate_eq,
          find_of_not_inUse hu]
        rfl
      exact (reporting_refused h hread rfl).bind ⟨_, rfl⟩
  · exact ⟨_, content_held h ha⟩

/-- A write to a pool that is held is reported, and no more; so is one to a slot that is not in use. -/
theorem says_written {x : Act Error TextPool α}
    (hx : g.hold = .free → ∃ i, x g.value = ⟨.error (.notAllocated i), g.value, []⟩) (h : TextHandle) :
    Says (reporting h (TextPool.writing x) >>= fun _ => pure ()) g () := by
  by_cases hf : g.hold = .free
  · obtain ⟨i, hx⟩ := hx hf
    exact (reporting_refused h (writing_eq hf hx) rfl).bind ⟨_, rfl⟩
  · exact (reporting_refused h (Guarded.writing_busy _ _ g hf) rfl).bind ⟨_, rfl⟩

/-- **Inside one pool, nothing is copied from a text that cannot be read.** -/
theorem Unread.copy (hu : Unread g source) (h : TextHandle) : Says (copy h source) g () := by
  refine says_written (fun hf => ?_) h
  obtain hw | hu := hu
  · rw [hf] at hw
    cases hw
  · cases he : g.value.catalog.find h with
    | none => exact ⟨_, (get_bind _ _).trans (TextPool.locate_bind_none he _)⟩
    | some e =>
      exact ⟨_, (get_bind _ _).trans ((TextPool.locate_bind_some he _).trans
        (TextPool.locate_bind_none (find_of_not_inUse hu) _))⟩

/-- Nothing is assigned to a text whose pool is held, or whose slot is not in use. -/
theorem assign_unwritten (hu : g.hold ≠ .free ∨ g.value.inUse h = false) (t : String) :
    Says (assign h t) g () := by
  refine says_written (fun hf => ?_) h
  have hnone := find_of_not_inUse (hu.resolve_left (not_not.2 hf))
  exact ⟨_, (get_bind _ _).trans (TextPool.locate_bind_none hnone _)⟩

/-- A text that nothing is in the way of can be emptied. -/
theorem assign_empty (hf : g.hold = .free) (hp : g.value.Tidy) (hu : g.value.inUse h = true) :
    ∃ p, assign h "" g = ⟨.ok (), { g with value := p }, []⟩ ∧ p.text h = .ok "" := by
  rw [TextPool.Ledger.inUse_eq] at hu
  obtain ⟨e, he⟩ := Option.isSome_iff_exists.1 hu
  obtain ⟨p, hassign, hputs⟩ := assign_eq hf hp he ""
  refine ⟨p, hassign, ?_⟩
  rw [hputs.tidy.text_eq, hputs.find_self]
  rfl

end OwnedText

/-! ### Assigning from another text -/

namespace Store

open Act
open OwnedText (Unread)

variable {α : Type} {s : Store} {r o k k' : Nat} {h h' : TextHandle} {g g' : Guarded TextPool}

theorem containerAt_of_textVarAt {v : TextVar} (hv : s.textVarAt r = some v) :
    s.containerAt r = some (.text v.handle v.pool) := by
  unfold textVarAt at hv
  split at hv
  · next hc =>
    obtain rfl := Option.some.inj hv
    exact hc
  · cases hv

/-- An assignment from a text is one from a slot to a slot. -/
theorem step_assignFrom (hr : s.containerAt r = some (.text h k))
    (ho : s.containerAt o = some (.text h' k')) :
    step (.text r (.assignFrom o)) s = ((fun _ => .done) <$> assignFrom h k h' k') s := by
  rw [step_text hr, textStep, bind_ok (textAt_ok ho)]
  rfl

/-- **Inside one pool, nothing is assigned from a text that cannot be read.** -/
theorem assignFrom_within (hg : s.pools[k]? = some g) (hu : Unread g h') (h : TextHandle) :
    Says (assignFrom h k h' k) s () := by
  unfold assignFrom
  rw [if_pos rfl]
  exact says_onText hg (hu.copy h)

/-- **Between pools, the empty text is assigned from a text that cannot be read.** -/
theorem assignFrom_between (hk : k ≠ k') (hg' : s.pools[k']? = some g') (hu : Unread g' h')
    (h : TextHandle) : (assignFrom h k h' k' s).result = (onText k (OwnedText.assign h "") s).result ∧
      (assignFrom h k h' k' s).state = (onText k (OwnedText.assign h "") s).state := by
  obtain ⟨log, hread⟩ := says_onText hg' hu.content
  unfold assignFrom
  rw [if_neg hk, bind_ok hread]
  exact ⟨rfl, rfl⟩

end Store

namespace Run

open OwnedText (Unread)

variable {r o k k' : Nat} {h h' : TextHandle} {g g' : Guarded TextPool}

/-- Every pool of every run is tidy. -/
theorem tidy {run : Run} (hg : (store run).pools[k]? = some g) : g.value.Tidy :=
  (kept TextPool.lasting_tidy run).of_mem (Store.mem_poolList hg)

/-- **What becomes of a text that is assigned from another one which cannot be read**, in every run, under
all holds. If both are in one pool, it stays as it was, and so does everything else. If they are in two, the
empty text is assigned: it stays as it was while anybody holds its own pool, or if its slot is lost; it is
emptied otherwise. -/
theorem assignFrom_unread (run : Run) (hr : (store run).containerAt r = some (.text h k))
    (ho : (store run).containerAt o = some (.text h' k')) (hg : (store run).pools[k]? = some g)
    (hg' : (store run).pools[k']? = some g') (hu : Unread g' h') :
    (Store.step (.text r (.assignFrom o)) (store run)).result = .ok .done ∧
    (k = k' ∨ g.hold ≠ .free ∨ g.value.inUse h = false →
      (Store.step (.text r (.assignFrom o)) (store run)).state = store run) ∧
    (k ≠ k' → (Store.step (.text r (.assignFrom o)) (store run)).state =
      (Store.step (.text r (.assign "")) (store run)).state) ∧
    (k ≠ k' → g.hold = .free → g.value.inUse h = true →
      ∃ p, (Store.step (.text r (.assignFrom o)) (store run)).state =
          { store run with pools := (store run).pools.setIfInBounds k { g with value := p } } ∧
        p.text h = .ok "") := by
  rw [Store.step_assignFrom hr ho, Act.map_apply]
  by_cases hk : k = k'
  · subst hk
    obtain rfl := Option.some.inj (hg.symm.trans hg')
    obtain ⟨log, hsame⟩ := Store.assignFrom_within hg hu h
    rw [hsame]
    exact ⟨rfl, fun _ => rfl, absurd rfl, absurd rfl⟩
  · -- The failed read has become the empty text, so the rest is about assigning that.
    obtain ⟨hresult, hstate⟩ := Store.assignFrom_between hk hg' hu h
    have hassign : (Store.step (.text r (.assign "")) (store run)).state =
        (Store.onText k (OwnedText.assign h "") (store run)).state := by
      rw [Store.step_text hr, Store.textStep, Act.map_apply]
    rw [hresult, hstate, hassign]
    by_cases hw : g.hold = .free ∧ g.value.inUse h = true
    · obtain ⟨p, hempty, htext⟩ := OwnedText.assign_empty hw.1 (tidy hg) hw.2
      rw [Store.onText_ok hg hempty]
      refine ⟨rfl, fun hne => ?_, fun _ => rfl, fun _ _ _ => ⟨p, rfl, htext⟩⟩
      rcases hne with rfl | hne | hne
      · exact absurd rfl hk
      · exact absurd hw.1 hne
      · rw [hw.2] at hne
        cases hne
    · have hun : g.hold ≠ .free ∨ g.value.inUse h = false := by
        rw [not_and_or, Bool.not_eq_true] at hw
        exact hw
      obtain ⟨log, hsame⟩ := Store.says_onText hg (OwnedText.assign_unwritten hun "")
      rw [hsame]
      exact ⟨rfl, fun _ => rfl, fun _ => rfl, fun _ hf hin => absurd ⟨hf, hin⟩ hw⟩

/-- A text in each of two pools, and a writer on the second pool. -/
def covered : Run :=
  [.hold (.pool 1) .exclusive, .newText 1 (some "y"), .newText 0 (some "x"), .reservePool 2 8,
    .reservePool 2 8]

/-- The text in the first pool is emptied when it is assigned from the other one. -/
theorem assignFrom_unread_covered : ∃ h h' g g',
    (store covered).containerAt 0 = some (.text h 0) ∧ (store covered).containerAt 1 = some (.text h' 1) ∧
    (store covered).pools[0]? = some g ∧ (store covered).pools[1]? = some g' ∧ Unread g' h' ∧
    g.value.text h = .ok "x" ∧
    ∃ p, (Store.step (.text 0 (.assignFrom 1)) (store covered)).state =
        { store covered with pools := (store covered).pools.setIfInBounds 0 { g with value := p } } ∧
      p.text h = .ok "" := by
  have hrun : ∃ v ∈ (store covered).textVarAt 0, ∃ w ∈ (store covered).textVarAt 1,
      ∃ g ∈ (store covered).pools[0]?, ∃ g' ∈ (store covered).pools[1]?, v.pool = 0 ∧ w.pool = 1 ∧
      g.hold = .free ∧ g'.hold = .writer ∧ g.value.inUse v.handle = true ∧
      (g.value.text v.handle).toOption = some "x" := by
    decide +kernel
  obtain ⟨⟨_, h, _⟩, hv, ⟨_, h', _⟩, hw, g, hg, g', hg', rfl, rfl, hf, hwriter, hin, htext⟩ := hrun
  have hr := Store.containerAt_of_textVarAt hv
  have ho := Store.containerAt_of_textVarAt hw
  obtain ⟨-, -, -, hempty⟩ := assignFrom_unread covered hr ho hg hg' (.inl hwriter)
  refine ⟨h, h', g, g', hr, ho, hg, hg', .inl hwriter, ?_, hempty Nat.zero_ne_one hf hin⟩
  cases ht : g.value.text h with
  | error e =>
    rw [ht] at htext
    cases htext
  | ok t =>
    rw [ht] at htext
    exact congrArg Except.ok (Option.some.inj htext)

/-! ### Adding to a slot -/

/-- A command that does to a pool what another one does, is answered and leaves the store as that one. -/
theorem writePool_congr {α : Type} {s : Store} {x y : Act Error TextPool α} (hg : s.pools[k]? = some g)
    (hxy : x g.value = y g.value) : Store.writePool k x s = Store.writePool k y s := by
  unfold Store.writePool
  rw [Store.onPool_some hg, Store.onPool_some hg]
  by_cases hf : g.hold = .free
  · rw [Guarded.writing_free _ _ _ hf, Guarded.writing_free _ _ _ hf, Act.mapError_apply,
      Act.mapError_apply, hxy]
  · rw [Guarded.writing_busy _ _ _ hf, Guarded.writing_busy _ _ _ hf]

/-- **Adding a text to a slot is assigning the concatenation**, in every run and for every text. The slot
reads as `current`; both operations give the same answer, namely the length of what fits of the
concatenation, and leave the same pool, byte for byte; so do both commands, whoever holds the pool. What
fits is the same since a text without NUL that fits stands unchanged before what fits behind it. -/
theorem appends_are_assignments (run : Run) (hg : (store run).pools[k]? = some g)
    (hu : g.value.inUse h = true) (t : String) :
    (∃ current, g.value.text h = .ok current ∧
      TextPool.append h t g.value = TextPool.assign h (current ++ t) g.value ∧
      (TextPool.append h t g.value).result =
        .ok (Text.bytes (Text.clip (current ++ t) g.value.maxLen)).length ∧
      Store.step (.pool k (.append h t)) (store run) =
        Store.step (.pool k (.assign h (current ++ t))) (store run)) ∧
    ∀ (current : String) (max : Nat), '\x00' ∉ current.toList → (Text.bytes current).length ≤ max →
      current ++ Text.clip t (max - (Text.bytes current).length) = Text.clip (current ++ t) max := by
  refine ⟨?_, fun current max hnul hfit => (Text.clip_append hnul hfit t).symm⟩
  have hp := tidy hg
  rw [TextPool.Ledger.inUse_eq] at hu
  obtain ⟨e, he⟩ := Option.isSome_iff_exists.1 hu
  have hsame := TextPool.append_eq_assign hp he t
  obtain ⟨p, hassign, -⟩ := TextPool.assign_found hp he (e.text ++ t)
  refine ⟨e.text, by rw [hp.text_eq, he], hsame, by rw [hsame, hassign], ?_⟩
  rw [Store.step, Store.step, Store.poolStep, Store.poolStep, Act.map_apply, Act.map_apply,
    writePool_congr hg hsame]

/-- A slot of five bytes with a text of three. -/
def brief : Run := [.pool 0 (.assign ⟨1, 0⟩ "abc"), .pool 0 .allocate, .reservePool 2 4]

/-- A character of two bytes has no room behind that text, nor has what follows it. -/
theorem appends_are_assignments_brief : ∃ g, (store brief).pools[0]? = some g ∧
    g.value.inUse ⟨1, 0⟩ = true ∧ g.value.text ⟨1, 0⟩ = .ok "abc" ∧
    TextPool.append ⟨1, 0⟩ "ßd\x00e" g.value = TextPool.assign ⟨1, 0⟩ "abcßd\x00e" g.value ∧
    (TextPool.append ⟨1, 0⟩ "ßd\x00e" g.value).result = .ok 3 := by
  have hrun : ∃ g ∈ (store brief).pools[0]?, g.value.inUse ⟨1, 0⟩ = true ∧
      (g.value.text ⟨1, 0⟩).toOption = some "abc" ∧
      (TextPool.append ⟨1, 0⟩ "ßd\x00e" g.value).result.toOption = some 3 := by
    decide +kernel
  obtain ⟨g, hg, hin, htext, hlen⟩ := hrun
  obtain ⟨⟨current, hcurrent, hsame, hresult, -⟩, -⟩ := appends_are_assignments brief hg hin "ßd\x00e"
  rw [hcurrent] at htext
  obtain rfl : current = "abc" := Option.some.inj htext
  rw [hresult] at hlen
  exact ⟨g, hg, hin, hcurrent, hsame, hresult.trans (congrArg Except.ok (Option.some.inj hlen))⟩

/-! ### Copying from slot to slot -/

section Copies

variable {target source : TextHandle}

/-- The target is looked at before the source. -/
theorem copy_refused {p : TextPool} (hu : p.inUse target = false ∨ p.inUse source = false) :
    TextPool.copy target source p =
      ⟨.error (.notAllocated (if p.inUse target then source.index else target.index)), p, []⟩ := by
  cases htarget : p.inUse target with
  | false =>
    have hnone := OwnedText.find_of_not_inUse htarget
    exact (Act.get_bind _ p).trans (TextPool.locate_bind_none hnone _)
  | true =>
    have hnone : p.catalog.find source = none := by
      refine OwnedText.find_of_not_inUse (hu.resolve_left fun hout => ?_)
      rw [htarget] at hout
      cases hout
    rw [TextPool.Ledger.inUse_eq] at htarget
    obtain ⟨e, he⟩ := Option.isSome_iff_exists.1 htarget
    exact (Act.get_bind _ p).trans ((TextPool.locate_bind_some he _).trans
      (TextPool.locate_bind_none hnone _))

/-- A command that its pool refuses leaves the store as it is, and so does one that finds the pool held. -/
theorem writePool_refused {α : Type} {s : Store} {x : Act Error TextPool α} {e : Error}
    (hg : s.pools[k]? = some g) (hx : x g.value = ⟨.error e, g.value, []⟩) :
    (Store.writePool k x s).state = s := by
  unfold Store.writePool
  rw [Store.onPool_some hg]
  by_cases hf : g.hold = .free
  · rw [Guarded.writing_free _ _ _ hf, Act.mapError_apply, hx]
    simp only [set_back hg]
  · rw [Guarded.writing_busy _ _ _ hf]
    simp only [set_back hg]

/-- **Copying from slot to slot is assigning what is read**, in every run and for all handles. If the target
is not in use the copy is refused on its account, otherwise if the source is not in use on account of that,
and nothing changes. If both are in use the source reads as a text `t`; copying it and assigning it give the
same answer, which is the length of all of `t`, and leave the same pool, byte for byte; so do both commands,
whoever holds the pool. Then the target reads as `t`, with nothing of its old text, and all other slots read
as before. -/
theorem copies_are_assignments (run : Run) (hg : (store run).pools[k]? = some g)
    (target source : TextHandle) :
    (g.value.inUse target = false →
      TextPool.copy target source g.value = ⟨.error (.notAllocated target.index), g.value, []⟩) ∧
    (g.value.inUse target = true → g.value.inUse source = false →
      TextPool.copy target source g.value = ⟨.error (.notAllocated source.index), g.value, []⟩) ∧
    (g.value.inUse target = false ∨ g.value.inUse source = false →
      (Store.step (.pool k (.copy target source)) (store run)).state = store run) ∧
    (g.value.inUse target = true → g.value.inUse source = true →
      ∃ t p, g.value.text source = .ok t ∧
        TextPool.copy target source g.value = ⟨.ok (Text.bytes t).length, p, []⟩ ∧
        TextPool.assign target t g.value = ⟨.ok (Text.bytes t).length, p, []⟩ ∧
        Store.step (.pool k (.copy target source)) (store run) =
          Store.step (.pool k (.assign target t)) (store run) ∧
        p.text target = .ok t ∧ (∀ h, h ≠ target → p.text h = g.value.text h) ∧
        p.id = g.value.id ∧ p.slots = g.value.slots ∧ p.live = g.value.live ∧
        p.peak = g.value.peak) := by
  have hp := tidy hg
  refine ⟨fun hout => ?_, fun hin hout => ?_, fun hout => ?_, fun hin hin' => ?_⟩
  · rw [copy_refused (.inl hout), hout]
    rfl
  · rw [copy_refused (.inr hout), if_pos hin]
  · rw [Store.step, Store.poolStep, Act.map_apply]
    exact writePool_refused hg (copy_refused hout)
  · rw [TextPool.Ledger.inUse_eq] at hin hin'
    obtain ⟨e, he⟩ := Option.isSome_iff_exists.1 hin
    obtain ⟨e', he'⟩ := Option.isSome_iff_exists.1 hin'
    have hsame := TextPool.copy_eq_assign hp he he'
    have hassign := TextPool.assign_put hp he e'.text
    obtain ⟨p, hcopy, hchanges⟩ := TextPool.copy_found hp he he'
    obtain ⟨-, rfl, -⟩ := Outcome.mk.inj (hassign.symm.trans (hsame.symm.trans hcopy))
    -- Only the entry of the target is another one.
    have hpool := TextPool.Catalog.pool_of_find he
    have hcatalog := hchanges.catalog_eq hp
    have htidy := hchanges.tidy hp
    refine ⟨e'.text, _, ?_, hcopy, hsame.symm.trans hcopy, ?_, ?_, fun h hne => ?_, rfl, rfl, rfl, rfl⟩
    · rw [hp.text_eq, he']
    · rw [Store.step, Store.step, Store.poolStep, Store.poolStep, Act.map_apply, Act.map_apply,
        writePool_congr hg hsame]
    · rw [htidy.text_eq, hcatalog, TextPool.Catalog.find_put_self hpool, TextPool.entryOf_state]
    · rw [htidy.text_eq, hp.text_eq, hcatalog, TextPool.Catalog.find_put_of_ne hpool hne]

end Copies

/-- Two slots of nine bytes, the second with the longer text. -/
def unequal : Run := [.pool 0 (.assign ⟨1, 1⟩ "longer!"), .pool 0 (.assign ⟨1, 0⟩ "hello"), .pool 0 .allocate,
  .pool 0 .allocate, .reservePool 2 8]

/-- Of the longer text nothing is left; and nothing is copied from a slot of another pool. -/
theorem copies_are_assignments_unequal : ∃ g p, (store unequal).pools[0]? = some g ∧
    g.value.text ⟨1, 0⟩ = .ok "hello" ∧
    TextPool.copy ⟨1, 1⟩ ⟨1, 0⟩ g.value = ⟨.ok 5, p, []⟩ ∧
    TextPool.assign ⟨1, 1⟩ "hello" g.value = ⟨.ok 5, p, []⟩ ∧ p.text ⟨1, 1⟩ = .ok "hello" ∧
    TextPool.copy ⟨1, 1⟩ ⟨2, 0⟩ g.value = ⟨.error (.notAllocated 0), g.value, []⟩ := by
  have hrun : ∃ g ∈ (store unequal).pools[0]?, g.value.inUse ⟨1, 0⟩ = true ∧
      g.value.inUse ⟨1, 1⟩ = true ∧ g.value.inUse ⟨2, 0⟩ = false ∧
      (g.value.text ⟨1, 0⟩).toOption = some "hello" := by
    decide +kernel
  obtain ⟨g, hg, hsource, htarget, hforeign, htext⟩ := hrun
  obtain ⟨-, -, -, hcopies⟩ := copies_are_assignments unequal hg ⟨1, 1⟩ ⟨1, 0⟩
  obtain ⟨t, p, hread, hcopy, hassign, -, hreads, -⟩ := hcopies htarget hsource
  rw [hread] at htext
  obtain rfl : t = "hello" := Option.some.inj htext
  obtain ⟨-, hrefused, -⟩ := copies_are_assignments unequal hg ⟨1, 1⟩ ⟨2, 0⟩
  exact ⟨g, p, hg, hread, hcopy, hassign, hreads, hrefused htarget hforeign⟩

end Run

end FixedArena
