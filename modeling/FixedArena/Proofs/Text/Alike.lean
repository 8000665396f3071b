import FixedArena.Proofs.Ring.Alike
import FixedArena.Proofs.Text.Accesses
import FixedArena.Proofs.Text.Queue

/-!
Texts and text rings under holds. Whoever holds the pool or the arena, an operation goes as if nobody
did, or gives its answer for a hold. What was done before the hold was met is undone, but for the bytes
of slots that are free and for the most slots that were ever in use.

Main facts:
* `OwnedText.yields_content`, `OwnedText.yields_assign`: a text in a held pool reads as empty, and is
  not written;
* `TextRing.yields_push`, `TextRing.yields_pop`, `TextRing.yields_clear`: handles come and go as if
  nobody held anything, or not at all;
* `TextRing.pushText_alike`: a text is added as if nobody held anything, or its slot is free again;
* `TextRing.alike_text`, `TextRing.alike_position`: reads beside readers.
-/

namespace FixedArena

open Act

/-- No call to a pool changes who holds it. -/
theorem TextPool.acrossCalls_hold : AcrossCalls (Order.Preimage Guarded.hold Eq) :=
  fun c => Guarded.hold_writing busy c.act

/-! ### Owned texts -/

namespace OwnedText

open TextPool (GuardedAct busy reading writing)

variable {α : Type} {g : Guarded TextPool} {h : TextHandle} {t : String} {access : GuardedAct α}

/-- The operation leaves the holds of the pool. -/
abbrev KeepsHold (x : GuardedAct α) : Prop := Within (Order.Preimage Guarded.hold Eq) x

/-! #### What is reported -/

theorem alike_reporting (h : TextHandle) (hx : Alike Guarded.unheld access g) :
    Alike Guarded.unheld (reporting h access) g := by
  refine hx.attempt.bind fun out _ => ?_
  cases out with
  | ok a => exact alike_pure _ _ _
  | error e => exact (alike_log _ _ _).bind fun _ _ => alike_pure _ _ _

theorem reporting_busy (h : TextHandle) (hx : access g = ⟨.error busy, g, []⟩) :
    reporting h access g = ⟨.ok none, g, [.textAccessFailed busy h]⟩ := by
  unfold reporting
  rw [bind_ok (attempt_of_error hx rfl)]
  rfl

/-- What a text reads as that is not read. -/
theorem reading_reported {f : TextPool → Except Error α} (ha : ¬g.hold.admits .shared = true)
    (h : TextHandle) : reporting h (reading f) g = ⟨.ok none, g, [.textAccessFailed busy h]⟩ :=
  reporting_busy h (Guarded.reading_held ha busy f)

theorem alike_read (ha : g.hold.admits .shared = true) (h : TextHandle)
    (f : TextPool → Except Error α) : Alike Guarded.unheld (reporting h (reading f)) g :=
  alike_reporting h (Guarded.alike_reading ha busy f)

/-! #### Reading -/

theorem alike_content (ha : g.hold.admits .shared = true) (h : TextHandle) :
    Alike Guarded.unheld (content h) g :=
  (alike_read ha h _).bind fun _ _ => alike_pure _ _ _

theorem alike_compare (ha : g.hold.admits .shared = true) (h : TextHandle) (t : String) :
    Alike Guarded.unheld (compare h t) g :=
  (alike_content ha h).bind fun _ _ => alike_pure _ _ _

theorem alike_equals (ha : g.hold.admits .shared = true) (h : TextHandle) (t : String) :
    Alike Guarded.unheld (equals h t) g :=
  (alike_compare ha h t).bind fun _ _ => alike_pure _ _ _

theorem alike_length (ha : g.hold.admits .shared = true) (h : TextHandle) :
    Alike Guarded.unheld (length h) g :=
  (alike_read ha h _).bind fun _ _ => alike_pure _ _ _

theorem alike_isEmpty (ha : g.hold.admits .shared = true) (h : TextHandle) :
    Alike Guarded.unheld (isEmpty h) g :=
  (alike_length ha h).bind fun _ _ => alike_pure _ _ _

theorem alike_maxLength (ha : g.hold.admits .shared = true) (h : TextHandle) :
    Alike Guarded.unheld (maxLength h) g :=
  (alike_read ha h _).bind fun _ _ => alike_pure _ _ _

section Held

variable (ha : ¬g.hold.admits .shared = true) (h)

include ha

/-- **Beside a writer a text reads as empty.** -/
theorem content_held : content h g = ⟨.ok "", g, [.textAccessFailed busy h]⟩ :=
  bind_ok (reading_reported ha h)

theorem compare_held (t : String) : compare h t g =
    ⟨.ok (Text.compareBytes (Text.bytes "") (Text.bytes t)), g, [.textAccessFailed busy h]⟩ :=
  bind_ok (content_held h ha)

theorem equals_held (t : String) : equals h t g =
    ⟨.ok (Text.compareBytes (Text.bytes "") (Text.bytes t) == .eq), g, [.textAccessFailed busy h]⟩ :=
  bind_ok (compare_held h ha t)

theorem length_held : length h g = ⟨.ok 0, g, [.textAccessFailed busy h]⟩ :=
  bind_ok (reading_reported ha h)

theorem isEmpty_held : isEmpty h g = ⟨.ok true, g, [.textAccessFailed busy h]⟩ :=
  bind_ok (length_held h ha)

theorem maxLength_held : maxLength h g = ⟨.ok 0, g, [.textAccessFailed busy h]⟩ :=
  bind_ok (reading_reported ha h)

end Held

/-- A text in a tidy pool reads as something, held or not. -/
theorem exists_content (hp : g.value.Tidy) (h : TextHandle) :
    ∃ t, Says (content h) g t := by
  have hfault : ∀ e, (reading (·.text h) g).result = .error e → e.isFault = false := by
    intro e he
    by_cases ha : g.hold.admits .shared = true
    · unfold reading at he
      rw [Guarded.reading_apply, if_pos ha, hp.text_eq] at he
      split at he
      · cases he
      · exact Except.error.inj he ▸ rfl
    · rw [reading, Guarded.reading_held ha] at he
      exact Except.error.inj he ▸ rfl
  obtain ⟨t?, log, hreport⟩ := reporting_eq (h := h) hfault
  exact ⟨_, _, bind_ok hreport⟩

/-- **Beside a writer a text reads as empty**, and otherwise as if nobody held the pool. -/
theorem yields_content (h : TextHandle) (g : Guarded TextPool) :
    Yields Guarded.unheld (· = .ok "") (content h) g := by
  by_cases ha : g.hold.admits .shared = true
  · exact .inl (alike_content ha h)
  · exact yields_of_eq (content_held h ha) rfl

theorem yields_compare (h : TextHandle) (t : String) (g : Guarded TextPool) :
    Yields Guarded.unheld (· = .ok (Text.compareBytes (Text.bytes "") (Text.bytes t)))
      (compare h t) g := by
  by_cases ha : g.hold.admits .shared = true
  · exact .inl (alike_compare ha h t)
  · exact yields_of_eq (compare_held h ha t) rfl

/-! #### Writing -/

theorem keepsHold_written (h : TextHandle) (x : Act Error TextPool α) :
    KeepsHold (reporting h (writing x) >>= fun _ => pure ()) :=
  (within_reporting h (Guarded.hold_writing busy x)).bind fun _ => within_pure _

/-- A write to a held pool is not made. -/
theorem yields_written (h : TextHandle) (x : Act Error TextPool α) (g : Guarded TextPool) :
    Yields Guarded.unheld (· = .ok ()) (reporting h (writing x) >>= fun _ => pure ()) g := by
  by_cases hf : g.hold = .free
  · exact .inl (Guarded.alike_of_free hf (keepsHold_written h x))
  · have hbusy := reporting_busy h (Guarded.writing_busy busy x g hf)
    exact yields_of_eq (bind_ok hbusy) rfl

theorem yields_assign (h : TextHandle) (t : String) (g : Guarded TextPool) :
    Yields Guarded.unheld (· = .ok ()) (assign h t) g :=
  yields_written h _ g

theorem yields_append (h : TextHandle) (t : String) (g : Guarded TextPool) :
    Yields Guarded.unheld (· = .ok ()) (append h t) g :=
  yields_written h _ g

/-- **A text is made as if nobody held the pool, or not at all.** -/
theorem yields_make {y : TextHandle → GuardedAct Unit} (hy : ∀ h, KeepsHold (y h))
    (g : Guarded TextPool) : Yields Guarded.unheld (· = .error busy) (make y) g := by
  by_cases hf : g.hold = .free
  · exact .inl (Guarded.alike_of_free hf (within_make TextPool.acrossCalls_hold hy))
  · have hbusy : create g = _ := Guarded.writing_busy busy take g hf
    exact yields_of_eq (bind_error hbusy) rfl

end OwnedText

/-! ### Text rings -/

namespace TextRing

open TextPool (acrossCalls_hold)

variable {α : Type} {s : Site} {h : TextHandle} {text : String}

namespace Site

/-- The site with an arena and a pool that nobody holds. -/
def unheld (s : Site) : Site := { s with nodes := s.nodes.unheld, pool := s.pool.unheld }

theorem unheld_of_open (ho : s.Open) : s.unheld = s := by
  unfold unheld
  rw [Guarded.unheld_of_free ho.nodes, Guarded.unheld_of_free ho.pool]

end Site

/-- The operation leaves the holds of the arena and of the pool. -/
abbrev KeepsHolds (x : Act Error Site α) : Prop :=
  Within (Site.Each (Order.Preimage Ring.Site.hold Eq) (Order.Preimage Guarded.hold Eq)) x

/-- Nothing is in the way of an operation if nobody holds anything. -/
theorem alike_of_open (ho : s.Open) {x : Act Error Site α} (hx : KeepsHolds x) :
    Alike Site.unheld x s := by
  obtain ⟨hnodes, hpool⟩ := hx s
  refine alike_of_fixed (Site.unheld_of_open ho) (Site.unheld_of_open ⟨?_, ?_⟩)
  · exact hnodes.symm.trans ho.nodes
  · exact hpool.symm.trans ho.pool

theorem alike_onHandles {x : Act Error (Ring.Site TextHandle) α}
    (hx : Alike Ring.Site.unheld x s.handles) : Alike Site.unheld (onHandles x) s :=
  hx.zoom rfl fun _ => rfl

theorem alike_onPool {x : TextPool.GuardedAct α} (hx : Alike Guarded.unheld x s.pool) :
    Alike Site.unheld (onPool x) s :=
  hx.zoom rfl fun _ => rfl

/-- An answer for a held arena, from the ring of handles. -/
theorem yields_onHandles {x : Act Error (Ring.Site TextHandle) α} {answers : Except Error α → Prop}
    (hx : Yields Ring.Site.unheld answers x s.handles) :
    Yields Site.unheld answers (onHandles x) s := by
  refine hx.imp alike_onHandles fun ⟨hr, hs⟩ => ⟨hr, ?_⟩
  have hstate : (onHandles x s).state = s.withHandles (x s.handles).state := rfl
  rw [hstate, hs]
  rfl

/-! #### Handles that come and go -/

/-- The refusals that tell of a hold. -/
def Busy {α : Type} (r : Except Error α) : Prop :=
  r = .error Ring.nodesBusy ∨ r = .error TextPool.busy

/-- **A handle is added as if nobody held anything, or not at all.** -/
theorem yields_push (side : Ring.Side) (h : TextHandle) (s : Site) :
    Yields Site.unheld Busy (push side h) s := by
  by_cases hpool : s.pool.hold = .free
  · by_cases hnodes : s.nodes.hold = .free
    · have hpush := within_push acrossCalls_hold.edits Ring.keepsHold_push side h
      exact .inl (alike_of_open ⟨hnodes, hpool⟩ hpush)
    · by_cases hlent : ∃ text, s.pool.value.catalog.find h = some ⟨text, false⟩
      · obtain ⟨text, hlent⟩ := hlent
        obtain ⟨log, hpush⟩ := push_undone hpool hlent (Ring.push_busy side h hnodes) rfl
        exact yields_of_eq hpush (.inl rfl)
      · -- the pool refuses the handle before the arena is asked
        have hnone : ∀ text, s.pool.value.catalog.find h ≠ some ⟨text, false⟩ := fun text hf =>
          hlent ⟨text, hf⟩
        obtain ⟨e, hown, hpush, -⟩ := push_notLent hpool hnone side
        have hpush' : push side h s.unheld = ⟨.error e, s.unheld, []⟩ :=
          bind_error (onPool_eq (s := s.unheld) rfl hown)
        exact .inl (alike_of_eq hpush hpush')
  · have hpush : push side h s = _ := bind_error (onPool_held hpool)
    exact yields_of_eq hpush (.inr rfl)

theorem yields_pop (side : Ring.Side) (s : Site) :
    Yields Site.unheld (· = .ok none) (pop side) s := by
  by_cases ho : s.Open
  · exact .inl (alike_of_open ho (within_pop acrossCalls_hold.edits Ring.keepsHold_pop side))
  · obtain ⟨log, hpop⟩ := pop_closed ho side
    exact yields_of_eq hpop rfl

theorem yields_clear (s : Site) : Yields Site.unheld (· = .ok ()) clear s := by
  by_cases ho : s.Open
  · have hpop := within_pop acrossCalls_hold.edits Ring.keepsHold_pop .front
    exact .inl (alike_of_open ho (within_clear hpop))
  · obtain ⟨log, hclear⟩ := clear_closed ho
    exact yields_of_eq hclear rfl

/-- **A text is added as if nobody held anything, or its slot is free again.** -/
theorem pushText_alike (hp : s.pool.value.Tidy) (t : String) :
    Alike Site.unheld (pushText t) s ∨ Busy (pushText t s).result ∧
      ∃ p, (pushText t s).state = s.withPool p ∧ TextPool.Restored s.pool.value p := by
  by_cases hpool : s.pool.hold = .free
  · by_cases hnodes : s.nodes.hold = .free
    · exact .inl (alike_of_open ⟨hnodes, hpool⟩ (within_pushText acrossCalls_hold Ring.keepsHold_push t))
    · obtain ⟨j, t', p, log, hpush, hc⟩ | ⟨e, log, hstore, hpush⟩ :=
        pushText_undone hp hpool rfl (fun h => Ring.push_busy .back h hnodes) t
      · rw [hpush]
        exact .inr ⟨.inl rfl, p, rfl, hc.restored⟩
      · have hpush' : pushText t s.unheld = ⟨.error e, s.unheld, log⟩ :=
          bind_error (onPool_eq (s := s.unheld) (x := store t) rfl hstore)
        exact .inl (alike_of_eq hpush hpush')
  · have hpush : pushText t s = _ := bind_error (onPool_held (x := store t) hpool)
    rw [hpush]
    exact .inr ⟨.inr rfl, s.pool.value, rfl, .refl s.pool.value⟩

/-! #### Handles and texts that are read -/

section Shared

variable (ha : s.nodes.hold.admits .shared = true) (ha' : s.pool.hold.admits .shared = true)

include ha

theorem alike_peek (side : Ring.Side) : Alike Site.unheld (peek side) s :=
  alike_onHandles (Ring.alike_peek (s := s.handles) ha side)

theorem alike_get (index : Nat) : Alike Site.unheld (get index) s :=
  alike_onHandles (Ring.alike_get (s := s.handles) ha index)

theorem alike_toList : Alike Site.unheld (read toList) s :=
  alike_read (Ring.alike_toList (s := s.handles) ha).result

include ha'

theorem alike_text (index : Nat) : Alike Site.unheld (TextRing.text index) s := by
  have hget : Still (get index) := fun t => (state_onHandles (Ring.state_get index) t).symm
  exact (alike_get ha index).bind_still hget fun h _ =>
    alike_onPool (Guarded.alike_reading ha' TextPool.busy _)

theorem alike_position (t : String) : Alike Site.unheld (read (position t)) s := by
  refine alike_read ?_
  have hlist : toList s = toList s.unheld := (alike_toList ha).result
  have hfree : s.unheld.pool.hold.admits .shared = true := rfl
  rw [position, position, if_pos ha', if_pos hfree, hlist]
  rfl

end Shared

theorem yields_peek (side : Ring.Side) (s : Site) :
    Yields Site.unheld (· = .error Ring.nodesBusy) (peek side) s :=
  yields_onHandles (Ring.yields_peek side s.handles)

theorem yields_get (index : Nat) (s : Site) :
    Yields Site.unheld (· = .error Ring.nodesBusy) (get index) s :=
  yields_onHandles (Ring.yields_get index s.handles)

theorem yields_toList (s : Site) : Yields Site.unheld (· = .ok []) (read toList) s := by
  by_cases ha : s.nodes.hold.admits .shared = true
  · exact .inl (alike_toList ha)
  · exact .inr ⟨Ring.toList_held (s := s.handles) ha, rfl⟩

/-- The arena is asked for the handle first, and the pool for its text. -/
theorem yields_text (index : Nat) (s : Site) : Yields Site.unheld Busy (TextRing.text index) s := by
  by_cases ha : s.nodes.hold.admits .shared = true
  · have hget := alike_get ha index
    by_cases ha' : s.pool.hold.admits .shared = true
    · exact .inl (alike_text ha ha' index)
    · cases hr : (TextRing.get index s).result with
      | error e =>
        refine .inl (hget.bind fun h hok => ?_)
        rw [hr] at hok
        cases hok
      | ok h =>
        refine .inr ⟨.inr ?_, state_text index s⟩
        have hstate : (TextRing.get index s).state = s := state_onHandles (Ring.state_get index) s
        have hpool : onPool (TextPool.reading (·.text h)) s = ⟨.error TextPool.busy, s, []⟩ := by
          unfold onPool TextPool.reading
          rw [zoom_apply, Guarded.reading_held ha']
        unfold TextRing.text
        rw [bind_of_ok hr, hstate, hpool]
  · have hget : TextRing.get index s = ⟨.error Ring.nodesBusy, s, []⟩ :=
      onHandles_eq (Ring.reading_held (s := s.handles) ha _)
    exact yields_of_eq (bind_error hget) (.inl rfl)

/-- **Beside a writer to the arena or to the pool, no text has a position.** -/
theorem yields_position (t : String) (s : Site) :
    Yields Site.unheld (· = .ok none) (read (position t)) s := by
  by_cases ha' : s.pool.hold.admits .shared = true
  · by_cases ha : s.nodes.hold.admits .shared = true
    · exact .inl (alike_position ha ha' t)
    · refine .inr ⟨?_, rfl⟩
      have hnone : toList s = .ok [] := Ring.toList_held (s := s.handles) ha
      rw [read_apply, position, if_pos ha', hnone]
      rfl
  · refine .inr ⟨?_, rfl⟩
    rw [read_apply, position, if_neg ha']

end TextRing

end FixedArena
