import FixedArena.Proofs.Alike
import FixedArena.Proofs.Ring.Walk

/-!
Rings under holds. Whoever holds the arena, an operation of a ring goes as if nobody did, or gives its
answer for a held arena and changes nothing. Readers do not stand in the way of reads.

Main facts:
* `yields_push`, `yields_pop`, `yields_set`, `yields_clear`: values come and go as if nobody held the
  arena, or not at all;
* `alike_peek`, `alike_get`, `alike_toList`, `alike_scan`: reads beside readers;
* `Cursor.next_unheld`, `Cursor.next_held`: a cursor goes on as if nobody held the arena, or stays.
-/

namespace FixedArena

namespace Ring

open Act

variable {α β : Type} {s : Site α}

/-! ### Access to the arena -/

namespace Site

/-- The site with an arena that nobody holds. -/
def unheld (s : Site α) : Site α := { s with nodes := s.nodes.unheld }

/-- Who holds the arena. -/
def hold (s : Site α) : Hold := s.nodes.hold

end Site

/-- The operation leaves the holds of the arena. -/
abbrev KeepsHold (x : Act Error (Site α) β) : Prop := Within (Order.Preimage Site.hold Eq) x

/-- Nothing is in the way of an operation on an arena that nobody holds. -/
theorem alike_of_free (hf : s.nodes.hold = .free) {x : Act Error (Site α) β} (hx : KeepsHold x) :
    Alike Site.unheld x s := by
  have hsite : ∀ t : Site α, t.hold = .free → t.unheld = t := fun t ht =>
    congrArg (Site.mk t.ring) (Guarded.unheld_of_free ht)
  exact alike_of_fixed (hsite s hf) (hsite _ ((hx s).symm.trans hf))

theorem keepsHold_writing (x : Ring α → Act Error BlockArena β) : KeepsHold (writing x) :=
  within_get.bind fun s => within_zoom (Guarded.hold_writing nodesBusy (x s.ring)) fun _ _ h => h

theorem keepsHold_setLen (f : Nat → Nat) : KeepsHold (setLen (α := α) f) := fun _ => rfl

theorem alike_reading (ha : s.nodes.hold.admits .shared = true)
    (f : Ring α → BlockArena → Except Error β) : Alike Site.unheld (reading f) s :=
  alike_get_bind rfl ((Guarded.alike_reading ha nodesBusy (f s.ring)).zoom rfl fun _ => rfl)

theorem reading_held (ha : ¬s.nodes.hold.admits .shared = true)
    (f : Ring α → BlockArena → Except Error β) : reading f s = ⟨.error nodesBusy, s, []⟩ := by
  unfold reading
  rw [get_bind, zoom_apply, Guarded.reading_held ha]

variable [Element α]

/-! ### Values that come and go -/

theorem keepsHold_push (side : Side) (v : α) : KeepsHold (push side v) :=
  (keepsHold_writing _).bind fun _ => keepsHold_setLen _

theorem keepsHold_pop (side : Side) : KeepsHold (pop (α := α) side) := by
  refine within_get.bind fun s => ?_
  split
  · exact within_pure _
  · refine (keepsHold_writing _).attempt.bind fun out => ?_
    cases out with
    | ok v => exact (keepsHold_setLen _).bind fun _ => within_pure _
    | error e => exact (within_log _).bind fun _ => within_pure _

theorem keepsHold_set (index : Nat) (v : α) : KeepsHold (set index v) := keepsHold_writing _

theorem keepsHold_clear : KeepsHold (clear (α := α)) := within_clear (keepsHold_pop .front)

theorem keepsHold_drop : KeepsHold (drop (α := α)) := by
  refine keepsHold_clear.bind fun _ => (keepsHold_writing _).attempt.bind fun out => ?_
  match out with
  | .ok () => exact within_pure _
  | .error e => exact within_get.bind fun s => within_log _

theorem yields_push (side : Side) (v : α) (s : Site α) :
    Yields Site.unheld (· = .error nodesBusy) (push side v) s := by
  by_cases hf : s.nodes.hold = .free
  · exact .inl (alike_of_free hf (keepsHold_push side v))
  · exact yields_of_eq (push_busy side v hf) rfl

/-- Nothing comes out of an empty ring, held or not. -/
theorem yields_pop (side : Side) (s : Site α) :
    Yields Site.unheld (· = .ok none) (pop side) s := by
  by_cases hf : s.nodes.hold = .free
  · exact .inl (alike_of_free hf (keepsHold_pop side))
  · by_cases h0 : s.ring.len = 0
    · exact yields_of_eq (pop_empty side h0) rfl
    · exact yields_of_eq (pop_busy side h0 hf) rfl

theorem yields_set (index : Nat) (v : α) (s : Site α) :
    Yields Site.unheld (· = .error nodesBusy) (set index v) s := by
  by_cases hf : s.nodes.hold = .free
  · exact .inl (alike_of_free hf (keepsHold_set index v))
  · exact yields_of_eq (set_busy index v hf) rfl

theorem yields_clear (s : Site α) : Yields Site.unheld (· = .ok ()) clear s := by
  by_cases hf : s.nodes.hold = .free
  · exact .inl (alike_of_free hf keepsHold_clear)
  · exact yields_of_eq (clear_busy hf) rfl

/-! ### Values that are read -/

theorem alike_peek (ha : s.nodes.hold.admits .shared = true) (side : Side) :
    Alike Site.unheld (peek side) s := by
  refine alike_get_bind rfl ?_
  split
  · exact alike_fail _ _ _
  · exact alike_reading ha _

/-- An empty ring says so, held or not. -/
theorem yields_peek (side : Side) (s : Site α) :
    Yields Site.unheld (· = .error nodesBusy) (peek side) s := by
  by_cases ha : s.nodes.hold.admits .shared = true
  · exact .inl (alike_peek ha side)
  · by_cases h0 : s.ring.len = 0
    · exact .inl (alike_of_eq (peek_empty side h0) (peek_empty side h0))
    · have hsome : ¬s.ring.isEmpty = true := fun hempty => h0 (of_decide_eq_true hempty)
      have hbusy : peek side s = ⟨.error nodesBusy, s, []⟩ := by
        unfold peek
        rw [get_bind, if_neg hsome]
        exact reading_held ha _
      exact yields_of_eq hbusy rfl

theorem alike_get (ha : s.nodes.hold.admits .shared = true) (index : Nat) :
    Alike Site.unheld (get index) s :=
  alike_reading ha _

theorem yields_get (index : Nat) (s : Site α) :
    Yields Site.unheld (· = .error nodesBusy) (get index) s := by
  by_cases ha : s.nodes.hold.admits .shared = true
  · exact .inl (alike_get ha index)
  · exact yields_of_eq (reading_held ha _) rfl

/-! ### Cursors -/

omit [Element α] in
theorem start_unheld (ha : s.nodes.hold.admits .shared = true) : start s.unheld = start s := by
  unfold start
  rw [(alike_reading ha _).result]
  rfl

omit [Element α] in
/-- A cursor that starts while somebody writes to the arena knows no node. -/
theorem start_held (ha : ¬s.nodes.hold.admits .shared = true) :
    start s = .ok ⟨s.ring, none, s.ring.len⟩ := by
  unfold start
  rw [reading_held ha]
  rfl

namespace Cursor

variable {c : Cursor α} {g : Guarded BlockArena}

theorem next_unheld (ha : g.hold.admits .shared = true) (c : Cursor α) :
    c.next g.unheld = c.next g := by
  have hread : ∀ node, (Guarded.reading nodesBusy (fun a => valueOf (α := α) a node) g.unheld).result =
      (Guarded.reading nodesBusy (fun a => valueOf (α := α) a node) g).result :=
    fun node => (Guarded.alike_reading ha nodesBusy _).result.symm
  unfold next
  split
  · rfl
  · split
    · rfl
    · next node _ =>
      rw [hread node]
      rfl

/-- **A step beside a writer stays where it is.** -/
theorem next_held (ha : ¬g.hold.admits .shared = true) (c : Cursor α) : c.next g = .ok (none, c) := by
  unfold next
  split
  · rfl
  · split
    · rfl
    · rw [Guarded.reading_held ha]
      rfl

theorem next_lost (hc : c.node = none) (g : Guarded BlockArena) : c.next g = .ok (none, c) := by
  unfold next
  rw [hc]
  split <;> rfl

theorem collect_unheld (ha : g.hold.admits .shared = true) (n : Nat) (c : Cursor α) :
    collect g.unheld n c = collect g n c := by
  induction n generalizing c with
  | zero => rfl
  | succ n ih =>
    rw [collect, collect, next_unheld ha]
    simp only [ih]

theorem rest_unheld (ha : g.hold.admits .shared = true) (c : Cursor α) :
    c.rest g.unheld = c.rest g :=
  collect_unheld ha c.remaining c

/-- What brings no value next brings none at all. -/
theorem rest_of_next (h : c.next g = .ok (none, c)) : c.rest g = .ok ([], c) := by
  unfold rest
  cases c.remaining with
  | zero => rfl
  | succ n =>
    rw [collect, h]
    rfl

end Cursor

/-! ### Lists and scripts -/

theorem alike_toList (ha : s.nodes.hold.admits .shared = true) :
    Alike Site.unheld (read toList) s := by
  refine alike_read ?_
  unfold toList
  rw [start_unheld ha]
  exact congrArg _ (funext fun c => by rw [← Cursor.rest_unheld ha]; rfl)

theorem toList_held (ha : ¬s.nodes.hold.admits .shared = true) : toList s = .ok [] := by
  unfold toList
  rw [start_held ha]
  change (Cursor.rest _ s.nodes >>= fun p => pure p.1) = _
  rw [Cursor.rest_of_next (Cursor.next_held ha _)]
  rfl

theorem yields_toList (s : Site α) : Yields Site.unheld (· = .ok []) (read toList) s := by
  by_cases ha : s.nodes.hold.admits .shared = true
  · exact .inl (alike_toList ha)
  · exact .inr ⟨toList_held ha, rfl⟩

/-- The answer shows no value. -/
def ScanAnswer.Blank : ScanAnswer α → Prop
  | .value v => v = none
  | .values vs => vs = []
  | .hint .. | .text _ | .flag _ => True

/-- The walk on an arena that nobody holds. -/
def Walk.unheld (w : Walk α) : Walk α := { w with nodes := w.nodes.unheld }

variable {step : ScanStep} {steps : List ScanStep}

theorem alike_scanStep (hp : step.Plain) {w : Walk α} (ha : w.nodes.hold.admits .shared = true) :
    Alike Walk.unheld (scanStep step) w ∧ (scanStep step w).state.nodes = w.nodes := by
  cases step with
  | next =>
    refine ⟨(alike_read ?_).bind fun p _ => ⟨rfl, rfl, rfl⟩, ?_⟩
    · exact (Cursor.next_unheld ha w.cursor).symm
    · simp only [scanStep, read_bind]
      split <;> rfl
  | rest =>
    refine ⟨(alike_read ?_).bind fun p _ => ⟨rfl, rfl, rfl⟩, ?_⟩
    · exact (Cursor.rest_unheld ha w.cursor).symm
    · simp only [scanStep, read_bind]
      split <;> rfl
  | hint => exact ⟨alike_get_bind rfl (alike_pure _ _ _), rfl⟩
  | describe | hold | release => exact hp.elim

theorem alike_mapM (hp : ∀ step ∈ steps, step.Plain) {w : Walk α}
    (ha : w.nodes.hold.admits .shared = true) :
    Alike Walk.unheld (steps.mapM (scanStep (α := α))) w := by
  induction steps generalizing w with
  | nil => exact alike_pure _ _ _
  | cons step steps ih =>
    obtain ⟨hstep, hnodes⟩ := alike_scanStep (hp step List.mem_cons_self) ha
    rw [List.mapM_cons]
    refine hstep.bind fun a _ => Alike.bind ?_ fun as _ => alike_pure _ _ _
    exact ih (fun x hx => hp x (List.mem_cons_of_mem step hx)) (by rw [hnodes]; exact ha)

/-- **A plain script sees no readers.** -/
theorem alike_scan (hp : ∀ step ∈ steps, step.Plain) (ha : s.nodes.hold.admits .shared = true) :
    Alike Site.unheld (scan steps) s := by
  have hwalk : ∀ c : Cursor α, Alike Walk.unheld (steps.mapM scanStep) ⟨c, s.nodes, []⟩ := fun c =>
    alike_mapM (w := ⟨c, s.nodes, []⟩) hp ha
  have hstart := start_unheld ha
  refine alike_of_still (fun t => (state_scan steps t).symm) ?_ ?_ <;> unfold scan
  all_goals
    simp only [read_bind, hstart]
    split
    · next c _ => first | exact (hwalk c).result | exact (hwalk c).events
    · rfl

theorem scanStep_lost (hp : step.Plain) {w : Walk α} (hn : w.cursor.node = none) : ∃ a,
    scanStep step w = ⟨.ok a, w, []⟩ ∧ a.Blank := by
  have hnext := Cursor.next_lost hn w.nodes
  cases step with
  | next =>
    refine ⟨.value none, ?_, rfl⟩
    simp only [scanStep, read_bind, hnext]
    rfl
  | rest =>
    refine ⟨.values [], ?_, rfl⟩
    simp only [scanStep, read_bind, Cursor.rest_of_next hnext]
    rfl
  | hint => exact ⟨_, rfl, trivial⟩
  | describe | hold | release => exact hp.elim

theorem mapM_lost (hp : ∀ step ∈ steps, step.Plain) {w : Walk α} (hn : w.cursor.node = none) :
    ∃ as, steps.mapM scanStep w = ⟨.ok as, w, []⟩ ∧ ∀ a ∈ as, a.Blank := by
  induction steps with
  | nil => exact ⟨[], rfl, nofun⟩
  | cons step steps ih =>
    obtain ⟨a, hstep, hblank⟩ := scanStep_lost (hp step List.mem_cons_self) hn
    obtain ⟨as, hrest, hblanks⟩ := ih fun x hx => hp x (List.mem_cons_of_mem step hx)
    refine ⟨a :: as, ?_, List.forall_mem_cons.2 ⟨hblank, hblanks⟩⟩
    rw [List.mapM_cons, bind_ok hstep, bind_ok hrest]
    rfl

/-- What a script answers that starts beside a writer: no value. -/
def NoValues (r : Except Error (List (ScanAnswer α))) : Prop :=
  ∃ as, r = .ok as ∧ ∀ a ∈ as, a.Blank

/-- **A plain script beside a writer finds no values.** -/
theorem yields_scan (hp : ∀ step ∈ steps, step.Plain) (s : Site α) :
    Yields Site.unheld NoValues (scan steps) s := by
  by_cases ha : s.nodes.hold.admits .shared = true
  · exact .inl (alike_scan hp ha)
  · obtain ⟨as, hwalk, hblank⟩ := mapM_lost (w := ⟨⟨s.ring, none, s.ring.len⟩, s.nodes, []⟩) hp rfl
    refine .inr ⟨⟨as, ?_, hblank⟩, state_scan steps s⟩
    unfold scan
    rw [read_bind_ok (start_held ha), zoom_apply, hwalk]

end Ring

end FixedArena
