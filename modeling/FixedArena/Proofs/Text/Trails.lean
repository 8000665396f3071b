import FixedArena.Proofs.Ring.Ages
import FixedArena.Proofs.Text.Peaks

/-!
Rings and texts reach their arenas and pools by calls. Whatever a ring or a text does, its arena and its
pool come from what they were by calls, and the counts that were logged are those that these calls log.

Main facts:
* `BlockArena.Went`, `TextPool.Went`: calls to the one, and none to the other;
* `Ring.went_push`, `Ring.went_pop`, `Ring.went_drop`: rings;
* `OwnedText.went_create`, `OwnedText.went_drop`: texts;
* `TextRing.went_pushText`, `TextRing.went_pop`, `TextRing.went_drop`: text rings, which reach both.
-/

namespace FixedArena

open Act
open TextPool (Unmarked)

variable {ε σ τ α β : Type}

/-! ### Calls to one, and none to the other -/

/-- **Calls to an arena**, while no pool is called. -/
def BlockArena.Went (a : BlockArena) (l : List Event) (b : BlockArena) : Prop :=
  BlockArena.stock.Follows a l b ∧ TextPool.stock.marks l = []

/-- **Calls to a pool**, while no arena is called. -/
def TextPool.Went (p : TextPool) (l : List Event) (q : TextPool) : Prop :=
  TextPool.stock.Follows p l q ∧ BlockArena.stock.marks l = []

instance : IsTrail BlockArena.Went where
  nil _ := ⟨IsTrail.nil _, rfl⟩
  append h h' := ⟨IsTrail.append h.1 h'.1, by rw [Stock.marks_append, h.2, h'.2, List.append_nil]⟩

instance : IsTrail TextPool.Went where
  nil _ := ⟨IsTrail.nil _, rfl⟩
  append h h' := ⟨IsTrail.append h.1 h'.1, by rw [Stock.marks_append, h.2, h'.2, List.append_nil]⟩

theorem TextPool.Unmarked.went_blocks {l : List Event} (h : Unmarked l) (a : BlockArena) : a.Went l a :=
  ⟨Stock.follows_silent h.blocks, h.slots⟩

theorem TextPool.Unmarked.went_slots {l : List Event} (h : Unmarked l) (p : TextPool) : p.Went l p :=
  ⟨Stock.follows_silent h.slots, h.blocks⟩

instance : IsTrail fun (_ : σ) l (_ : σ) => Unmarked l where
  nil _ := ⟨rfl, rfl⟩
  append h h' := TextPool.Unmarked.append h h'

/-- Nothing changed, and no count was told. -/
structure Idle (s : σ) (l : List Event) (t : σ) : Prop where
  state : t = s
  unmarked : Unmarked l

instance : IsTrail (Idle (σ := σ)) where
  nil _ := ⟨rfl, rfl, rfl⟩
  append h h' := ⟨h'.state.trans h.state, h.unmarked.append h'.unmarked⟩

/-! ### Arenas -/

namespace BlockArena

theorem along_call {c : Call Unit} {f : α → Option BlockHandle} {x : Act Error BlockArena α}
    (h : c.act = f <$> x) (hx : ∀ a, TextPool.stock.marks (x a).events = []) : Along Went x := by
  intro a
  have hcall : stock.act c = (fun v => (f v).map (·.index.toNat)) <$> x := by
    simp only [stock, h]
    exact (comp_map ..).symm
  exact ⟨Stock.along_act hcall a, hx a⟩

theorem went_allocate : Along Went allocate := by
  refine along_call (c := .allocate ()) rfl fun a => ?_
  unfold allocate
  split
  · rfl
  · dsimp only
    split <;> rfl

theorem went_free (h : BlockHandle) : Along Went (free h) := by
  refine along_call (c := .free () h) rfl fun a => ?_
  unfold free
  split <;> rfl

theorem went_write (h : BlockHandle) (offset : Nat) (bs : List UInt8) :
    Along Went (write h offset bs) := by
  refine along_call (c := .write () h offset bs) rfl fun a => ?_
  unfold write
  split
  · rfl
  · split <;> rfl

end BlockArena

/-! ### Rings -/

namespace Ring

open BlockArena (Went went_allocate went_free went_write)

/-- The arena of a site was called. -/
def Site.Went (s : Site α) (l : List Event) (t : Site α) : Prop := s.nodes.value.Went l t.nodes.value

instance : IsTrail (Site.Went (α := α)) where
  nil s := IsTrail.nil s.nodes.value
  append h h' := IsTrail.append (Q := BlockArena.Went) h h'

theorem went_writing {x : Ring α → Act Error BlockArena β} (hx : ∀ r, Along Went (x r)) :
    Along Site.Went (writing x) :=
  along_get.bind fun s => along_zoom (Guarded.along_writing (hx s.ring) nodesBusy) fun _ _ _ h => h

theorem went_reading (f : Ring α → BlockArena → Except Error β) : Along Site.Went (reading f) :=
  along_get.bind fun s =>
    along_zoom (Guarded.along_reading (Q := Went) nodesBusy (f s.ring)) fun _ _ _ h => h

theorem went_setLen (f : Nat → Nat) : Along Site.Went (setLen (α := α) f) :=
  fun s => IsTrail.nil s.nodes.value

theorem went_log {e : Event} (h : Unmarked [e]) :
    Along Site.Went (log e : Act Error (Site α) Unit) :=
  along_log fun s => h.went_blocks s.nodes.value

theorem went_setNodeBytes (index : UInt32) (offset : Nat) (bs : List UInt8) :
    Along Went (setNodeBytes index offset bs) :=
  (along_read _).bind fun h => went_write h offset bs

theorem went_newHead : Along Went newHead :=
  went_allocate.bind fun _ => (went_write _ _ _).bind fun _ => (went_write _ _ _).bind fun _ =>
    along_pure _

variable [Element α]

theorem went_linkIn (prev next : UInt32) (v : α) : Along Went (linkIn prev next v) := by
  have hnew : Along Went (newNode prev next) :=
    went_allocate.bind fun _ => (went_write _ _ _).bind fun _ => (went_write _ _ _).bind fun _ =>
      along_pure _
  exact hnew.bind fun _ => (went_setNodeBytes _ _ _).bind fun _ =>
    (went_setNodeBytes _ _ _).bind fun _ => went_setNodeBytes _ _ _

theorem went_linkOut (head : UInt32) (side : Link) : Along Went (linkOut (α := α) head side) :=
  (along_read _).bind fun _ => (along_read _).bind fun _ => (along_read _).bind fun _ =>
    (along_read _).bind fun _ => (went_setNodeBytes _ _ _).bind fun _ =>
    (went_setNodeBytes _ _ _).bind fun _ => (along_read _).bind fun _ => (went_free _).bind fun _ =>
    along_pure _

theorem went_create :
    Along (Guarded.On Went) (create : Act Error (Guarded BlockArena) (Ring α)) := by
  refine Guarded.along_writing (along_get.bind fun a => ?_) nodesBusy
  split
  · exact along_fail _
  · exact went_newHead.bind fun _ => along_pure _

theorem went_push (side : Side) (v : α) : Along Site.Went (push side v) := by
  refine (went_writing fun r => (along_read _).bind fun neighbour => ?_).bind fun _ => went_setLen _
  cases side with
  | front => exact went_linkIn _ _ v
  | back => exact went_linkIn _ _ v

theorem went_set (index : Nat) (v : α) : Along Site.Went (set index v) :=
  went_writing fun _ => (along_read _).bind fun _ => went_setNodeBytes _ _ _

theorem went_pop (side : Side) : Along Site.Went (pop (α := α) side) := by
  refine along_get.bind fun s => ?_
  split
  · exact along_pure _
  · refine (went_writing fun r => went_linkOut _ _).attempt.bind fun out => ?_
    cases out with
    | ok v => exact (went_setLen _).bind fun _ => along_pure _
    | error e => exact (went_log ⟨rfl, rfl⟩).bind fun _ => along_pure _

theorem went_peek (side : Side) : Along Site.Went (peek (α := α) side) := by
  refine along_get.bind fun s => ?_
  split
  · exact along_fail _
  · exact went_reading _

theorem went_get (index : Nat) : Along Site.Went (get (α := α) index) := went_reading _

theorem went_drain (n : Nat) : Along Site.Went (drain (α := α) n) := by
  induction n with
  | zero => exact along_pure ()
  | succ n ih =>
    refine (went_pop .front).bind fun v? => ?_
    cases v? with
    | none => exact along_pure ()
    | some v => exact ih

theorem went_clear : Along Site.Went (clear (α := α)) :=
  along_get.bind fun s => went_drain s.ring.len

theorem went_drop : Along Site.Went (drop (α := α)) := by
  refine went_clear.bind fun _ => (went_writing fun r => went_free _).attempt.bind fun out => ?_
  cases out with
  | ok _ => exact along_pure _
  | error e => exact along_get.bind fun _ => went_log ⟨rfl, rfl⟩

theorem unmarked_scanStep (step : ScanStep) :
    Along (fun _ l _ => Unmarked l) (scanStep (α := α) step) := by
  have hmodify : ∀ f : Walk α → Walk α,
      Along (fun _ l _ => Unmarked l) (Act.modify f : Act Error (Walk α) Unit) := fun _ _ => ⟨rfl, rfl⟩
  cases step with
  | next => exact (along_read _).bind fun _ => (hmodify _).bind fun _ => along_pure _
  | hint => exact along_get.bind fun _ => along_pure _
  | rest => exact (along_read _).bind fun _ => (hmodify _).bind fun _ => along_pure _
  | describe => exact along_get.bind fun _ => along_pure _
  | hold mode =>
    refine along_get.bind fun w => ?_
    cases w.nodes.take? mode with
    | some nodes => exact (hmodify _).bind fun _ => along_pure _
    | none => exact along_pure _
  | release => exact (hmodify _).bind fun _ => along_pure _

/-- **Scripts only look.** -/
theorem idle_scan (steps : List ScanStep) : Along Idle (scan (α := α) steps) := by
  intro s
  have hlog : Along (fun _ l _ => Unmarked l) (scan (α := α) steps) :=
    (along_read _).bind fun c => along_zoom (Along.mapM unmarked_scanStep steps) fun _ _ _ h => h
  exact ⟨state_scan steps s, hlog s⟩

theorem went_scan (steps : List ScanStep) : Along Site.Went (scan (α := α) steps) := by
  refine (idle_scan steps).imp ?_
  rintro s l t ⟨rfl, hl⟩
  exact hl.went_blocks t.nodes.value

end Ring

/-! ### Pools -/

namespace TextPool

theorem along_call {c : Call} {f : α → Answer} {x : Act Error TextPool α} (h : c.act = f <$> x)
    (hx : ∀ p, BlockArena.stock.marks (x p).events = []) : Along Went x := by
  intro p
  have hcall : stock.act c = (fun v => (f v).slot?) <$> x := by
    simp only [stock, h]
    exact (comp_map ..).symm
  exact ⟨Stock.along_act hcall p, hx p⟩

theorem went_allocate : Along Went allocate := by
  refine along_call (c := .allocate) rfl fun p => ?_
  unfold allocate
  split
  · rfl
  · dsimp only
    split <;> rfl

theorem went_of_spares {c : Call} {f : α → Answer} {x : Act Error TextPool α} (h : c.act = f <$> x)
    (hx : Along Spares x) : Along Went x :=
  along_call h fun p => (hx p).unmarked.blocks

theorem went_free (h : TextHandle) : Along Went (free h) :=
  went_of_spares (c := .free h) rfl (spares_free h)

theorem went_assign (h : TextHandle) (t : String) : Along Went (assign h t) :=
  went_of_spares (c := .assign h t) rfl (spares_assign h t)

theorem went_append (h : TextHandle) (t : String) : Along Went (append h t) :=
  went_of_spares (c := .append h t) rfl (spares_append h t)

theorem went_copy (target source : TextHandle) : Along Went (copy target source) :=
  went_of_spares (c := .copy target source) rfl (spares_copy target source)

theorem went_own (h : TextHandle) : Along Went (own h) :=
  went_of_spares (c := .own h) rfl (spares_own h)

theorem went_disown (h : TextHandle) : Along Went (disown h) :=
  went_of_spares (c := .disown h) rfl (spares_disown h)

theorem went_reclaim (h : TextHandle) : Along Went (reclaim h) :=
  went_of_spares (c := .reclaim h) rfl (spares_reclaim h)

theorem went_writing {x : Act Error TextPool α} (hx : Along Went x) :
    Along (Guarded.On Went) (writing x) :=
  Guarded.along_writing hx busy

theorem went_reading (f : TextPool → Except Error α) : Along (Guarded.On Went) (reading f) :=
  Guarded.along_reading busy f

theorem went_log {e : Event} (h : Unmarked [e]) :
    Along (Guarded.On Went) (log e : GuardedAct Unit) :=
  along_log fun g => h.went_slots g.value

end TextPool

/-! ### Texts -/

namespace OwnedText

open TextPool

theorem went_reporting (h : TextHandle) {access : GuardedAct α} (hx : Along (Guarded.On Went) access) :
    Along (Guarded.On Went) (reporting h access) := by
  refine hx.attempt.bind fun out => ?_
  cases out with
  | ok a => exact along_pure _
  | error e => exact (went_log ⟨rfl, rfl⟩).bind fun _ => along_pure _

theorem went_create : Along (Guarded.On Went) create := by
  refine went_writing (went_allocate.bind fun h => (went_own h).attempt.bind fun owned => ?_)
  match owned with
  | .ok () => exact along_pure _
  | .error e => exact (went_free h).bind fun _ => along_fail _

theorem went_drop (h : TextHandle) : Along (Guarded.On Went) (drop h) := by
  refine (went_writing (went_reclaim h)).attempt.bind fun out => ?_
  match out with
  | .ok _ => exact along_pure _
  | .error e => exact went_log ⟨rfl, rfl⟩

theorem went_assign (h : TextHandle) (t : String) : Along (Guarded.On Went) (assign h t) :=
  (went_reporting h (went_writing (TextPool.went_assign h t))).bind fun _ => along_pure _

theorem went_append (h : TextHandle) (t : String) : Along (Guarded.On Went) (append h t) :=
  (went_reporting h (went_writing (TextPool.went_append h t))).bind fun _ => along_pure _

theorem went_copy (h source : TextHandle) : Along (Guarded.On Went) (copy h source) :=
  (went_reporting h (went_writing (TextPool.went_copy h source))).bind fun _ => along_pure _

/-! #### Looking -/

theorem idle_reporting (h : TextHandle) {access : GuardedAct α} (hx : Along Idle access) :
    Along Idle (reporting h access) := by
  refine hx.attempt.bind fun out => ?_
  cases out with
  | ok a => exact along_pure _
  | error e => exact (along_log fun _ => ⟨rfl, rfl, rfl⟩).bind fun _ => along_pure _

theorem idle_content (h : TextHandle) : Along Idle (content h) :=
  (idle_reporting h (along_read _)).bind fun _ => along_pure _

theorem idle_compare (h : TextHandle) (t : String) : Along Idle (compare h t) :=
  (idle_content h).bind fun _ => along_pure _

theorem idle_equals (h : TextHandle) (t : String) : Along Idle (equals h t) :=
  (idle_compare h t).bind fun _ => along_pure _

theorem idle_length (h : TextHandle) : Along Idle (length h) :=
  (idle_reporting h (along_read _)).bind fun _ => along_pure _

theorem idle_isEmpty (h : TextHandle) : Along Idle (isEmpty h) :=
  (idle_length h).bind fun _ => along_pure _

theorem idle_maxLength (h : TextHandle) : Along Idle (maxLength h) :=
  (idle_reporting h (along_read _)).bind fun _ => along_pure _

theorem idle_describe (h : TextHandle) : Along Idle (describe h) :=
  (idle_content h).bind fun _ => along_pure _

end OwnedText

/-! ### Text rings -/

namespace TextRing

open TextPool

/-- Both the arena and the pool of a site were called. -/
structure Site.Went (s : Site) (l : List Event) (t : Site) : Prop where
  blocks : BlockArena.stock.Follows s.nodes.value l t.nodes.value
  slots : TextPool.stock.Follows s.pool.value l t.pool.value

instance : IsTrail Site.Went where
  nil _ := ⟨IsTrail.nil _, IsTrail.nil _⟩
  append h h' := ⟨IsTrail.append h.blocks h'.blocks, IsTrail.append h.slots h'.slots⟩

theorem went_onHandles {x : Act Error (Ring.Site TextHandle) α} (hx : Along Ring.Site.Went x) :
    Along Site.Went (onHandles x) :=
  along_zoom hx fun _ _ _ h => ⟨h.1, Stock.follows_silent h.2⟩

theorem went_onPool {x : GuardedAct α} (hx : Along (Guarded.On TextPool.Went) x) :
    Along Site.Went (onPool x) :=
  along_zoom hx fun _ _ _ h => ⟨Stock.follows_silent h.2, h.1⟩

theorem went_log {e : Event} (h : Unmarked [e]) : Along Site.Went (log e : Act Error Site Unit) :=
  along_log fun _ => ⟨Stock.follows_silent h.blocks, Stock.follows_silent h.slots⟩

theorem went_push (side : Ring.Side) (h : TextHandle) : Along Site.Went (push side h) := by
  refine (went_onPool (went_writing (went_own h))).bind fun _ =>
    (went_onHandles (Ring.went_push side h)).attempt.bind fun linked => ?_
  match linked with
  | .ok () => exact along_pure _
  | .error e =>
    exact (went_onPool (went_writing (went_disown h))).attempt.bind fun _ => along_fail _

theorem went_pushText (t : String) : Along Site.Went (pushText t) := by
  have hstore := went_allocate.bind fun h =>
    (went_assign h t).bind fun _ => along_pure (ε := Error) h
  refine (went_onPool (went_writing hstore)).bind fun h =>
    (went_push .back h).attempt.bind fun pushed => ?_
  match pushed with
  | .ok () => exact along_pure _
  | .error e => exact (went_onPool (went_writing (went_free h))).attempt.bind fun _ => along_fail _

theorem went_pop (side : Ring.Side) : Along Site.Went (pop side) := by
  refine along_get.bind fun s => ?_
  split
  · refine (went_onHandles (Ring.went_pop side)).bind fun h? => ?_
    cases h? with
    | some h => exact (went_onPool (went_writing (went_reclaim h))).bind fun _ => along_pure _
    | none => exact along_pure _
  · exact (went_log ⟨rfl, rfl⟩).bind fun _ => along_pure _

theorem went_drain (n : Nat) : Along Site.Went (drain n) := by
  induction n with
  | zero => exact (went_pop .front).bind fun _ => along_pure ()
  | succ n ih =>
    refine (went_pop .front).bind fun h? => ?_
    cases h? with
    | none => exact along_pure ()
    | some h => exact ih

theorem went_clear : Along Site.Went clear := along_get.bind fun s => went_drain s.ring.len

theorem went_drop : Along Site.Went drop :=
  went_clear.bind fun _ => went_onHandles Ring.went_drop

theorem went_peek (side : Ring.Side) : Along Site.Went (peek side) :=
  went_onHandles (Ring.went_peek side)

theorem went_get (index : Nat) : Along Site.Went (get index) := went_onHandles (Ring.went_get index)

theorem went_text (index : Nat) : Along Site.Went (text index) :=
  (went_get index).bind fun _ => went_onPool (went_reading _)

theorem went_texts : Along Site.Went texts := by
  refine along_get.bind fun s => ?_
  split
  · exact (along_read _).bind fun _ => along_pure _
  · exact (went_log ⟨rfl, rfl⟩).bind fun _ => along_pure _

theorem went_intoTexts : Along Site.Went intoTexts :=
  went_texts.settled.bind fun _ => went_drop.bind fun _ => along_read _

end TextRing

end FixedArena
