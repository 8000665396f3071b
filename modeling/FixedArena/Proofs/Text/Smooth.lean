import FixedArena.Proofs.Ring.Smooth
import FixedArena.Proofs.Text.Entries
import FixedArena.Proofs.Text.Variable

/-!
Pools, owned texts and text rings that nobody holds are smooth. A pool refuses its callers for want of
a slot, or since a handle is not theirs to use, and a text ring finds a text in every slot that it owns.

Main facts:
* `TextPool.smooth_allocate`, `TextPool.smooth_own`: operations of a pool, in whatever state it is;
* `OwnedText.smooth_make`: the making of a text;
* `TextRing.smooth_push`, `TextRing.smooth_pushText`: what is added to a text ring.
-/

namespace FixedArena

open Act
open Outcome (Smooth)

namespace TextPool

variable {p : TextPool} {h : TextHandle}

theorem not_inner_of_locate {e : Error} (he : p.locate h = .error e) : ¬e.Inner := by
  rw [locate_eq] at he
  cases hf : p.catalog.find h with
  | none =>
    rw [hf] at he
    exact Except.error.inj he ▸ not_false
  | some entry =>
    rw [hf] at he
    cases he

theorem smooth_locate (h : TextHandle) (p : TextPool) :
    (Act.read (·.locate h) p : Outcome Error TextPool Nat).Smooth Error.Inner :=
  smooth_read fun _ => not_inner_of_locate

theorem smooth_allocate (p : TextPool) : (allocate p).Smooth Error.Inner := by
  unfold allocate
  split
  · refine smooth_error_log (fun e he => ?_) not_false
    obtain rfl := List.mem_singleton.1 he
    rfl
  · refine smooth_ok_log fun e he => ?_
    split at he
    · obtain rfl := List.mem_singleton.1 he
      rfl
    · cases he

theorem smooth_free (h : TextHandle) (p : TextPool) : (free h p).Smooth Error.Inner := by
  have hrefused : ∀ e : Event, e.isAlarm = false →
      Smooth Error.Inner (⟨.ok false, p, [e]⟩ : Outcome Error TextPool Bool) := fun e he =>
    smooth_ok_log fun e' he' => List.mem_singleton.1 he' ▸ he
  unfold free
  cases p.locate h with
  | error e => exact hrefused _ rfl
  | ok i =>
    dsimp only
    split
    · exact hrefused _ rfl
    · exact smooth_ok _ _

theorem smooth_own (h : TextHandle) (p : TextPool) : (own h p).Smooth Error.Inner := by
  unfold own
  cases hl : p.locate h with
  | error e => exact smooth_error (not_inner_of_locate hl) _
  | ok i =>
    dsimp only
    split
    · exact smooth_error not_false _
    · exact smooth_ok _ _

theorem smooth_disown (h : TextHandle) (p : TextPool) : (disown h p).Smooth Error.Inner := by
  unfold disown
  split <;> exact smooth_ok _ _

theorem smooth_writeBytes (i offset : Nat) (bs : List UInt8) (p : TextPool) :
    (writeBytes i offset bs p).Smooth Error.Inner := by
  unfold writeBytes
  split
  · next e hw =>
    refine smooth_error ?_ _
    unfold Slab.write at hw
    split at hw
    · cases hw
    · exact Except.error.inj hw ▸ not_false
  · exact smooth_ok _ _

theorem smooth_assign (h : TextHandle) (t : String) (p : TextPool) :
    (assign h t p).Smooth Error.Inner :=
  (smooth_locate h p).bind fun _ _ => (smooth_writeBytes _ _ _ _).bind fun _ _ => smooth_ok _ _

theorem smooth_append (h : TextHandle) (t : String) (p : TextPool) :
    (append h t p).Smooth Error.Inner :=
  (smooth_locate h p).bind fun _ _ => (smooth_writeBytes _ _ _ _).bind fun _ _ => smooth_ok _ _

theorem smooth_copy (target source : TextHandle) (p : TextPool) :
    (copy target source p).Smooth Error.Inner := by
  have hread : ∀ j len, (Act.read (fun p : TextPool => p.slab.read j 0 len) p).Smooth Error.Inner := by
    intro j len
    refine smooth_read fun e he => ?_
    unfold Slab.read at he
    split at he
    · cases he
    · exact Except.error.inj he ▸ not_false
  exact (smooth_locate target p).bind fun _ _ => (smooth_locate source _).bind fun _ _ =>
    (hread _ _).bind fun _ _ => (smooth_writeBytes _ _ _ _).bind fun _ _ => smooth_ok _ _

end TextPool

namespace OwnedText

open TextPool (GuardedAct Puts)

variable {g : Guarded TextPool}

theorem smooth_take (p : TextPool) : (take p).Smooth Error.Inner := by
  refine (TextPool.smooth_allocate p).bind fun h _ => ?_
  refine (TextPool.smooth_own h _).attempt_bind (fun _ _ => smooth_ok _ _) fun e he => ?_
  exact (TextPool.smooth_free h _).bind fun _ _ => smooth_error he _

theorem smooth_create (hf : g.hold = .free) : (create g).Smooth Error.Inner :=
  Guarded.smooth_writing hf (smooth_take g.value)

/-- **A text is made to the end**, or refused for want of a slot. -/
theorem smooth_make (hf : g.hold = .free) (hp : g.value.Tidy) {y : TextHandle → GuardedAct Unit}
    (hy : ∀ h p, g.value.catalog.find h = none → Puts h ⟨"", true⟩ g.value p →
      (y h { g with value := p }).Smooth Error.Inner) : (make y g).Smooth Error.Inner := by
  have hcreate := smooth_create hf
  unfold make
  refine hcreate.bind fun h hr => ?_
  obtain ⟨h', p, log, hmade, hnone, hputs⟩ | ⟨-, hmade⟩ := create_eq hf hp
  · rw [hmade] at hr ⊢
    obtain rfl := Except.ok.inj hr
    exact (hy h' p hnone hputs).map _
  · rw [hmade] at hr
    cases hr

end OwnedText

namespace TextRing

variable {s : Site} {ns : List UInt32} {es : List (TextHandle × String)} {vs : List TextHandle}

section Pool

variable {α : Type} (hf : s.pool.hold = .free) {x : Act Error TextPool α}

include hf

/-- An operation on the pool gives back no hold, and takes none. -/
theorem hold_onPool (x : Act Error TextPool α) :
    (onPool (TextPool.writing x) s).state.pool.hold = .free := by
  unfold onPool TextPool.writing
  rw [Act.zoom_apply, Guarded.writing_free _ _ _ hf]
  exact hf

theorem smooth_onPool (hx : (x s.pool.value).Smooth Error.Inner) :
    (onPool (TextPool.writing x) s).Smooth Error.Inner :=
  (Guarded.smooth_writing hf hx).zoom

end Pool

/-! ### Adding -/

section Add

variable (hh : s.handles.Holds ns vs) (hs : s.nodes.value.Sound) (ho : s.Open)

include hh hs ho

/-- **A handle is refused for want of a block**, or since its slot is not a caller's. -/
theorem smooth_push (side : Ring.Side) (h : TextHandle) : (push side h s).Smooth Error.Inner := by
  let u := (onPool (TextPool.writing (TextPool.own h)) s).state
  have hpool : u.pool.hold = .free := hold_onPool ho.pool (TextPool.own h)
  have hpush : (onHandles (Ring.push side h) u).Smooth Error.Inner :=
    Outcome.Smooth.zoom (Ring.smooth_push hh ho.nodes hs h)
  unfold push
  refine (smooth_onPool ho.pool (TextPool.smooth_own h _)).bind fun _ _ => ?_
  refine hpush.attempt_bind (fun _ _ => smooth_ok _ _) fun e he => ?_
  have hundo := smooth_onPool (s := (onHandles (Ring.push side h) u).state) hpool
    (TextPool.smooth_disown h _)
  exact hundo.attempt_bind (fun _ _ => smooth_error he _) fun _ _ => smooth_error he _

/-- **A text is refused for want of a slot, or of a block.** -/
theorem smooth_pushText (t : String) : (pushText t s).Smooth Error.Inner := by
  have hstore : (store t s.pool.value).Smooth Error.Inner :=
    (TextPool.smooth_allocate _).bind fun h _ =>
      (TextPool.smooth_assign h t _).bind fun _ _ => smooth_ok _ _
  unfold pushText
  refine (smooth_onPool (x := store t) ho.pool hstore).bind fun h _ => ?_
  let u := (onPool (TextPool.writing (store t)) s).state
  have hpool : u.pool.hold = .free := hold_onPool ho.pool (store t)
  have hpush : (push .back h u).Smooth Error.Inner :=
    smooth_push (s := u) hh hs ⟨ho.nodes, hpool⟩ .back h
  refine hpush.attempt_bind (fun _ _ => smooth_ok _ _) fun e he => ?_
  obtain ⟨-, -, -, -, hhold, -⟩ := keeps_push .back h u hs ns vs hh
  have hundo := smooth_onPool (hhold.trans hpool) (TextPool.smooth_free h _)
  exact hundo.attempt_bind (fun _ _ => smooth_error he _) fun _ _ => smooth_error he _

end Add

/-! ### Reading, removing and giving up -/

namespace Site.Shows

variable (hs : s.Shows ns es) (ho : s.Open)

include hs ho

theorem smooth_text (index : Nat) : (TextRing.text index s).Smooth Error.Inner := by
  rw [hs.text_eq ho]
  cases es[index]? with
  | some e => exact smooth_ok _ _
  | none => exact smooth_error not_false _

theorem smooth_position (t : String) : (Act.read (position t) s).Smooth Error.Inner := by
  unfold Act.read
  rw [hs.position_eq ho]
  exact smooth_ok _ _

theorem smooth_toList : (Act.read toList s).Smooth Error.Inner := by
  unfold Act.read
  rw [toList_eq hs.holds ho]
  exact smooth_ok _ _

theorem smooth_describe : (Act.read TextRing.describe s).Smooth Error.Inner := by
  unfold Act.read TextRing.describe shownTexts
  rw [if_pos ho.admits.2, toList_eq hs.holds ho]
  exact smooth_ok _ _

theorem smooth_describeLong : (Act.read describeLong s).Smooth Error.Inner := by
  obtain ⟨t, ht⟩ : ∃ t, describeLong s = .ok t := by
    unfold describeLong shownTexts
    rw [if_pos ho.admits.2, toList_eq hs.holds ho]
    cases es with
    | nil => exact ⟨_, rfl⟩
    | cons e es => exact ⟨_, rfl⟩
  unfold Act.read
  rw [ht]
  exact smooth_ok _ _

theorem smooth_pop (side : Ring.Side) : (pop side s).Smooth Error.Inner := by
  obtain ⟨u, ns', hpop, -⟩ := hs.pop_ok ho side
  rw [hpop]
  exact smooth_ok _ _

theorem smooth_clear : (clear s).Smooth Error.Inner := by
  obtain ⟨u, ns', hclear, -⟩ := hs.clear_ok ho
  rw [hclear]
  exact smooth_ok _ _

theorem smooth_drop : (drop s).Smooth Error.Inner := by
  obtain ⟨u, hdrop⟩ := hs.drop_ok ho
  rw [hdrop]
  exact smooth_ok _ _

theorem smooth_intoTexts : (intoTexts s).Smooth Error.Inner := by
  obtain ⟨u, hinto⟩ := hs.intoTexts_eq ho
  rw [hinto]
  exact smooth_ok _ _

end Site.Shows

end TextRing

end FixedArena
