import FixedArena.Proofs.Text.Posting
import FixedArena.Proofs.Text.Ring
import Mathlib.Order.RelClasses

/-!
What holds across calls to a pool, holds across all that is done with the pool. Texts and text rings
reach their pools by calls only; a relation that every call keeps, they keep.

Main facts:
* `TextPool.AcrossCalls`, `TextPool.AcrossEdits`: the relation holds across every call, or across every
  call that takes no slot;
* `OwnedText.within_make`, `OwnedText.within_assign`, `OwnedText.within_drop`: so it does across the
  life of a text;
* `TextRing.within_push`, `TextRing.within_pushText`, `TextRing.within_pop`, `TextRing.within_drop`:
  and across that of a text ring;
* `TextPool.Lasting`, `TextPool.Outlasts`: properties that new pools have, and that every call keeps, or
  every call that takes no slot.
-/

namespace FixedArena

open Act

namespace Guarded

variable {ε α β : Type} {Q : Guarded α → Guarded α → Prop} {x : Act ε α β}

/-- A writer is let in if the value is free, so that only free values matter. -/
theorem within_writing_of_free [IsPreorder (Guarded α) Q]
    (hx : Within (Order.Preimage (fun v => { value := v }) Q) x) (busy : ε) :
    Within Q (writing busy x) := by
  rintro ⟨v, hold⟩
  by_cases hf : hold = .free
  · subst hf
    rw [writing_free busy x _ rfl]
    exact hx v
  · rw [writing_busy busy x _ hf]
    exact refl_of Q _

theorem within_of_writing {busy : ε} (h : Within Q (writing busy x)) :
    Within (Order.Preimage (fun v => { value := v }) Q) x := by
  intro v
  have hv := h { value := v }
  rwa [writing_free busy x _ rfl] at hv

/-- **The value keeps a property, and whoever holds it goes on holding it.** -/
def Keeping (P : α → Prop) (g g' : Guarded α) : Prop := (P g.value → P g'.value) ∧ g'.hold = g.hold

instance (P : α → Prop) : IsPreorder (Guarded α) (Keeping P) where
  refl _ := ⟨id, rfl⟩
  trans _ _ _ h₁ h₂ := ⟨fun h => h₂.1 (h₁.1 h), h₂.2.trans h₁.2⟩

end Guarded

/-! ### Calls -/

namespace TextPool

variable {α : Type} {Q : Guarded TextPool → Guarded TextPool → Prop}

/-- **The relation holds across every call to a pool.** -/
def AcrossCalls (Q : Guarded TextPool → Guarded TextPool → Prop) : Prop :=
  ∀ c : Call, Within Q (writing c.act)

/-- **The relation holds across every call that takes no slot.** -/
def AcrossEdits (Q : Guarded TextPool → Guarded TextPool → Prop) : Prop :=
  ∀ c : Call, c ≠ .allocate → Within Q (writing c.act)

section Calls

variable {f : α → Answer} {x : Act Error TextPool α} {c : Call}

/-- Across a call to a pool that is free. -/
theorem within_of_call (hQ : Within Q (writing c.act)) (h : c.act = f <$> x) :
    Within (Order.Preimage (fun p => { value := p }) Q) x := by
  intro p
  have hcall := Guarded.within_of_writing hQ p
  rwa [h, map_apply] at hcall

theorem AcrossCalls.edits (hQ : AcrossCalls Q) : AcrossEdits Q := fun c _ => hQ c

theorem AcrossEdits.of_call (hQ : AcrossEdits Q) (hc : c ≠ .allocate) (h : c.act = f <$> x) :
    Within (Order.Preimage (fun p => { value := p }) Q) x :=
  within_of_call (hQ c hc) h

theorem AcrossEdits.writing [IsPreorder (Guarded TextPool) Q] (hQ : AcrossEdits Q)
    (hc : c ≠ .allocate) (h : c.act = f <$> x) : Within Q (writing x) :=
  Guarded.within_writing_of_free (hQ.of_call hc h) busy

end Calls

/-- **A property of pools that lasts**: new pools have it, and every call keeps it. -/
structure Lasting (P : TextPool → Prop) : Prop where
  /-- Identity zero belongs to no pool. -/
  fresh : ∀ id slots maxLen, id ≠ 0 → 0 < maxLen → slots < 65535 → P (.fresh id slots maxLen)
  call : ∀ (c : Call) p, P p → P (c.act p).state

/-- **A property of pools that lasts while no slot is taken**, and also then if `takes`. -/
structure Outlasts (takes : Prop) (P : TextPool → Prop) : Prop where
  fresh : ∀ id slots maxLen, id ≠ 0 → 0 < maxLen → slots < 65535 → P (.fresh id slots maxLen)
  call : ∀ (c : Call) p, (c = .allocate → takes) → P p → P (c.act p).state

theorem Lasting.outlasts {P : TextPool → Prop} (hP : Lasting P) : Outlasts True P :=
  ⟨hP.fresh, fun c p _ => hP.call c p⟩

namespace Outlasts

variable {takes : Prop} {P : TextPool → Prop} (hP : Outlasts takes P)

include hP

theorem writing {c : Call} (hc : c = .allocate → takes) :
    Within (Guarded.Keeping P) (writing c.act) :=
  Guarded.within_writing (Q := Preserving P) (fun p => hP.call c p hc) busy

theorem acrossEdits : AcrossEdits (Guarded.Keeping P) :=
  fun _ hc => hP.writing fun h => absurd h hc

theorem acrossCalls (ht : takes) : AcrossCalls (Guarded.Keeping P) := fun _ => hP.writing fun _ => ht

theorem within {f : α → Answer} {x : Act Error TextPool α} {c : Call} (hc : c = .allocate → takes)
    (h : c.act = f <$> x) : Within (Preserving P) x :=
  fun p => (within_of_call (hP.writing hc) h p).1

end Outlasts

theorem lasting_tidy : Lasting Tidy where
  fresh id _ _ _ _ hslots := tidy_fresh id hslots
  call c _ hp := (hp.comesTo c).tidy

theorem id_spec (m : Catalog) (c : Call) : (c.spec m).2.id = m.id := by
  fun_cases Call.spec m c <;> rfl

/-- Pools keep their identity. -/
theorem lasting_identified : Lasting fun p => p.Tidy ∧ p.id ≠ 0 where
  fresh id _ _ hid _ hslots := ⟨tidy_fresh id hslots, hid⟩
  call c p := fun ⟨hp, hid⟩ => by
    have hcomes := hp.comesTo c
    have hsame : (c.act p).state.id = p.id :=
      (congrArg Catalog.id hcomes.catalog).trans (id_spec p.catalog c)
    exact ⟨hcomes.tidy, hsame ▸ hid⟩

end TextPool

/-! ### Texts -/

namespace OwnedText

open TextPool (AcrossCalls AcrossEdits GuardedAct within_of_call)

variable {Q : Guarded TextPool → Guarded TextPool → Prop} [IsPreorder (Guarded TextPool) Q]

theorem within_create (hQ : AcrossCalls Q) : Within Q create := by
  refine Guarded.within_writing_of_free (x := take)
    ((within_of_call (hQ .allocate) rfl).bind fun h => ?_) TextPool.busy
  refine (within_of_call (hQ (.own h)) rfl).attempt.bind fun owned => ?_
  match owned with
  | .ok () => exact within_pure _
  | .error e => exact (within_of_call (hQ (.free h)) rfl).bind fun _ => within_fail _

theorem within_make (hQ : AcrossCalls Q) {y : TextHandle → GuardedAct Unit}
    (hy : ∀ h, Within Q (y h)) : Within Q (make y) :=
  (within_create hQ).bind fun h => (hy h).map _

theorem within_drop (hQ : AcrossEdits Q) (h : TextHandle) : Within Q (drop h) := by
  refine (hQ.writing (c := .reclaim h) nofun rfl).attempt.bind fun out => ?_
  match out with
  | .ok _ => exact within_pure _
  | .error e => exact within_log _

theorem within_assign (hQ : AcrossEdits Q) (h : TextHandle) (t : String) : Within Q (assign h t) :=
  (within_reporting h (hQ.writing (c := .assign h t) nofun rfl)).bind fun _ => within_pure _

theorem within_append (hQ : AcrossEdits Q) (h : TextHandle) (t : String) : Within Q (append h t) :=
  (within_reporting h (hQ.writing (c := .append h t) nofun rfl)).bind fun _ => within_pure _

theorem within_copy (hQ : AcrossEdits Q) (h source : TextHandle) : Within Q (copy h source) :=
  (within_reporting h (hQ.writing (c := .copy h source) nofun rfl)).bind fun _ => within_pure _

end OwnedText

/-! ### Text rings -/

namespace TextRing

open TextPool (AcrossCalls AcrossEdits within_of_call)

variable {α : Type} {A : Ring.Site TextHandle → Ring.Site TextHandle → Prop}
  {Q : Guarded TextPool → Guarded TextPool → Prop}

/-- One relation between the rings of handles, and one between the pools. -/
def Site.Each (A : Ring.Site TextHandle → Ring.Site TextHandle → Prop)
    (Q : Guarded TextPool → Guarded TextPool → Prop) (s t : Site) : Prop :=
  A s.handles t.handles ∧ Q s.pool t.pool

variable [IsPreorder (Ring.Site TextHandle) A] [IsPreorder (Guarded TextPool) Q]

instance : IsPreorder Site (Site.Each A Q) where
  refl s := ⟨refl_of A s.handles, refl_of Q s.pool⟩
  trans _ _ _ h₁ h₂ := ⟨trans_of A h₁.1 h₂.1, trans_of Q h₁.2 h₂.2⟩

omit [IsPreorder (Ring.Site TextHandle) A] in
theorem within_onHandles {x : Act Error (Ring.Site TextHandle) α} (hx : Within A x) :
    Within (Site.Each A Q) (onHandles x) :=
  within_zoom hx fun s _ h => ⟨h, refl_of Q s.pool⟩

omit [IsPreorder (Guarded TextPool) Q] in
theorem within_onPool {x : TextPool.GuardedAct α} (hx : Within Q x) :
    Within (Site.Each A Q) (onPool x) :=
  within_zoom hx fun s _ h => ⟨refl_of A s.handles, h⟩

/-- **What every call to the pool and every link keeps, the adding of a handle keeps.** -/
theorem within_push (hQ : AcrossEdits Q) (hA : ∀ side h, Within A (Ring.push side h))
    (side : Ring.Side) (h : TextHandle) : Within (Site.Each A Q) (push side h) := by
  refine (within_onPool (hQ.writing (c := .own h) nofun rfl)).bind fun _ =>
    (within_onHandles (hA side h)).attempt.bind fun linked => ?_
  match linked with
  | .ok () => exact within_pure _
  | .error e =>
    exact (within_onPool (hQ.writing (c := .disown h) nofun rfl)).attempt.bind fun _ => within_fail _

theorem within_pushText (hQ : AcrossCalls Q) (hA : ∀ side h, Within A (Ring.push side h))
    (t : String) : Within (Site.Each A Q) (pushText t) := by
  have hstore := (within_of_call (hQ .allocate) rfl).bind fun h =>
    (within_of_call (hQ (.assign h t)) rfl).bind fun _ => within_pure (ε := Error) h
  refine (within_onPool (Guarded.within_writing_of_free hstore TextPool.busy)).bind fun h =>
    (within_push hQ.edits hA .back h).attempt.bind fun pushed => ?_
  match pushed with
  | .ok () => exact within_pure _
  | .error e =>
    exact (within_onPool (hQ.edits.writing (c := .free h) nofun rfl)).attempt.bind fun _ =>
      within_fail _

theorem within_pop (hQ : AcrossEdits Q) (hA : ∀ side, Within A (Ring.pop side)) (side : Ring.Side) :
    Within (Site.Each A Q) (pop side) := by
  refine within_get.bind fun s => ?_
  split
  · refine (within_onHandles (hA side)).bind fun h? => ?_
    cases h? with
    | some h =>
      exact (within_onPool (hQ.writing (c := .reclaim h) nofun rfl)).bind fun _ => within_pure _
    | none => exact within_pure _
  · exact (within_log _).bind fun _ => within_pure _

theorem within_drop (hQ : AcrossEdits Q) (hA : ∀ side, Within A (Ring.pop side))
    (hdrop : Within A Ring.drop) : Within (Site.Each A Q) drop :=
  (within_clear (within_pop hQ hA .front)).bind fun _ => within_onHandles hdrop

end TextRing

end FixedArena
