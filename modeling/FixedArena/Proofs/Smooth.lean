import FixedArena.Proofs.Acts

/-!
Outcomes in which nothing is broken inside. Events of level error, and the loss of a slot, tell that an
arena or a container is not what it should be; so do refusals of a handle that a container keeps for
itself, and of an arena that is held. An outcome is smooth if it has none of them.

Main facts:
* `Outcome.Smooth`: nothing alarming was logged, and no refusal is of a given kind;
* `Outcome.Smooth.bind`, `Outcome.Smooth.attempt_bind`: a sequence is smooth if its parts are;
* `Act.Hushed`: the operations that never log an alarm.
-/

namespace FixedArena

/-- The event tells that something is broken, or held. -/
def Event.isAlarm : Event → Bool
  | .popFailed _ | .nodesLeaked .. | .textPopRefused .. | .textsUnreadable _ | .textAccessFailed ..
  | .textLeaked .. | .slotLost _ => true
  | _ => false

/-- **Alarms are the events of level error**, and the loss of a slot. -/
theorem Event.isAlarm_iff {e : Event} :
    e.isAlarm = true ↔ e.level = .error ∨ ∃ h, e = .slotLost h := by
  cases e <;> simp [isAlarm, level]

/-- The refusal is about a handle that is not the caller's, about bytes that are no text, or about an
arena that is held. -/
def Error.Inner : Error → Prop
  | .foreign _ | .stale .. | .notText _ | .busy _ => True
  | _ => False

theorem Error.not_inner_of_isFault {e : Error} (h : e.isFault = true) : ¬e.Inner := by
  cases e with
  | pastEnd stop size => exact id
  | _ => cases h

/-- **Nothing alarming was logged, and no refusal is of a given kind.** -/
structure Outcome.Smooth {ε σ α : Type} (inner : ε → Prop) (out : Outcome ε σ α) : Prop where
  events : ∀ e ∈ out.events, e.isAlarm = false
  result : ∀ e, out.result = .error e → ¬inner e

namespace Act

open Outcome (Smooth)

variable {ε σ α : Type} {inner : ε → Prop} {s : σ} {log : List Event} {e : ε}

theorem notAlarm_nil : ∀ e ∈ ([] : List Event), e.isAlarm = false :=
  fun _ he => absurd he List.not_mem_nil

theorem smooth_ok_log {a : α} (hlog : ∀ e ∈ log, e.isAlarm = false) :
    Smooth inner (⟨.ok a, s, log⟩ : Outcome ε σ α) :=
  ⟨hlog, nofun⟩

theorem smooth_error_log (hlog : ∀ e ∈ log, e.isAlarm = false) (he : ¬inner e) :
    Smooth inner (⟨.error e, s, log⟩ : Outcome ε σ α) :=
  ⟨hlog, fun _ h => Except.error.inj h ▸ he⟩

theorem smooth_ok (a : α) (s : σ) : Smooth inner (⟨.ok a, s, []⟩ : Outcome ε σ α) :=
  smooth_ok_log notAlarm_nil

theorem smooth_error (he : ¬inner e) (s : σ) : Smooth inner (⟨.error e, s, []⟩ : Outcome ε σ α) :=
  smooth_error_log notAlarm_nil he

theorem smooth_read {f : σ → Except ε α} (h : ∀ e, f s = .error e → ¬inner e) :
    Smooth inner (read f s) :=
  ⟨notAlarm_nil, h⟩

end Act

namespace Outcome.Smooth

open Act

variable {ε ε' σ τ α β : Type} {inner : ε → Prop} {s : σ} {x : Act ε σ α}

theorem imp {inner' : ε → Prop} (hx : Smooth inner (x s)) (h : ∀ e, inner' e → inner e) :
    Smooth inner' (x s) :=
  ⟨hx.events, fun e he hin => hx.result e he (h e hin)⟩

/-- **A sequence is smooth if its parts are.** -/
theorem bind {f : α → Act ε σ β} (hx : Smooth inner (x s))
    (hf : ∀ a, (x s).result = .ok a → Smooth inner (f a (x s).state)) :
    Smooth inner ((x >>= f) s) := by
  cases hr : (x s).result with
  | ok a =>
    rw [bind_of_ok hr]
    refine ⟨fun e he => ?_, (hf a hr).result⟩
    rcases List.mem_append.1 he with he | he
    · exact hx.events e he
    · exact (hf a hr).events e he
  | error e =>
    rw [bind_of_error hr]
    exact ⟨hx.events, fun _ h => Except.error.inj h ▸ hx.result e hr⟩

theorem map (hx : Smooth inner (x s)) (f : α → β) : Smooth inner ((f <$> x) s) := by
  rw [map_apply]
  refine ⟨hx.events, fun e he => ?_⟩
  cases hr : (x s).result with
  | ok a =>
    rw [hr] at he
    cases he
  | error e' =>
    rw [hr] at he
    exact Except.error.inj he ▸ hx.result e' hr

theorem mapError {f : ε → ε'} {inner' : ε' → Prop} (hx : Smooth inner (x s))
    (h : ∀ e, inner' (f e) → inner e) : Smooth inner' (x.mapError f s) := by
  rw [mapError_apply]
  refine ⟨hx.events, fun e he => ?_⟩
  cases hr : (x s).result with
  | ok a =>
    rw [hr] at he
    cases he
  | error e' =>
    rw [hr] at he
    obtain rfl := Except.error.inj he
    exact fun hin => hx.result e' hr (h e' hin)

theorem zoom {part : τ → σ} {put : σ → τ → τ} {t : τ} (hx : Smooth inner (x (part t))) :
    Smooth inner (zoom part put x t) :=
  ⟨hx.events, hx.result⟩

theorem afterwards {f : σ → σ} (hx : Smooth inner (x s)) : Smooth inner (Act.afterwards f x s) :=
  ⟨hx.events, hx.result⟩

/-- An attempt goes on with what was answered, or with a refusal that is not of the kind. -/
theorem attempt_bind {inner : Error → Prop} {x : Act Error σ α} {f : Except Error α → Act Error σ β}
    (hx : Smooth inner (x s))
    (hok : ∀ a, (x s).result = .ok a → Smooth inner (f (.ok a) (x s).state))
    (herr : ∀ e, ¬inner e → Smooth inner (f (.error e) (x s).state)) :
    Smooth inner ((attempt x >>= f) s) := by
  have hstate := state_attempt x s
  refine bind ⟨?_, fun e he => ?_⟩ fun r hr => ?_
  · cases hr : (x s).result with
    | ok a =>
      rw [attempt_ok hr]
      exact hx.events
    | error e =>
      cases he : e.isFault with
      | false =>
        rw [attempt_error hr he]
        exact hx.events
      | true =>
        rw [attempt_fault hr he]
        exact hx.events
  · cases hr : (x s).result with
    | ok a =>
      rw [attempt_ok hr] at he
      cases he
    | error e' =>
      cases hfault : e'.isFault with
      | false =>
        rw [attempt_error hr hfault] at he
        cases he
      | true =>
        rw [attempt_fault hr hfault] at he
        exact Except.error.inj he ▸ hx.result e' hr
  · rw [hstate]
    cases hx' : (x s).result with
    | ok a =>
      rw [attempt_ok hx'] at hr
      exact Except.ok.inj hr ▸ hok a hx'
    | error e =>
      cases hfault : e.isFault with
      | false =>
        rw [attempt_error hx' hfault] at hr
        exact Except.ok.inj hr ▸ herr e (hx.result e hx')
      | true =>
        rw [attempt_fault hx' hfault] at hr
        cases hr

end Outcome.Smooth

/-! ### What never logs an alarm -/

namespace Act

variable {ε ε' σ α β : Type} {x : Act ε σ α}

/-- The operation never logs an alarm, in whatever state it starts. -/
def Hushed (x : Act ε σ α) : Prop := ∀ s, (x s).Smooth fun _ => False

theorem hushed_pure (a : α) : Hushed (pure a : Act ε σ α) := smooth_ok a

theorem hushed_fail (e : ε) : Hushed (fail e : Act ε σ α) := smooth_error not_false

theorem hushed_read (f : σ → Except ε α) : Hushed (read f) := fun _ => smooth_read fun _ _ => not_false

theorem hushed_get : Hushed (get : Act ε σ σ) := fun s => smooth_ok s s

theorem hushed_modify (f : σ → σ) : Hushed (modify f : Act ε σ Unit) := fun s => smooth_ok () (f s)

theorem hushed_log {e : Event} (he : e.isAlarm = false) : Hushed (log e : Act ε σ Unit) :=
  fun _ => smooth_ok_log fun _ h => List.mem_singleton.1 h ▸ he

theorem Hushed.bind (hx : Hushed x) {f : α → Act ε σ β} (hf : ∀ a, Hushed (f a)) :
    Hushed (x >>= f) :=
  fun s => (hx s).bind fun a _ => hf a _

theorem Hushed.map (hx : Hushed x) (f : α → β) : Hushed (f <$> x) := fun s => (hx s).map f

theorem Hushed.mapError (hx : Hushed x) (f : ε → ε') : Hushed (x.mapError f) :=
  fun s => (hx s).mapError fun _ h => h

theorem Hushed.onFailure (hx : Hushed x) (f : σ → σ) : Hushed (Act.onFailure f x) := by
  intro s
  unfold Act.onFailure
  dsimp only
  split
  · exact hx s
  · exact ⟨(hx s).events, fun _ _ => not_false⟩

end Act

namespace Guarded

open Outcome (Smooth)

variable {ε α β : Type} {inner : ε → Prop} {busy : ε} {g : Guarded α}

theorem smooth_writing {x : Act ε α β} (hf : g.hold = .free) (hx : Smooth inner (x g.value)) :
    Smooth inner (writing busy x g) := by
  rw [writing_free busy x g hf]
  exact ⟨hx.events, hx.result⟩

theorem hushed_reading (busy : ε) (f : α → Except ε β) : Act.Hushed (reading busy f) :=
  Act.hushed_read _

theorem hushed_writing {x : Act ε α β} (hx : Act.Hushed x) (busy : ε) :
    Act.Hushed (writing busy x) := by
  intro g
  by_cases hf : g.hold = .free
  · exact smooth_writing hf (hx g.value)
  · rw [writing_busy busy x g hf]
    exact Act.smooth_error not_false g

end Guarded

end FixedArena
