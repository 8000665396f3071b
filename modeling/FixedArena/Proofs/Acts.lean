import FixedArena.Guarded
import Mathlib.Order.Defs.Unbundled

/-!
Operations in sequence: what a sequence of operations does once the first of them is known to
succeed, and what every operation keeps if its steps keep it.

Main facts:
* `bind_of_ok`, `bind_of_error`, `map_apply`: the outcome of a sequence; sequences obey the laws of
  monads;
* `Within.bind`: a relation between states that composes holds across a sequence if it holds across
  its steps;
* `Still`: the operations that change nothing.
-/

namespace FixedArena

namespace Act

variable {ε ε' σ τ α β : Type}

/-! ### Outcomes of sequences -/

theorem bind_of_ok {x : Act ε σ α} {f : α → Act ε σ β} {s : σ} {a : α}
    (h : (x s).result = .ok a) :
    (x >>= f) s = ⟨(f a (x s).state).result, (f a (x s).state).state,
      (x s).events ++ (f a (x s).state).events⟩ :=
  bind_ok (by rw [← h])

theorem bind_of_error {x : Act ε σ α} {f : α → Act ε σ β} {s : σ} {e : ε}
    (h : (x s).result = .error e) : (x >>= f) s = ⟨.error e, (x s).state, (x s).events⟩ :=
  bind_error (by rw [← h])

theorem map_apply (f : α → β) (x : Act ε σ α) (s : σ) :
    (f <$> x) s = ⟨(x s).result.map f, (x s).state, (x s).events⟩ := by
  change (x >>= fun a => pure (f a)) s = _
  cases hr : (x s).result with
  | ok a => simp [bind_of_ok hr, Except.map]
  | error e => simp [bind_of_error hr, Except.map]

/-- Reading first and going on with what was read. -/
theorem read_bind_ok {f : σ → Except ε α} {g : α → Act ε σ β} {s : σ} {a : α} (h : f s = .ok a) :
    (read f >>= g) s = g a s :=
  bind_of_ok (x := read f) (f := g) (s := s) h

theorem read_bind (f : σ → Except ε α) (g : α → Act ε σ β) (s : σ) :
    (read f >>= g) s = match f s with
      | .ok a => g a s
      | .error e => ⟨.error e, s, []⟩ := by
  cases h : f s with
  | ok a => exact read_bind_ok h
  | error e => exact bind_error (by rw [read_apply, h])

theorem read_bind_error {f : σ → Except ε α} {g : α → Act ε σ β} {s : σ} {e : ε}
    (h : f s = .error e) : (read f >>= g) s = ⟨.error e, s, []⟩ :=
  bind_error (by rw [read_apply, h])

theorem attempt_of_ok {x : Act Error σ α} {s s' : σ} {a : α} {log : List Event}
    (h : x s = ⟨.ok a, s', log⟩) : attempt x s = ⟨.ok (.ok a), s', log⟩ := by
  rw [attempt_ok (congrArg Outcome.result h), h]

theorem attempt_of_error {x : Act Error σ α} {s s' : σ} {e : Error} {log : List Event}
    (h : x s = ⟨.error e, s', log⟩) (he : e.isFault = false) :
    attempt x s = ⟨.ok (.error e), s', log⟩ := by
  rw [attempt_error (congrArg Outcome.result h) he, h]

theorem state_attempt (x : Act Error σ α) (s : σ) : (attempt x s).state = (x s).state := by
  cases hr : (x s).result with
  | ok a => rw [attempt_ok hr]
  | error e =>
    cases he : e.isFault with
    | false => rw [attempt_error hr he]
    | true => rw [attempt_fault hr he]

/-- What comes last and changes nothing need not be looked at. -/
theorem state_bind {x : Act ε σ α} {f : α → Act ε σ β} (hf : ∀ a s, (f a s).state = s) (s : σ) :
    ((x >>= f) s).state = (x s).state := by
  cases hr : (x s).result with
  | ok a => rw [bind_of_ok hr, hf]
  | error e => rw [bind_of_error hr]

theorem get_bind (g : σ → Act ε σ β) (s : σ) : (get >>= g) s = g s s :=
  bind_ok (get_apply s)

theorem bind_bind (x : Act ε σ α) (f : α → Act ε σ β) {γ : Type} (g : β → Act ε σ γ) :
    x >>= f >>= g = x >>= fun a => f a >>= g := by
  funext s
  match hx : x s with
  | ⟨.error e, s', log⟩ => rw [bind_error (bind_error hx), bind_error hx]
  | ⟨.ok a, s', log⟩ =>
    rw [bind_ok hx]
    match hf : f a s' with
    | ⟨.error e, s'', log'⟩ => rw [bind_error hf, bind_error ((bind_ok hx).trans (by rw [hf]))]
    | ⟨.ok b, s'', log'⟩ =>
      rw [bind_ok hf, bind_ok ((bind_ok hx).trans (by rw [hf]))]
      simp

theorem mapError_bind (g : ε → ε') (x : Act ε σ α) (f : α → Act ε σ β) :
    (x >>= f).mapError g = x.mapError g >>= fun a => (f a).mapError g := by
  funext s
  cases hr : (x s).result with
  | ok a =>
    have hx : ((x.mapError g) s).result = .ok a := by rw [mapError_apply, hr]; rfl
    rw [mapError_apply, bind_of_ok hr, bind_of_ok hx]
    rfl
  | error e =>
    have hx : ((x.mapError g) s).result = .error (g e) := by rw [mapError_apply, hr]; rfl
    rw [mapError_apply, bind_of_error hr, bind_of_error hx]
    rfl

theorem mapError_map (g : ε → ε') (x : Act ε σ α) (f : α → β) :
    (f <$> x).mapError g = f <$> x.mapError g := by
  funext s
  rw [mapError_apply, map_apply, map_apply, mapError_apply]
  cases (x s).result <;> rfl

instance : LawfulMonad (Act ε σ) :=
  LawfulMonad.mk' _
    (fun x => funext fun s => by
      rw [map_apply]
      match x s with
      | ⟨.ok a, _, _⟩ => rfl
      | ⟨.error e, _, _⟩ => rfl)
    (fun a f => funext fun s => bind_ok (pure_apply a s))
    fun x f g => bind_bind x f g

/-! ### What operations keep -/

/-- However the operation ends, the state it reaches is related to the state it started in. -/
def Within (Q : σ → σ → Prop) (x : Act ε σ α) : Prop := ∀ s, Q s (x s).state

section Within

variable {Q : σ → σ → Prop} {x : Act ε σ α}

theorem Within.imp {Q' : σ → σ → Prop} (hx : Within Q x) (h : ∀ s s', Q s s' → Q' s s') :
    Within Q' x :=
  fun s => h _ _ (hx s)

theorem within_modify {f : σ → σ} (h : ∀ s, Q s (f s)) : Within Q (modify f : Act ε σ Unit) := h

theorem Within.map (hx : Within Q x) (f : α → β) : Within Q (f <$> x) := by
  intro s
  rw [map_apply]
  exact hx s

theorem Within.mapError (hx : Within Q x) (f : ε → ε') : Within Q (x.mapError f) := hx

theorem Within.settled (hx : Within Q x) : Within Q (Act.settled x) := hx

theorem Within.attempt {x : Act Error σ α} (hx : Within Q x) : Within Q (Act.attempt x) := by
  intro s
  rw [state_attempt]
  exact hx s

theorem within_zoom {R : τ → τ → Prop} {part : σ → τ} {put : τ → σ → σ} {x : Act ε τ α}
    (hx : Within R x) (h : ∀ s t, R (part s) t → Q s (put t s)) : Within Q (zoom part put x) :=
  fun s => h s _ (hx (part s))

variable [IsPreorder σ Q]

theorem within_pure (a : α) : Within Q (pure a : Act ε σ α) := fun s => refl_of Q s

theorem within_fail (e : ε) : Within Q (fail e : Act ε σ α) := fun s => refl_of Q s

theorem within_get : Within Q (get : Act ε σ σ) := fun s => refl_of Q s

theorem within_log (e : Event) : Within Q (log e : Act ε σ Unit) := fun s => refl_of Q s

theorem within_read (f : σ → Except ε α) : Within Q (read f) := fun s => refl_of Q s

theorem Within.bind (hx : Within Q x) {f : α → Act ε σ β} (hf : ∀ a, Within Q (f a)) :
    Within Q (x >>= f) := by
  intro s
  cases hr : (x s).result with
  | ok a =>
    rw [bind_of_ok hr]
    exact trans_of Q (hx s) (hf a _)
  | error e =>
    rw [bind_of_error hr]
    exact hx s

theorem Within.afterwards (hx : Within Q x) {f : σ → σ} (h : ∀ s, Q s (f s)) :
    Within Q (Act.afterwards f x) :=
  fun s => trans_of Q (hx s) (h _)

/-- If the property holds before, then it holds after. -/
def Preserving (P : σ → Prop) (s t : σ) : Prop := P s → P t

instance (P : σ → Prop) : IsPreorder σ (Preserving P) where
  refl _ := id
  trans _ _ _ hst htu h := htu (hst h)

/-- The operation changes nothing, however it ends. -/
abbrev Still (x : Act ε σ α) : Prop := Within Eq x

/-- What changes nothing keeps everything. -/
theorem Still.within (hx : Still x) : Within Q x := by
  intro s
  rw [← hx s]
  exact refl_of Q s

end Within

end Act

namespace Guarded

variable {ε α β : Type} {Q : α → α → Prop}

/-- A writer's access changes the value as the operation does, and no hold. -/
theorem within_writing {x : Act ε α β} [IsPreorder α Q] (hx : Act.Within Q x) (busy : ε) :
    Act.Within (fun g g' : Guarded α => Q g.value g'.value ∧ g'.hold = g.hold)
      (writing busy x) := by
  intro g
  by_cases h : g.hold = .free
  · rw [writing_free busy x g h]
    exact ⟨hx g.value, rfl⟩
  · rw [writing_busy busy x g h]
    exact ⟨refl_of Q _, rfl⟩

theorem hold_of_admits {h : Hold} (ha : h.admits .exclusive = true) : h = .free := by
  unfold Hold.admits Hold.take? at ha
  split at ha <;> simp_all

end Guarded

end FixedArena
