import FixedArena.Proofs.Acts

/-!
What an operation changes, told together with what it logs. A relation that says how one state came from
another while so many events were logged holds of every sequence of operations, if it holds of each.

Main facts:
* `IsTrail`: relations that can be told in steps;
* `Along`: such a relation holds of an operation, however it ends;
* `Along.bind`, `Along.attempt`, `along_zoom`: one rule for each way to put operations together.
-/

namespace FixedArena

/-- **A relation between two states and the events logged on the way**, which can be told in steps. -/
class IsTrail {σ : Type} (Q : σ → List Event → σ → Prop) : Prop where
  nil : ∀ s, Q s [] s
  append : ∀ {s t u l l'}, Q s l t → Q t l' u → Q s (l ++ l') u

namespace Act

variable {ε ε' σ τ α β : Type}

/-- **However the operation ends**, the relation holds of where it started, of what it logged and of
where it got. -/
def Along (Q : σ → List Event → σ → Prop) (x : Act ε σ α) : Prop := ∀ s, Q s (x s).events (x s).state

variable {Q : σ → List Event → σ → Prop} {x : Act ε σ α}

theorem Along.imp {Q' : σ → List Event → σ → Prop} (hx : Along Q x)
    (h : ∀ s l t, Q s l t → Q' s l t) : Along Q' x :=
  fun s => h _ _ _ (hx s)

theorem Along.map (hx : Along Q x) (f : α → β) : Along Q (f <$> x) := by
  intro s
  rw [map_apply]
  exact hx s

theorem Along.mapError (hx : Along Q x) (f : ε → ε') : Along Q (x.mapError f) := hx

theorem Along.settled (hx : Along Q x) : Along Q (Act.settled x) := hx

theorem Along.attempt {x : Act Error σ α} (hx : Along Q x) : Along Q (Act.attempt x) := by
  intro s
  cases hr : (x s).result with
  | ok a => rw [attempt_ok hr]; exact hx s
  | error e =>
    cases he : e.isFault with
    | false => rw [attempt_error hr he]; exact hx s
    | true => rw [attempt_fault hr he]; exact hx s

theorem along_log {e : Event} (h : ∀ s, Q s [e] s) : Along Q (log e : Act ε σ Unit) := h

theorem along_zoom {R : τ → List Event → τ → Prop} {part : σ → τ} {put : τ → σ → σ} {x : Act ε τ α}
    (hx : Along R x) (h : ∀ s l t, R (part s) l t → Q s l (put t s)) : Along Q (zoom part put x) :=
  fun s => h s _ _ (hx (part s))

variable [IsTrail Q]

theorem along_pure (a : α) : Along Q (pure a : Act ε σ α) := IsTrail.nil

theorem along_fail (e : ε) : Along Q (fail e : Act ε σ α) := IsTrail.nil

theorem along_get : Along Q (get : Act ε σ σ) := IsTrail.nil

theorem along_read (f : σ → Except ε α) : Along Q (read f) := IsTrail.nil

/-- Reading first, from a given state. -/
theorem along_read_bind_at {f : σ → Except ε α} {g : α → Act ε σ β} {s : σ}
    (h : ∀ a, f s = .ok a → Q s (g a s).events (g a s).state) :
    Q s ((read f >>= g) s).events ((read f >>= g) s).state := by
  cases hf : f s with
  | ok a =>
    rw [read_bind_ok hf]
    exact h a hf
  | error e =>
    rw [read_bind_error hf]
    exact IsTrail.nil s

/-- An operation that the relation holds of from a given state, before others. -/
theorem along_bind_at {f : α → Act ε σ β} {s : σ} (hx : Q s (x s).events (x s).state)
    (hf : ∀ a, Along Q (f a)) : Q s ((x >>= f) s).events ((x >>= f) s).state := by
  cases hr : (x s).result with
  | ok a =>
    rw [bind_of_ok hr]
    exact IsTrail.append hx (hf a _)
  | error e =>
    rw [bind_of_error hr]
    exact hx

theorem Along.bind (hx : Along Q x) {f : α → Act ε σ β} (hf : ∀ a, Along Q (f a)) :
    Along Q (x >>= f) :=
  fun s => along_bind_at (hx s) hf

theorem Along.afterwards (hx : Along Q x) {f : σ → σ} (h : ∀ s, Q s [] (f s)) :
    Along Q (Act.afterwards f x) := by
  intro s
  have hboth : Q s ((x s).events ++ []) (f (x s).state) := IsTrail.append (hx s) (h _)
  rwa [List.append_nil] at hboth

theorem Along.mapM {f : β → Act ε σ α} (hf : ∀ b, Along Q (f b)) (l : List β) :
    Along Q (l.mapM f) := by
  induction l with
  | nil => exact along_pure _
  | cons b l ih =>
    rw [List.mapM_cons]
    exact (hf b).bind fun _ => ih.bind fun _ => along_pure _

end Act

namespace Guarded

open Act

variable {ε α β : Type} {Q : α → List Event → α → Prop} {x : Act ε α β}

/-- The relation holds of the values, whoever holds them. -/
def On (Q : α → List Event → α → Prop) (g : Guarded α) (l : List Event) (g' : Guarded α) : Prop :=
  Q g.value l g'.value

variable [IsTrail Q]

instance : IsTrail (On Q) where
  nil g := IsTrail.nil g.value
  append h h' := IsTrail.append (Q := Q) h h'

/-- A writer's access is told by what it does to the value. -/
theorem along_writing (hx : Along Q x) (busy : ε) : Along (On Q) (writing busy x) := by
  intro g
  by_cases h : g.hold = .free
  · rw [writing_free busy x g h]
    exact hx g.value
  · rw [writing_busy busy x g h]
    exact IsTrail.nil (Q := On Q) g

theorem along_reading (busy : ε) (f : α → Except ε β) :
    Along (On Q) (reading busy f) :=
  fun g => IsTrail.nil (Q := Q) g.value

end Guarded

end FixedArena
