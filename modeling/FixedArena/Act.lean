import FixedArena.Event

/-!
Operations on a state. An operation may be refused, changes the state it works on, and logs
events. A failure undoes nothing: the state that was reached and the events that were logged stand.

Main facts:
* `bind_ok`, `bind_error`: what a sequence of two operations does;
* `attempt_ok`, `attempt_error`, `attempt_fault`: an attempt fails of faults only.
-/

namespace FixedArena

/-- What an operation leaves behind: its result, the state it reached, and the events it logged,
oldest first. -/
structure Outcome (ε σ α : Type) where
  result : Except ε α
  state : σ
  events : List Event

/-- An operation on a state of type `σ` with results of type `α` and refusals of type `ε`. -/
def Act (ε σ α : Type) : Type := σ → Outcome ε σ α

namespace Act

variable {ε ε' σ τ α β : Type}

/-- Answers without touching the state. -/
protected def pure (a : α) : Act ε σ α := fun s => ⟨.ok a, s, []⟩

/-- Runs one operation and then, if it was not refused, the next. -/
protected def bind (x : Act ε σ α) (f : α → Act ε σ β) : Act ε σ β := fun s =>
  match x s with
  | ⟨.ok a, s', log⟩ =>
    let next := f a s'
    ⟨next.result, next.state, log ++ next.events⟩
  | ⟨.error e, s', log⟩ => ⟨.error e, s', log⟩

instance : Monad (Act ε σ) where
  pure := Act.pure
  bind := Act.bind

/-- Refuses. -/
def fail (e : ε) : Act ε σ α := fun s => ⟨.error e, s, []⟩

/-- The state. -/
def get : Act ε σ σ := fun s => ⟨.ok s, s, []⟩

/-- Changes the state. -/
def modify (f : σ → σ) : Act ε σ Unit := fun s => ⟨.ok (), f s, []⟩

/-- Logs an event. -/
def log (e : Event) : Act ε σ Unit := fun s => ⟨.ok (), s, [e]⟩

/-- Reads the state; the reading may be refused. -/
def read (f : σ → Except ε α) : Act ε σ α := fun s => ⟨f s, s, []⟩

/-- Runs an operation and answers with its result, refused or not. A fault is no answer. -/
def attempt (x : Act Error σ α) : Act Error σ (Except Error α) := fun s =>
  let out := x s
  match out.result with
  | .ok a => ⟨.ok (.ok a), out.state, out.events⟩
  | .error e =>
    if e.isFault then ⟨.error e, out.state, out.events⟩ else ⟨.ok (.error e), out.state, out.events⟩

/-- Runs an operation and answers with how it ended, be it with a fault. -/
def settled (x : Act ε σ α) : Act ε σ (Except ε α) := fun s =>
  let out := x s
  ⟨.ok out.result, out.state, out.events⟩

/-- Runs an operation and changes the state afterwards, however the operation ended. -/
def afterwards (f : σ → σ) (x : Act ε σ α) : Act ε σ α := fun s =>
  let out := x s
  ⟨out.result, f out.state, out.events⟩

/-- Runs an operation and changes the state afterwards if the operation failed. -/
def onFailure (f : σ → σ) (x : Act ε σ α) : Act ε σ α := fun s =>
  let out := x s
  match out.result with
  | .ok _ => out
  | .error _ => ⟨out.result, f out.state, out.events⟩

/-- Runs an operation whose refusals are of another kind. -/
def mapError (f : ε → ε') (x : Act ε σ α) : Act ε' σ α := fun s =>
  let out := x s
  ⟨out.result.mapError f, out.state, out.events⟩

/-- Runs an operation on a part of the state. -/
def zoom (part : σ → τ) (put : τ → σ → σ) (x : Act ε τ α) : Act ε σ α := fun s =>
  let out := x (part s)
  ⟨out.result, put out.state s, out.events⟩

/-! ### What the operations do -/

@[simp] theorem pure_apply (a : α) (s : σ) : (pure a : Act ε σ α) s = ⟨.ok a, s, []⟩ := rfl

@[simp] theorem fail_apply (e : ε) (s : σ) : (fail e : Act ε σ α) s = ⟨.error e, s, []⟩ := rfl

@[simp] theorem get_apply (s : σ) : (get : Act ε σ σ) s = ⟨.ok s, s, []⟩ := rfl

@[simp] theorem modify_apply (f : σ → σ) (s : σ) :
    (modify f : Act ε σ Unit) s = ⟨.ok (), f s, []⟩ := rfl

@[simp] theorem log_apply (e : Event) (s : σ) : (log e : Act ε σ Unit) s = ⟨.ok (), s, [e]⟩ := rfl

@[simp] theorem read_apply (f : σ → Except ε α) (s : σ) : read f s = ⟨f s, s, []⟩ := rfl

theorem attempt_ok {x : Act Error σ α} {s : σ} {a : α} (h : (x s).result = .ok a) :
    attempt x s = ⟨.ok (.ok a), (x s).state, (x s).events⟩ := by
  simp [attempt, h]

theorem attempt_error {x : Act Error σ α} {s : σ} {e : Error} (h : (x s).result = .error e)
    (he : e.isFault = false) : attempt x s = ⟨.ok (.error e), (x s).state, (x s).events⟩ := by
  simp [attempt, h, he]

theorem attempt_fault {x : Act Error σ α} {s : σ} {e : Error} (h : (x s).result = .error e)
    (he : e.isFault = true) : attempt x s = ⟨.error e, (x s).state, (x s).events⟩ := by
  simp [attempt, h, he]

theorem afterwards_apply (f : σ → σ) (x : Act ε σ α) (s : σ) :
    afterwards f x s = ⟨(x s).result, f (x s).state, (x s).events⟩ := rfl

theorem mapError_apply (f : ε → ε') (x : Act ε σ α) (s : σ) :
    mapError f x s = ⟨(x s).result.mapError f, (x s).state, (x s).events⟩ := rfl

theorem zoom_apply (part : σ → τ) (put : τ → σ → σ) (x : Act ε τ α) (s : σ) :
    zoom part put x s = ⟨(x (part s)).result, put (x (part s)).state s, (x (part s)).events⟩ := rfl

theorem bind_ok {x : Act ε σ α} {f : α → Act ε σ β} {s s' : σ} {a : α} {log : List Event}
    (h : x s = ⟨.ok a, s', log⟩) :
    (x >>= f) s = ⟨(f a s').result, (f a s').state, log ++ (f a s').events⟩ := by
  change Act.bind x f s = _
  simp [Act.bind, h]

theorem bind_error {x : Act ε σ α} {f : α → Act ε σ β} {s s' : σ} {e : ε} {log : List Event}
    (h : x s = ⟨.error e, s', log⟩) : (x >>= f) s = ⟨.error e, s', log⟩ := by
  change Act.bind x f s = _
  simp [Act.bind, h]

end Act

end FixedArena
