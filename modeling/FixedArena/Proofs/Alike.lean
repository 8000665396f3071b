import FixedArena.Proofs.Acts
import Mathlib.Order.RelClasses

/-!
Operations and the holds in their way. An operation goes alike with holds and without if it answers the
same, logs the same and leaves the same behind; one that does not, finds a hold in its way, says so, and
changes nothing.

Main facts:
* `Act.Alike`: the operation goes alike in a state and in what is made of it;
* `Act.Alike.bind`, `Act.Alike.zoom`: a sequence goes alike if its parts do, and so does a part;
* `Act.Yields`: the operation goes alike, or has an answer for the hold in its way;
* `Guarded.alike_reading`, `Guarded.alike_writing`: the access to a guarded value.
-/

namespace FixedArena

namespace Act

variable {ε ε' σ τ α β : Type} {f : σ → σ} {x y : Act ε σ α} {s : σ} {events : List Event}

/-- **The operation goes alike in a state and in what `f` makes of it**: it answers the same, logs the
same, and leaves the same behind. -/
structure Alike (f : σ → σ) (x : Act ε σ α) (s : σ) : Prop where
  result : (x s).result = (x (f s)).result
  events : (x s).events = (x (f s)).events
  state : f (x s).state = (x (f s)).state

/-- What `f` leaves as it is, before and after. -/
theorem alike_of_fixed (hs : f s = s) (ht : f (x s).state = (x s).state) : Alike f x s := by
  refine ⟨?_, ?_, ht.trans ?_⟩ <;> rw [hs]

/-- What changes nothing goes alike if it answers and logs the same. -/
theorem alike_of_still (hx : Still x) (hr : (x s).result = (x (f s)).result)
    (he : (x s).events = (x (f s)).events) : Alike f x s :=
  ⟨hr, he, by rw [← hx s, ← hx (f s)]⟩

theorem alike_of_eq {r : Except ε α} (h : x s = ⟨r, s, events⟩) (h' : x (f s) = ⟨r, f s, events⟩) :
    Alike f x s := by
  refine ⟨?_, ?_, ?_⟩ <;> rw [h, h']

theorem alike_pure (f : σ → σ) (a : α) (s : σ) : Alike f (pure a : Act ε σ α) s := ⟨rfl, rfl, rfl⟩

theorem alike_fail (f : σ → σ) (e : ε) (s : σ) : Alike f (fail e : Act ε σ α) s := ⟨rfl, rfl, rfl⟩

theorem alike_log (f : σ → σ) (e : Event) (s : σ) : Alike f (log e : Act ε σ Unit) s :=
  ⟨rfl, rfl, rfl⟩

theorem alike_read {g : σ → Except ε α} (h : g s = g (f s)) : Alike f (read g) s := ⟨h, rfl, rfl⟩

/-- Two operations that do the same go alike together. -/
theorem Alike.congr (hy : Alike f y s) (h : x s = y s) (h' : x (f s) = y (f s)) : Alike f x s := by
  refine ⟨?_, ?_, ?_⟩ <;> rw [h, h']
  · exact hy.result
  · exact hy.events
  · exact hy.state

/-- **A sequence goes alike if its parts do.** -/
theorem Alike.bind (hx : Alike f x s) {g : α → Act ε σ β}
    (hg : ∀ a, (x s).result = .ok a → Alike f (g a) (x s).state) : Alike f (x >>= g) s := by
  cases hr : (x s).result with
  | ok a =>
    have hr' : (x (f s)).result = .ok a := hx.result.symm.trans hr
    obtain ⟨hres, hev, hst⟩ := hg a hr
    rw [hx.state] at hres hev hst
    refine ⟨?_, ?_, ?_⟩ <;> rw [bind_of_ok hr, bind_of_ok hr']
    · exact hres
    · dsimp only
      rw [hx.events, hev]
    · exact hst
  | error e =>
    have hr' : (x (f s)).result = .error e := hx.result.symm.trans hr
    refine ⟨?_, ?_, ?_⟩ <;> rw [bind_of_error hr, bind_of_error hr']
    · exact hx.events
    · exact hx.state

theorem Alike.bind_still (hx : Alike f x s) (hstill : Still x) {g : α → Act ε σ β}
    (hg : ∀ a, (x s).result = .ok a → Alike f (g a) s) : Alike f (x >>= g) s :=
  hx.bind fun a ha => hstill s ▸ hg a ha

theorem Alike.map (hx : Alike f x s) (g : α → β) : Alike f (g <$> x) s := by
  refine ⟨?_, ?_, ?_⟩ <;> rw [map_apply, map_apply]
  · exact congrArg (Except.map g) hx.result
  · exact hx.events
  · exact hx.state

theorem Alike.mapError (hx : Alike f x s) (g : ε → ε') : Alike f (x.mapError g) s :=
  ⟨congrArg (Except.mapError g) hx.result, hx.events, hx.state⟩

theorem Alike.attempt {x : Act Error σ α} (hx : Alike f x s) : Alike f (Act.attempt x) s := by
  cases hr : (x s).result with
  | ok a =>
    have hr' := hx.result.symm.trans hr
    refine ⟨?_, ?_, ?_⟩ <;> rw [attempt_ok hr, attempt_ok hr']
    · exact hx.events
    · exact hx.state
  | error e =>
    have hr' := hx.result.symm.trans hr
    cases he : e.isFault with
    | false =>
      refine ⟨?_, ?_, ?_⟩ <;> rw [attempt_error hr he, attempt_error hr' he]
      · exact hx.events
      · exact hx.state
    | true =>
      refine ⟨?_, ?_, ?_⟩ <;> rw [attempt_fault hr he, attempt_fault hr' he]
      · exact hx.events
      · exact hx.state

/-- An operation that starts with the state does the same with what `f` makes of it. -/
theorem alike_get_bind {g : σ → Act ε σ α} (hg : g s = g (f s)) (hx : Alike f (g s) s) :
    Alike f (get >>= g) s :=
  hx.congr (get_bind g s) ((get_bind g (f s)).trans (by rw [hg]))

/-- **What goes alike on a part, goes alike on the whole.** -/
theorem Alike.zoom {part : τ → σ} {put : σ → τ → τ} {f' : τ → τ} {t : τ}
    (hx : Alike f x (part t)) (hpart : part (f' t) = f (part t))
    (hput : ∀ s, f' (put s t) = put (f s) (f' t)) : Alike f' (Act.zoom part put x) t := by
  refine ⟨?_, ?_, ?_⟩ <;> simp only [zoom_apply, hpart]
  · exact hx.result
  · exact hx.events
  · rw [hput, hx.state]

/-! ### Answers for a hold -/

/-- **The operation goes alike, or finds a hold in its way**: then it gives one of the answers for that,
and changes nothing. -/
def Yields (f : σ → σ) (busy : Except ε α → Prop) (x : Act ε σ α) (s : σ) : Prop :=
  Alike f x s ∨ busy (x s).result ∧ (x s).state = s

variable {busy : Except ε α → Prop}

theorem yields_of_eq {r : Except ε α} (h : x s = ⟨r, s, events⟩) (hr : busy r) : Yields f busy x s := by
  refine .inr ⟨?_, ?_⟩ <;> rw [h]
  exact hr

theorem Yields.map (hx : Yields f busy x s) {busy' : Except ε β → Prop} {g : α → β}
    (h : ∀ r, busy r → busy' (r.map g)) : Yields f busy' (g <$> x) s := by
  refine hx.imp (·.map g) fun ⟨hr, hs⟩ => ?_
  rw [map_apply]
  exact ⟨h _ hr, hs⟩

theorem Yields.mapError (hx : Yields f busy x s) {g : ε → ε'} {busy' : Except ε' α → Prop}
    (h : ∀ r, busy r → busy' (r.mapError g)) : Yields f busy' (x.mapError g) s :=
  hx.imp (·.mapError g) fun ⟨hr, hs⟩ => ⟨h _ hr, hs⟩

/-- The operation gives this answer, and changes nothing. -/
def Says (x : Act ε σ α) (s : σ) (a : α) : Prop := ∃ log, x s = ⟨.ok a, s, log⟩

theorem Says.bind {a : α} {b : β} {y : α → Act ε σ β} (hx : Says x s a) (hy : Says (y a) s b) :
    Says (x >>= y) s b := by
  obtain ⟨log, hx⟩ := hx
  obtain ⟨log', hy⟩ := hy
  exact ⟨_, (bind_ok hx).trans (by rw [hy])⟩

theorem Says.map {a : α} (hx : Says x s a) (g : α → β) : Says (g <$> x) s (g a) := by
  obtain ⟨log, hx⟩ := hx
  exact ⟨log, by rw [map_apply, hx]; rfl⟩

theorem says_pure (a : α) (s : σ) : Says (pure a : Act ε σ α) s a := ⟨[], rfl⟩

theorem yields_of_says {a : α} (hx : Says x s a) (ha : busy (.ok a)) : Yields f busy x s := by
  obtain ⟨log, hx⟩ := hx
  exact yields_of_eq hx ha

/-- What is read first is the same, held or not. -/
theorem yields_read_bind {g : σ → Except ε α} {y : α → Act ε σ β} {busy : Except ε β → Prop}
    (hg : g s = g (f s)) (hy : ∀ a, g s = .ok a → Yields f busy (y a) s) :
    Yields f busy (read g >>= y) s := by
  cases hr : g s with
  | ok a =>
    have hs := read_bind_ok (g := y) hr
    obtain hx | ⟨hbusy, hstate⟩ := hy a hr
    · exact .inl (hx.congr hs (read_bind_ok (hg.symm.trans hr)))
    · exact .inr ⟨by rwa [hs], by rwa [hs]⟩
  | error e => exact .inl (alike_of_eq (read_bind_error hr) (read_bind_error (hg.symm.trans hr)))

end Act

/-! ### Guarded values -/

namespace Guarded

variable {ε α β : Type} {g : Guarded α}

/-- The value, held by nobody. -/
def unheld (g : Guarded α) : Guarded α := { g with hold := .free }

theorem unheld_of_free (h : g.hold = .free) : g.unheld = g := by
  rw [unheld, ← h]

/-- A hold that readers share does not hide the value. -/
theorem alike_reading (h : g.hold.admits .shared = true) (busy : ε) (f : α → Except ε β) :
    Act.Alike unheld (reading busy f) g := by
  refine Act.alike_read ?_
  rw [if_pos h]
  rfl

theorem reading_held (h : ¬g.hold.admits .shared = true) (busy : ε) (f : α → Except ε β) :
    reading busy f g = ⟨.error busy, g, []⟩ := by
  rw [reading_apply, if_neg h]

/-- Operations that leave the hold go alike on a value that nobody holds. -/
theorem alike_of_free (h : g.hold = .free) {x : Act ε (Guarded α) β}
    (hx : Act.Within (Order.Preimage hold Eq) x) : Act.Alike unheld x g :=
  Act.alike_of_fixed (unheld_of_free h) (unheld_of_free ((hx g).symm.trans h))

theorem hold_writing (busy : ε) (x : Act ε α β) :
    Act.Within (Order.Preimage hold Eq) (writing busy x) := by
  intro g
  by_cases h : g.hold = .free
  · rw [writing_free busy x g h]
    rfl
  · rw [writing_busy busy x g h]
    rfl

theorem alike_writing (h : g.hold = .free) (busy : ε) (x : Act ε α β) :
    Act.Alike unheld (writing busy x) g :=
  alike_of_free h (hold_writing busy x)

theorem yields_writing (busy : ε) (x : Act ε α β) (g : Guarded α) :
    Act.Yields unheld (· = .error busy) (writing busy x) g := by
  by_cases h : g.hold = .free
  · exact .inl (alike_writing h busy x)
  · exact Act.yields_of_eq (writing_busy busy x g h) rfl

end Guarded

end FixedArena
