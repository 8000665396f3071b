import FixedArena.Proofs.Ring.Operations
import FixedArena.Ring.Cursor

/-!
Walks over rings. A cursor is followed by what it has still to bring: the nodes ahead and their
values. Every step takes one off the front of both.

Main facts:
* `Cursor.Leads.next_cons`, `Cursor.Leads.rest_eq`: what a cursor answers, told from the values
  ahead;
* `toList_ok`: a ring is listed as the list that it holds;
* `scan_ok`: a script without holds answers as on the list;
* `state_scan`: a script leaves the ring and its arena as they were, whatever holds it takes.
-/

namespace FixedArena

namespace Ring

variable {α : Type} [Element α] {a : BlockArena} {g : Guarded BlockArena} {head i : UInt32}
  {l ns : List UInt32} {us vs : List α} {v : α} {s : Site α}

/-! ### Cursors -/

namespace Cursor

variable {c : Cursor α}

/-- The cursor has the values of a list ahead of it, in nodes linked to the head. -/
structure Leads (c : Cursor α) (a : BlockArena) (head : UInt32) (l : List UInt32) (us : List α) :
    Prop where
  remaining : c.remaining = l.length
  node : c.node = (l ++ [head]).head?
  chain : (l ++ [head]).IsChain (Linked a)
  values : l.map (valueOf a) = us.map Except.ok

theorem Leads.length_eq (h : c.Leads a head l us) : us.length = l.length := by
  simpa using congrArg List.length h.values.symm

/-- A cursor with nothing ahead stays where it is. -/
theorem Leads.next_nil (h : c.Leads g.value head [] us) : c.next g = .ok (none, c) := by
  have h0 : c.remaining = 0 := h.remaining
  rw [next, if_pos h0]

/-- **A cursor brings the first of the values ahead.** -/
theorem Leads.next_cons (h : c.Leads g.value head (i :: l) (v :: us))
    (hf : g.hold.admits .shared = true) : ∃ c' : Cursor α,
    c.next g = .ok (some v, c') ∧ c'.Leads g.value head l us := by
  have hv := h.values
  rw [List.map_cons, List.map_cons, List.cons.injEq] at hv
  have hnode : c.node = some i := h.node
  have hrem : c.remaining = l.length + 1 := h.remaining
  have hchain : (i :: (l ++ [head])).IsChain (Linked g.value) := h.chain
  obtain ⟨y, rest, hy⟩ : ∃ y rest, l ++ [head] = y :: rest :=
    List.exists_cons_of_ne_nil (by simp)
  rw [hy, List.isChain_cons_cons] at hchain
  refine ⟨{ c with node := some y, remaining := c.remaining - 1 }, ?_, ?_⟩
  · unfold next
    rw [if_neg (by omega), hnode]
    simp only [Guarded.reading_apply, if_pos hf, hv.1, hchain.1.1]
    rfl
  · refine ⟨?_, by rw [hy]; rfl, hy ▸ hchain.2, hv.2⟩
    change c.remaining - 1 = l.length
    omega

theorem Leads.collect_eq (h : c.Leads g.value head l us) (hf : g.hold.admits .shared = true) :
    ∃ c' : Cursor α, collect g l.length c = .ok (us, c') ∧ c'.Leads g.value head [] [] := by
  induction l generalizing c us with
  | nil =>
    obtain rfl : us = [] := List.length_eq_zero_iff.1 h.length_eq
    exact ⟨c, rfl, h⟩
  | cons i l ih =>
    obtain ⟨v, us, rfl⟩ := List.exists_cons_of_length_eq_add_one h.length_eq
    obtain ⟨c', hnext, hc'⟩ := h.next_cons hf
    obtain ⟨c'', hcollect, hc''⟩ := ih hc'
    refine ⟨c'', ?_, hc''⟩
    rw [List.length_cons, collect, hnext]
    change (collect g l.length c' >>= fun p => pure (v :: p.1, p.2)) = _
    rw [hcollect]
    rfl

/-- **A cursor collects all values ahead.** -/
theorem Leads.rest_eq (h : c.Leads g.value head l us) (hf : g.hold.admits .shared = true) :
    ∃ c' : Cursor α, c.rest g = .ok (us, c') ∧ c'.Leads g.value head [] [] := by
  unfold rest
  rw [h.remaining]
  exact h.collect_eq hf

end Cursor

/-- **A cursor starts before all values of the ring.** -/
theorem start_ok (h : s.Holds ns vs) (hf : s.nodes.hold.admits .shared = true) : ∃ c : Cursor α,
    start s = .ok c ∧ c.Leads s.nodes.value s.ring.head.index ns vs := by
  have hread := reading_ok (f := fun r a => linkOf a r.head.index .next) hf
    (h.circle.linkOf_end .front)
  have hchain : (s.ring.head.index :: (ns ++ [s.ring.head.index])).IsChain
      (Linked s.nodes.value) := h.circle
  refine ⟨⟨s.ring, some (Side.front.neighbour s.ring.head.index ns), s.ring.len⟩, ?_, ?_⟩
  · unfold start
    rw [hread]
    rfl
  · refine ⟨h.len, ?_, hchain.tail, h.values⟩
    cases ns <;> rfl

/-- **A ring is listed as the list that it holds.** -/
theorem toList_ok (h : s.Holds ns vs) (hf : s.nodes.hold.admits .shared = true) :
    toList s = .ok vs := by
  obtain ⟨c, hstart, hc⟩ := start_ok h hf
  obtain ⟨c', hrest, -⟩ := hc.rest_eq hf
  unfold toList
  rw [hstart]
  change (c.rest s.nodes >>= fun p => pure p.1) = _
  rw [hrest]
  rfl

/-! ### Scripts -/

/-- The holds of a walk, given back, leave the same arena. -/
def Walk.SameBase (w w' : Walk α) : Prop := w'.released = w.released

instance : IsPreorder (Walk α) Walk.SameBase where
  refl _ := rfl
  trans _ _ _ h h' := h'.trans h

theorem release_take? {g g' : Guarded BlockArena} {mode : Mode} (ht : g.take? mode = some g') :
    g'.release mode = g := by
  obtain ⟨hold, hh, rfl⟩ := Option.map_eq_some_iff.1 ht
  exact congrArg (Guarded.mk g.value) (Hold.release_take? hh)

theorem sameBase_scanStep (step : ScanStep) :
    Act.Within Walk.SameBase (scanStep (α := α) step) := by
  cases step with
  | next =>
    refine (Act.within_read _).bind fun p => (Act.within_modify ?_).bind fun _ => Act.within_pure _
    exact fun w => rfl
  | hint => exact Act.within_get.bind fun w => Act.within_pure _
  | rest =>
    refine (Act.within_read _).bind fun p => (Act.within_modify ?_).bind fun _ => Act.within_pure _
    exact fun w => rfl
  | describe => exact Act.within_get.bind fun w => Act.within_pure _
  | hold mode =>
    intro w
    rw [scanStep, Act.get_bind]
    cases ht : w.nodes.take? mode with
    | none => rfl
    | some nodes => exact congrArg (w.taken.foldl (·.release ·) ·) (release_take? ht)
  | release =>
    refine (Act.within_modify ?_).bind fun _ => Act.within_pure _
    exact fun w => rfl

theorem sameBase_mapM (steps : List ScanStep) :
    Act.Within Walk.SameBase (steps.mapM (scanStep (α := α))) := by
  induction steps with
  | nil => exact Act.within_pure []
  | cons step steps ih =>
    rw [List.mapM_cons]
    exact (sameBase_scanStep step).bind fun a => ih.bind fun as => Act.within_pure _

/-- **A script leaves the ring and its arena as they were, whatever holds it takes.** -/
theorem state_scan (steps : List ScanStep) (s : Site α) : (scan steps s).state = s := by
  unfold scan
  cases hs : start s with
  | error e => rw [Act.read_bind_error hs]
  | ok c =>
    rw [Act.read_bind_ok hs, Act.zoom_apply]
    have hw := sameBase_mapM steps ⟨c, s.nodes, []⟩
    exact congrArg (Site.mk s.ring) hw

/-! ### Scripts on lists -/

/-- The step neither takes a hold nor shows a node. -/
def ScanStep.Plain : ScanStep → Prop
  | .next | .hint | .rest => True
  | .describe | .hold _ | .release => False

/-- What a plain step answers, and what it leaves, told from the values ahead. -/
def ScanStep.onList : ScanStep → List α → ScanAnswer α × List α
  | .next, us => (.value us.head?, us.tail)
  | .rest, us => (.values us, [])
  | _, us => (.hint us.length us.length, us)

/-- What a plain script answers, told from the values ahead. -/
def scanList : List ScanStep → List α → List (ScanAnswer α)
  | [], _ => []
  | step :: steps, us => (step.onList us).1 :: scanList steps (step.onList us).2

variable {w : Walk α}

theorem scanStep_ok {step : ScanStep} (hp : step.Plain)
    (h : w.cursor.Leads w.nodes.value head l us) (hf : w.nodes.hold.admits .shared = true) :
    ∃ c l', scanStep step w = ⟨.ok (step.onList us).1, { w with cursor := c }, []⟩ ∧
      c.Leads w.nodes.value head l' (step.onList us).2 := by
  cases step with
  | next =>
    cases l with
    | nil =>
      obtain rfl : us = [] := List.length_eq_zero_iff.1 h.length_eq
      refine ⟨w.cursor, [], ?_, h⟩
      simp only [scanStep, Act.read_bind, h.next_nil]
      rfl
    | cons i l =>
      obtain ⟨v, us, rfl⟩ := List.exists_cons_of_length_eq_add_one h.length_eq
      obtain ⟨c, hnext, hc⟩ := h.next_cons hf
      refine ⟨c, l, ?_, hc⟩
      simp only [scanStep, Act.read_bind, hnext]
      rfl
  | rest =>
    obtain ⟨c, hrest, hc⟩ := h.rest_eq hf
    refine ⟨c, [], ?_, hc⟩
    simp only [scanStep, Act.read_bind, hrest]
    rfl
  | hint =>
    refine ⟨w.cursor, l, ?_, h⟩
    rw [scanStep, Act.get_bind, Cursor.bounds, h.remaining, ← h.length_eq]
    rfl
  | describe => exact hp.elim
  | hold mode => exact hp.elim
  | release => exact hp.elim

theorem mapM_scanStep {steps : List ScanStep} (hp : ∀ step ∈ steps, step.Plain)
    (h : w.cursor.Leads w.nodes.value head l us) (hf : w.nodes.hold.admits .shared = true) :
    ∃ w', steps.mapM scanStep w = ⟨.ok (scanList steps us), w', []⟩ := by
  induction steps generalizing w l us with
  | nil => exact ⟨w, rfl⟩
  | cons step steps ih =>
    obtain ⟨c, l', hstep, hc⟩ := scanStep_ok (hp step List.mem_cons_self) h hf
    obtain ⟨w', hrest⟩ := ih (w := { w with cursor := c })
      (fun x hx => hp x (List.mem_cons_of_mem _ hx)) hc hf
    refine ⟨w', ?_⟩
    rw [List.mapM_cons, Act.bind_ok hstep, Act.bind_ok hrest]
    rfl

/-- **A plain script answers as on the list that the ring holds.** -/
theorem scan_ok {steps : List ScanStep} (hp : ∀ step ∈ steps, step.Plain) (h : s.Holds ns vs)
    (hf : s.nodes.hold.admits .shared = true) :
    scan steps s = ⟨.ok (scanList steps vs), s, []⟩ := by
  obtain ⟨c, hstart, hc⟩ := start_ok h hf
  obtain ⟨w', hm⟩ := mapM_scanStep (w := ⟨c, s.nodes, []⟩) hp hc hf
  have hs := state_scan steps s
  unfold scan at hs ⊢
  rw [Act.read_bind_ok hstart, Act.zoom_apply, hm] at hs ⊢
  exact congrArg (Outcome.mk (.ok (scanList steps vs)) · []) hs

end Ring

end FixedArena
