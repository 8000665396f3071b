import FixedArena.Proofs.Ring.Foreign

/-!
The operations of a ring on any arena, all of them. Whatever the blocks hold, no operation ends with a
fault, and the loops end of themselves: emptying a ring and walking over it count down its length.

Main facts:
* `clear_eq`, `Cursor.rest_eq`: emptying and walking as the loops that they are;
* `clear_sheds`, `drop_ends`, `Cursor.next_ends`, `scan_ends`: how they end;
* `robust`: all operations of a ring, whatever arena stands in the place of its own.
-/

namespace FixedArena.Ring

variable {α : Type} [Element α] {s t u : Site α} {g : Guarded BlockArena}

/-! ### Emptying and dropping -/

/-- From one site to another, values were taken off and their blocks given back, one for one. -/
structure Site.Sheds (s t : Site α) : Prop where
  head : t.ring.head = s.ring.head
  hold : t.nodes.hold = s.nodes.hold
  sound : t.nodes.value.Sound
  blockSize : t.nodes.value.blockSize = s.nodes.value.blockSize
  len_le : t.ring.len ≤ s.ring.len
  live : t.nodes.value.live + s.ring.len = s.nodes.value.live + t.ring.len
  inUse : ∀ j, t.nodes.value.InUse j → s.nodes.value.InUse j

namespace Site.Sheds

omit [Element α]

theorem refl (hs : s.nodes.value.Sound) : s.Sheds s :=
  ⟨rfl, rfl, hs, rfl, Nat.le_refl _, rfl, fun _ => id⟩

theorem trans (hst : s.Sheds t) (htu : t.Sheds u) : s.Sheds u where
  head := htu.head.trans hst.head
  hold := htu.hold.trans hst.hold
  sound := htu.sound
  blockSize := htu.blockSize.trans hst.blockSize
  len_le := Nat.le_trans htu.len_le hst.len_le
  live := by
    have h := hst.live
    have h' := htu.live
    omega
  inUse j hj := hst.inUse j (htu.inUse j hj)

end Site.Sheds

section Wide

variable (hs : s.nodes.value.Sound) (hw : nodeSize α ≤ s.nodes.value.blockSize)

include hs hw

/-- A pop brings a value and makes the ring shorter, or brings none. -/
theorem pop_sheds (side : Side) : ∃ v? t log, pop side s = ⟨.ok v?, t, log⟩ ∧ s.Sheds t ∧
    (v?.isSome → t.ring.len + 1 = s.ring.len) := by
  obtain ⟨hcounts, hspares⟩ := popped hs hw side
  match hp : pop side s with
  | ⟨r, t, log⟩ =>
    rw [hp] at hcounts hspares
    rcases hcounts with ⟨v, rfl, hlen, i, hi, huse, hlive⟩ | ⟨rfl, hlen, huse, hlive⟩
    · refine ⟨some v, t, log, rfl, ⟨hspares.head, hspares.hold, hspares.sound, hspares.blockSize,
        Nat.le_of_lt (Nat.lt_of_succ_le (Nat.le_of_eq hlen)), ?_, fun j hj => ((huse j).1 hj).2⟩,
        fun _ => hlen⟩
      have hlen' : t.ring.len + 1 = s.ring.len := hlen
      have hlive' : t.nodes.value.live + 1 = s.nodes.value.live := hlive
      omega
    · have hlen' : t.ring.len = s.ring.len := hlen
      have hlive' : t.nodes.value.live = s.nodes.value.live := hlive
      refine ⟨none, t, log, rfl, ⟨hspares.head, hspares.hold, hspares.sound, hspares.blockSize,
        Nat.le_of_eq hlen, ?_, fun j hj => (huse j).1 hj⟩, nofun⟩
      omega

theorem drain_sheds (n : Nat) : ∃ t log, drain n s = ⟨.ok (), t, log⟩ ∧ s.Sheds t := by
  induction n generalizing s with
  | zero => exact ⟨s, [], rfl, .refl hs⟩
  | succ n ih =>
    obtain ⟨v?, t, log, hpop, ht, -⟩ := pop_sheds hs hw .front
    cases v? with
    | none => exact ⟨t, log ++ [], Act.bind_ok hpop, ht⟩
    | some v =>
      obtain ⟨u, log', hdrain, hu⟩ := ih ht.sound (ht.blockSize ▸ hw)
      refine ⟨u, log ++ log', ?_, ht.trans hu⟩
      rw [drain, Act.bind_ok hpop]
      simp only [hdrain]

/-- **Emptying a ring ends**, and gives back a block for every value that it takes off. -/
theorem clear_sheds : ∃ t log, clear s = ⟨.ok (), t, log⟩ ∧ s.Sheds t := by
  unfold clear
  rw [Act.get_bind]
  exact drain_sheds hs hw s.ring.len

/-- **Emptying a ring is a loop**: while there is a value to pop, pop it. -/
theorem clear_eq : clear s = (pop .front >>= fun v? => match v? with
    | some _ => clear
    | none => pure ()) s := by
  cases hlen : s.ring.len with
  | zero =>
    rw [Act.bind_ok (pop_empty .front hlen), clear, Act.get_bind, hlen]
    rfl
  | succ n =>
    obtain ⟨v?, t, log, hpop, -, hshort⟩ := pop_sheds hs hw .front
    rw [clear, Act.get_bind, hlen, drain, Act.bind_ok hpop, Act.bind_ok hpop]
    cases v? with
    | none => rfl
    | some v =>
      have hn : t.ring.len = n := by
        have := hshort rfl
        omega
      simp only [Act.get_bind, hn]

/-- **Giving up a ring ends**, with or without the block of its head. -/
theorem drop_ends : ∃ t log, drop s = ⟨.ok (), t, log⟩ ∧ t.nodes.value.Sound := by
  obtain ⟨t, log, hclear, ht⟩ := clear_sheds hs hw
  by_cases hf : t.nodes.hold = .free
  · cases hl : t.nodes.value.locate t.ring.head with
    | ok i =>
      have hx := Act.attempt_of_ok (writing_free (x := fun r : Ring α => BlockArena.free r.head) hf
        (BlockArena.free_ok _ _ hl))
      refine ⟨t.turned t.ring.len (t.nodes.value.takeBack t.ring.head.index), log ++ [], ?_,
        ht.sound.takeBack (BlockArena.accepts_of_locate hl).inUse⟩
      rw [drop, Act.bind_ok hclear, Act.bind_ok hx]
      rfl
    | error e =>
      have hx := Act.attempt_of_error (writing_free (x := fun r : Ring α => BlockArena.free r.head)
        hf (BlockArena.free_error _ _ hl)) (BlockArena.faultless_locate _ _ e hl)
      refine ⟨t, log ++ ([.blockNotFreed e] ++ [.nodesLeaked e t.ring.len]), ?_, ht.sound⟩
      rw [drop, Act.bind_ok hclear, Act.bind_ok hx]
      rfl
  · have hx := Act.attempt_of_error (writing_busy (fun r : Ring α => BlockArena.free r.head) hf) rfl
    refine ⟨t, log ++ [.nodesLeaked nodesBusy t.ring.len], ?_, ht.sound⟩
    rw [drop, Act.bind_ok hclear, Act.bind_ok hx]
    rfl

end Wide

/-! ### Walking -/

namespace Cursor

variable {c : Cursor α}

theorem next_zero (h0 : c.remaining = 0) : c.next g = .ok (none, c) := by
  rw [next, if_pos h0]

/-- A step that brings a value leaves one less to come; one that brings none moves nothing. -/
theorem remaining_next {v? : Option α} {c' : Cursor α} (h : c.next g = .ok (v?, c')) :
    c'.remaining + v?.toList.length = c.remaining := by
  by_cases h0 : c.remaining = 0
  · rw [next_zero h0] at h
    cases h
    rfl
  rw [next, if_neg h0] at h
  cases hnode : c.node with
  | none =>
    rw [hnode] at h
    cases h
    rfl
  | some node =>
    rw [hnode] at h
    dsimp only at h
    cases hv : Error.orNone (Guarded.reading nodesBusy
        (fun a => (valueOf a node : Except Error α)) g).result with
    | error e =>
      rw [hv] at h
      cases h
    | ok w? =>
      rw [hv] at h
      cases w? with
      | none =>
        cases h
        rfl
      | some w =>
        cases hn : Error.orNone (linkOf g.value node .next) with
        | error e =>
          simp only [bind, Except.bind, hn] at h
          cases h
        | ok node' =>
          simp only [bind, Except.bind, hn, pure, Except.pure] at h
          cases h
          exact Nat.sub_add_cancel (Nat.pos_of_ne_zero h0)

/-- **Walking on is a loop**: while a step brings a value, take another. -/
theorem rest_eq (c : Cursor α) : c.rest g = (do
    match ← c.next g with
    | (none, c') => return ([], c')
    | (some v, c') =>
      let (vs, last) ← c'.rest g
      return (v :: vs, last)) := by
  unfold rest
  cases hrem : c.remaining with
  | zero =>
    rw [next_zero hrem]
    rfl
  | succ n =>
    rw [collect]
    cases hnext : c.next g with
    | error e => rfl
    | ok step =>
      obtain ⟨v?, c'⟩ := step
      cases v? with
      | none => rfl
      | some v =>
        -- Each value that comes is one less to come, so that the steps last as long as the values.
        have hlen : c'.remaining + 1 = n + 1 := (remaining_next hnext).trans hrem
        obtain rfl := Nat.succ.inj hlen
        rfl

section Wide

variable (hw : nodeSize α ≤ g.value.blockSize)

include hw

theorem faultless_next (c : Cursor α) : Faultless (c.next g) := by
  have hl : linkBytes ≤ g.value.blockSize := linkBytes_le hw
  unfold next
  split
  · exact faultless_ok _
  split
  · exact faultless_ok _
  · next node hnode =>
    have hvalue : Faultless
        (Guarded.reading nodesBusy (fun a => (valueOf a node : Except Error α)) g).result := by
      rw [Guarded.reading_apply]
      split
      · exact faultless_valueOf hw
      · exact faultless_error rfl
    refine hvalue.orNone.bind fun v? => ?_
    cases v? with
    | none => exact faultless_ok _
    | some v => exact (faultless_linkOf hl).orNone.bind fun _ => faultless_ok _

/-- **A step of a walk ends.** -/
theorem next_ends (c : Cursor α) : ∃ v? c', c.next g = .ok (v?, c') := by
  obtain ⟨⟨v?, c'⟩, hnext⟩ := (faultless_next hw c).exists_ok (c.onlyFaults_next g)
  exact ⟨v?, c', hnext⟩

theorem collect_ends (n : Nat) (c : Cursor α) : ∃ vs c', collect g n c = .ok (vs, c') ∧
    c'.remaining + vs.length = c.remaining := by
  induction n generalizing c with
  | zero => exact ⟨[], c, rfl, rfl⟩
  | succ n ih =>
    obtain ⟨v?, c', hnext⟩ := next_ends hw c
    have hrem := remaining_next hnext
    rw [collect, hnext]
    cases v? with
    | none => exact ⟨[], c', rfl, hrem⟩
    | some v =>
      obtain ⟨vs, last, hcollect, hrem'⟩ := ih c'
      refine ⟨v :: vs, last, ?_, ?_⟩
      · change (collect g n c' >>= fun p => pure (v :: p.1, p.2)) = _
        rw [hcollect]
        rfl
      · rw [Option.toList_some, List.length_singleton] at hrem
        rw [List.length_cons]
        omega

/-- **A walk ends**, and brings no more values than were to come. -/
theorem rest_ends (c : Cursor α) : ∃ vs c', c.rest g = .ok (vs, c') ∧
    c'.remaining + vs.length = c.remaining :=
  collect_ends hw c.remaining c

end Wide

end Cursor

omit [Element α] in
theorem faultless_reading {β : Type} {f : Ring α → BlockArena → Except Error β}
    (hf : Faultless (f s.ring s.nodes.value)) : Faultless (reading f s).result := by
  unfold reading
  rw [Act.get_bind, Act.zoom_apply, Guarded.reading_apply]
  dsimp only
  split
  · exact hf
  · exact faultless_error rfl

section Wide

variable (hw : nodeSize α ≤ s.nodes.value.blockSize)

include hw

theorem start_ends : ∃ c, start s = .ok c ∧ c.remaining = s.ring.len := by
  have hfirst : Faultless (reading (fun r a => linkOf a r.head.index .next) s).result :=
    faultless_reading (faultless_linkOf (linkBytes_le hw))
  obtain ⟨first, hok⟩ := hfirst.orNone.exists_ok (onlyFaults_orNone _)
  refine ⟨{ ring := s.ring, node := first, remaining := s.ring.len }, ?_, rfl⟩
  simp only [start, hok]
  rfl

/-- **Listing a ring ends**, with no more values than the ring has. -/
theorem toList_ends : ∃ vs, toList s = .ok vs ∧ vs.length ≤ s.ring.len := by
  obtain ⟨c, hstart, hrem⟩ := start_ends hw
  obtain ⟨vs, c', hrest, hlen⟩ := Cursor.rest_ends (g := s.nodes) hw c
  refine ⟨vs, ?_, by omega⟩
  unfold toList
  rw [hstart]
  change (c.rest s.nodes >>= fun p => pure p.1) = _
  rw [hrest]
  rfl

end Wide

omit [Element α] in
theorem value_released (w : Walk α) : w.released.value = w.nodes.value := by
  have hfold : ∀ (taken : List Mode) (g : Guarded BlockArena),
      (taken.foldl (·.release ·) g).value = g.value := by
    intro taken
    induction taken with
    | nil => exact fun _ => rfl
    | cons mode taken ih => exact fun g => ih (g.release mode)
  exact hfold w.taken w.nodes

/-- A step of a script ends, and leaves the arena that it found, held or not. -/
theorem scanStep_ends (step : ScanStep) {w : Walk α} (hw : nodeSize α ≤ w.nodes.value.blockSize) :
    ∃ answer w', scanStep step w = ⟨.ok answer, w', []⟩ ∧ w'.nodes.value = w.nodes.value := by
  cases step with
  | next =>
    obtain ⟨v?, c, hnext⟩ := Cursor.next_ends hw w.cursor
    refine ⟨.value v?, { w with cursor := c }, ?_, rfl⟩
    simp only [scanStep, Act.read_bind, hnext]
    rfl
  | rest =>
    obtain ⟨vs, c, hrest, -⟩ := Cursor.rest_ends hw w.cursor
    refine ⟨.values vs, { w with cursor := c }, ?_, rfl⟩
    simp only [scanStep, Act.read_bind, hrest]
    rfl
  | hold mode =>
    rw [scanStep, Act.get_bind]
    cases ht : w.nodes.take? mode with
    | none => exact ⟨.flag false, w, rfl, rfl⟩
    | some nodes =>
      obtain ⟨hold, -, rfl⟩ := Option.map_eq_some_iff.1 ht
      exact ⟨.flag true, _, rfl, rfl⟩
  | hint => exact ⟨_, w, rfl, rfl⟩
  | describe => exact ⟨_, w, rfl, rfl⟩
  | release => exact ⟨.flag true, { w with nodes := w.released, taken := [] }, rfl, value_released w⟩

theorem mapM_scanStep_ends (steps : List ScanStep) {w : Walk α}
    (hw : nodeSize α ≤ w.nodes.value.blockSize) :
    ∃ answers w', steps.mapM scanStep w = ⟨.ok answers, w', []⟩ := by
  induction steps generalizing w with
  | nil => exact ⟨[], w, rfl⟩
  | cons step steps ih =>
    obtain ⟨answer, w', hstep, hvalue⟩ := scanStep_ends step hw
    obtain ⟨answers, w'', hsteps⟩ := ih (w := w') (hvalue ▸ hw)
    refine ⟨answer :: answers, w'', ?_⟩
    rw [List.mapM_cons, Act.bind_ok hstep, Act.bind_ok hsteps]
    rfl

/-- **A script ends**, whatever it does, and leaves the ring and its arena as they were. -/
theorem scan_ends (steps : List ScanStep) (hw : nodeSize α ≤ s.nodes.value.blockSize) :
    ∃ answers, scan steps s = ⟨.ok answers, s, []⟩ := by
  obtain ⟨c, hstart, -⟩ := start_ends hw
  obtain ⟨answers, w', hsteps⟩ := mapM_scanStep_ends steps (w := ⟨c, s.nodes, []⟩) hw
  have hstate := state_scan steps s
  refine ⟨answers, ?_⟩
  unfold scan at hstate ⊢
  rw [Act.read_bind_ok hstart, Act.zoom_apply, hsteps] at hstate ⊢
  exact congrArg (Outcome.mk (.ok answers) · []) hstate

/-! ### All operations -/

theorem faultless_peek (hw : nodeSize α ≤ s.nodes.value.blockSize) (side : Side) :
    Faultless (peek side s).result := by
  unfold peek
  rw [Act.get_bind]
  split
  · exact faultless_error rfl
  · exact faultless_reading ((faultless_linkOf (linkBytes_le hw)).bind fun _ => faultless_valueOf hw)

theorem faultless_get (hw : nodeSize α ≤ s.nodes.value.blockSize) (index : Nat) :
    Faultless (get index s).result :=
  faultless_reading ((faultless_nodeAt (linkBytes_le hw) index).bind fun _ => faultless_valueOf hw)

/-- **What the operations of a ring come to on any arena.** -/
structure Site.Robust (s : Site α) : Prop where
  push : ∀ side v, s.Pushed side (push side v s)
  pop : ∀ side, s.Popped side (pop side s)
  set : ∀ index v, s.Overwritten index (set index v s)
  peek : ∀ side, Faultless (peek side s).result ∧ (peek side s).state = s
  get : ∀ index, Faultless (get index s).result ∧ (get index s).state = s
  /-- Emptying ends, and it is the loop that pops until no value comes. -/
  clear : (∃ t log, clear s = ⟨.ok (), t, log⟩ ∧ s.Sheds t) ∧
    clear s = (Ring.pop .front >>= fun v? => match v? with
      | some _ => clear
      | none => pure ()) s
  drop : ∃ t log, drop s = ⟨.ok (), t, log⟩
  /-- A walk ends, from whatever place it goes on. -/
  next : ∀ c : Cursor α, ∃ v? c', c.next s.nodes = .ok (v?, c') ∧
    c'.remaining + v?.toList.length = c.remaining
  /-- Walking on ends, and it is the loop that steps until no value comes. -/
  rest : ∀ c : Cursor α, (∃ vs c', c.rest s.nodes = .ok (vs, c') ∧
      c'.remaining + vs.length = c.remaining) ∧
    c.rest s.nodes = do
      match ← c.next s.nodes with
      | (none, c') => return ([], c')
      | (some v, c') =>
        let (vs, last) ← c'.rest s.nodes
        return (v :: vs, last)
  toList : ∃ vs, toList s = .ok vs ∧ vs.length ≤ s.ring.len
  scan : ∀ steps, ∃ answers, scan steps s = ⟨.ok answers, s, []⟩

/-- **Rings are robust**: on a sound arena with blocks wide enough for the nodes, whatever the blocks hold
and wherever the head lies, every operation ends without a fault, the counts of values and of blocks go
together, and no more is changed than two links or one value. -/
theorem robust (hs : s.nodes.value.Sound) (hw : nodeSize α ≤ s.nodes.value.blockSize) :
    s.Robust where
  push := pushed hs hw
  pop := popped hs hw
  set := overwritten hs hw
  peek side := ⟨faultless_peek hw side, state_peek side s⟩
  get index := ⟨faultless_get hw index, state_get index s⟩
  clear := ⟨clear_sheds hs hw, clear_eq hs hw⟩
  drop := by
    obtain ⟨t, log, hdrop, -⟩ := drop_ends hs hw
    exact ⟨t, log, hdrop⟩
  next c := by
    obtain ⟨v?, c', hnext⟩ := Cursor.next_ends hw c
    exact ⟨v?, c', hnext, Cursor.remaining_next hnext⟩
  rest c := ⟨Cursor.rest_ends hw c, Cursor.rest_eq c⟩
  toList := toList_ends hw
  scan steps := scan_ends steps hw

/-- A ring of five values in front of an arena with one block in use, which is linked to itself, and whose
identity is not the one of the ring's head. -/
def astray : Site UInt32 :=
  ⟨⟨⟨9, 0, 4⟩, 5⟩, { value := (BlockArena.fresh 7 3 12).handOut 0 ⟨[], 1, 3⟩ }⟩

/-- On a foreign arena the pops go on, here taking the block of the head itself. -/
theorem robust_astray : astray.nodes.value.Sound ∧ nodeSize UInt32 ≤ astray.nodes.value.blockSize ∧
    astray.Robust := by
  have hs : astray.nodes.value.Sound :=
    (BlockArena.sound_fresh 7 12 (by decide)).handOut (a := .fresh 7 3 12) rfl
  exact ⟨hs, by decide, robust hs (by decide)⟩

end FixedArena.Ring
