import FixedArena.Proofs.Store.Containers

/-!
Rings as lists. A list answers to the commands of a ring by itself; all it has to be told is
whether a block is free. A ring answers as its list does, and holds what its list becomes.

Main facts:
* `RingCommand.onList`: what a list answers to a command, and what it becomes;
* `Sound.full_iff`: no block is free when all blocks are in use;
* `ringStep_onList`, `ring_onList`: a ring answers as its list does;
* `opens`: a ring is made as an empty list, if there is room for it.
-/

namespace FixedArena

/-! ### Lists that take commands -/

instance : DecidablePred Ring.ScanStep.Plain := by
  intro step
  cases step <;> unfold Ring.ScanStep.Plain <;> infer_instance

/-- **What a list answers to a command, and what it becomes.** A push is refused if `full` gives
the capacity of an arena without a free block. A list knows nothing of nodes, so there is no answer
to what shows a node or holds the arena. -/
def RingCommand.onList {type : ElementType} (full : Option Nat) (c : RingCommand type.Value)
    (vs : List type.Value) : Option (Except Failure Reply) × List type.Value :=
  match c with
  | .push side v =>
    match full with
    | some capacity => (some (.error (.refused (.full BlockArena.kind capacity))), vs)
    | none => (some (.ok .done), side.add v vs)
  | .pop side => (some (.ok (.popped ((side.outer? vs).map (Datum.mk type)))), side.shorten vs)
  | .peek side =>
    match side.outer? vs with
    | some v => (some (.ok (.value ⟨type, v⟩)), vs)
    | none => (some (.error (.refused .empty)), vs)
  | .get index =>
    match vs[index]? with
    | some v => (some (.ok (.value ⟨type, v⟩)), vs)
    | none => (some (.error (.refused (.outOfBounds index vs.length))), vs)
  | .set index v =>
    if index < vs.length then (some (.ok .done), vs.set index v)
    else (some (.error (.refused (.outOfBounds index vs.length))), vs)
  | .clear => (some (.ok .done), [])
  | .size => (some (.ok (.size vs.length vs.isEmpty)), vs)
  | .toList => (some (.ok (.values (vs.map (Datum.mk type)))), vs)
  | .scan steps =>
    if ∀ step ∈ steps, step.Plain then
      (some (.ok (.scanned ((Ring.scanList steps vs).map (·.map (Datum.mk type))))), vs)
    else (none, vs)
  | .describe => (none, vs)

/-- A list of values of one type, and the arena where its ring lives. -/
structure Listed where
  type : ElementType
  nodes : Nat
  values : List type.Value

namespace Listed

/-- What the list answers; a value of another type is no command to it. -/
def answer (q : Listed) (full : Option Nat) (c : RingCommand Datum) :
    Option (Except Failure Reply) :=
  match c.as? q.type with
  | some c => (c.onList full q.values).1
  | none => some (.error .unknown)

/-- What the list becomes. -/
def after (q : Listed) (full : Option Nat) (c : RingCommand Datum) : Listed :=
  match c.as? q.type with
  | some c => { q with values := (c.onList full q.values).2 }
  | none => q

end Listed

/-! ### Arenas without a free block -/

namespace BlockArena

variable {a : BlockArena}

/-- The capacity of an arena that has handed all of its blocks out. -/
def full? (a : BlockArena) : Option Nat := if a.live = a.capacity then some a.capacity else none

theorem Sound.next?_eq_none_iff (hs : a.Sound) :
    a.freeList.next? = none ↔ a.live = a.capacity := by
  have hlive := hs.live_add_free
  rw [FreeList.next?_eq_none_iff, ← List.length_eq_zero_iff]
  omega

/-- **No block is free when all blocks are in use.** -/
theorem Sound.full_iff (hs : a.Sound) :
    a.full? = some a.capacity ↔ ∀ i : UInt32, i.toNat < a.capacity → a.InUse i := by
  have hfull : a.full? = some a.capacity ↔ a.live = a.capacity := by
    unfold full?
    split <;> simp_all
  rw [hfull, ← hs.next?_eq_none_iff, FreeList.next?_eq_none_iff, List.eq_nil_iff_forall_not_mem]
  apply forall_congr'
  intro i
  rw [hs.mem_free_iff, not_and, not_not]

end BlockArena

/-! ### Rings that answer as lists -/

namespace Ring

variable {α β : Type} [Element α] {s : Site α} {ns : List UInt32} {vs : List α}

/-- An operation answers with a result and leaves the ring with a list. -/
def Site.Answers (s : Site α) (x : Act Error (Site α) β) (result : Except Error β) (vs : List α) :
    Prop := ∃ t ns log, x s = ⟨result, t, log⟩ ∧ t.Holds ns vs

section Answers

variable (h : s.Holds ns vs) (hf : s.nodes.hold = .free)

include h hf

theorem answers_push (hs : s.nodes.value.Sound) (side : Side) (v : α) :
    s.Answers (push side v)
      (match s.nodes.value.full? with
        | some capacity => .error (.full BlockArena.kind capacity)
        | none => .ok ())
      (match s.nodes.value.full? with
        | some _ => vs
        | none => side.add v vs) := by
  rcases hn : s.nodes.value.freeList.next? with _ | ⟨i, rest⟩
  · have hfull : s.nodes.value.full? = some s.nodes.value.capacity :=
      if_pos (hs.next?_eq_none_iff.1 hn)
    rw [hfull]
    exact ⟨s, ns, _, push_full h hf hn side v, h⟩
  · have hroom : s.nodes.value.full? = none := if_neg fun hl => by
      rw [hs.next?_eq_none_iff.2 hl] at hn
      cases hn
    obtain ⟨t, hpush, ht, -⟩ := push_ok h hf hs hn side v
    rw [hroom]
    exact ⟨t, _, _, hpush, ht⟩

theorem answers_pop (side : Side) :
    s.Answers (pop side) (.ok (side.outer? vs)) (side.shorten vs) := by
  by_cases hv : vs = []
  · subst hv
    have hlen : s.ring.len = 0 := h.len_eq
    have hnone : side.outer? ([] : List α) = none := by cases side <;> rfl
    have hnil : side.shorten ([] : List α) = [] := by cases side <;> rfl
    rw [hnone, hnil]
    exact ⟨s, ns, _, pop_empty side hlen, h⟩
  · obtain ⟨i, ns', v, vs', rfl, rfl⟩ := h.exists_entry side hv
    obtain ⟨t, hpop, ht, -⟩ := pop_ok h hf
    rw [Side.outer?_add, Side.shorten_add]
    exact ⟨t, ns', _, hpop, ht⟩

theorem answers_peek (side : Side) :
    s.Answers (peek side)
      (match side.outer? vs with
        | some v => .ok v
        | none => .error .empty) vs := by
  have hshared : s.nodes.hold.admits .shared = true := by rw [hf]; rfl
  by_cases hv : vs = []
  · subst hv
    have hlen : s.ring.len = 0 := h.len_eq
    have hnone : side.outer? ([] : List α) = none := by cases side <;> rfl
    rw [hnone]
    exact ⟨s, ns, _, peek_empty side hlen, h⟩
  · obtain ⟨i, ns', v, vs', rfl, rfl⟩ := h.exists_entry side hv
    rw [Side.outer?_add]
    exact ⟨s, _, _, peek_ok h hshared, h⟩

theorem answers_get (index : Nat) :
    s.Answers (get index)
      (match vs[index]? with
        | some v => .ok v
        | none => .error (.outOfBounds index vs.length)) vs := by
  have hshared : s.nodes.hold.admits .shared = true := by rw [hf]; rfl
  refine ⟨s, ns, [], (get_ok h hshared index).trans ?_, h⟩
  by_cases hi : index < vs.length
  · rw [dif_pos hi, List.getElem?_eq_getElem hi]
  · rw [dif_neg hi, List.getElem?_eq_none (Nat.le_of_not_lt hi)]

theorem answers_set (index : Nat) (v : α) :
    s.Answers (set index v)
      (if index < vs.length then .ok () else .error (.outOfBounds index vs.length))
      (if index < vs.length then vs.set index v else vs) := by
  by_cases hi : index < vs.length
  · rw [if_pos hi, if_pos hi]
    obtain ⟨t, hset, ht, -⟩ := set_ok h hf (h.length_eq ▸ hi) v
    exact ⟨t, ns, _, hset, ht⟩
  · rw [if_neg hi, if_neg hi]
    exact ⟨s, ns, _, set_outOfBounds h hf (h.length_eq ▸ hi) v, h⟩

theorem answers_clear : s.Answers clear (.ok ()) [] := by
  obtain ⟨t, hclear, ht, -⟩ := clear_ok h hf
  exact ⟨t, [], _, hclear, ht⟩

theorem answers_toList : s.Answers (Act.read toList) (.ok vs) vs := by
  have hshared : s.nodes.hold.admits .shared = true := by rw [hf]; rfl
  refine ⟨s, ns, [], ?_, h⟩
  rw [Act.read_apply, toList_ok h hshared]

theorem answers_scan {steps : List ScanStep} (hp : ∀ step ∈ steps, step.Plain) :
    s.Answers (scan steps) (.ok (scanList steps vs)) vs := by
  have hshared : s.nodes.hold.admits .shared = true := by rw [hf]; rfl
  exact ⟨s, ns, [], scan_ok hp h hshared, h⟩

end Answers

end Ring

namespace Store

variable {α : Type} {s : Store} {r : Nat}

/-- The ring with a number holds the list on its arena. -/
def Represents (s : Store) (r : Nat) (q : Listed) : Prop :=
  ∃ (ring : Ring q.type.Value) (a : BlockArena) (ns : List UInt32),
    s.containerAt r = some (.ring q.type ring q.nodes) ∧ s.arenaAt q.nodes = some a ∧
    ring.Holds a ns q.values

/-- The capacity of an arena without a free block. -/
def fullAt (s : Store) (k : Nat) : Option Nat := (s.arenaAt k).bind BlockArena.full?

section RingStep

variable {type : ElementType} {ring : Ring type.Value} {n : Nat} {g : Guarded BlockArena}
  {ns : List UInt32} {vs : List type.Value} (hc : s.containerAt r = some (.ring type ring n))
  (hg : s.arenas[n]? = some g)

include hc hg

theorem onRing_answers {x : Act Error (Ring.Site type.Value) α} {result : Except Error α}
    (hx : Ring.Site.Answers ⟨ring, g⟩ x result vs) :
    (onRing r ring n x s).result = result.mapError .refused ∧
      (onRing r ring n x s).state.Represents r ⟨type, n, vs⟩ := by
  obtain ⟨t, ns, log, hx, ht⟩ := hx
  have hlt := lt_size_of_containerAt hc
  rw [onRing_some r ring hg]
  simp only [hx]
  refine ⟨trivial, t.ring, t.nodes.value, ns, ?_, ?_, ht⟩
  · exact (containerAt_of_set hlt rfl r).trans (if_pos rfl)
  · exact (arenaAt_of_set hg rfl n).trans (if_pos rfl)

/-- **A ring answers as its list does**, and holds what its list becomes. -/
theorem ringStep_onList (hf : g.hold = .free) (hs : g.value.Sound) (hh : ring.Holds g.value ns vs)
    (c : RingCommand type.Value) :
    (∀ result ∈ (c.onList g.value.full? vs).1, (ringStep r ring n c s).result = result) ∧
      (ringStep r ring n c s).state.Represents r ⟨type, n, (c.onList g.value.full? vs).2⟩ := by
  have hsite : Ring.Site.Holds ⟨ring, g⟩ ns vs := hh
  have hstay : s.Represents r ⟨type, n, vs⟩ := ⟨ring, g.value, ns, hc, arenaAt_of_get hg, hh⟩
  -- an operation that answers as the list does is what the command does
  have hon : ∀ {β : Type} {x : Act Error (Ring.Site type.Value) β} (f : β → Reply)
      {result : Except Error β} {vs' : List type.Value},
      Ring.Site.Answers ⟨ring, g⟩ x result vs' →
      c.onList g.value.full? vs = (some ((result.mapError .refused).map f), vs') →
      (∀ result ∈ (c.onList g.value.full? vs).1, ((f <$> onRing r ring n x) s).result = result) ∧
        ((f <$> onRing r ring n x) s).state.Represents r
          ⟨type, n, (c.onList g.value.full? vs).2⟩ := by
    intro β x f result vs' hx hlist
    obtain ⟨hresult, hrep⟩ := onRing_answers hc hg hx
    rw [hlist, Act.map_apply]
    refine ⟨fun result' hr => ?_, hrep⟩
    rw [← Option.mem_some_iff.1 hr, hresult]
  cases c with
  | push side v =>
    apply hon _ (Ring.answers_push hsite hf hs side v)
    simp only [RingCommand.onList]
    cases g.value.full? <;> rfl
  | pop side => exact hon _ (Ring.answers_pop hsite hf side) rfl
  | peek side =>
    apply hon _ (Ring.answers_peek hsite hf side)
    simp only [RingCommand.onList]
    cases side.outer? vs <;> rfl
  | get index =>
    apply hon _ (Ring.answers_get hsite hf index)
    simp only [RingCommand.onList]
    cases vs[index]? <;> rfl
  | set index v =>
    apply hon _ (Ring.answers_set hsite hf index v)
    simp only [RingCommand.onList]
    by_cases hi : index < vs.length
    · simp only [if_pos hi]
      rfl
    · simp only [if_neg hi]
      rfl
  | clear => exact hon _ (Ring.answers_clear hsite hf) rfl
  | toList => exact hon _ (Ring.answers_toList hsite hf) rfl
  | size =>
    refine ⟨fun result hr => ?_, hstay⟩
    rw [← Option.mem_some_iff.1 hr]
    have hlen : ring.len = vs.length := hh.len_eq
    have hempty : ring.isEmpty = vs.isEmpty := by
      unfold Ring.isEmpty
      rw [hlen]
      cases vs <;> rfl
    simp only [ringStep, hlen, hempty]
    rfl
  | scan steps =>
    by_cases hp : ∀ step ∈ steps, step.Plain
    · apply hon _ (Ring.answers_scan hsite hf hp)
      simp only [RingCommand.onList, if_pos hp]
      rfl
    · have hlist : (RingCommand.scan steps : RingCommand type.Value).onList g.value.full? vs =
          (none, vs) := if_neg hp
      have hx : Ring.Site.Answers ⟨ring, g⟩ (Ring.scan steps) (Ring.scan steps ⟨ring, g⟩).result
          vs := by
        refine ⟨(Ring.scan steps ⟨ring, g⟩).state, ns, _, rfl, ?_⟩
        rw [Ring.state_scan]
        exact hsite
      rw [hlist, ringStep, Act.map_apply]
      refine ⟨?_, (onRing_answers hc hg hx).2⟩
      intro result hr
      cases hr
  | describe =>
    refine ⟨?_, hstay⟩
    intro result hr
    cases hr

end RingStep

/-- The arena is held by nobody. -/
def FreeAt (s : Store) (k : Nat) : Prop := ∀ g, s.arenas[k]? = some g → g.hold = .free

/-- **A command to a ring is a command to its list.** -/
theorem ring_onList {q : Listed} (h : s.Represents r q) (hf : s.FreeAt q.nodes)
    (hs : s.Settled q.nodes) (c : RingCommand Datum) :
    (∀ result ∈ q.answer (s.fullAt q.nodes) c, (step (.ring r c) s).result = result) ∧
      (step (.ring r c) s).state.Represents r (q.after (s.fullAt q.nodes) c) := by
  have hstay := h
  obtain ⟨ring, a, ns, hc, ha, hh⟩ := h
  obtain ⟨g, hg, rfl⟩ : ∃ g, s.arenas[q.nodes]? = some g ∧ g.value = a :=
    Option.map_eq_some_iff.1 ha
  have hfull : s.fullAt q.nodes = g.value.full? := by rw [fullAt, ha]; rfl
  rw [step, Act.bind_ok (container_ok hc), hfull]
  unfold Listed.answer Listed.after
  cases hd : c.as? q.type with
  | none =>
    simp only [hd]
    refine ⟨fun result hr => ?_, hstay⟩
    rw [← Option.mem_some_iff.1 hr]
    rfl
  | some d =>
    simp only [hd]
    exact ringStep_onList hc hg (hf g hg) (hs.sound _ ha) hh d

/-- A ring is given up. -/
theorem result_drop {q : Listed} (h : s.Represents r q) (hf : s.FreeAt q.nodes) :
    (step (.drop r) s).result = .ok .done := by
  obtain ⟨ring, a, ns, hc, ha, hh⟩ := h
  obtain ⟨g, hg, rfl⟩ : ∃ g, s.arenas[q.nodes]? = some g ∧ g.value = a :=
    Option.map_eq_some_iff.1 ha
  obtain ⟨t, hdrop, -⟩ := Ring.drop_ok (s := ⟨ring, g⟩) hh (hf g hg)
  have hresult : (dropContainer r (.ring q.type ring q.nodes) s).result = .ok () := by
    unfold dropContainer
    rw [Act.afterwards_apply]
    dsimp only
    rw [onRing_some r ring hg, hdrop]
    rfl
  rw [step, Act.bind_ok (container_ok hc)]
  dsimp only
  rw [Act.bind_of_ok hresult]
  rfl

/-! ### Making rings -/

/-- Whether a ring of a type can be made on an arena, and what is answered if not. -/
def opening (s : Store) (type : ElementType) (n : Nat) : Except Failure Unit :=
  match s.arenaAt n with
  | none => .error .unknown
  | some a =>
    if a.blockSize < Ring.nodeSize type.Value then .error (.refused (.badSizing
      s!"deque nodes need {Ring.nodeSize type.Value} bytes, allocator blocks hold {a.blockSize}"))
    else
      match a.full? with
      | some capacity => .error (.refused (.full BlockArena.kind capacity))
      | none => .ok ()

/-- The making of a ring answers as announced, and makes an empty list or nothing. -/
def Opens (s : Store) (type : ElementType) (n : Nat) : Prop :=
  (step (.newRing type n) s).result =
      (s.opening type n).map (fun _ => .container s.containers.size) ∧
    match s.opening type n with
    | .ok () => (step (.newRing type n) s).state.Represents s.containers.size ⟨type, n, []⟩
    | .error _ => (step (.newRing type n) s).state = s

variable {type : ElementType} {n : Nat}

/-- A ring that is refused. -/
theorem opens_of_error {e : Failure} (log : List Event) (ho : s.opening type n = .error e)
    (hx : onArena n ((Ring.create (α := type.Value)).mapError .refused) s = ⟨.error e, s, log⟩) :
    s.Opens type n := by
  unfold Opens
  rw [ho, step, Act.bind_error hx]
  exact ⟨rfl, rfl⟩

theorem onArena_error {g : Guarded BlockArena} {x : Act Failure (Guarded BlockArena) α}
    {e : Failure} {log : List Event} (hg : s.arenas[n]? = some g) (hx : x g = ⟨.error e, g, log⟩) :
    onArena n x s = ⟨.error e, s, log⟩ := by
  rw [onArena_some hg, hx]
  simp only [set_back hg]

/-- **A ring is made as an empty list**, if there is room for it. -/
theorem opens (type : ElementType) (hf : s.FreeAt n) (hs : s.Settled n) : s.Opens type n := by
  cases hg : s.arenas[n]? with
  | none =>
    have ha : s.arenaAt n = none := by rw [arenaAt, hg]; rfl
    have ho : s.opening type n = .error .unknown := by rw [opening, ha]
    exact opens_of_error [] ho (onArena_none hg _)
  | some g =>
    have ha := arenaAt_of_get hg
    have hsound := hs.sound _ ha
    by_cases hw : g.value.blockSize < Ring.nodeSize type.Value
    · have ho : s.opening type n =
          .error (.refused (Ring.tooNarrow type.Value g.value.blockSize)) := by
        rw [opening, ha]
        exact if_pos hw
      refine opens_of_error [] ho (onArena_error hg ?_)
      rw [Act.mapError_apply, Ring.create_narrow (hf g hg) hw]
      rfl
    rcases hn : g.value.freeList.next? with _ | ⟨i, rest⟩
    · have hfull : g.value.full? = some g.value.capacity :=
        if_pos (hsound.next?_eq_none_iff.1 hn)
      have ho : s.opening type n = .error (.refused (.full BlockArena.kind g.value.capacity)) := by
        simp only [opening, ha, if_neg hw, hfull]
      refine opens_of_error [.blocksExhausted g.value.capacity] ho (onArena_error hg ?_)
      rw [Act.mapError_apply, Ring.create_full (hf g hg) (Nat.le_of_not_lt hw) hn]
      rfl
    · have hroom : g.value.full? = none := if_neg fun hl => by
        rw [hsound.next?_eq_none_iff.2 hl] at hn
        cases hn
      have ho : s.opening type n = .ok () := by
        simp only [opening, ha, if_neg hw, hroom]
      obtain ⟨ring, b, hcreate, hh, -⟩ :=
        Ring.create_ok (α := type.Value) (hf g hg) hsound (Nat.le_of_not_lt hw) hn
      have hx : onArena n ((Ring.create (α := type.Value)).mapError .refused) s =
          ⟨.ok ring, { s with arenas := s.arenas.setIfInBounds n { g with value := b } },
            g.value.peakLog⟩ := by
        rw [onArena_some hg]
        simp only [Act.mapError_apply, hcreate]
        rfl
      unfold Opens
      rw [ho, step, Act.bind_ok hx]
      refine ⟨rfl, ring, b, [], ?_, ?_, hh⟩
      · exact (containerAt_of_push (s := s) rfl _).trans (if_pos rfl)
      · exact (arenaAt_of_set hg rfl n).trans (if_pos rfl)

end Store

end FixedArena
