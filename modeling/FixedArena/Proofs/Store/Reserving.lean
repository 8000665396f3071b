import FixedArena.Proofs.Acts
import FixedArena.Store.Basic

/-!
Reserving arenas and pools: which sizes there is room for, and what becomes of a store when there
is room or none.

Main facts:
* `addArena_ok`, `addArena_error`, `addPool_ok`, `addPool_error`: reserving one arena or pool;
* `addArenas_ok`, `addArenas_noBlocks`, `addArenas_noSlots`: reserving both, where an arena without
  a pool is given up again;
* `addArena_cases`, `addArenas_cases`: what becomes of a store in all cases.
-/

namespace FixedArena

variable {α σ : Type} {bytes capacity blockSize slots maxLen : Nat} {e : ReservationFault}

/-- There is memory for sizes that passed a check, or what speaks against it. -/
def memoryFor (check : Except ReservationFault Unit) (bytes : Nat) :
    Except ReservationFault Unit :=
  match check with
  | .error e => .error e
  | .ok () => if bytes ≥ memoryLimit then .error (.beyondMemory bytes) else .ok ()

/-- A reservation as arenas and pools make it. -/
theorem reserving_ok {check : Except ReservationFault Unit} (h : memoryFor check bytes = .ok ())
    (ev : Event) (a : α) (s : σ) :
    (Act.read (fun _ => check) >>= fun _ => Act.log ev >>= fun _ =>
      if bytes ≥ memoryLimit then Act.fail (.beyondMemory bytes) else pure a) s =
      ⟨.ok a, s, [ev]⟩ := by
  match check with
  | .error e => cases h
  | .ok () =>
    have hm : ¬bytes ≥ memoryLimit := by
      intro hm
      simp only [memoryFor, if_pos hm] at h
      cases h
    simp only [Act.read_bind]
    apply (Act.bind_ok (Act.log_apply ev s)).trans
    rw [if_neg hm]
    rfl

theorem reserving_error {check : Except ReservationFault Unit}
    (h : memoryFor check bytes = .error e) (ev : Event) (a : α) (s : σ) : ∃ log,
    (Act.read (fun _ => check) >>= fun _ => Act.log ev >>= fun _ =>
      if bytes ≥ memoryLimit then Act.fail (.beyondMemory bytes) else pure a) s =
      ⟨.error e, s, log⟩ := by
  match check with
  | .error e' =>
    obtain rfl := Except.error.inj h
    exact ⟨[], Act.read_bind_error rfl⟩
  | .ok () =>
    simp only [memoryFor] at h
    split at h
    · next hm =>
      obtain rfl := Except.error.inj h
      refine ⟨[ev], ?_⟩
      simp only [Act.read_bind]
      apply (Act.bind_ok (Act.log_apply ev s)).trans
      rw [if_pos hm]
      rfl
    · cases h

/-- There is room for a block arena of these sizes, or what speaks against it. -/
def BlockArena.room (capacity blockSize : Nat) : Except ReservationFault Unit :=
  memoryFor (checkSizes capacity blockSize) (capacity * blockSize)

/-- There is room for a text pool of these sizes, or what speaks against it. -/
def TextPool.room (slots maxLen : Nat) : Except ReservationFault Unit :=
  memoryFor (checkSizes slots maxLen) (slots * (maxLen + 1))

theorem BlockArena.reserve_ok (h : room capacity blockSize = .ok ()) (id : UInt32) (s : σ) :
    reserve id capacity blockSize s =
      ⟨.ok (fresh id capacity blockSize), s, [.blocksReserved capacity blockSize]⟩ :=
  reserving_ok h _ _ s

theorem TextPool.reserve_ok (h : room slots maxLen = .ok ()) (id : UInt16) (s : σ) :
    reserve id slots maxLen s = ⟨.ok (fresh id slots maxLen), s, [.slotsReserved slots maxLen]⟩ :=
  reserving_ok h _ _ s

/-- There is room for blocks that fit handles and memories. -/
theorem BlockArena.room_eq_ok_iff : room capacity blockSize = .ok () ↔
    0 < capacity ∧ 0 < blockSize ∧ capacity < indexLimit ∧ capacity * blockSize < memoryLimit := by
  have hlimit : memoryLimit < wordLimit := by decide
  unfold room memoryFor checkSizes
  grind

/-- There is room for slots that fit handles and memories. -/
theorem TextPool.room_eq_ok_iff : room slots maxLen = .ok () ↔
    0 < slots ∧ 0 < maxLen ∧ slots < 65535 ∧ slots * (maxLen + 1) < memoryLimit := by
  have hlimit : memoryLimit < wordLimit := by decide
  unfold room memoryFor checkSizes
  grind

namespace Store

variable {s : Store}

/-! ### One arena, one pool -/

theorem addArena_ok (h : BlockArena.room capacity blockSize = .ok ()) (s : Store) :
    addArena capacity blockSize s = ⟨.ok s.arenas.size,
      { s with
        arenas := s.arenas.push { value := .fresh s.nextArena capacity blockSize }
        nextArena := s.nextArena + 1 },
      [.blocksReserved capacity blockSize]⟩ := by
  have hr : ((BlockArena.reserve s.nextArena capacity blockSize).mapError Failure.unreserved) s =
      ⟨.ok (.fresh s.nextArena capacity blockSize), s, [.blocksReserved capacity blockSize]⟩ := by
    rw [Act.mapError_apply, BlockArena.reserve_ok h]
    rfl
  unfold addArena
  exact (Act.get_bind _ s).trans (Act.bind_ok hr)

theorem addArena_error (h : BlockArena.room capacity blockSize = .error e) (s : Store) : ∃ log,
    addArena capacity blockSize s = ⟨.error (.unreserved e), s, log⟩ := by
  obtain ⟨log, hlog⟩ := reserving_error h (.blocksReserved capacity blockSize)
    (BlockArena.fresh s.nextArena capacity blockSize) s
  have hr : ((BlockArena.reserve s.nextArena capacity blockSize).mapError Failure.unreserved) s =
      ⟨.error (.unreserved e), s, log⟩ :=
    congrArg (fun o : Outcome _ _ _ => Outcome.mk (o.result.mapError _) o.state o.events) hlog
  unfold addArena
  exact ⟨log, (Act.get_bind _ s).trans (Act.bind_error hr)⟩

/-- What becomes of a store on which an arena is reserved. -/
theorem addArena_cases (capacity blockSize : Nat) (s : Store) :
    (addArena capacity blockSize s).state = s ∨
    BlockArena.room capacity blockSize = .ok () ∧
      (addArena capacity blockSize s).state = { s with
        arenas := s.arenas.push { value := .fresh s.nextArena capacity blockSize }
        nextArena := s.nextArena + 1 } := by
  cases hroom : BlockArena.room capacity blockSize with
  | error e =>
    obtain ⟨log, hadd⟩ := addArena_error hroom s
    left
    rw [hadd]
  | ok u =>
    right
    rw [addArena_ok hroom]
    exact ⟨rfl, rfl⟩

theorem addPool_ok (h : TextPool.room slots maxLen = .ok ()) (s : Store) :
    addPool slots maxLen s = ⟨.ok s.pools.size,
      { s with
        pools := s.pools.push { value := .fresh s.nextPool slots maxLen }
        nextPool := nextPoolId s.nextPool },
      [.slotsReserved slots maxLen]⟩ := by
  have hr : ((TextPool.reserve s.nextPool slots maxLen).mapError Failure.unreserved) s =
      ⟨.ok (.fresh s.nextPool slots maxLen), s, [.slotsReserved slots maxLen]⟩ := by
    rw [Act.mapError_apply, TextPool.reserve_ok h]
    rfl
  unfold addPool
  exact (Act.get_bind _ s).trans (Act.bind_ok hr)

theorem addPool_error (h : TextPool.room slots maxLen = .error e) (s : Store) : ∃ log,
    addPool slots maxLen s = ⟨.error (.unreserved e), s, log⟩ := by
  obtain ⟨log, hlog⟩ := reserving_error h (.slotsReserved slots maxLen)
    (TextPool.fresh s.nextPool slots maxLen) s
  have hr : ((TextPool.reserve s.nextPool slots maxLen).mapError Failure.unreserved) s =
      ⟨.error (.unreserved e), s, log⟩ :=
    congrArg (fun o : Outcome _ _ _ => Outcome.mk (o.result.mapError _) o.state o.events) hlog
  unfold addPool
  exact ⟨log, (Act.get_bind _ s).trans (Act.bind_error hr)⟩

/-! ### Both together -/

/-- The blocks of the arena that a sizing describes. -/
def blocksOf (sizing : Sizing) : Nat := sizing.nodes.maxLen + sizing.nodes.maxDeques

/-- The bytes of a block of the arena that a sizing describes. -/
def widthOf (sizing : Sizing) : Nat := sizing.nodes.blockSize.getD defaultBlockSize

/-- Adds the pool of a sizing, or gives the latest arena up. -/
def addPoolOrUndo (sizing : Sizing) : StoreAct Nat :=
  Act.onFailure (fun s => { s with arenas := s.arenas.pop })
    (addPool sizing.strings.slots sizing.strings.maxStrLen)

variable {sizing : Sizing}

theorem addPoolOrUndo_ok (h : TextPool.room sizing.strings.slots sizing.strings.maxStrLen = .ok ())
    (s : Store) :
    addPoolOrUndo sizing s = addPool sizing.strings.slots sizing.strings.maxStrLen s := by
  unfold addPoolOrUndo Act.onFailure
  rw [addPool_ok h s]

theorem addPoolOrUndo_error
    (h : TextPool.room sizing.strings.slots sizing.strings.maxStrLen = .error e) (s : Store) :
    ∃ log, addPoolOrUndo sizing s =
      ⟨.error (.unreserved e), { s with arenas := s.arenas.pop }, log⟩ := by
  obtain ⟨log, hlog⟩ := addPool_error h s
  unfold addPoolOrUndo Act.onFailure
  rw [hlog]
  exact ⟨log, rfl⟩

/-- The reservation of both is announced first. -/
theorem addArenas_eq (sizing : Sizing) (s : Store) :
    let both := (addArena (blocksOf sizing) (widthOf sizing) >>= fun nodes =>
      addPoolOrUndo sizing >>= fun pool => pure (nodes, pool)) s
    (addArenas sizing s).result = both.result ∧ (addArenas sizing s).state = both.state := by
  unfold addArenas
  rw [Act.bind_ok (Act.log_apply _ s)]
  exact ⟨rfl, rfl⟩

/-- Without room for the arena nothing is made. -/
theorem addArenas_noBlocks (h : BlockArena.room (blocksOf sizing) (widthOf sizing) = .error e)
    (s : Store) : (addArenas sizing s).result = .error (.unreserved e) ∧
      (addArenas sizing s).state = s := by
  obtain ⟨log, hlog⟩ := addArena_error h s
  obtain ⟨hresult, hstate⟩ := addArenas_eq sizing s
  rw [hresult, hstate, Act.bind_error hlog]
  exact ⟨rfl, rfl⟩

/-- Without room for the pool the arena is given up again; only its identity is used up. -/
theorem addArenas_noSlots (h : BlockArena.room (blocksOf sizing) (widthOf sizing) = .ok ())
    (hp : TextPool.room sizing.strings.slots sizing.strings.maxStrLen = .error e) (s : Store) :
    (addArenas sizing s).result = .error (.unreserved e) ∧
      (addArenas sizing s).state = { s with nextArena := s.nextArena + 1 } := by
  obtain ⟨log, hlog⟩ := addPoolOrUndo_error hp (addArena (blocksOf sizing) (widthOf sizing) s).state
  obtain ⟨hresult, hstate⟩ := addArenas_eq sizing s
  rw [addArena_ok h s] at hlog
  rw [hresult, hstate, Act.bind_ok (addArena_ok h s), Act.bind_error hlog]
  simp

theorem addArenas_ok (h : BlockArena.room (blocksOf sizing) (widthOf sizing) = .ok ())
    (hp : TextPool.room sizing.strings.slots sizing.strings.maxStrLen = .ok ()) (s : Store) :
    (addArenas sizing s).result = .ok (s.arenas.size, s.pools.size) ∧
      (addArenas sizing s).state = { s with
        arenas := s.arenas.push { value := .fresh s.nextArena (blocksOf sizing) (widthOf sizing) }
        pools := s.pools.push
          { value := .fresh s.nextPool sizing.strings.slots sizing.strings.maxStrLen }
        nextArena := s.nextArena + 1
        nextPool := nextPoolId s.nextPool } := by
  obtain ⟨hresult, hstate⟩ := addArenas_eq sizing s
  have hpool := addPoolOrUndo_ok hp (addArena (blocksOf sizing) (widthOf sizing) s).state
  rw [addArena_ok h s, addPool_ok hp] at hpool
  rw [hresult, hstate, Act.bind_ok (addArena_ok h s), Act.bind_ok hpool]
  exact ⟨rfl, rfl⟩

/-- What becomes of a store on which an arena and a pool are reserved. -/
theorem addArenas_cases (sizing : Sizing) (s : Store) :
    (addArenas sizing s).state = s ∨
    (addArenas sizing s).state = { s with nextArena := s.nextArena + 1 } ∨
    BlockArena.room (blocksOf sizing) (widthOf sizing) = .ok () ∧
      TextPool.room sizing.strings.slots sizing.strings.maxStrLen = .ok () ∧
      (addArenas sizing s).state = { s with
        arenas := s.arenas.push { value := .fresh s.nextArena (blocksOf sizing) (widthOf sizing) }
        pools := s.pools.push
          { value := .fresh s.nextPool sizing.strings.slots sizing.strings.maxStrLen }
        nextArena := s.nextArena + 1
        nextPool := nextPoolId s.nextPool } := by
  cases hroom : BlockArena.room (blocksOf sizing) (widthOf sizing) with
  | error e => exact .inl (addArenas_noBlocks hroom s).2
  | ok u =>
    cases hslots : TextPool.room sizing.strings.slots sizing.strings.maxStrLen with
    | error e => exact .inr (.inl (addArenas_noSlots hroom hslots s).2)
    | ok u => exact .inr (.inr ⟨rfl, rfl, (addArenas_ok hroom hslots s).2⟩)

end Store

end FixedArena
