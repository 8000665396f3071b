import FixedArena.Proofs.Store.Conservation

/-!
Who is told that no block is free. Rings ask their arena for a block when they are made and when a value
is added; pools are asked in between, but it is the arena alone that can say that no block is left.

Main facts:
* `Error.NoBlock`: the refusal of an arena without a free block;
* `Ring.noBlock_push`, `TextRing.noBlock_push`, `TextRing.noBlock_pushText`: who answers so has no block;
* `Store.Asks`, `Store.noBlock_asks`: the commands that ask for a block, and when they are told so.
-/

namespace FixedArena

/-- The refusal says that no block is free. -/
def Error.NoBlock : Error → Prop
  | .full arena _ => arena = BlockArena.kind
  | _ => False

namespace Act

variable {ε σ α β : Type} {x : Act ε σ α} {s : σ} {e : ε}

/-- The refusal of a sequence is one of its parts'. -/
theorem error_bind {f : α → Act ε σ β} (h : ((x >>= f) s).result = .error e) :
    (x s).result = .error e ∨ ∃ a, (x s).result = .ok a ∧ (f a (x s).state).result = .error e := by
  cases hr : (x s).result with
  | ok a =>
    rw [bind_of_ok hr] at h
    exact .inr ⟨a, rfl, h⟩
  | error e' =>
    rw [bind_of_error hr] at h
    exact .inl (congrArg Except.error (Except.error.inj h))

theorem error_map {f : α → β} (h : ((f <$> x) s).result = .error e) : (x s).result = .error e := by
  rw [map_apply] at h
  cases hr : (x s).result with
  | ok a =>
    rw [hr] at h
    cases h
  | error e' =>
    rw [hr] at h
    exact congrArg Except.error (Except.error.inj h)

/-- An attempt itself fails of faults only. -/
theorem error_attempt {x : Act Error σ α} {e : Error} (h : (attempt x s).result = .error e) :
    e.isFault = true := by
  cases hr : (x s).result with
  | ok a =>
    rw [attempt_ok hr] at h
    cases h
  | error e' =>
    cases he : e'.isFault with
    | false =>
      rw [attempt_error hr he] at h
      cases h
    | true =>
      rw [attempt_fault hr he] at h
      exact Except.error.inj h ▸ he

theorem refused_attempt {x : Act Error σ α} {e : Error}
    (h : (attempt x s).result = .ok (.error e)) : (x s).result = .error e := by
  cases hr : (x s).result with
  | ok a =>
    rw [attempt_ok hr] at h
    cases h
  | error e' =>
    cases he : e'.isFault with
    | false =>
      rw [attempt_error hr he] at h
      exact congrArg Except.error (Except.error.inj (Except.ok.inj h))
    | true =>
      rw [attempt_fault hr he] at h
      cases h

end Act

open Error (NoBlock)

theorem Error.NoBlock.not_isFault {e : Error} (h : e.NoBlock) : e.isFault ≠ true := by
  cases e with
  | pastEnd stop size => exact h.elim
  | _ => exact nofun

/-! ### Pools -/

namespace TextPool

variable {p : TextPool} {h : TextHandle} {e : Error}

theorem not_noBlock_locate (he : p.locate h = .error e) : ¬e.NoBlock := by
  unfold locate at he
  split at he
  · cases he
    exact not_false
  · split at he
    all_goals cases he
    all_goals exact not_false

theorem not_noBlock_own (he : (own h p).result = .error e) : ¬e.NoBlock := by
  unfold own at he
  cases hl : p.locate h with
  | error e' =>
    rw [hl] at he
    cases he
    exact not_noBlock_locate hl
  | ok i =>
    rw [hl] at he
    dsimp only at he
    split at he
    · cases he
      exact not_false
    · cases he

theorem not_noBlock_writeBytes {i offset : Nat} {bs : List UInt8}
    (he : (writeBytes i offset bs p).result = .error e) : ¬e.NoBlock := by
  unfold writeBytes at he
  split at he
  · next e' hw =>
    cases he
    unfold Slab.write at hw
    split at hw
    · cases hw
    · cases hw
      exact not_false
  · cases he

/-- Taking a slot for a text fails for want of a slot, if it fails. -/
theorem not_noBlock_store {t : String} (he : (TextRing.store t p).result = .error e) :
    ¬e.NoBlock := by
  unfold TextRing.store at he
  rcases Act.error_bind he with he | ⟨h, -, he⟩
  · cases hf : p.slots.findIdx? (· = .free) with
    | none =>
      rw [allocate_full p hf] at he
      cases he
      exact (by decide : kind ≠ BlockArena.kind)
    | some i =>
      rw [allocate_ok p hf] at he
      cases he
  rcases Act.error_bind he with he | ⟨n, -, he⟩
  · unfold assign at he
    rw [Act.get_bind, Act.read_bind] at he
    split at he
    · rcases Act.error_bind he with he | ⟨_, -, he⟩
      · exact not_noBlock_writeBytes he
      · cases he
    · next e' hl =>
      cases he
      exact not_noBlock_locate hl
  · cases he

theorem not_noBlock_writing {α : Type} {x : Act Error TextPool α} {g : Guarded TextPool}
    (hx : ∀ e, (x g.value).result = .error e → ¬e.NoBlock)
    (he : (writing x g).result = .error e) : ¬e.NoBlock := by
  unfold writing at he
  by_cases hf : g.hold = .free
  · rw [Guarded.writing_free busy x g hf] at he
    exact hx e he
  · rw [Guarded.writing_busy busy x g hf] at he
    cases he
    exact not_false

end TextPool

/-! ### Rings -/

namespace Ring

variable {α : Type} [Element α] {s : Site α} {g : Guarded BlockArena} {ns : List UInt32}
  {vs : List α} {e : Error}

/-- **A push that finds no block**, finds them all in use. -/
theorem noBlock_push (h : s.Holds ns vs) (hs : s.nodes.value.Sound) {side : Side} {v : α}
    (he : (push side v s).result = .error e) (hn : e.NoBlock) :
    s.nodes.value.live = s.nodes.value.capacity := by
  by_cases hf : s.nodes.hold = .free
  · rw [← hs.next?_eq_none_iff]
    match hnext : s.nodes.value.freeList.next? with
    | none => rfl
    | some (i, rest) =>
      rw [push_eq h hf hs hnext] at he
      cases he
  · rw [push_busy side v hf] at he
    cases he
    exact hn.elim

/-- A ring whose head finds no block finds them all in use. -/
theorem noBlock_create (hs : g.value.Sound)
    (he : ((create : Act Error (Guarded BlockArena) (Ring α)) g).result = .error e)
    (hn : e.NoBlock) : g.value.live = g.value.capacity := by
  by_cases hf : g.hold = .free
  · by_cases hw : g.value.blockSize < nodeSize α
    · rw [create_narrow hf hw] at he
      cases he
      exact hn.elim
    · rw [← hs.next?_eq_none_iff]
      match hnext : g.value.freeList.next? with
      | none => rfl
      | some (i, rest) =>
        obtain ⟨r, b, hcreate, -⟩ := create_ok (α := α) hf hs (Nat.le_of_not_lt hw) hnext
        rw [hcreate] at he
        cases he
  · rw [create_busy hf] at he
    cases he
    exact hn.elim

end Ring

namespace TextRing

variable {s : Site} {e : Error}

/-- A push that finds no block is told so by the ring of handles. -/
theorem noBlock_push {side : Ring.Side} {h : TextHandle}
    (he : (push side h s).result = .error e) (hn : e.NoBlock) :
    (Ring.push side h s.handles).result = .error e := by
  unfold push at he
  rcases Act.error_bind he with he | ⟨-, -, he⟩
  · exact absurd hn (TextPool.not_noBlock_writing (fun e => TextPool.not_noBlock_own) he)
  rcases Act.error_bind he with he | ⟨linked, hlinked, he⟩
  · exact absurd (Act.error_attempt he) hn.not_isFault
  cases linked with
  | ok _ => cases he
  | error e' =>
    rcases Act.error_bind he with he | ⟨-, -, he⟩
    · exact absurd (Act.error_attempt he) hn.not_isFault
    · obtain rfl := Except.error.inj he
      have hpush := Act.refused_attempt hlinked
      exact hpush

theorem noBlock_pushText {t : String} (he : (pushText t s).result = .error e) (hn : e.NoBlock) :
    ∃ h, (Ring.push .back h s.handles).result = .error e := by
  unfold pushText at he
  rcases Act.error_bind he with he | ⟨h, -, he⟩
  · exact absurd hn (TextPool.not_noBlock_writing (fun e => TextPool.not_noBlock_store) he)
  rcases Act.error_bind he with he | ⟨linked, hlinked, he⟩
  · exact absurd (Act.error_attempt he) hn.not_isFault
  cases linked with
  | ok _ => cases he
  | error e' =>
    rcases Act.error_bind he with he | ⟨-, -, he⟩
    · exact absurd (Act.error_attempt he) hn.not_isFault
    · obtain rfl := Except.error.inj he
      have hpush := noBlock_push (Act.refused_attempt hlinked) hn
      exact ⟨h, hpush⟩

end TextRing

/-! ### Commands that ask for a block -/

namespace Store

variable {s : Store} {k r : Nat} {a : BlockArena} {c : Command} {e : Error}

/-- The command asks an arena for a block, for the head of a ring or for a value. -/
def Asks (s : Store) (k : Nat) : Command → Prop
  | .newRing _ n | .newTextRing n _ => n = k
  | .ring r (.push ..) | .textRing r (.push ..) | .textRing r (.pushText _) =>
    (s.placedAt r).map Placed.nodes = some k
  | _ => False

theorem refused_of_mapError {α : Type} {r : Except Error α}
    (h : r.mapError Failure.refused = .error (.refused e)) : r = .error e := by
  cases r with
  | ok a => cases h
  | error e' =>
    cases h
    rfl

theorem refused_create {type : ElementType} {g : Guarded BlockArena} (hg : s.arenas[k]? = some g)
    (h : (onArena k ((Ring.create (α := type.Value)).mapError .refused) s).result =
      .error (.refused e)) :
    ((Ring.create : Act Error (Guarded BlockArena) (Ring type.Value)) g).result = .error e := by
  rw [onArena_some hg] at h
  exact refused_of_mapError h

theorem ok_addContainer {x : Container} {f : Failure} :
    ((Reply.container <$> addContainer x) s).result ≠ .error f := nofun

section Asks

variable (hs : s.Settled k) (ha : s.arenaAt k = some a) (hn : e.NoBlock)

include hs ha hn

theorem noBlock_newRing {type : ElementType}
    (he : (step (.newRing type k) s).result = .error (.refused e)) : a.live = a.capacity := by
  obtain ⟨g, hg, rfl⟩ := Option.map_eq_some_iff.1 ha
  rcases Act.error_bind he with he | ⟨ring, -, he⟩
  · exact Ring.noBlock_create (hs.sound _ ha) (refused_create hg he) hn
  · exact absurd he ok_addContainer

theorem noBlock_newTextRing {pool : Nat}
    (he : (step (.newTextRing k pool) s).result = .error (.refused e)) : a.live = a.capacity := by
  obtain ⟨g, hg, rfl⟩ := Option.map_eq_some_iff.1 ha
  rcases Act.error_bind he with he | ⟨-, -, he⟩
  · unfold needPool at he
    rw [Act.read_apply] at he
    split at he
    all_goals cases he
  rcases Act.error_bind he with he | ⟨ring, -, he⟩
  · have hcreate := @refused_create s k e .handle g hg he
    exact Ring.noBlock_create (hs.sound _ ha) hcreate hn
  · exact absurd he ok_addContainer

theorem noBlock_ring {side : Ring.Side} {v : Datum} (hr : (s.placedAt r).map Placed.nodes = some k)
    (he : (step (.ring r (.push side v)) s).result = .error (.refused e)) :
    a.live = a.capacity := by
  obtain ⟨g, hg, rfl⟩ := Option.map_eq_some_iff.1 ha
  obtain h | ⟨type, ring, n, d, hc, hd, h⟩ := ring_cases r (.push side v) s
  · rw [h] at he
    cases he
  have hp := placedAt_of_container hc
  obtain ⟨v', -, rfl⟩ := Option.map_eq_some_iff.1 hd
  obtain rfl : n = k := by
    rw [hp] at hr
    exact Option.some.inj hr
  obtain ⟨ns, vs, hh⟩ := hs.valid _ ha r _ hp rfl
  rw [h] at he
  have hpush := Act.error_map he
  rw [onRing_some r ring hg] at hpush
  exact Ring.noBlock_push (s := ⟨ring, g⟩) hh (hs.sound _ ha) (refused_of_mapError hpush) hn

/-- A text ring hands the refusal of its arena on. -/
theorem noBlock_textRing {α : Type} {d : TextRingCommand} {x : Act Error TextRing.Site α}
    (hr : (s.placedAt r).map Placed.nodes = some k)
    (hd : ∀ tr n pool, (textRingStep r tr n pool d s).result = .error (.refused e) →
      (onTextRing r tr n pool x s).result = .error (.refused e))
    (hx : ∀ site, (x site).result = .error e →
      ∃ side h, (Ring.push side h site.handles).result = .error e)
    (he : (step (.textRing r d) s).result = .error (.refused e)) : a.live = a.capacity := by
  obtain ⟨g, hg, rfl⟩ := Option.map_eq_some_iff.1 ha
  obtain ⟨-, h⟩ | ⟨tr, n, pool, hc, h⟩ := textRing_cases r d s
  · rw [h] at he
    cases he
  have hp := placedAt_of_container hc
  obtain rfl : n = k := by
    rw [hp] at hr
    exact Option.some.inj hr
  obtain ⟨ns, vs, hh⟩ := hs.valid _ ha r _ hp rfl
  have hstep := hd tr n pool (h ▸ he)
  obtain ⟨-, hon⟩ | ⟨g', p, hg', -, hon⟩ := onTextRing_cases r tr pool n x s
  · rw [hon] at hstep
    cases hstep
  · obtain rfl := Option.some.inj (hg.symm.trans hg')
    rw [hon] at hstep
    obtain ⟨side, h', hpush⟩ := hx _ (refused_of_mapError hstep)
    exact Ring.noBlock_push (s := ⟨tr.handles, g⟩) hh (hs.sound _ ha) hpush hn

/-- **Who asks for a block and is told that none is free**, finds them all in use. -/
theorem noBlock_asks (hc : s.Asks k c) (he : (step c s).result = .error (.refused e)) :
    a.live = a.capacity := by
  cases c with
  | newRing type n =>
    obtain rfl : n = k := hc
    exact noBlock_newRing hs ha hn he
  | newTextRing n pool =>
    obtain rfl : n = k := hc
    exact noBlock_newTextRing hs ha hn he
  | ring r d =>
    cases d with
    | push side v => exact noBlock_ring hs ha hn hc he
    | _ => exact hc.elim
  | textRing r d =>
    cases d with
    | push side h =>
      refine noBlock_textRing hs ha hn hc (fun tr n pool => Act.error_map) (fun site hx => ?_) he
      exact ⟨side, h, TextRing.noBlock_push hx hn⟩
    | pushText t =>
      refine noBlock_textRing hs ha hn hc (fun tr n pool => Act.error_map) (fun site hx => ?_) he
      obtain ⟨h, hpush⟩ := TextRing.noBlock_pushText hx hn
      exact ⟨.back, h, hpush⟩
    | _ => exact hc.elim
  | _ => exact hc.elim

end Asks

end Store

end FixedArena
