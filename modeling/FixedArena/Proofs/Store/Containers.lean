import FixedArena.Proofs.Store.Quiet

/-!
Commands to containers. Whatever is asked of a ring or a text ring, be it to give the ring up, is
one exchange of blocks between its container and the free blocks; so is the making of a ring.

Main facts:
* `exchanges_ring`, `exchanges_textRing`, `exchanges_drop`: the commands to containers;
* `exchanges_newRing`, `exchanges_newTextRing`: the making of rings.
-/

namespace FixedArena

namespace Store

variable {α : Type} {s t : Store} {k r : Nat}

/-! ### Commands to rings -/

section Rings

variable {type : ElementType} {ring : Ring type.Value} {n pool : Nat} {tr : TextRing}

theorem placedAt_of_container {c : Container} (hc : s.containerAt r = some c) :
    s.placedAt r = c.placed? := by
  rw [placedAt, hc]
  rfl

/-- A command that changes nothing is an exchange. -/
theorem exchanges_refl (hs : s.Settled k) (r : Nat) : Exchanges k s r [] s [] :=
  exchanges_of_quiet (refl_of Quiet s) hs r

theorem exchanges_onRing {x : Act Error (Ring.Site type.Value) α}
    (hx : Act.Within Ring.Site.Advances x) (hc : s.containerAt r = some (.ring type ring n))
    (hs : s.Settled k) : Exchanges k s r [] (onRing r ring n x s).state [] := by
  cases hg : s.arenas[n]? with
  | none =>
    rw [onRing_none r ring hg]
    exact exchanges_refl hs r
  | some g =>
    rw [onRing_some r ring hg]
    have hlt := lt_size_of_containerAt hc
    refine exchanges_of_advances hg rfl (Nat.le_refl _) (containerAt_of_set hlt rfl)
      (placedAt_of_container hc) ?_ (hx ⟨ring, g⟩) hs
    rfl

theorem exchanges_ringStep (c : RingCommand type.Value)
    (hc : s.containerAt r = some (.ring type ring n)) (hs : s.Settled k) :
    Exchanges k s r [] (ringStep r ring n c s).state [] := by
  have hon : ∀ {β : Type} (x : Act Error (Ring.Site type.Value) β) (f : β → Reply),
      Act.Within Ring.Site.Advances x →
      Exchanges k s r [] ((f <$> onRing r ring n x) s).state [] := by
    intro _ x f hx
    rw [Act.map_apply]
    exact exchanges_onRing hx hc hs
  cases c with
  | push side v => exact hon _ _ (Ring.advances_push side v)
  | pop side => exact hon _ _ (Ring.advances_pop side)
  | peek side => exact hon _ _ fun t => by rw [Ring.state_peek]; exact refl_of _ t
  | get index => exact hon _ _ fun t => by rw [Ring.state_get]; exact refl_of _ t
  | set index v => exact hon _ _ (Ring.advances_set index v)
  | clear => exact hon _ _ Ring.advances_clear
  | size => exact exchanges_refl hs r
  | toList => exact hon _ _ (Act.within_read _)
  | scan steps => exact hon _ _ fun t => by rw [Ring.state_scan]; exact refl_of _ t
  | describe => exact exchanges_refl hs r

/-- **A command to a ring is an exchange.** -/
theorem exchanges_ring (r : Nat) (c : RingCommand Datum) (hs : s.Settled k) :
    Exchanges k s r [] (step (.ring r c) s).state [] := by
  obtain h | ⟨type, ring, n, d, hc, -, h⟩ := ring_cases r c s
  · rw [h]
    exact exchanges_refl hs r
  · rw [h]
    exact exchanges_ringStep d hc hs

theorem exchanges_onTextRing {x : Act Error TextRing.Site α}
    (hx : Act.Within TextRing.Site.Keeps x) (hc : s.containerAt r = some (.textRing tr n pool))
    (hs : s.Settled k) : Exchanges k s r [] (onTextRing r tr n pool x s).state [] := by
  obtain ⟨-, h⟩ | ⟨g, p, hg, -, h⟩ := onTextRing_cases r tr pool n x s
  · rw [h]
    exact exchanges_refl hs r
  · rw [h]
    have hlt := lt_size_of_containerAt hc
    let site := (x ⟨tr, g, p⟩).state
    have hadv : Ring.Site.Advances (α := ElementType.handle.Value) ⟨tr.handles, g⟩
        ⟨site.ring.handles, site.nodes⟩ := by
      intro hsound ns vs hh
      obtain ⟨ns', vs', hh', hm, -⟩ := hx ⟨tr, g, p⟩ hsound ns vs hh
      exact ⟨ns', vs', hh', hm⟩
    refine exchanges_of_advances hg rfl (Array.size_setIfInBounds ..).ge
      (containerAt_of_set hlt rfl) (placedAt_of_container hc) ?_ hadv hs
    rfl

theorem exchanges_textRingStep {c : TextRingCommand} (hne : c ≠ .intoTexts)
    (hc : s.containerAt r = some (.textRing tr n pool)) (hs : s.Settled k) :
    Exchanges k s r [] (textRingStep r tr n pool c s).state [] := by
  have hon : ∀ {β : Type} (x : Act Error TextRing.Site β) (f : β → Reply),
      Act.Within TextRing.Site.Keeps x →
      Exchanges k s r [] ((f <$> textRingStep.on r tr n pool x) s).state [] := by
    intro _ x f hx
    rw [Act.map_apply]
    exact exchanges_onTextRing hx hc hs
  cases c with
  | push side h => exact hon _ _ (TextRing.keeps_push side h)
  | pushText t => exact hon _ _ (TextRing.keeps_pushText t)
  | pop side => exact hon _ _ (TextRing.keeps_pop side)
  | peek side => exact hon _ _ (TextRing.keeps_peek side)
  | get index => exact hon _ _ (TextRing.keeps_get index)
  | text index => exact hon _ _ (TextRing.keeps_text index)
  | position t => exact hon _ _ (Act.within_read _)
  | size => exact exchanges_refl hs r
  | toList => exact hon _ _ (Act.within_read _)
  | scan steps => exact hon _ _ (TextRing.keeps_onHandles (Ring.state_scan steps))
  | clear => exact hon _ _ TextRing.keeps_clear
  | describe => exact hon _ _ (Act.within_read _)
  | describeLong => exact hon _ _ (Act.within_read _)
  | intoTexts => exact absurd rfl hne
  | livesIn k => exact exchanges_refl hs r

/-! ### Giving rings up -/

/-- A container without blocks on the arena can go. -/
theorem exchanges_without (hq : s.Quiet t) (hr : r < t.containers.size)
    (h0 : s.slotsAt k r = []) : Exchanges k s r [] (without r t) (s.leftBy k r) := by
  have hout : ∀ r', (without r t).containerAt r' = if r' = r then none else s.containerAt r' := by
    intro r'
    rw [containerAt_of_set (s := t) (x := none) hr rfl r', hq.containerAt]
  have hgone : (without r t).placedAt r = none := by
    rw [placedAt_of_containerAt (hout r), if_pos rfl]
    rfl
  rw [leftBy_of_slotsAt_nil h0]
  refine exchanges_of_unplaced hq.arenaAt ⟨hq.grown.arenas, hq.grown.pools⟩ ?_ h0 hgone
  intro r' hr'
  rw [hout, if_neg hr']

theorem exchanges_dropRing (hc : s.containerAt r = some (.ring type ring n)) (hs : s.Settled k) :
    Exchanges k s r [] (without r (onRing r ring n Ring.drop s).state) (s.leftBy k r) := by
  have hlt := lt_size_of_containerAt hc
  have hp := placedAt_of_container hc
  cases hg : s.arenas[n]? with
  | none =>
    have hlt' := (hs.homed r _ hp).nodes
    rw [Array.getElem?_eq_getElem hlt'] at hg
    cases hg
  | some g =>
    rw [onRing_some r ring hg]
    refine exchanges_of_drop hg rfl (Nat.le_refl _) ?_ hp
      (fun ns vs hsound hh => ⟨fun hf => ?_, fun hf => ?_⟩) hs
    · exact containerAt_of_set hlt (Array.setIfInBounds_setIfInBounds ..)
    · obtain ⟨t, ht, -, hturns⟩ := Ring.drop_ok (s := ⟨ring, g⟩) hh hf
      have hstate : (Ring.drop ⟨ring, g⟩).state.nodes.value = t.nodes.value := by rw [ht]
      exact hstate ▸ hturns
    · have hbusy := Ring.drop_busy (s := ⟨ring, g⟩) hf
      exact congrArg (fun o => o.state.nodes.value) hbusy

theorem exchanges_dropTextRing (hc : s.containerAt r = some (.textRing tr n pool))
    {x : Act Error TextRing.Site α} (hx : ∀ site, (x site).state = (TextRing.drop site).state)
    (hs : s.Settled k) :
    Exchanges k s r [] (without r (onTextRing r tr n pool x s).state) (s.leftBy k r) := by
  have hlt := lt_size_of_containerAt hc
  have hp := placedAt_of_container hc
  obtain ⟨hnone | hnone, -⟩ | ⟨g, p, hg, -, h⟩ := onTextRing_cases r tr pool n x s
  · have hlt' := (hs.homed r _ hp).nodes
    rw [Array.getElem?_eq_getElem hlt'] at hnone
    cases hnone
  · have hlt' := (hs.homed r _ hp).pool pool rfl
    rw [Array.getElem?_eq_getElem hlt'] at hnone
    cases hnone
  · rw [h]
    have hstate : (x ⟨tr, g, p⟩).state = (TextRing.drop ⟨tr, g, p⟩).state := hx _
    refine exchanges_of_drop hg rfl (Array.size_setIfInBounds ..).ge ?_ hp
      (fun ns vs hsound hh => ?_) hs
    · exact containerAt_of_set hlt (Array.setIfInBounds_setIfInBounds ..)
    · obtain ⟨-, -, -, hfree, hheld⟩ := TextRing.drop_trades (s := ⟨tr, g, p⟩) hsound hh
      rw [← hstate] at hfree hheld
      exact ⟨hfree, fun hf => congrArg Guarded.value (hheld hf)⟩

theorem exchanges_dropText {h : TextHandle} (hc : s.containerAt r = some (.text h pool))
    (x : Act Failure (Guarded TextPool) α) :
    Exchanges k s r [] (without r (onPool pool x s).state) (s.leftBy k r) := by
  have hp : s.placedAt r = none := placedAt_of_container hc
  have hlt := lt_size_of_containerAt hc
  have hquiet := quiet_onPool pool x s
  exact exchanges_without hquiet (hquiet.containers ▸ hlt) (slotsAt_of_placedAt_none hp)

theorem exchanges_dropContainer {c : Container} (hc : s.containerAt r = some c)
    (hs : s.Settled k) : Exchanges k s r [] (dropContainer r c s).state (s.leftBy k r) := by
  unfold dropContainer
  rw [Act.afterwards_apply]
  cases c with
  | ring type ring n => exact exchanges_dropRing hc hs
  | textRing tr n pool => exact exchanges_dropTextRing hc (fun _ => rfl) hs
  | text h pool => exact exchanges_dropText hc _

theorem leftBy_of_unknown (hc : s.containerAt r = none) : s.leftBy k r = [] := by
  refine leftBy_of_slotsAt_nil (slotsAt_of_placedAt_none ?_)
  rw [placedAt, hc]
  rfl

/-- **Dropping a container is an exchange.** -/
theorem exchanges_drop (r : Nat) (hs : s.Settled k) :
    Exchanges k s r [] (step (.drop r) s).state (s.leftBy k r) := by
  obtain ⟨hc, h⟩ | ⟨c, hc, h⟩ := drop_cases r s
  · rw [h, leftBy_of_unknown hc]
    exact exchanges_refl hs r
  · rw [h]
    exact exchanges_dropContainer hc hs

/-- The blocks that a command to a text ring leaves to nobody. -/
def leftByTextRing (s : Store) (k r : Nat) : TextRingCommand → List UInt32
  | .intoTexts =>
    match s.containerAt r with
    | some (.textRing ..) => s.leftBy k r
    | _ => []
  | _ => []

/-- **A command to a text ring is an exchange.** -/
theorem exchanges_textRing (r : Nat) (c : TextRingCommand) (hs : s.Settled k) :
    Exchanges k s r [] (step (.textRing r c) s).state (s.leftByTextRing k r c) := by
  obtain ⟨hne, h⟩ | ⟨tr, n, pool, hc, h⟩ := textRing_cases r c s
  · have hleft : s.leftByTextRing k r c = [] := by
      unfold leftByTextRing
      split
      · split
        · next hc => exact absurd hc (hne _ _ _)
        · rfl
      · rfl
    rw [h, hleft]
    exact exchanges_refl hs r
  · rw [h]
    by_cases hne : c = .intoTexts
    · subst hne
      simp only [leftByTextRing, hc]
      have hdrop := exchanges_dropTextRing hc (x := TextRing.intoTexts) TextRing.state_intoTexts hs
      rw [textRingStep, Act.map_apply, Act.afterwards_apply]
      exact hdrop
    · have hleft : s.leftByTextRing k r c = [] := by
        unfold leftByTextRing
        split
        · exact absurd rfl hne
        · rfl
      rw [hleft]
      exact exchanges_textRingStep hne hc hs

end Rings

/-! ### Making rings -/

section Make

variable {n : Nat}

/-- Making a ring on an arena. -/
theorem onArena_create (α : Type) [Element α] (hs : ∀ j, s.Settled j) (n : Nat) :
    (∃ e log, onArena n ((Ring.create (α := α)).mapError .refused) s = ⟨.error e, s, log⟩) ∨
    ∃ g r b log, s.arenas[n]? = some g ∧
      onArena n ((Ring.create (α := α)).mapError .refused) s =
        ⟨.ok r, { s with arenas := s.arenas.setIfInBounds n { g with value := b } }, log⟩ ∧
      r.Holds b [] [] ∧ ∀ l, g.value.Turns l b (r.head.index :: l) := by
  cases hg : s.arenas[n]? with
  | none => exact .inl ⟨.unknown, [], onArena_none hg _⟩
  | some g =>
    rw [onArena_some hg]
    have hsound := (hs n).sound g.value (arenaAt_of_get hg)
    obtain ⟨r, b, log, hcreate, hh, hturns⟩ | ⟨e, log, hcreate⟩ :=
      Ring.create_cases (α := α) hsound
    · refine .inr ⟨g, r, b, log, rfl, ?_, hh, hturns⟩
      simp only [Act.mapError_apply, hcreate]
      rfl
    · refine .inl ⟨.refused e, log, ?_⟩
      simp only [Act.mapError_apply, hcreate, set_back hg]
      rfl

theorem addContainer_eq (c : Container) (s : Store) : addContainer c s =
    ⟨.ok s.containers.size, { s with containers := s.containers.push (some c) }, []⟩ := rfl

/-- Making a ring and the container that holds it is an exchange. -/
theorem exchanges_make (type : ElementType) (pool : Option Nat)
    {make : Ring type.Value → Container} (hs : ∀ j, s.Settled j)
    (hmake : ∀ ring, (make ring).placed? = some ⟨type, ring, n, pool⟩)
    (hpool : ∀ j ∈ pool, j < s.pools.size) : Exchanges k s s.containers.size []
      ((onArena n (Ring.create.mapError .refused) >>= fun ring =>
        Reply.container <$> addContainer (make ring)) s).state [] := by
  obtain ⟨e, log, hcreate⟩ | ⟨g, ring, b, log, hg, hcreate, hh, hturns⟩ :=
    onArena_create type.Value hs n
  · rw [Act.bind_error hcreate]
    exact exchanges_refl (hs k) _
  · rw [Act.bind_ok hcreate]
    exact exchanges_of_create hg rfl (Nat.le_refl _) (containerAt_of_push (s := s) rfl)
      (placedAt_of_size_le (Nat.le_refl _)) (hmake ring) hh hturns hpool

/-- **Making a ring is an exchange.** -/
theorem exchanges_newRing (type : ElementType) (n : Nat) (hs : ∀ j, s.Settled j) :
    Exchanges k s s.containers.size [] (step (.newRing type n) s).state [] := by
  rw [step]
  refine exchanges_make type none hs (fun _ => rfl) ?_
  intro j hj
  cases hj

/-- A text ring is made on a pool that is there, or refused. -/
theorem newTextRing_cases (n pool : Nat) (s : Store) :
    step (.newTextRing n pool) s = ⟨.error .unknown, s, []⟩ ∨
    pool < s.pools.size ∧ step (.newTextRing n pool) s =
      (onArena n (Ring.create.mapError .refused) >>= fun handles =>
        Reply.container <$> addContainer (.textRing ⟨handles⟩ n pool)) s := by
  rw [step]
  by_cases hpool : pool < s.pools.size
  · have hneed : needPool pool s = ⟨.ok (), s, []⟩ := by
      rw [needPool, Act.read_apply, if_pos hpool]
    right
    rw [Act.bind_ok hneed]
    exact ⟨hpool, rfl⟩
  · have hneed : needPool pool s = ⟨.error .unknown, s, []⟩ := by
      rw [needPool, Act.read_apply, if_neg hpool]
    left
    exact Act.bind_error hneed

/-- **Making a text ring is an exchange.** -/
theorem exchanges_newTextRing (n pool : Nat) (hs : ∀ j, s.Settled j) :
    Exchanges k s s.containers.size [] (step (.newTextRing n pool) s).state [] := by
  obtain h | ⟨hpool, h⟩ := newTextRing_cases n pool s
  · rw [h]
    exact exchanges_refl (hs k) _
  · rw [h]
    refine exchanges_make .handle (some pool) hs (fun _ => rfl) ?_
    intro j hj
    exact Option.mem_some_iff.1 hj ▸ hpool

/-- The making of a container without a ring is no exchange of blocks. -/
theorem exchanges_addText (hq : s.Quiet t) (c : Container) (hc : c.placed? = none) :
    Exchanges k s s.containers.size [] (addContainer c t).state [] := by
  have hpush : ∀ r', (addContainer c t).state.containerAt r' =
      if r' = s.containers.size then some c else s.containerAt r' := by
    intro r'
    rw [addContainer_eq, containerAt_of_push (s := t) rfl, hq.containers, hq.containerAt]
  have hnone : (addContainer c t).state.placedAt s.containers.size = none := by
    rw [placedAt_of_containerAt (hpush _), if_pos rfl]
    exact hc
  have h0 : s.slotsAt k s.containers.size = [] :=
    slotsAt_of_placedAt_none (placedAt_of_size_le (Nat.le_refl _))
  refine exchanges_of_unplaced hq.arenaAt ⟨hq.grown.arenas, hq.grown.pools⟩ ?_ h0 hnone
  intro r' hr'
  rw [hpush, if_neg hr']

theorem exchanges_makeText {β : Type} {x : StoreAct β} (hx : Act.Within Quiet x)
    (make : β → Container) (hmake : ∀ v, (make v).placed? = none) (hs : s.Settled k) :
    Exchanges k s s.containers.size []
      ((x >>= fun v => Reply.container <$> addContainer (make v)) s).state [] := by
  cases hr : (x s).result with
  | error e =>
    rw [Act.bind_of_error hr]
    exact exchanges_of_quiet (hx s) hs _
  | ok v =>
    rw [Act.bind_of_ok hr]
    exact exchanges_addText (hx s) (make v) (hmake v)

/-- **Making a text is no exchange of blocks.** -/
theorem exchanges_newText (pool : Nat) (content : Option String) (hs : s.Settled k) :
    Exchanges k s s.containers.size [] (step (.newText pool content) s).state [] := by
  rw [step]
  cases content with
  | none => exact exchanges_makeText (quiet_onPool _ _) _ (fun _ => rfl) hs
  | some t =>
    have hx : Act.Within Quiet
        (newText pool >>= fun h => onText pool (OwnedText.assign h t) >>= fun _ => pure h) :=
      (quiet_onPool _ _).bind fun h => (quiet_onPool _ _).bind fun _ => Act.within_pure _
    have hmake := exchanges_makeText hx (fun h => .text h pool) (fun _ => rfl) hs
    simp only [bind_assoc, pure_bind] at hmake
    exact hmake

theorem exchanges_clone (r : Nat) (hs : s.Settled k) :
    Exchanges k s s.containers.size [] (step (.text r .clone) s).state [] := by
  have hx : Act.Within Quiet (textAt r >>= fun p => newText p.2 >>= fun copy =>
      assignFrom copy p.2 p.1 p.2 >>= fun _ => pure (copy, p.2)) :=
    (quiet_of_calm (calm_textAt r)).bind fun _ => (quiet_onPool _ _).bind fun _ =>
      (quiet_of_calm (calm_assignFrom _ _ _ _)).bind fun _ => Act.within_pure _
  have hmake := exchanges_makeText hx (fun p => .text p.1 p.2) (fun _ => rfl) hs
  simp only [bind_assoc, pure_bind] at hmake
  rw [step]
  exact hmake

end Make

end Store

end FixedArena
