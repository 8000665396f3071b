import FixedArena.Proofs.Store.Settling
import FixedArena.Proofs.Store.Steps

/-!
The text handles that containers hold, and what each command does to those of its container: it is
a deal of this one holder with the pools, however the command ends.

Main facts:
* `heldAt`: the handles of one container, `held`: those of all;
* `step_deals`: a command deals with the handles of its container only.
-/

namespace FixedArena

namespace Store

open TextPool (Trades)

variable {α : Type} {s t : Store} {k r : Nat} {a : BlockArena}

/-! ### What containers hold -/

/-- The handles that a container holds. -/
def heldBy (s : Store) : Container → List TextHandle
  | .ring .. => []
  | .textRing ring nodes _ =>
    match s.arenaAt nodes with
    | some a => (Ring.toList ⟨ring.handles, { value := a }⟩).toOption.getD []
    | none => []
  | .text h _ => [h]

/-- The handles that the container with a number holds. -/
def heldAt (s : Store) (r : Nat) : List TextHandle := ((s.containerAt r).map s.heldBy).getD []

/-- The handles that all containers hold. -/
def held (s : Store) : List TextHandle := (List.range s.containers.size).flatMap s.heldAt

theorem heldAt_of_containerAt {x : Option Container} (h : s.containerAt r = x) :
    s.heldAt r = (x.map s.heldBy).getD [] := by
  rw [heldAt, h]

theorem heldAt_of_size_le (h : s.containers.size ≤ r) : s.heldAt r = [] :=
  heldAt_of_containerAt (containerAt_of_size_le h)

theorem heldAt_of_ring {type : ElementType} {ring : Ring type.Value} {n : Nat}
    (h : s.containerAt r = some (.ring type ring n)) : s.heldAt r = [] :=
  heldAt_of_containerAt h

theorem heldAt_of_textRing {tr : TextRing} {n pool : Nat} {ns : List UInt32}
    {vs : List TextHandle} (hc : s.containerAt r = some (.textRing tr n pool))
    (ha : s.arenaAt n = some a) (hh : tr.handles.Holds a ns vs) : s.heldAt r = vs := by
  have hlist : Ring.toList ⟨tr.handles, { value := a }⟩ = .ok vs := Ring.toList_ok hh rfl
  simp [heldAt_of_containerAt hc, heldBy, ha, hlist, Except.toOption]

theorem held_eq {n : Nat} (hn : s.containers.size ≤ n) :
    s.held = (List.range n).flatMap s.heldAt :=
  flatMap_range_eq _ hn fun _ hr => heldAt_of_size_le hr

/-! ### Deals of one container -/

/-- A command deals with the handles of one container. -/
def DealsAt (r : Nat) (s t : Store) : Prop := Deals (s.heldAt r) s (t.heldAt r) t

theorem dealsAt_refl (r : Nat) (s : Store) : s.DealsAt r s := deals_of_pools rfl _

/-- Without a change of the pools, a container may forget handles only. -/
theorem dealsAt_of_pools (hp : t.pools = s.pools) (hsub : (t.heldAt r).Subperm (s.heldAt r)) :
    s.DealsAt r t :=
  (deals_forget s hsub).trans (deals_of_pools hp _)

/-- What is fair to everybody concerns no container. -/
theorem dealsAt_of_calm (h : s.Calm t) : s.DealsAt s.containers.size t := by
  have hs : s.heldAt s.containers.size = [] := heldAt_of_size_le (Nat.le_refl _)
  have ht : t.heldAt s.containers.size = [] := heldAt_of_size_le (h.containers ▸ Nat.le_refl _)
  unfold DealsAt
  rw [hs, ht]
  exact h.fair []

theorem dealsAt_of_eq (hp : t.pools = s.pools) (hc : t.containers = s.containers) :
    s.DealsAt s.containers.size t := by
  apply dealsAt_of_pools hp
  rw [heldAt_of_size_le (hc ▸ Nat.le_refl _)]
  exact List.nil_subperm

theorem dealsAt_onArena (k : Nat) (x : Act Failure (Guarded BlockArena) α) (s : Store) :
    s.DealsAt s.containers.size (onArena k x s).state := by
  cases hg : s.arenas[k]? with
  | none =>
    rw [onArena_none hg]
    exact dealsAt_refl _ s
  | some g =>
    rw [onArena_some hg]
    exact dealsAt_of_eq rfl rfl

theorem dealsAt_arena (n : Nat) (c : ArenaCommand) (s : Store) :
    s.DealsAt s.containers.size (step (.arena n c) s).state := by
  have hon : ∀ {β : Type} (x : Act Failure (Guarded BlockArena) β) (f : β → Reply),
      s.DealsAt s.containers.size ((f <$> onArena n x) s).state := by
    intro _ x f
    rw [Act.map_apply]
    exact dealsAt_onArena n x s
  cases c with
  | allocate => exact hon _ _
  | free h => exact hon _ _
  | write h offset bs => exact hon _ _
  | fill h b => exact hon _ _
  | _ => exact dealsAt_of_calm (calm_arena n (by trivial) s)

/-! ### Rings -/

section Rings

variable {type : ElementType} {ring : Ring type.Value} {n pool : Nat} {tr : TextRing}

/-- A command to a ring leaves the pools and adds no container. -/
theorem state_onRing (ring : Ring type.Value) (n : Nat) (x : Act Error (Ring.Site type.Value) α)
    (r : Nat) (s : Store) :
    (onRing r ring n x s).state.pools = s.pools ∧
      (onRing r ring n x s).state.containers.size = s.containers.size := by
  cases hg : s.arenas[n]? with
  | none =>
    rw [onRing_none r ring hg]
    exact ⟨rfl, rfl⟩
  | some g =>
    rw [onRing_some r ring hg]
    exact ⟨rfl, Array.size_setIfInBounds ..⟩

theorem dealsAt_onRing (x : Act Error (Ring.Site type.Value) α)
    (hc : s.containerAt r = some (.ring type ring n)) :
    s.DealsAt r (onRing r ring n x s).state := by
  have hlt := lt_size_of_containerAt hc
  cases hg : s.arenas[n]? with
  | none =>
    rw [onRing_none r ring hg]
    exact dealsAt_refl r s
  | some g =>
    rw [onRing_some r ring hg]
    refine dealsAt_of_pools rfl ?_
    rw [heldAt_of_containerAt ((containerAt_of_set hlt rfl r).trans (if_pos rfl))]
    exact List.nil_subperm

theorem dealsAt_ringStep (c : RingCommand type.Value)
    (hc : s.containerAt r = some (.ring type ring n)) :
    s.DealsAt r (ringStep r ring n c s).state := by
  have hon : ∀ {β : Type} (x : Act Error (Ring.Site type.Value) β) (f : β → Reply),
      s.DealsAt r ((f <$> onRing r ring n x) s).state := by
    intro _ x f
    rw [Act.map_apply]
    exact dealsAt_onRing x hc
  cases c with
  | size => exact dealsAt_refl r s
  | describe => exact dealsAt_refl r s
  | _ => exact hon _ _

theorem dealsAt_ring (r : Nat) (c : RingCommand Datum) (s : Store) :
    s.DealsAt r (step (.ring r c) s).state := by
  obtain h | ⟨type, ring, n, d, hc, -, h⟩ := ring_cases r c s
  · rw [h]
    exact dealsAt_refl r s
  · rw [h]
    exact dealsAt_ringStep d hc

/-- A text ring deals with its pool. -/
theorem dealsAt_onTextRing {x : Act Error TextRing.Site α}
    (hx : Act.Within TextRing.Site.Keeps x) (hc : s.containerAt r = some (.textRing tr n pool))
    (hs : s.Settled n) : s.DealsAt r (onTextRing r tr n pool x s).state := by
  obtain ⟨-, h⟩ | ⟨g, p, hg, hp, h⟩ := onTextRing_cases r tr pool n x s
  · rw [h]
    exact dealsAt_refl r s
  · rw [h]
    have hlt := lt_size_of_containerAt hc
    have hgn := arenaAt_of_get hg
    obtain ⟨ns, vs, hh⟩ := hs.valid g.value hgn r _ (placedAt_of_container hc) rfl
    obtain ⟨ns', vs', hh', -, -, htrades⟩ := hx ⟨tr, g, p⟩ (hs.sound g.value hgn) ns vs hh
    let site := (x ⟨tr, g, p⟩).state
    let t : Store := { s with
      arenas := s.arenas.setIfInBounds n site.nodes
      pools := s.pools.setIfInBounds pool site.pool
      containers := s.containers.setIfInBounds r (some (.textRing site.ring n pool)) }
    have hct : t.containerAt r = some (.textRing site.ring n pool) :=
      (containerAt_of_set hlt rfl r).trans (if_pos rfl)
    have hat : t.arenaAt n = some site.nodes.value := (arenaAt_of_set hg rfl n).trans (if_pos rfl)
    have hdeals : s.DealsAt r t := by
      unfold DealsAt
      rw [heldAt_of_textRing hc hgn hh, heldAt_of_textRing hct hat hh']
      exact deals_of_trades hp rfl htrades
    exact hdeals

theorem dealsAt_textRingStep {c : TextRingCommand} (hne : c ≠ .intoTexts)
    (hc : s.containerAt r = some (.textRing tr n pool)) (hs : s.Settled n) :
    s.DealsAt r (textRingStep r tr n pool c s).state := by
  have hon : ∀ {β : Type} (x : Act Error TextRing.Site β) (f : β → Reply),
      Act.Within TextRing.Site.Keeps x →
      s.DealsAt r ((f <$> textRingStep.on r tr n pool x) s).state := by
    intro _ x f hx
    rw [Act.map_apply]
    exact dealsAt_onTextRing hx hc hs
  cases c with
  | push side h => exact hon _ _ (TextRing.keeps_push side h)
  | pushText t => exact hon _ _ (TextRing.keeps_pushText t)
  | pop side => exact hon _ _ (TextRing.keeps_pop side)
  | peek side => exact hon _ _ (TextRing.keeps_peek side)
  | get index => exact hon _ _ (TextRing.keeps_get index)
  | text index => exact hon _ _ (TextRing.keeps_text index)
  | scan steps => exact hon _ _ (TextRing.keeps_onHandles (Ring.state_scan steps))
  | clear => exact hon _ _ TextRing.keeps_clear
  | intoTexts => exact absurd rfl hne
  | size => exact dealsAt_refl r s
  | livesIn k => exact dealsAt_refl r s
  | _ => exact hon _ _ (Act.within_read _)

/-! ### Giving up -/

/-- A container that is gone holds nothing. -/
theorem heldAt_without (r : Nat) (s : Store) : (without r s).heldAt r = [] := by
  rw [heldAt_of_containerAt (containerAt_without r s)]
  rfl

/-- What a container deals before it goes. -/
theorem dealsAt_without {F : List TextHandle} (hF : s.heldAt r = F) (h : Deals F s [] t) :
    s.DealsAt r (without r t) := by
  unfold DealsAt
  rw [heldAt_without, hF]
  exact h.trans (deals_of_pools (s := t) (t := without r t) rfl [])

theorem containers_onPool (k : Nat) (x : Act Failure (Guarded TextPool) α) (s : Store) :
    (onPool k x s).state.containers = s.containers := by
  exact (quiet_onPool k x s).containers

theorem dealsAt_dropTextRing {x : Act Error TextRing.Site α}
    (hx : ∀ site, (x site).state = (TextRing.drop site).state)
    (hc : s.containerAt r = some (.textRing tr n pool)) (hs : s.Settled n) :
    s.DealsAt r (without r (onTextRing r tr n pool x s).state) := by
  obtain ⟨-, h⟩ | ⟨g, p, hg, hp, h⟩ := onTextRing_cases r tr pool n x s
  · rw [h]
    exact dealsAt_without rfl (deals_forget s List.nil_subperm)
  · rw [h]
    have hgn := arenaAt_of_get hg
    obtain ⟨ns, vs, hh⟩ := hs.valid g.value hgn r _ (placedAt_of_container hc) rfl
    obtain ⟨-, -, htrades, -⟩ :=
      TextRing.drop_trades (s := ⟨tr, g, p⟩) (hs.sound g.value hgn) hh
    refine dealsAt_without (heldAt_of_textRing hc hgn hh) (deals_of_trades hp rfl ?_)
    have hsite := congrArg (fun site => Trades vs p.value [] site.pool.value) (hx ⟨tr, g, p⟩)
    exact hsite.mpr htrades

theorem dealsAt_dropContainer {c : Container} (hc : s.containerAt r = some c)
    (hs : ∀ j, s.Settled j) : s.DealsAt r (dropContainer r c s).state := by
  unfold dropContainer
  rw [Act.afterwards_apply]
  cases c with
  | ring type ring n =>
    have hstay := state_onRing ring n Ring.drop r s
    exact dealsAt_without (heldAt_of_ring hc) (deals_of_pools hstay.1 [])
  | textRing tr n pool => exact dealsAt_dropTextRing (fun _ => rfl) hc (hs n)
  | text h pool =>
    refine dealsAt_without (heldAt_of_containerAt hc) (deals_onPool pool (fun g => ?_) ?_ s)
    · exact (OwnedText.drop_trades h g []).1
    · exact List.nil_subperm

theorem dealsAt_drop (r : Nat) (hs : ∀ j, s.Settled j) :
    s.DealsAt r (step (.drop r) s).state := by
  obtain ⟨-, h⟩ | ⟨c, hc, h⟩ := drop_cases r s
  · rw [h]
    exact dealsAt_refl r s
  · rw [h]
    exact dealsAt_dropContainer hc hs

theorem dealsAt_textRing (r : Nat) (c : TextRingCommand) (hs : ∀ j, s.Settled j) :
    s.DealsAt r (step (.textRing r c) s).state := by
  obtain ⟨-, h⟩ | ⟨tr, n, pool, hc, h⟩ := textRing_cases r c s
  · rw [h]
    exact dealsAt_refl r s
  · rw [h]
    by_cases hne : c = .intoTexts
    · subst hne
      have hdrop := dealsAt_dropTextRing TextRing.state_intoTexts hc (hs n)
      simp only [textRingStep, Act.map_apply, Act.afterwards_apply]
      exact hdrop
    · exact dealsAt_textRingStep hne hc (hs n)

end Rings

/-! ### Making -/

section Make

variable {n pool : Nat}

/-- Making a ring adds no handle. -/
theorem dealsAt_make (type : ElementType) (make : Ring type.Value → Container)
    (hs : ∀ j, s.Settled j)
    (hmake : ∀ (t : Store) ring, t.containerAt s.containers.size = some (make ring) →
      (∃ b, t.arenaAt n = some b ∧ ring.Holds b [] []) → t.heldAt s.containers.size = []) :
    s.DealsAt s.containers.size ((onArena n (Ring.create.mapError .refused) >>= fun ring =>
      Reply.container <$> addContainer (make ring)) s).state := by
  obtain ⟨e, log, hcreate⟩ | ⟨g, ring, b, log, hg, hcreate, hh, -⟩ :=
    onArena_create type.Value hs n
  · rw [Act.bind_error hcreate]
    exact dealsAt_refl _ s
  · rw [Act.bind_ok hcreate]
    let t : Store := { s with
      arenas := s.arenas.setIfInBounds n { g with value := b }
      containers := s.containers.push (some (make ring)) }
    have hc : t.containerAt s.containers.size = some (make ring) :=
      (containerAt_of_push (s := s) rfl _).trans (if_pos rfl)
    have hb : t.arenaAt n = some b := (arenaAt_of_set hg rfl n).trans (if_pos rfl)
    refine dealsAt_of_pools (t := t) rfl ?_
    rw [hmake t ring hc ⟨b, hb, hh⟩]
    exact List.nil_subperm

theorem dealsAt_newRing (type : ElementType) (n : Nat) (hs : ∀ j, s.Settled j) :
    s.DealsAt s.containers.size (step (.newRing type n) s).state := by
  rw [step]
  exact dealsAt_make type _ hs fun t ring hc _ => heldAt_of_ring hc

theorem dealsAt_newTextRing (n pool : Nat) (hs : ∀ j, s.Settled j) :
    s.DealsAt s.containers.size (step (.newTextRing n pool) s).state := by
  obtain h | ⟨-, h⟩ := newTextRing_cases n pool s
  · rw [h]
    exact dealsAt_refl _ s
  · rw [h]
    refine dealsAt_make .handle (fun handles => .textRing ⟨handles⟩ n pool) hs ?_
    intro t ring hc ⟨b, hb, hh⟩
    exact heldAt_of_textRing hc hb hh

/-- A text that is not made in the end gives its handle to nobody. -/
theorem dealsAt_failed {F : List TextHandle} (h : Deals [] s F t)
    (hc : t.containers = s.containers) : s.DealsAt s.containers.size t := by
  unfold DealsAt
  rw [heldAt_of_size_le (Nat.le_refl _), heldAt_of_size_le (hc ▸ Nat.le_refl _)]
  exact h.trans (deals_forget t List.nil_subperm)

theorem deals_newText (pool : Nat) (s : Store) :
    Deals [] s (OwnedText.given (newText pool s).result) (newText pool s).state := by
  unfold newText onText
  cases hg : s.pools[pool]? with
  | none =>
    rw [onPool_none hg]
    exact deals_of_pools rfl []
  | some g =>
    have htrades := (OwnedText.create_trades g []).1
    rw [List.append_nil] at htrades
    have hgiven : ∀ result : Except Error TextHandle,
        OwnedText.given (result.mapError Failure.refused) = OwnedText.given result := by
      rintro (e | h) <;> rfl
    rw [onPool_some hg, Act.mapError_apply, hgiven]
    exact deals_of_trades hg rfl htrades

/-- **A text is made with a handle of its own**, which it holds if nothing fails later. -/
theorem dealsAt_makeText {β : Type} {y : TextHandle → StoreAct β} (pool : Nat)
    (hy : ∀ h, Act.Within Calm (y h)) (s : Store) :
    s.DealsAt s.containers.size ((newText pool >>= fun h => y h >>= fun _ =>
      Reply.container <$> addContainer (.text h pool)) s).state := by
  have hnew := deals_newText pool s
  have hcontainers : (newText pool s).state.containers = s.containers := containers_onPool ..
  cases hr : (newText pool s).result with
  | error e =>
    rw [Act.bind_of_error hr]
    exact dealsAt_failed hnew hcontainers
  | ok h =>
    rw [Act.bind_of_ok hr]
    dsimp only
    have hcalm := hy h (newText pool s).state
    have hlater := hnew.trans (hcalm.fair _)
    have hcontainers' := hcalm.containers.trans hcontainers
    cases hr' : (y h (newText pool s).state).result with
    | error e =>
      rw [Act.bind_of_error hr']
      exact dealsAt_failed hlater hcontainers'
    | ok b =>
      rw [Act.bind_of_ok hr']
      let u := (y h (newText pool s).state).state
      let t : Store := { u with containers := u.containers.push (some (.text h pool)) }
      have hc : t.containerAt s.containers.size = some (.text h pool) := by
        rw [containerAt_of_push (s := u) rfl, hcontainers', if_pos rfl]
      have hdeals : s.DealsAt s.containers.size t := by
        unfold DealsAt
        rw [heldAt_of_size_le (Nat.le_refl _), heldAt_of_containerAt hc]
        rw [hr] at hlater
        exact hlater.trans (deals_of_pools (s := u) (t := t) rfl _)
      exact hdeals

theorem dealsAt_newText (pool : Nat) (content : Option String) (s : Store) :
    s.DealsAt s.containers.size (step (.newText pool content) s).state := by
  rw [step]
  cases content with
  | none => exact dealsAt_makeText pool (fun _ => Act.within_pure ()) s
  | some t => exact dealsAt_makeText pool (fun h => calm_onText pool (OwnedText.keeps_assign h t)) s

theorem state_textAt (r : Nat) (s : Store) : (textAt r s).state = s := by
  refine Act.state_bind (fun c s => ?_) s
  cases c <;> rfl

theorem dealsAt_clone (r : Nat) (s : Store) :
    s.DealsAt s.containers.size (step (.text r .clone) s).state := by
  have hstate : (textAt r s).state = s := state_textAt r s
  rw [step]
  rcases hr : (textAt r s).result with e | ⟨h, pool⟩
  · rw [Act.bind_of_error hr, hstate]
    exact dealsAt_refl _ s
  · rw [Act.bind_of_ok hr, hstate]
    exact dealsAt_makeText pool (fun copy => calm_assignFrom copy pool h pool) s

end Make

/-! ### Reserving -/

theorem dealsAt_reserveArena (capacity blockSize : Nat) (s : Store) :
    s.DealsAt s.containers.size (step (.reserveArena capacity blockSize) s).state := by
  rw [step, Act.map_apply]
  obtain h | ⟨-, h⟩ := addArena_cases capacity blockSize s
  · rw [h]
    exact dealsAt_refl _ s
  · rw [h]
    exact dealsAt_of_eq rfl rfl

theorem dealsAt_reserve (sizing : Sizing) (s : Store) :
    s.DealsAt s.containers.size (step (.reserve sizing) s).state := by
  rw [step, Act.map_apply]
  obtain h | h | ⟨-, hslots, h⟩ := addArenas_cases sizing s
  · rw [h]
    exact dealsAt_refl _ s
  · rw [h]
    exact dealsAt_of_eq rfl rfl
  · obtain ⟨-, -, hlt, -⟩ := TextPool.room_eq_ok_iff.1 hslots
    rw [h]
    exact dealsAt_failed (fair_of_push hlt rfl []) rfl

/-! ### Commands -/

/-- **A command deals with the handles of its container only.** -/
theorem step_deals {c : Command} (hc : c.KeepsArenas) (hs : ∀ j, s.Settled j) :
    s.DealsAt (s.subject c) (step c s).state := by
  cases c with
  | reserveArena capacity blockSize => exact dealsAt_reserveArena capacity blockSize s
  | reserve sizing => exact dealsAt_reserve sizing s
  | newRing type n => exact dealsAt_newRing type n hs
  | newTextRing n pool => exact dealsAt_newTextRing n pool hs
  | newText pool content => exact dealsAt_newText pool content s
  | drop r => exact dealsAt_drop r hs
  | swapArenas i j => exact absurd rfl (hc i j)
  | ring r c => exact dealsAt_ring r c s
  | textRing r c => exact dealsAt_textRing r c hs
  | arena n c => exact dealsAt_arena n c s
  | text r c =>
    by_cases hclone : c = .clone
    · subst hclone
      exact dealsAt_clone r s
    · exact dealsAt_of_calm (calm_step (c := .text r c) hclone s)
  | _ => exact dealsAt_of_calm (calm_step (by trivial) s)

end Store

end FixedArena
