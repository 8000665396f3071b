import FixedArena.Proofs.Store.Kept
import FixedArena.Proofs.Store.Ownership
import FixedArena.Proofs.Text.Isolation

/-!
Pools that change places while containers live on. A container goes on with its own handles, whatever pool
it finds. It leaves the slots of another pool, but for one that it takes for itself and for those of handles
that it was given.

Main facts:
* `Store.Confines`: only slots of some handles changed, and of one pool;
* `Store.Gives`: the handles that a container gives back, one after the other;
* `Store.Spends`, `Store.spends_step`: what adds nothing to a container changes slots of such handles only;
* `Store.Isolated`, `Store.isolated`: all that a container does to pools;
* `Run.taken`, `Run.mem_heldAt`: a container has what it had, and what it took since;
* `Run.pools_isolated`: pools are isolated by their identities.
-/

namespace FixedArena

open Act
open TextPool (Confined)

/-- The command is about the container, and adds nothing to what it has. -/
def Command.AddsNothing (r : Nat) : Command → Prop
  | .drop r' => r' = r
  | .text r' d => r' = r ∧ d ≠ .clone
  | .textRing r' d => r' = r ∧ (∀ side h, d ≠ .push side h) ∧ ∀ t, d ≠ .pushText t
  | _ => False

namespace Store

variable {α : Type} {s t u : Store} {c : Command} {k r n : Nat} {h v : TextHandle}
  {R R' : TextHandle → Prop} {tr : TextRing} {g g' : Guarded TextPool}

/-! ### Changes of one pool -/

/-- All pools are as they were, whoever holds them. -/
def SamePools (s t : Store) : Prop := ∀ j, t.poolAt j = s.poolAt j

/-- **In one pool only the slots of some handles changed**, and all other pools are as they were. -/
structure Confines (k : Nat) (R : TextHandle → Prop) (s t : Store) : Prop where
  others : ∀ j, j ≠ k → t.poolAt j = s.poolAt j
  absent : s.poolAt k = none → t.poolAt k = none
  pool : ∀ p, s.poolAt k = some p → ∃ p', t.poolAt k = some p' ∧ Confined R p p'

/-- The handle is not of the pool that is now in the place, if there is one. -/
def AlienAt (s : Store) (k : Nat) (h : TextHandle) : Prop := ∀ p ∈ s.poolAt k, p.Alien h

instance (s : Store) (k : Nat) (h : TextHandle) : Decidable (s.AlienAt k h) :=
  inferInstanceAs (Decidable (∀ p ∈ s.poolAt k, p.Alien h))

theorem SamePools.confines (hs : s.SamePools t) : s.Confines k R t where
  others j _ := hs j
  absent hn := (hs k).trans hn
  pool p hp := ⟨p, (hs k).trans hp, refl_of (Confined R) p⟩

instance : IsPreorder Store (Confines k R) where
  refl s := SamePools.confines fun _ => rfl
  trans s t u h₁ h₂ := by
    refine ⟨fun j hj => (h₂.others j hj).trans (h₁.others j hj), fun hn => h₂.absent (h₁.absent hn),
      fun p hp => ?_⟩
    obtain ⟨p', hp', hfirst⟩ := h₁.pool p hp
    obtain ⟨p'', hp'', hsecond⟩ := h₂.pool p' hp'
    exact ⟨p'', hp'', trans_of (Confined R) hfirst hsecond⟩

namespace Confines

/-- Handles of other pools do not matter. -/
theorem imp (hc : s.Confines k R t) (hR : ∀ g, R g → s.AlienAt k g ∨ R' g) : s.Confines k R' t where
  others := hc.others
  absent := hc.absent
  pool p hp := by
    obtain ⟨p', hp', hconf⟩ := hc.pool p hp
    exact ⟨p', hp', hconf.imp fun g hg => (hR g hg).imp_left fun ha => ha p hp⟩

/-- **Handles of other pools change nothing.** -/
theorem same (hc : s.Confines k R t) (hR : ∀ g, R g → s.AlienAt k g) : s.SamePools t := by
  intro j
  by_cases hj : j = k
  · subst hj
    cases hp : s.poolAt j with
    | none => exact hc.absent hp
    | some p =>
      obtain ⟨p', hp', hconf⟩ := hc.pool p hp
      rw [hp', hconf.same fun g hg => hR g hg p hp]
  · exact hc.others j hj

end Confines

theorem confines_of_set (hg : s.pools[k]? = some g) (ht : t.pools = s.pools.setIfInBounds k g')
    (hconf : Confined R g.value g'.value) : s.Confines k R t where
  others j hj := (poolAt_of_set hg ht j).trans (if_neg hj)
  absent hn := by
    rw [poolAt_of_get hg] at hn
    cases hn
  pool p hp := by
    obtain rfl := Option.some.inj ((poolAt_of_get hg).symm.trans hp)
    exact ⟨g'.value, (poolAt_of_set hg ht k).trans (if_pos rfl), hconf⟩

theorem samePools_of_set (hg : s.pools[k]? = some g) (ht : t.pools = s.pools.setIfInBounds k g')
    (hvalue : g'.value = g.value) : s.SamePools t := by
  intro j
  rw [poolAt_of_set hg ht, hvalue]
  split
  · next hj => rw [hj, poolAt_of_get hg]
  · rfl

theorem confines_onPool (k : Nat) {x : Act Failure (Guarded TextPool) α}
    (hx : Within (Order.Preimage Guarded.value (Confined R)) x) :
    Within (Confines k R) (onPool k x) := by
  intro s
  cases hg : s.pools[k]? with
  | none =>
    rw [onPool_none hg]
    exact refl_of (Confines k R) s
  | some g =>
    rw [onPool_some hg]
    exact confines_of_set hg rfl (hx g)

theorem confines_onText (k : Nat) {x : TextPool.GuardedAct α}
    (hx : Within (Order.Preimage Guarded.value (Confined R)) x) :
    Within (Confines k R) (onText k x) :=
  confines_onPool k (hx.mapError Failure.refused)

theorem samePools_onPool (n : Nat) {x : Act Failure (Guarded TextPool) α}
    (hx : ∀ g, (x g).state.value = g.value) : Within SamePools (onPool n x) := by
  intro s
  cases hg : s.pools[n]? with
  | none =>
    rw [onPool_none hg]
    exact fun _ => rfl
  | some g =>
    rw [onPool_some hg]
    exact samePools_of_set hg rfl (hx g)

theorem samePools_onArena (n : Nat) (x : Act Failure (Guarded BlockArena) α) :
    Within SamePools (onArena n x) := by
  intro s
  cases hg : s.arenas[n]? with
  | none =>
    rw [onArena_none hg]
    exact fun _ => rfl
  | some g =>
    rw [onArena_some hg]
    exact fun _ => rfl

/-- A hold that is taken leaves the pools. -/
theorem samePools_takeHold (target : Target) (mode : Mode) :
    Within SamePools (takeHold target mode) := by
  cases target with
  | arena n => exact samePools_onArena n _
  | pool n => exact samePools_onPool n (value_hold mode)

theorem confines_whileReading (pool : Nat) {x : StoreAct α} (hx : Within (Confines k R) x) :
    Within (Confines k R) (whileReading pool x) := by
  have htake : Within (Confines k R) (takeHold (.pool pool) .shared) :=
    (samePools_takeHold _ _).imp fun _ _ hs => hs.confines
  apply htake.settled.bind
  intro taken
  match taken with
  | .ok () => exact hx.afterwards fun s => SamePools.confines (poolAt_released _ _ s)
  | .error _ => exact hx

/-! ### What a container has -/

/-- **The handles that a container gives back**, one after the other, if nobody holds its arena. -/
inductive Gives (s : Store) (r : Nat) (v : TextHandle) : Prop
  | text {k : Nat} (hc : s.containerAt r = some (.text v k))
  | textRing {tr : TextRing} {n k : Nat} {a : BlockArena}
    (hc : s.containerAt r = some (.textRing tr n k)) (ha : s.arenaAt n = some a)
    (hv : Ring.Site.Gives ⟨tr.handles, { value := a }⟩ v)

theorem gives_textRing_iff {g : Guarded BlockArena} {p : Guarded TextPool}
    (hc : s.containerAt r = some (.textRing tr n k)) (hg : s.arenas[n]? = some g) :
    s.Gives r v ↔ TextRing.Site.Gives ⟨tr, g, p⟩ v := by
  constructor
  · rintro (hc' | ⟨hc', ha, hv⟩)
    · rw [hc] at hc'
      cases hc'
    · rw [hc] at hc'
      cases hc'
      rw [arenaAt_of_get hg] at ha
      obtain rfl := Option.some.inj ha
      exact hv
  · exact fun hv => .textRing hc (arenaAt_of_get hg) hv

theorem not_gives (hc : s.containerAt r = none) : ¬s.Gives r v := by
  rintro (hc' | ⟨hc', -, -⟩) <;> cases hc.symm.trans hc'

/-- **The container spends what it has**: only slots of handles change that it gave, and it gives no
others. -/
structure Spends (r k : Nat) (s t : Store) : Prop where
  confined : s.Confines k (s.Gives r) t
  gives : ∀ v, t.Gives r v → s.Gives r v

theorem spends_refl (r k : Nat) (s : Store) : s.Spends r k s where
  confined := refl_of (Confines k _) s
  gives _ := id

theorem poolOf_eq {x : Container} (hk : s.poolOf r = some k) (hc : s.containerAt r = some x) :
    x.pool? = some k :=
  (poolOf_of_containerAt hc).symm.trans hk

/-! ### Texts -/

/-- A text writes to its own slot only, and reads all others. -/
theorem confines_textStep {d : TextCommand} (hd : d ≠ .clone) :
    Within (Confines k (· = h)) (textStep h k d) := by
  have hassign : ∀ t, Within (Confines k (· = h)) (onText k (OwnedText.assign h t)) :=
    fun t => confines_onText k (OwnedText.confined_assign (R := (· = h)) rfl t)
  have hread : ∀ source sourcePool,
      Within (Confines k (· = h)) (onText sourcePool (OwnedText.content source)) :=
    fun source sourcePool => (still_onText sourcePool (OwnedText.still_content source)).within
  cases d with
  | assign t => exact (hassign t).map _
  | append t =>
    exact (confines_onText k (OwnedText.confined_append (R := (· = h)) rfl t)).map _
  | assignFrom o =>
    refine (still_textAt o).within.bind fun (source, sourcePool) =>
      Within.bind ?_ fun _ => within_pure _
    unfold assignFrom
    split
    · exact confines_onText k (OwnedText.confined_copy (R := (· = h)) rfl source)
    · exact (hread source sourcePool).bind hassign
  | assignReading o =>
    exact (still_textAt o).within.bind fun (source, sourcePool) =>
      (hread source sourcePool).bind fun t =>
        (confines_whileReading sourcePool (hassign t)).bind fun _ => within_pure _
  | clone => exact absurd rfl hd
  | _ => exact Still.within (still_textStep (r := 0) rfl nofun)

theorem spends_text (hk : s.poolOf r = some k) {d : TextCommand} (hd : d ≠ .clone) :
    s.Spends r k (step (.text r d) s).state := by
  have hsame : (step (.text r d) s).state.containers = s.containers :=
    (calm_step (c := .text r d) hd s).containers
  obtain hnone | ⟨h, pool, hc⟩ := textAt_cases r s
  · have hstep : step (.text r d) s = ⟨.error .unknown, s, []⟩ := bind_error hnone
    rw [hstep]
    exact spends_refl r k s
  · obtain rfl : pool = k := Option.some.inj (poolOf_eq hk hc)
    have hafter : (step (.text r d) s).state.containerAt r = some (.text h pool) := by
      rw [containerAt, hsame]
      exact hc
    refine ⟨?_, fun v hv => ?_⟩
    · rw [step_text hc]
      exact (confines_textStep hd s).imp fun g hg => .inr (hg ▸ .text hc)
    · rcases hv with hc' | ⟨hc', -, -⟩
      · rw [hafter] at hc'
        cases hc'
        exact .text hc
      · rw [hafter] at hc'
        cases hc'

/-- **A slot that was free is taken**, and no other slot changes. -/
def TakesSlot (k : Nat) (g : TextHandle) (s t : Store) : Prop :=
  ∃ p, s.poolAt k = some p ∧ p.IsFree g ∧ s.Confines k (· = g) t

/-- A text that was made becomes a container. -/
theorem addText_cases (k : Nat) (x : StoreAct TextHandle) (s : Store) :
    ((x >>= fun g => Reply.container <$> addContainer (.text g k)) s).state.pools =
      (x s).state.pools ∧
    ∀ n, ((x >>= fun g => Reply.container <$> addContainer (.text g k)) s).result =
      .ok (.container n) → ∃ g, (x s).result = .ok g ∧
        ((x >>= fun g => Reply.container <$> addContainer (.text g k)) s).state.containerAt n =
          some (.text g k) := by
  cases hr : (x s).result with
  | error e =>
    rw [bind_of_error hr]
    exact ⟨rfl, nofun⟩
  | ok g =>
    rw [bind_of_ok hr, map_apply]
    refine ⟨rfl, fun n hn => ⟨g, rfl, ?_⟩⟩
    obtain rfl : (x s).state.containers.size = n := Reply.container.inj (Except.ok.inj hn)
    exact (containerAt_of_push rfl _).trans (if_pos rfl)

/-- **A copy takes a slot that was free**, or nothing changes. -/
theorem clone_takes (hp : ∀ p, s.poolAt k = some p → p.Tidy) (hk : s.poolOf r = some k) :
    s.SamePools (step (.text r .clone) s).state ∨
    ∃ g, TakesSlot k g s (step (.text r .clone) s).state ∧
      ∀ n, (step (.text r .clone) s).result = .ok (.container n) →
        (step (.text r .clone) s).state.containerAt n = some (.text g k) := by
  obtain hnone | ⟨h, pool, hc⟩ := textAt_cases r s
  · have hstep : step (.text r .clone) s = ⟨.error .unknown, s, []⟩ := bind_error hnone
    rw [hstep]
    exact .inl fun _ => rfl
  · obtain rfl : pool = k := Option.some.inj (poolOf_eq hk hc)
    rw [step_text hc, textStep_clone]
    obtain ⟨hpools, hmade⟩ := addText_cases pool (onText pool (OwnedText.make (OwnedText.copy · h))) s
    cases hg : s.pools[pool]? with
    | none =>
      rw [onText, onPool_none hg] at hpools
      exact .inl (poolAt_of_eq hpools)
    | some g =>
      rw [onText, onPool_some hg] at hpools hmade
      have hedit : ∀ h', Within (Order.Preimage Guarded.value (Confined (· = h'))) (OwnedText.copy h' h) :=
        fun h' => OwnedText.confined_copy (R := (· = h')) rfl h
      obtain hsame | ⟨v, hfree, hconf, hresult⟩ :=
        OwnedText.make_confined (hp g.value (poolAt_of_get hg)) hedit
      · exact .inl (samePools_of_set hg hpools (congrArg Guarded.value hsame))
      · refine .inr ⟨v, ⟨g.value, poolAt_of_get hg, hfree, confines_of_set hg hpools hconf⟩, ?_⟩
        intro n hn
        obtain ⟨v', hv', hn'⟩ := hmade n hn
        cases hr : (OwnedText.make (OwnedText.copy · h) g).result with
        | error e =>
          rw [Act.mapError_apply, hr] at hv'
          cases hv'
        | ok v'' =>
          rw [Act.mapError_apply, hr] at hv'
          obtain rfl : v'' = v' := Except.ok.inj hv'
          exact hresult v'' hr ▸ hn'

/-! ### Text rings -/

/-- The store with another text ring, arena and pool in the places of a text ring. -/
def withSite (s : Store) (r n k : Nat) (u : TextRing.Site) : Store :=
  { s with
    arenas := s.arenas.setIfInBounds n u.nodes
    pools := s.pools.setIfInBounds k u.pool
    containers := s.containers.setIfInBounds r (some (.textRing u.ring n k)) }

/-- A command that works on a text ring finds its arena and its pool, or is refused. -/
theorem textRing_site {x : Act Error TextRing.Site α} {f : α → Reply} {d : TextRingCommand}
    (hd : ∀ tr n, textRingStep r tr n k d = f <$> onTextRing r tr n k x)
    (hk : s.poolOf r = some k) : step (.textRing r d) s = ⟨.error .unknown, s, []⟩ ∨
    ∃ tr n g p, s.containerAt r = some (.textRing tr n k) ∧ s.arenas[n]? = some g ∧
      s.pools[k]? = some p ∧ step (.textRing r d) s =
        ⟨((x ⟨tr, g, p⟩).result.mapError .refused).map f, s.withSite r n k (x ⟨tr, g, p⟩).state,
          (x ⟨tr, g, p⟩).events⟩ := by
  obtain ⟨-, h⟩ | ⟨tr, n, pool, hc, h⟩ := textRing_cases r d s
  · exact .inl h
  · obtain rfl : pool = k := Option.some.inj (poolOf_eq hk hc)
    rw [h, hd, map_apply]
    obtain ⟨-, hon⟩ | ⟨g, p, hg, hp, hon⟩ := onTextRing_cases r tr pool n x s
    · rw [hon]
      exact .inl rfl
    · rw [hon]
      exact .inr ⟨tr, n, g, p, hc, hg, hp, rfl⟩

section Answers

variable {β : Type} {result : Except Error α} {f : α → β}

/-- What a command answers, its operation answered. -/
theorem exists_of_answer {b : β} (h : (result.mapError Failure.refused).map f = .ok b) :
    ∃ a, result = .ok a ∧ f a = b := by
  cases result with
  | ok a => exact ⟨a, rfl, Except.ok.inj h⟩
  | error e => cases h

/-- What a command is refused for, its operation was refused for. -/
theorem error_of_refusal {e : Error}
    (h : (result.mapError Failure.refused).map f = .error (.refused e)) : result = .error e := by
  cases result with
  | ok a => cases h
  | error e' => exact congrArg Except.error (Failure.refused.inj (Except.error.inj h))

end Answers

section Site

variable {g : Guarded BlockArena} {p : Guarded TextPool} {u : TextRing.Site}

theorem confines_withSite (hp : s.pools[k]? = some p) (hu : Confined R p.value u.pool.value) :
    s.Confines k R (s.withSite r n k u) :=
  confines_of_set hp rfl hu

variable (hc : s.containerAt r = some (.textRing tr n k)) (hg : s.arenas[n]? = some g)

include hc hg

theorem gives_withSite_iff : (s.withSite r n k u).Gives r v ↔ u.Gives v := by
  have hafter : (s.withSite r n k u).containerAt r = some (.textRing u.ring n k) :=
    (containerAt_of_set (lt_size_of_containerAt hc) rfl r).trans (if_pos rfl)
  have harena : (s.withSite r n k u).arenas[n]? = some u.nodes := by
    obtain ⟨hlt, -⟩ := Array.getElem?_eq_some_iff.1 hg
    exact Array.getElem?_setIfInBounds_self_of_lt hlt
  exact gives_textRing_iff hafter harena

theorem spends_withSite (hp : s.pools[k]? = some p) (hu : TextRing.Site.Reclaims ⟨tr, g, p⟩ u) :
    s.Spends r k (s.withSite r n k u) where
  confined := by
    refine (confines_withSite hp hu.confined).imp fun v hv => .inr ?_
    exact (gives_textRing_iff hc hg).2 hv
  gives v hv := (gives_textRing_iff hc hg).2 (hu.gives v ((gives_withSite_iff hc hg).1 hv))

end Site

/-- A container that is given up gives no handle any more. -/
theorem spends_without (hconf : s.Confines k (s.Gives r) t) : s.Spends r k (without r t) where
  confined :=
    have hgone : t.SamePools (without r t) := fun _ => rfl
    trans_of (Confines k (s.Gives r)) hconf hgone.confines
  gives _ hv := absurd hv (not_gives (containerAt_without r t))

/-- A text ring that is given up gives its slots back. -/
theorem spends_dropTextRing {x : Act Error TextRing.Site α}
    (hx : ∀ site, (x site).state = (TextRing.drop site).state)
    (hc : s.containerAt r = some (.textRing tr n k)) :
    s.Spends r k (without r (onTextRing r tr n k x s).state) := by
  apply spends_without
  obtain ⟨-, h⟩ | ⟨g, p, hg, hp, h⟩ := onTextRing_cases r tr k n x s
  · rw [h]
    exact refl_of (Confines k _) s
  · rw [h]
    refine confines_of_set hp rfl ?_
    rw [hx, TextRing.pool_drop]
    refine (TextRing.reclaims_clear ⟨tr, g, p⟩).confined.imp fun v hv => .inr ?_
    exact (gives_textRing_iff hc hg).2 hv

theorem spends_textRing (hk : s.poolOf r = some k) {d : TextRingCommand}
    (hpush : ∀ side h, d ≠ .push side h) (htext : ∀ t, d ≠ .pushText t) :
    s.Spends r k (step (.textRing r d) s).state := by
  have hon : ∀ {β : Type} {x : Act Error TextRing.Site β} {f : β → Reply},
      (∀ tr n, textRingStep r tr n k d = f <$> onTextRing r tr n k x) →
      Within TextRing.Site.Reclaims x → s.Spends r k (step (.textRing r d) s).state := by
    intro β x f hd hx
    obtain h | ⟨tr, n, g, p, hc, hg, hp, h⟩ := textRing_site hd hk
    · rw [h]
      exact spends_refl r k s
    · rw [h]
      exact spends_withSite hc hg hp (hx _)
  have hread : ∀ {β : Type} {x : Act Error TextRing.Site β} {f : β → Reply},
      (∀ tr n, textRingStep r tr n k d = f <$> onTextRing r tr n k x) →
      (∀ site, (x site).state = site) → s.Spends r k (step (.textRing r d) s).state :=
    fun hd hx => hon hd (Still.within fun site => (hx site).symm)
  have hpure : (∀ tr n pool, (textRingStep r tr n pool d s).state = s) →
      s.Spends r k (step (.textRing r d) s).state := by
    intro hd
    obtain ⟨-, h⟩ | ⟨tr, n, pool, -, h⟩ := textRing_cases r d s
    · exact h ▸ spends_refl r k s
    · rw [h, hd]
      exact spends_refl r k s
  cases d with
  | push side h => exact absurd rfl (hpush side h)
  | pushText t => exact absurd rfl (htext t)
  | pop side => exact hon (fun _ _ => rfl) (TextRing.reclaims_pop side)
  | clear => exact hon (fun _ _ => rfl) TextRing.reclaims_clear
  | peek side => exact hread (fun _ _ => rfl) (TextRing.state_onHandles (Ring.state_peek side))
  | get index => exact hread (fun _ _ => rfl) (TextRing.state_onHandles (Ring.state_get index))
  | text index => exact hread (fun _ _ => rfl) (TextRing.state_text index)
  | position t => exact hread (fun _ _ => rfl) fun _ => rfl
  | toList => exact hread (fun _ _ => rfl) fun _ => rfl
  | scan steps => exact hread (fun _ _ => rfl) (TextRing.state_onHandles (Ring.state_scan steps))
  | describe => exact hread (fun _ _ => rfl) fun _ => rfl
  | describeLong => exact hread (fun _ _ => rfl) fun _ => rfl
  | size => exact hpure fun _ _ _ => rfl
  | livesIn j => exact hpure fun _ _ _ => rfl
  | intoTexts =>
    obtain ⟨-, h⟩ | ⟨tr, n, pool, hc, h⟩ := textRing_cases r .intoTexts s
    · exact h ▸ spends_refl r k s
    · obtain rfl : pool = k := Option.some.inj (poolOf_eq hk hc)
      rw [h, textRingStep, map_apply]
      exact spends_dropTextRing TextRing.state_intoTexts hc

theorem spends_drop (hk : s.poolOf r = some k) : s.Spends r k (step (.drop r) s).state := by
  obtain ⟨-, h⟩ | ⟨x, hc, h⟩ := drop_cases r s
  · exact h ▸ spends_refl r k s
  · rw [h]
    have hpool := poolOf_eq hk hc
    cases x with
    | ring type ring n => cases hpool
    | textRing tr n pool =>
      obtain rfl : pool = k := Option.some.inj hpool
      exact spends_dropTextRing (fun _ => rfl) hc
    | text own pool =>
      obtain rfl : pool = k := Option.some.inj hpool
      refine spends_without ?_
      refine (confines_onText pool (OwnedText.confined_drop (R := (· = own)) rfl) s).imp fun g hg => ?_
      exact .inr (hg ▸ .text hc)

/-- **What adds nothing to a container, spends what it has.** -/
theorem spends_step (hk : s.poolOf r = some k) (hc : c.AddsNothing r) :
    s.Spends r k (step c s).state := by
  cases c with
  | drop r' =>
    obtain rfl : r' = r := hc
    exact spends_drop hk
  | text r' d =>
    obtain ⟨rfl, hd⟩ := hc
    exact spends_text hk hd
  | textRing r' d =>
    obtain ⟨rfl, hpush, htext⟩ := hc
    exact spends_textRing hk hpush htext
  | _ => exact hc.elim

/-! #### Adding -/

theorem push_confines (hk : s.poolOf r = some k) (side : Ring.Side) (h : TextHandle) :
    s.Confines k (· = h) (step (.textRing r (.push side h)) s).state := by
  obtain hstep | ⟨tr, n, g, p, hc, hg, hp, hstep⟩ :=
    textRing_site (d := .push side h) (fun _ _ => rfl) hk
  · rw [hstep]
    exact refl_of (Confines k _) s
  · rw [hstep]
    exact confines_withSite hp (TextRing.confined_push (R := (· = h)) rfl side ⟨tr, g, p⟩)

/-- **A handle that is refused leaves all pools as they were.** -/
theorem push_refused {side : Ring.Side} {e : Error} (hk : s.poolOf r = some k)
    (he : (step (.textRing r (.push side h)) s).result = .error (.refused e))
    (hfault : e.isFault = false) : s.SamePools (step (.textRing r (.push side h)) s).state := by
  obtain hstep | ⟨tr, n, g, p, hc, hg, hp, hstep⟩ :=
    textRing_site (d := .push side h) (fun _ _ => rfl) hk
  · rw [hstep]
    exact fun _ => rfl
  · rw [hstep] at he ⊢
    have hsame := TextRing.pool_push_refused (error_of_refusal he) hfault
    exact samePools_of_set hp rfl (congrArg Guarded.value hsame)

/-- A handle that is taken was a caller's. -/
theorem lent_of_push {side : Ring.Side} {reply : Reply} (hk : s.poolOf r = some k)
    (hok : (step (.textRing r (.push side h)) s).result = .ok reply) :
    ∃ text, s.entryAt k h = some ⟨text, false⟩ := by
  obtain hstep | ⟨tr, n, g, p, hc, hg, hp, hstep⟩ :=
    textRing_site (d := .push side h) (fun _ _ => rfl) hk
  · rw [hstep] at hok
    cases hok
  · rw [hstep] at hok
    rw [entryAt_of_get hp]
    obtain ⟨_, hpush, -⟩ := exists_of_answer hok
    exact TextRing.lent_of_push hpush

/-- **A text that is added takes a slot that was free**, or nothing changes. -/
theorem pushText_takes (hp : ∀ p, s.poolAt k = some p → p.Tidy) (hk : s.poolOf r = some k)
    (t : String) : s.SamePools (step (.textRing r (.pushText t)) s).state ∨
    ∃ g, TakesSlot k g s (step (.textRing r (.pushText t)) s).state ∧
      ∀ h, (step (.textRing r (.pushText t)) s).result = .ok (.handle h) → h = g := by
  obtain hstep | ⟨tr, n, g, p, hc, hg, hpool, hstep⟩ :=
    textRing_site (d := .pushText t) (fun _ _ => rfl) hk
  · rw [hstep]
    exact .inl fun _ => rfl
  · rw [hstep]
    have htidy : p.value.Tidy := hp p.value (poolAt_of_get hpool)
    obtain hsame | ⟨v, hfree, hconf, hresult⟩ :=
      TextRing.pushText_confined (s := ⟨tr, g, p⟩) htidy t
    · exact .inl (samePools_of_set hpool rfl (congrArg Guarded.value hsame))
    · refine .inr ⟨v, ⟨p.value, poolAt_of_get hpool, hfree, confines_withSite hpool hconf⟩, ?_⟩
      intro h hok
      obtain ⟨v', hadded, hv'⟩ := exists_of_answer hok
      obtain rfl : v' = h := Reply.handle.inj hv'
      exact hresult v' hadded

/-- **All that a container does to pools.** What it spends is its own, unless it is told to take a slot, or a
handle that a caller has. -/
structure Isolated (s : Store) (r k : Nat) : Prop where
  spends : ∀ c : Command, c.AddsNothing r → s.Confines k (s.Gives r) (step c s).state
  push : ∀ side h, s.Confines k (· = h) (step (.textRing r (.push side h)) s).state
  lent : ∀ side h reply, (step (.textRing r (.push side h)) s).result = .ok reply →
    ∃ text, s.entryAt k h = some ⟨text, false⟩
  refused : ∀ side h e, (step (.textRing r (.push side h)) s).result = .error (.refused e) →
    e.isFault = false → s.SamePools (step (.textRing r (.push side h)) s).state
  pushText : ∀ t, s.SamePools (step (.textRing r (.pushText t)) s).state ∨
    ∃ g, TakesSlot k g s (step (.textRing r (.pushText t)) s).state ∧
      ∀ h, (step (.textRing r (.pushText t)) s).result = .ok (.handle h) → h = g
  clone : s.SamePools (step (.text r .clone) s).state ∨
    ∃ g, TakesSlot k g s (step (.text r .clone) s).state ∧
      ∀ n, (step (.text r .clone) s).result = .ok (.container n) →
        (step (.text r .clone) s).state.containerAt n = some (.text g k)

theorem isolated (hp : ∀ p, s.poolAt k = some p → p.Tidy) (hk : s.poolOf r = some k) :
    s.Isolated r k where
  spends _ hc := (spends_step hk hc).confined
  push := push_confines hk
  lent _ _ _ := lent_of_push hk
  refused _ _ _ := push_refused hk
  pushText := pushText_takes hp hk
  clone := clone_takes hp hk

/-! ### What a container has after a step -/

/-- The handles that a text ring takes in a step: from a caller, or for a text. -/
def taken (s : Store) (r : Nat) (c : Command) : List TextHandle :=
  match c, (step c s).result with
  | .textRing r' (.push _ h), .ok _ => if r' = r then [h] else []
  | .textRing r' (.pushText _), .ok (.handle h) => if r' = r then [h] else []
  | _, _ => []

/-- A ring has no text handles, and stays a ring. -/
theorem gives_ring {d : RingCommand Datum} (hv : (step (.ring r d) s).state.Gives r v) :
    s.Gives r v := by
  obtain h | ⟨type, ring, n, d', hc, -, h⟩ := ring_cases r d s
  · rwa [h] at hv
  · have hon : ∀ {β : Type} (x : Act Error (Ring.Site type.Value) β) (f : β → Reply),
        ∃ ring', ((f <$> onRing r ring n x) s).state.containerAt r =
          some (.ring type ring' n) := by
      intro β x f
      rw [map_apply]
      cases hg : s.arenas[n]? with
      | none =>
        rw [onRing_none r ring hg]
        exact ⟨ring, hc⟩
      | some g =>
        rw [onRing_some r ring hg]
        exact ⟨_, (containerAt_of_set (lt_size_of_containerAt hc) rfl r).trans (if_pos rfl)⟩
    obtain ⟨ring', hafter⟩ : ∃ ring',
        (step (.ring r d) s).state.containerAt r = some (.ring type ring' n) := by
      rw [h]
      cases d' with
      | size => exact ⟨ring, hc⟩
      | describe => exact ⟨ring, hc⟩
      | _ => exact hon _ _
    rcases hv with hc' | ⟨hc', -, -⟩
    · cases hafter.symm.trans hc'
    · cases hafter.symm.trans hc'

theorem gives_drop (hv : (step (.drop r) s).state.Gives r v) : s.Gives r v := by
  obtain ⟨-, h⟩ | ⟨x, -, h⟩ := drop_cases r s
  · rwa [h] at hv
  · rw [h] at hv
    exact absurd hv (not_gives (containerAt_without r _))

section Settled

variable (hs : ∀ j, s.Settled j) (hp : ∀ p ∈ s.poolList, p.Tidy)

include hs hp

theorem holds_site {g : Guarded BlockArena} {p : Guarded TextPool}
    (hc : s.containerAt r = some (.textRing tr n k)) (hg : s.arenas[n]? = some g)
    (hpool : s.pools[k]? = some p) : ∃ ns vs, (⟨tr, g, p⟩ : TextRing.Site).handles.Holds ns vs ∧
      g.value.Sound ∧ p.value.Tidy := by
  obtain ⟨g', p', ns, vs, hg', -, hsound, hh⟩ := exists_site hc (hs n)
  obtain rfl := Option.some.inj (hg.symm.trans hg')
  exact ⟨ns, vs, hh, hsound, hp p.value (mem_poolList hpool)⟩

/-- **A text ring gives what it gave, and what it took.** -/
theorem gives_textRing {d : TextRingCommand} (hv : (step (.textRing r d) s).state.Gives r v) :
    s.Gives r v ∨ v ∈ s.taken r (.textRing r d) := by
  obtain ⟨-, h⟩ | ⟨tr, n, k, hc, -⟩ := textRing_cases r d s
  · exact .inl (by rwa [h] at hv)
  · have hk : s.poolOf r = some k := poolOf_of_containerAt hc
    cases d with
    | push side h =>
      obtain hstep | ⟨tr, n, g, p, hc, hg, hpool, hstep⟩ :=
        textRing_site (d := .push side h) (fun _ _ => rfl) hk
      · exact .inl (by rwa [hstep] at hv)
      · obtain ⟨ns, vs, hh, hsound, htidy⟩ := holds_site hs hp hc hg hpool
        rw [hstep] at hv
        rcases TextRing.gives_push hh hsound htidy ((gives_withSite_iff hc hg).1 hv) with hv | ⟨hok, rfl⟩
        · exact .inl ((gives_textRing_iff hc hg).2 hv)
        · right
          unfold taken
          rw [hstep, hok]
          simp [Except.mapError, Except.map]
    | pushText t =>
      obtain hstep | ⟨tr, n, g, p, hc, hg, hpool, hstep⟩ :=
        textRing_site (d := .pushText t) (fun _ _ => rfl) hk
      · exact .inl (by rwa [hstep] at hv)
      · obtain ⟨ns, vs, hh, hsound, htidy⟩ := holds_site hs hp hc hg hpool
        rw [hstep] at hv
        rcases TextRing.gives_pushText hh hsound htidy ((gives_withSite_iff hc hg).1 hv) with hv | hok
        · exact .inl ((gives_textRing_iff hc hg).2 hv)
        · right
          unfold taken
          rw [hstep, hok]
          simp [Except.mapError, Except.map]
    | _ => exact .inl ((spends_textRing hk (by nofun) (by nofun)).gives v hv)

/-- **A container gives what it gave, and what it took.** -/
theorem gives_step (hr : r = s.subject c) (hlt : r < s.containers.size)
    (hv : (step c s).state.Gives r v) : s.Gives r v ∨ v ∈ s.taken r c := by
  cases c with
  | drop r' =>
    obtain rfl : r = r' := hr
    exact .inl (gives_drop hv)
  | ring r' d =>
    obtain rfl : r = r' := hr
    exact .inl (gives_ring hv)
  | textRing r' d =>
    obtain rfl : r = r' := hr
    exact gives_textRing hs hp hv
  | _ => exact absurd hr hlt.ne

end Settled

end Store

namespace Run

variable {past later run : Run} {c : Command} {k r : Nat} {v : TextHandle}

/-- The handles that a container took in the later part of a run. -/
def taken (r : Nat) (past : Run) : Run → List TextHandle
  | [] => []
  | c :: later => (store (later ++ past)).taken r c ++ taken r past later

/-- **A container gives the handles that it holds.** -/
theorem gives_iff (hio : InOrder run) : (store run).Gives r v ↔ v ∈ (store run).heldAt r := by
  rcases hc : (store run).containerAt r with _ | ⟨type, ring, n⟩ | ⟨tr, n, pool⟩ | ⟨h, pool⟩
  · rw [Store.heldAt_of_containerAt hc]
    exact ⟨fun hv => absurd hv (Store.not_gives hc), nofun⟩
  · rw [Store.heldAt_of_ring hc]
    refine ⟨fun hv => ?_, nofun⟩
    rcases hv with hc' | ⟨hc', -, -⟩ <;> cases hc.symm.trans hc'
  · obtain ⟨g, p, ns, vs, hg, -, -, hh⟩ := Store.exists_site hc (hio.settled n)
    rw [Store.heldAt_of_textRing hc (Store.arenaAt_of_get hg) hh,
      Store.gives_textRing_iff (p := p) hc hg]
    exact TextRing.Site.gives_iff (s := ⟨tr, g, p⟩) hh
  · rw [Store.heldAt_of_containerAt hc]
    change _ ↔ v ∈ [h]
    rw [List.mem_singleton]
    constructor
    · rintro (hc' | ⟨hc', -, -⟩)
      · cases hc.symm.trans hc'
        rfl
      · cases hc.symm.trans hc'
    · rintro rfl
      exact .text hc

/-- **After a step a container holds what it held, and what it took.** -/
theorem mem_heldAt_cons (hio : InOrder past) (hio' : InOrder (c :: past)) (hc : Ordinary (c :: past))
    (hr : r < (store past).containers.size) (hv : v ∈ (store (c :: past)).heldAt r) :
    v ∈ (store past).heldAt r ∨ v ∈ (store past).taken r c := by
  by_cases hsub : r = (store past).subject c
  · have hp : ∀ p ∈ (store past).poolList, p.Tidy := fun _ => (kept TextPool.lasting_tidy past).of_mem
    rw [← gives_iff hio]
    exact Store.gives_step hio.settled hp hsub hr ((gives_iff hio').2 hv)
  · rw [heldAt_other hio hc hsub] at hv
    exact .inl hv

theorem size_le_append (past later : Run) :
    (store past).containers.size ≤ (store (later ++ past)).containers.size := by
  induction later with
  | nil => exact Nat.le_refl _
  | cons c later ih => exact Nat.le_trans ih (Store.size_le_step c _)

/-- **A container holds what it held, and what it took since.** -/
theorem mem_heldAt (h : Ordinary (later ++ past)) (hy : Recent (later ++ past))
    (hr : r < (store past).containers.size) (hv : v ∈ (store (later ++ past)).heldAt r) :
    v ∈ (store past).heldAt r ∨ v ∈ taken r past later := by
  induction later with
  | nil => exact .inl hv
  | cons c later ih =>
    have hpast : Ordinary (later ++ past) := h.of_append (l := [c])
    have hypast : Recent (later ++ past) := hy.of_append (l := [c])
    have hlt := Nat.lt_of_lt_of_le hr (size_le_append past later)
    rcases mem_heldAt_cons (inOrder_of_recent hpast hypast) (inOrder_of_recent h hy) h hlt hv with hv | hv
    · exact (ih hpast hypast hv).imp_right (List.mem_append_right _)
    · exact .inr (List.mem_append_left _ hv)

/-- Every pool of a run has an identity and fewer slots than there are indices. -/
theorem alien_none_zero {p : TextPool} (hp : p ∈ (store run).poolList) :
    p.Alien .none ∧ p.Alien .zero := by
  obtain ⟨-, hid⟩ := (kept TextPool.lasting_identified run).of_mem hp
  exact ⟨.inl hid.symm, .inl hid.symm⟩

/-- **Pools are isolated by their identities, also if they change places.** What is asked of a pool with a
handle of another identity, or with an index past its slots, is refused or does nothing. In every run, so it
is with the handle that names no slot and with the one of zeros. A container whose handles are not of the
pool that it finds leaves all pools as they are, unless it is to take more: then it takes a slot that was
free, or a handle that a caller has, and changes no other slot. And at any time later it changes only slots
of handles that it took since. -/
theorem pools_isolated :
    (∀ (p : TextPool) h, p.Alien h → p.Refuses h) ∧
    (∀ run, ∀ p ∈ (store run).poolList, p.Alien .none ∧ p.Alien .zero) ∧
    (∀ run r k, (store run).poolOf r = some k → (store run).Isolated r k ∧
      ((∀ v, (store run).Gives r v → (store run).AlienAt k v) → ∀ c : Command, c.AddsNothing r →
        (store run).SamePools (Store.step c (store run)).state)) ∧
    ∀ past later, Ordinary (later ++ past) → Recent (later ++ past) →
      ∀ r < (store past).containers.size, ∀ k, (store (later ++ past)).poolOf r = some k →
        (∀ v ∈ (store past).heldAt r, (store (later ++ past)).AlienAt k v) →
        ∀ c : Command, c.AddsNothing r → (store (later ++ past)).Confines k (· ∈ taken r past later)
          (Store.step c (store (later ++ past))).state := by
  have hisolated : ∀ run r k, (store run).poolOf r = some k → (store run).Isolated r k := by
    intro run r k hk
    refine Store.isolated (fun p hp => ?_) hk
    obtain ⟨g, hg, rfl⟩ := Option.map_eq_some_iff.1 hp
    exact (kept TextPool.lasting_tidy run).of_mem (Store.mem_poolList hg)
  refine ⟨fun p h => TextPool.Alien.refuses, fun run p => alien_none_zero, fun run r k hk => ?_,
    fun past later h hy r hr k hk hold c hc => ?_⟩
  · have hrun := hisolated run r k hk
    exact ⟨hrun, fun hall c hc => (hrun.spends c hc).same hall⟩
  · refine ((hisolated _ r k hk).spends c hc).imp fun v hv => ?_
    rw [gives_iff (inOrder_of_recent h hy)] at hv
    exact (mem_heldAt h hy hr hv).imp_left (hold v)

/-- A text ring with a text; then it finds another pool, with a slot of the same number that a caller has. -/
def exchanged : Run :=
  [.swapPools 0 1, .pool 1 .allocate, .textRing 0 (.pushText "a"), .newTextRing 0 0, .reservePool 4 8,
    .reservePool 4 8, .reserveArena 8 32]

/-- The caller gives his slot to the ring. -/
def given : Run := [.textRing 0 (.push .back ⟨2, 0⟩)]

theorem ordinary_exchanged : Ordinary (given ++ exchanged) := by
  apply ordinary_of_forall
  intro c hc
  simp only [given, exchanged, List.cons_append, List.nil_append, List.mem_cons, List.not_mem_nil,
    or_false] at hc
  rcases hc with rfl | rfl | rfl | rfl | rfl | rfl | rfl | rfl
  all_goals exact ⟨nofun, rfl⟩

/-- The ring does nothing to the other pool, but gives back the slot that it was given there. -/
theorem pools_isolated_exchanged :
    (TextPool.fresh 2 4 8).Refuses ⟨1, 0⟩ ∧
    (store exchanged).heldAt 0 = [⟨1, 0⟩] ∧
    ((store exchanged).poolAt 0).map (·.inUse ⟨2, 0⟩) = some true ∧
    (store exchanged).SamePools (Store.step (.textRing 0 .clear) (store exchanged)).state ∧
    taken 0 exchanged given = [⟨2, 0⟩] ∧
    (store (given ++ exchanged)).Confines 0 (· ∈ taken 0 exchanged given)
      (Store.step (.drop 0) (store (given ++ exchanged))).state := by
  have hyoung : Young (given ++ exchanged) := young_of_length (by decide)
  have hio : InOrder exchanged := inOrder ordinary_exchanged.of_append hyoung.of_append
  have hheld : (store exchanged).heldAt 0 = [⟨1, 0⟩] := by decide +kernel
  have hbefore : ∀ v ∈ (store exchanged).heldAt 0, (store exchanged).AlienAt 0 v := by decide +kernel
  have hafter : ∀ v ∈ (store exchanged).heldAt 0, (store (given ++ exchanged)).AlienAt 0 v := by
    decide +kernel
  refine ⟨pools_isolated.1 _ _ (by decide), hheld, by decide +kernel, ?_, by decide +kernel, ?_⟩
  · have hring := (pools_isolated.2.2.1 exchanged 0 0 (by decide +kernel)).2
    exact hring (fun v hv => hbefore v ((gives_iff hio).1 hv)) (.textRing 0 .clear) ⟨rfl, nofun, nofun⟩
  · exact pools_isolated.2.2.2 exchanged given ordinary_exchanged hyoung.recent 0 (by decide +kernel) 0
      (by decide +kernel) hafter (.drop 0) rfl

end Run

end FixedArena
