import FixedArena.Proofs.Ring.Alike
import FixedArena.Proofs.Store.Peaks
import FixedArena.Proofs.Store.Smooth
import FixedArena.Proofs.Text.Accesses

/-!
What no command takes from a store: every pool keeps the properties that last, wherever it is carried, and
every container has the pool that it refers to. Commands to containers leave all holds, too.

Main facts:
* `Store.Kept`: the pools have properties, each its own, and containers have their pools;
* `Store.keeping_step`: what a command to a container leaves;
* `Store.kept_step`: what every command leaves, those that take a slot of a pool and those that take none;
* `Run.kept`: at every moment of every run, all pools have every property that lasts.
-/

namespace FixedArena

/-- The command may take a slot of a pool. -/
def Command.Takes : Command → Prop
  | .newText .. | .pool _ .allocate | .textRing _ (.pushText _) | .text _ .clone => True
  | _ => False

/-- The command may take a slot of the pool with a number. -/
def Command.TakesFrom (s : Store) (k : Nat) (c : Command) : Prop := c.Takes ∧ c.pool? s = some k

namespace Store

open Act
open TextPool (Lasting Outlasts)

variable {α : Type} {P : Nat → TextPool → Prop} {s t : Store} {c : Command} {k r n pool : Nat}

/-- **The pool at each place has a property of its own, and every container has its pool.** -/
structure Kept (P : Nat → TextPool → Prop) (s : Store) : Prop where
  pools : ∀ k p, s.poolAt k = some p → P k p
  /-- The next pool gets an identity. -/
  nextPool : s.nextPool ≠ 0
  housed : ∀ r c, s.containerAt r = some c → ∀ k ∈ c.pool?, k < s.pools.size

/-- **What was kept is kept, and whoever holds an arena or a pool goes on holding it.** -/
structure Keeping (P : Nat → TextPool → Prop) (s t : Store) : Prop where
  kept : s.Kept P → t.Kept P
  arenas : t.arenas.map Guarded.hold = s.arenas.map Guarded.hold
  pools : t.pools.map Guarded.hold = s.pools.map Guarded.hold
  /-- Numbers of containers do not come back. -/
  size : s.containers.size ≤ t.containers.size

instance : IsPreorder Store (Keeping P) where
  refl _ := ⟨id, rfl, rfl, Nat.le_refl _⟩
  trans _ _ _ h₁ h₂ :=
    ⟨fun h => h₂.kept (h₁.kept h), h₂.arenas.trans h₁.arenas, h₂.pools.trans h₁.pools,
      Nat.le_trans h₁.size h₂.size⟩

theorem poolAt_eq (s : Store) (k : Nat) : s.poolAt k = s.poolList[k]? := by
  rw [poolAt, poolList, List.getElem?_map, Array.getElem?_toList]

/-- A property that all pools have. -/
theorem Kept.of_mem {Q : TextPool → Prop} (hs : s.Kept fun _ => Q) {p : TextPool}
    (hp : p ∈ s.poolList) : Q p := by
  obtain ⟨k, hk⟩ := List.getElem?_of_mem hp
  exact hs.pools k p ((poolAt_eq s k).trans hk)

/-! ### Changes of the parts -/

theorem Kept.of_eq (hs : s.Kept P) (hpools : t.poolList = s.poolList)
    (hcont : t.containers = s.containers) (hnext : t.nextPool = s.nextPool) : t.Kept P where
  pools k p hp := by
    rw [poolAt_eq, hpools, ← poolAt_eq] at hp
    exact hs.pools k p hp
  nextPool := hnext ▸ hs.nextPool
  housed r c hc := by
    have hsize : t.pools.size = s.pools.size := by simpa [poolList] using congrArg List.length hpools
    rw [containerAt, hcont] at hc
    exact hsize ▸ hs.housed r c hc

/-- One container is another one, or is gone. -/
theorem Kept.of_set {x : Option Container} (hs : s.Kept P) (hpools : t.pools = s.pools)
    (hcont : t.containers = s.containers.setIfInBounds r x) (hnext : t.nextPool = s.nextPool)
    (hx : ∀ c ∈ x, ∀ k ∈ c.pool?, k < s.pools.size) : t.Kept P where
  pools k p hp := hs.pools k p ((poolAt_of_eq hpools k).symm.trans hp)
  nextPool := hnext ▸ hs.nextPool
  housed r' c hc k hk := by
    rw [hpools]
    by_cases hr : r' = r
    · subst hr
      rw [containerAt, hcont, Array.getElem?_setIfInBounds_self] at hc
      split at hc
      · exact hx c (Option.mem_def.2 (Option.some.inj (Option.join_eq_some_iff.1 hc))) k hk
      · cases hc
    · rw [containerAt, hcont, Array.getElem?_setIfInBounds_ne (Ne.symm hr)] at hc
      exact hs.housed r' c hc k hk

theorem Kept.push {c : Container} (hs : s.Kept P) (hpools : t.pools = s.pools)
    (hcont : t.containers = s.containers.push (some c)) (hnext : t.nextPool = s.nextPool)
    (hc : ∀ k ∈ c.pool?, k < s.pools.size) : t.Kept P where
  pools k p hp := hs.pools k p ((poolAt_of_eq hpools k).symm.trans hp)
  nextPool := hnext ▸ hs.nextPool
  housed r' c' hc' k hk := by
    rw [hpools]
    rw [containerAt_of_push hcont] at hc'
    split at hc'
    · exact hc k (Option.some.inj hc' ▸ hk)
    · exact hs.housed r' c' hc' k hk

theorem map_hold_set {xs : Array (Guarded α)} {g g' : Guarded α} (hg : xs[k]? = some g)
    (hhold : g'.hold = g.hold) :
    (xs.setIfInBounds k g').map Guarded.hold = xs.map Guarded.hold := by
  rw [Array.map_setIfInBounds, hhold]
  apply set_back
  rw [Array.getElem?_map, hg]
  rfl

/-- One pool has another value, with the same property. -/
theorem Kept.of_pool {g g' : Guarded TextPool} (hs : s.Kept P) (hg : s.pools[k]? = some g)
    (hg' : P k g.value → P k g'.value) (hpools : t.pools = s.pools.setIfInBounds k g')
    (hcont : t.containers = s.containers) (hnext : t.nextPool = s.nextPool) : t.Kept P where
  pools j p hp := by
    rw [poolAt_of_set hg hpools j] at hp
    split at hp
    · next hj =>
      obtain rfl := Option.some.inj hp
      exact hj ▸ hg' (hs.pools k _ (poolAt_of_get hg))
    · exact hs.pools j p hp
  nextPool := hnext ▸ hs.nextPool
  housed r c hc := by
    rw [containerAt, hcont] at hc
    rw [hpools, Array.size_setIfInBounds]
    exact hs.housed r c hc

theorem keeping_of_pool {g g' : Guarded TextPool} (hg : s.pools[k]? = some g)
    (hg' : g.Keeping (P k) g') (harenas : t.arenas = s.arenas)
    (hpools : t.pools = s.pools.setIfInBounds k g') (hcont : t.containers = s.containers)
    (hnext : t.nextPool = s.nextPool) : s.Keeping P t where
  kept hs := hs.of_pool hg hg'.1 hpools hcont hnext
  arenas := by rw [harenas]
  pools := by rw [hpools, map_hold_set hg hg'.2]
  size := (congrArg Array.size hcont).ge

theorem keeping_of_arena {g g' : Guarded BlockArena} (hg : s.arenas[k]? = some g)
    (hg' : g'.hold = g.hold) (harenas : t.arenas = s.arenas.setIfInBounds k g')
    (hpools : t.pools = s.pools) (hcont : t.containers = s.containers)
    (hnext : t.nextPool = s.nextPool) : s.Keeping P t where
  kept hs := hs.of_eq (by rw [poolList, hpools]; rfl) hcont hnext
  arenas := by rw [harenas, map_hold_set hg hg']
  pools := by rw [hpools]
  size := (congrArg Array.size hcont).ge

/-- One container is another one, or is gone. -/
theorem keeping_of_set {x : Option Container} (harenas : t.arenas = s.arenas)
    (hpools : t.pools = s.pools) (hcont : t.containers = s.containers.setIfInBounds r x)
    (hnext : t.nextPool = s.nextPool) (hx : ∀ c ∈ x, ∀ k ∈ c.pool?, k < s.pools.size) :
    s.Keeping P t where
  kept hs := hs.of_set hpools hcont hnext hx
  arenas := by rw [harenas]
  pools := by rw [hpools]
  size := by rw [hcont, Array.size_setIfInBounds]

theorem keeping_without (r : Nat) (s : Store) : s.Keeping P (without r s) :=
  keeping_of_set rfl rfl rfl rfl nofun

/-! ### Operations on the parts -/

theorem keeping_onArena (n : Nat) {x : Act Failure (Guarded BlockArena) α}
    (hx : Within (Order.Preimage Guarded.hold Eq) x) : Within (Keeping P) (onArena n x) := by
  intro s
  cases hg : s.arenas[n]? with
  | none =>
    rw [onArena_none hg]
    exact refl_of (Keeping P) s
  | some g =>
    rw [onArena_some hg]
    exact keeping_of_arena hg (hx g).symm rfl rfl rfl rfl

theorem keeping_onPool (pool : Nat) {x : Act Failure (Guarded TextPool) α}
    (hx : Within (Guarded.Keeping (P pool)) x) : Within (Keeping P) (onPool pool x) := by
  intro s
  cases hg : s.pools[pool]? with
  | none =>
    rw [onPool_none hg]
    exact refl_of (Keeping P) s
  | some g =>
    rw [onPool_some hg]
    exact keeping_of_pool hg (hx g) rfl rfl rfl rfl

theorem keeping_onRing {type : ElementType} (r : Nat) (ring : Ring type.Value) (n : Nat)
    {x : Act Error (Ring.Site type.Value) α} (hx : Ring.KeepsHold x) :
    Within (Keeping P) (onRing r ring n x) := by
  intro s
  cases hg : s.arenas[n]? with
  | none =>
    rw [onRing_none r ring hg]
    exact refl_of (Keeping P) s
  | some g =>
    rw [onRing_some r ring hg]
    have harena : s.Keeping P { s with arenas := s.arenas.setIfInBounds n (x ⟨ring, g⟩).state.nodes } :=
      keeping_of_arena hg (hx ⟨ring, g⟩).symm rfl rfl rfl rfl
    apply trans_of (Keeping P) harena
    refine keeping_of_set rfl rfl rfl rfl fun c hc k hk => ?_
    rw [← Option.mem_some_iff.1 hc] at hk
    cases hk

theorem keeping_onTextRing (r : Nat) (tr : TextRing) (n pool : Nat)
    {x : Act Error TextRing.Site α}
    (hx : Within (TextRing.Site.Each (Order.Preimage Ring.Site.hold Eq) (Guarded.Keeping (P pool))) x) :
    Within (Keeping P) (onTextRing r tr n pool x) := by
  intro s
  obtain ⟨-, h⟩ | ⟨g, p, hg, hp, h⟩ := onTextRing_cases r tr pool n x s
  · rw [h]
    exact refl_of (Keeping P) s
  · rw [h]
    obtain ⟨hnodes, hpool⟩ := hx ⟨tr, g, p⟩
    have harena : s.Keeping P
        { s with arenas := s.arenas.setIfInBounds n (x ⟨tr, g, p⟩).state.nodes } :=
      keeping_of_arena hg hnodes.symm rfl rfl rfl rfl
    have hpools : s.Keeping P { s with
        arenas := s.arenas.setIfInBounds n (x ⟨tr, g, p⟩).state.nodes
        pools := s.pools.setIfInBounds pool (x ⟨tr, g, p⟩).state.pool } := by
      apply trans_of (Keeping P) harena
      exact keeping_of_pool hp hpool rfl rfl rfl rfl
    apply trans_of (Keeping P) hpools
    refine keeping_of_set rfl rfl rfl rfl fun c hc k hk => ?_
    rw [← Option.mem_some_iff.1 hc] at hk
    obtain rfl := Option.mem_some_iff.1 hk
    rw [Array.size_setIfInBounds]
    exact (Array.getElem?_eq_some_iff.1 hp).1

/-! ### Commands to containers -/

theorem keeping_addContainer {c : Container} (hc : ∀ k ∈ c.pool?, k < s.pools.size) :
    s.Keeping P (addContainer c s).state where
  kept hs := hs.push rfl rfl rfl hc
  arenas := rfl
  pools := rfl
  size := Nat.le_of_lt (Nat.lt_of_lt_of_eq (Nat.lt_succ_self _) (Array.size_push ..).symm)

/-- A container is made, and has its pool. -/
theorem keeping_make {β : Type} {x : StoreAct β} {make : β → Container} (hx : Within (Keeping P) x)
    (hmake : ∀ a, (x s).result = .ok a → ∀ k ∈ (make a).pool?, k < s.pools.size) :
    s.Keeping P ((x >>= fun a => Reply.container <$> addContainer (make a)) s).state := by
  have hkeeping := hx s
  cases hr : (x s).result with
  | error e =>
    rw [bind_of_error hr]
    exact hkeeping
  | ok a =>
    rw [bind_of_ok hr, map_apply]
    apply trans_of (Keeping P) hkeeping
    have hsize : (x s).state.pools.size = s.pools.size := by
      simpa using congrArg Array.size hkeeping.pools
    exact keeping_addContainer (hsize.symm ▸ hmake a hr)

theorem keeping_onText (pool : Nat) {x : TextPool.GuardedAct α}
    (hx : Within (Guarded.Keeping (P pool)) x) : Within (Keeping P) (onText pool x) :=
  keeping_onPool pool (hx.mapError Failure.refused)

theorem keeping_makeText (pool : Nat) {x : TextPool.GuardedAct TextHandle}
    (hx : Within (Guarded.Keeping (P pool)) x) : Within (Keeping P) (onText pool x >>= fun h =>
      Reply.container <$> addContainer (.text h pool)) := by
  intro s
  refine keeping_make (keeping_onText pool hx) fun h hr k hk => ?_
  obtain rfl := Option.mem_some_iff.1 hk
  cases hg : s.pools[pool]? with
  | none =>
    rw [onText, onPool_none hg] at hr
    cases hr
  | some g => exact (Array.getElem?_eq_some_iff.1 hg).1

theorem keeping_newRing (type : ElementType) (n : Nat) : Within (Keeping P) (step (.newRing type n)) :=
  fun _ => keeping_make (keeping_onArena n ((Guarded.hold_writing Ring.nodesBusy _).mapError _))
    fun _ _ => nofun

theorem keeping_newTextRing (n pool : Nat) : Within (Keeping P) (step (.newTextRing n pool)) := by
  intro s
  obtain h | ⟨hpool, h⟩ := newTextRing_cases n pool s
  · rw [h]
    exact refl_of (Keeping P) s
  · rw [h]
    refine keeping_make (keeping_onArena n ((Guarded.hold_writing Ring.nodesBusy _).mapError _))
      fun _ _ k hk => ?_
    exact Option.mem_some_iff.1 hk ▸ hpool

theorem keeping_ringStep {type : ElementType} (r : Nat) (ring : Ring type.Value) (n : Nat)
    (d : RingCommand type.Value) : Within (Keeping P) (ringStep r ring n d) := by
  have hon : ∀ {β : Type} {x : Act Error (Ring.Site type.Value) β} (f : β → Reply),
      Ring.KeepsHold x → Within (Keeping P) (f <$> onRing r ring n x) :=
    fun f hx => (keeping_onRing r ring n hx).map f
  have hread : ∀ {β : Type} {x : Act Error (Ring.Site type.Value) β},
      (∀ t, (x t).state = t) → Ring.KeepsHold x :=
    fun hx t => congrArg Ring.Site.hold (hx t).symm
  cases d with
  | push side v => exact hon _ (Ring.keepsHold_push side v)
  | pop side => exact hon _ (Ring.keepsHold_pop side)
  | peek side => exact hon _ (hread (Ring.state_peek side))
  | get index => exact hon _ (hread (Ring.state_get index))
  | set index v => exact hon _ (Ring.keepsHold_set index v)
  | clear => exact hon _ Ring.keepsHold_clear
  | toList => exact hon _ (hread fun _ => rfl)
  | scan steps => exact hon _ (hread (Ring.state_scan steps))
  | size => exact within_pure _
  | describe => exact within_pure _

theorem keeping_ring (r : Nat) (d : RingCommand Datum) : Within (Keeping P) (step (.ring r d)) := by
  intro s
  obtain h | ⟨type, ring, n, d', -, -, h⟩ := ring_cases r d s
  · rw [h]
    exact refl_of (Keeping P) s
  · rw [h]
    exact keeping_ringStep r ring n d' s

section Outlasts

variable {takes : Nat → Prop} (hP : ∀ k, Outlasts (takes k) (P k))

include hP

theorem keeping_textRingStep (r : Nat) (tr : TextRing) (n pool : Nat) (d : TextRingCommand)
    (hd : ∀ t, d = .pushText t → takes pool) : Within (Keeping P) (textRingStep r tr n pool d) := by
  have hon : ∀ {β : Type} {x : Act Error TextRing.Site β} (f : β → Reply),
      Within (TextRing.Site.Each (Order.Preimage Ring.Site.hold Eq) (Guarded.Keeping (P pool))) x →
      Within (Keeping P) (f <$> onTextRing r tr n pool x) :=
    fun f hx => (keeping_onTextRing r tr n pool hx).map f
  have hread : ∀ {β : Type} {x : Act Error TextRing.Site β} (f : β → Reply),
      (∀ t, (x t).state = t) → Within (Keeping P) (f <$> onTextRing r tr n pool x) :=
    fun f hx => hon f (Still.within fun t => (hx t).symm)
  have hQ := (hP pool).acrossEdits
  have hpop := TextRing.within_pop hQ Ring.keepsHold_pop
  cases d with
  | push side h => exact hon _ (TextRing.within_push hQ Ring.keepsHold_push side h)
  | pushText t =>
    exact hon _ (TextRing.within_pushText ((hP pool).acrossCalls (hd t rfl)) Ring.keepsHold_push t)
  | pop side => exact hon _ (hpop side)
  | peek side => exact hread _ (TextRing.state_onHandles (Ring.state_peek side))
  | get index => exact hread _ (TextRing.state_onHandles (Ring.state_get index))
  | text index => exact hread _ (TextRing.state_text index)
  | position t => exact hread _ fun _ => rfl
  | size => exact within_pure _
  | toList => exact hread _ fun _ => rfl
  | scan steps => exact hread _ (TextRing.state_onHandles (Ring.state_scan steps))
  | clear => exact hon _ (TextRing.within_clear (hpop .front))
  | describe => exact hread _ fun _ => rfl
  | describeLong => exact hread _ fun _ => rfl
  | intoTexts =>
    refine ((keeping_onTextRing r tr n pool fun t => ?_).afterwards (keeping_without r)).map _
    rw [TextRing.state_intoTexts]
    exact TextRing.within_drop hQ Ring.keepsHold_pop Ring.keepsHold_drop t
  | livesIn k => exact within_pure _

theorem keeping_textRing (r : Nat) (d : TextRingCommand)
    (hd : ∀ t, d = .pushText t → ∀ pool, s.poolOf r = some pool → takes pool) :
    s.Keeping P (step (.textRing r d) s).state := by
  obtain ⟨-, h⟩ | ⟨tr, n, pool, hc, h⟩ := textRing_cases r d s
  · rw [h]
    exact refl_of (Keeping P) s
  · rw [h]
    have hpool : s.poolOf r = some pool := by
      rw [poolOf, hc]
      rfl
    exact keeping_textRingStep hP r tr n pool d (fun t ht => hd t ht pool hpool) s

theorem keeping_newText (ht : takes pool) (content : Option String) :
    Within (Keeping P) (step (.newText pool content)) := by
  have hQ := (hP pool).acrossCalls ht
  cases content with
  | none =>
    rw [step_newText]
    exact keeping_makeText pool (OwnedText.within_make hQ fun _ => within_pure ())
  | some t =>
    rw [step_newText_with]
    exact keeping_makeText pool (OwnedText.within_make hQ (OwnedText.within_assign hQ.edits · t))

theorem keeping_assignFrom (h : TextHandle) (pool : Nat) (source : TextHandle) (sourcePool : Nat) :
    Within (Keeping P) (assignFrom h pool source sourcePool) := by
  unfold assignFrom
  split
  · exact keeping_onText pool (OwnedText.within_copy (hP pool).acrossEdits h source)
  · exact (keeping_onText sourcePool (OwnedText.still_content source).within).bind fun t =>
      keeping_onText pool (OwnedText.within_assign (hP pool).acrossEdits h t)

theorem keeping_textStep (h : TextHandle) (pool : Nat) {d : TextCommand}
    (hd : ∀ o, d ≠ .assignReading o) (hclone : d = .clone → takes pool) :
    Within (Keeping P) (textStep h pool d) := by
  have hQ := (hP pool).acrossEdits
  cases d with
  | assign t => exact (keeping_onText pool (OwnedText.within_assign hQ h t)).map _
  | append t => exact (keeping_onText pool (OwnedText.within_append hQ h t)).map _
  | assignFrom o =>
    exact (still_textAt o).within.bind fun _ => (keeping_assignFrom hP _ _ _ _).bind fun _ =>
      within_pure _
  | assignReading o => exact absurd rfl (hd o)
  | clone =>
    rw [textStep_clone]
    have hcalls := (hP pool).acrossCalls (hclone rfl)
    exact keeping_makeText pool (OwnedText.within_make hcalls (OwnedText.within_copy hQ · h))
  | _ =>
    apply Still.within
    exact still_textStep (r := 0) rfl nofun

theorem keeping_text (r : Nat) {d : TextCommand} (hd : ∀ o, d ≠ .assignReading o)
    (hclone : d = .clone → ∀ pool, s.poolOf r = some pool → takes pool) :
    s.Keeping P (step (.text r d) s).state := by
  obtain h | ⟨h, pool, hc⟩ := textAt_cases r s
  · rw [step, bind_error h]
    exact refl_of (Keeping P) s
  · rw [step_text hc]
    have hpool : s.poolOf r = some pool := by
      rw [poolOf, hc]
      rfl
    exact keeping_textStep hP h pool hd (fun hd => hclone hd pool hpool) s

theorem keeping_drop (r : Nat) : Within (Keeping P) (step (.drop r)) := by
  intro s
  obtain ⟨-, h⟩ | ⟨c, -, h⟩ := drop_cases r s
  · rw [h]
    exact refl_of (Keeping P) s
  · rw [h]
    have hdrop : Within (Keeping P) (dropContainer r c) := by
      refine Within.afterwards ?_ (keeping_without r)
      cases c with
      | ring type ring n => exact keeping_onRing r ring n Ring.keepsHold_drop
      | textRing tr n pool =>
        exact keeping_onTextRing r tr n pool
          (TextRing.within_drop (hP pool).acrossEdits Ring.keepsHold_pop Ring.keepsHold_drop)
      | text own pool => exact keeping_onText pool (OwnedText.within_drop (hP pool).acrossEdits own)
    exact hdrop s

/-- **No command to a container changes who holds what**, unless it holds a pool itself. -/
theorem keeping_step (ht : ∀ k, c.TakesFrom s k → takes k) (hc : c.UsesContainer) (hh : ¬c.HoldsPool) :
    s.Keeping P (step c s).state := by
  cases c with
  | newRing type n => exact keeping_newRing type n s
  | newTextRing n pool => exact keeping_newTextRing n pool s
  | newText pool content => exact keeping_newText hP (ht pool ⟨trivial, rfl⟩) content s
  | drop r => exact keeping_drop hP r s
  | ring r d => exact keeping_ring r d s
  | textRing r d =>
    refine keeping_textRing hP r d fun t hd pool hpool => ht pool ⟨?_, hpool⟩
    subst hd
    trivial
  | text r d =>
    refine keeping_text hP r (fun o ho => hh ?_) fun hd pool hpool => ht pool ⟨?_, hpool⟩
    · subst ho
      trivial
    · subst hd
      trivial
  | _ => exact hc.elim

end Outlasts

/-! ### All commands -/

theorem kept_onPool (k : Nat) {x : Act Failure (Guarded TextPool) α}
    (hx : ∀ g, P k g.value → P k (x g).state.value) : Within (Preserving (Kept P)) (onPool k x) := by
  intro s hs
  cases hg : s.pools[k]? with
  | none =>
    rw [onPool_none hg]
    exact hs
  | some g =>
    rw [onPool_some hg]
    exact hs.of_pool hg (hx g) rfl rfl rfl

theorem kept_onArena (k : Nat) (x : Act Failure (Guarded BlockArena) α) :
    Within (Preserving (Kept P)) (onArena k x) := by
  intro s hs
  cases hg : s.arenas[k]? with
  | none =>
    rw [onArena_none hg]
    exact hs
  | some g =>
    rw [onArena_some hg]
    exact hs.of_eq rfl rfl rfl

theorem kept_writePool (k : Nat) {x : Act Error TextPool α} (hx : Within (Preserving (P k)) x) :
    Within (Preserving (Kept P)) (writePool k x) :=
  kept_onPool k fun g => (Guarded.within_writing (hx.mapError Failure.refused) Failure.held g).1

theorem kept_readPool (k : Nat) (f : TextPool → Except Error α) :
    Within (Preserving (Kept P)) (readPool k f) :=
  kept_onPool k fun _ => id

theorem kept_addArena (capacity blockSize : Nat) :
    Within (Preserving (Kept P)) (addArena capacity blockSize) := by
  intro s hs
  obtain h | ⟨-, h⟩ := addArena_cases capacity blockSize s
  · rwa [h]
  · rw [h]
    exact hs.of_eq rfl rfl rfl

theorem kept_takeHold (target : Target) (mode : Mode) :
    Within (Preserving (Kept P)) (takeHold target mode) := by
  cases target with
  | arena k => exact kept_onArena k _
  | pool k => exact kept_onPool k fun g hg => (value_hold mode g).symm ▸ hg

/-- Pools that change places take their properties along. -/
theorem kept_swapPools (hs : s.Kept P) (i j : Nat) : (step (.swapPools i j) s).state.Kept fun k =>
    P (Command.poolOrigin s (.swapPools i j) k) := by
  cases h : swapValues s.pools i j with
  | error e =>
    have horigin : ∀ k, Command.poolOrigin s (.swapPools i j) k = k := by
      intro k
      simp [Command.poolOrigin, swapOrigin, h]
    simp only [step, read_bind, h, horigin]
    exact hs
  | ok pools =>
    have horigin : ∀ k, Command.poolOrigin s (.swapPools i j) k = Equiv.swap i j k := by
      intro k
      simp [Command.poolOrigin, swapOrigin, h]
    simp only [step, read_bind, h, horigin]
    refine ⟨fun k p hp => hs.pools _ p ?_, hs.nextPool, fun r c hc k hk => ?_⟩
    · exact (values_swap h k).symm.trans hp
    · exact (size_swapValues h).symm ▸ hs.housed r c hc k hk

theorem kept_released (target : Target) (mode : Mode) (s : Store) :
    Preserving (Kept P) s (released target mode s) := by
  intro hs
  cases target with
  | arena k => exact hs.of_eq rfl rfl rfl
  | pool k => exact hs.of_eq (by simp [poolList, released, map_value_modify]) rfl rfl

theorem nextPoolId_ne_zero (id : UInt16) : nextPoolId id ≠ 0 := by
  unfold nextPoolId
  split
  · decide
  · assumption

section Outlasts

variable {takes : Nat → Prop} (hP : ∀ k, Outlasts (takes k) (P k))

include hP

/-- A pool is added that is new. -/
theorem Kept.of_push {slots maxLen : Nat} (hs : s.Kept P)
    (hroom : TextPool.room slots maxLen = .ok ())
    (hpools : t.pools = s.pools.push { value := .fresh s.nextPool slots maxLen })
    (hcont : t.containers = s.containers) (hnext : t.nextPool = nextPoolId s.nextPool) :
    t.Kept P where
  pools k p hp := by
    rw [poolAt_of_push hpools] at hp
    split at hp
    · obtain rfl := Option.some.inj hp
      obtain ⟨-, hlen, hslots, -⟩ := TextPool.room_eq_ok_iff.1 hroom
      exact (hP k).fresh s.nextPool slots maxLen hs.nextPool hlen hslots
    · exact hs.pools k p hp
  nextPool := hnext ▸ nextPoolId_ne_zero s.nextPool
  housed r c hc k hk := by
    rw [containerAt, hcont] at hc
    rw [hpools, Array.size_push]
    exact Nat.lt_succ_of_lt (hs.housed r c hc k hk)

theorem kept_addPool (slots maxLen : Nat) : Within (Preserving (Kept P)) (addPool slots maxLen) := by
  intro s hs
  cases hroom : TextPool.room slots maxLen with
  | error e =>
    obtain ⟨log, hadd⟩ := addPool_error hroom s
    rw [hadd]
    exact hs
  | ok u =>
    rw [addPool_ok hroom]
    exact hs.of_push hP hroom rfl rfl rfl

theorem kept_addArenas (sizing : Sizing) : Within (Preserving (Kept P)) (addArenas sizing) := by
  intro s hs
  obtain h | h | ⟨-, hroom, h⟩ := addArenas_cases sizing s
  · rwa [h]
  · rw [h]
    exact hs.of_eq rfl rfl rfl
  · rw [h]
    exact hs.of_push hP hroom rfl rfl rfl

theorem kept_poolStep (k : Nat) (d : PoolCommand) (hd : d = .allocate → takes k) :
    Within (Preserving (Kept P)) (poolStep k d) := by
  cases d with
  | allocate => exact (kept_writePool k ((hP k).within (c := .allocate) (fun _ => hd rfl) rfl)).map _
  | free h => exact (kept_writePool k ((hP k).within (c := .free h) nofun rfl)).map _
  | assign h t => exact (kept_writePool k ((hP k).within (c := .assign h t) nofun rfl)).map _
  | append h t => exact (kept_writePool k ((hP k).within (c := .append h t) nofun rfl)).map _
  | copy target source =>
    exact (kept_writePool k ((hP k).within (c := .copy target source) nofun rfl)).map _
  | logUsage =>
    exact (kept_readPool k _).bind fun _ => (within_logLines _).bind fun _ => within_pure _
  | state h => exact kept_readPool k _
  | _ => exact (kept_readPool k _).map _

/-- A text that is assigned while the pool of another is being read. -/
theorem kept_assignReading (r o : Nat) :
    Within (Preserving (Kept P)) (step (.text r (.assignReading o))) := by
  refine (still_textAt r).within.bind fun (h, pool) => (still_textAt o).within.bind fun (source, k) =>
    (still_onText k (OwnedText.still_content source)).within.bind fun t => ?_
  have hassign : Within (Preserving (Kept P)) (onText pool (OwnedText.assign h t)) :=
    (keeping_onText pool (OwnedText.within_assign (hP pool).acrossEdits h t)).imp fun _ _ => Keeping.kept
  refine Within.bind ((kept_takeHold _ _).settled.bind fun taken => ?_) fun _ => within_pure _
  match taken with
  | .ok () => exact hassign.afterwards (kept_released _ _)
  | .error _ => exact hassign

/-- A command that makes and uses no container, and leaves the pools in their places. -/
theorem kept_outside (hu : ¬c.UsesContainer) (hc : ∀ i j, c ≠ .swapPools i j)
    (ht : ∀ k, c = .pool k .allocate → takes k) : Within (Preserving (Kept P)) (step c) := by
  cases c with
  | reserveArena capacity blockSize => exact (kept_addArena capacity blockSize).map _
  | reservePool slots maxLen => exact (kept_addPool hP slots maxLen).map _
  | reserve sizing => exact (kept_addArenas hP sizing).map _
  | hold target mode => exact (kept_takeHold target mode).map _
  | release target mode =>
    exact (within_modify (kept_released target mode)).bind fun _ => within_pure _
  | swapArenas i j =>
    refine (within_read _).bind fun _ => (within_modify fun s hs => ?_).bind fun _ => within_pure _
    exact hs.of_eq rfl rfl rfl
  | swapPools i j => exact absurd rfl (hc i j)
  | arena k d =>
    cases d with
    | logUsage =>
      exact (kept_onArena k _).bind fun _ => (within_logLines _).bind fun _ => within_pure _
    | logLayout =>
      exact (kept_onArena k _).bind fun _ => (within_logLines _).bind fun _ => within_pure _
    | _ => exact (kept_onArena k _).map _
  | pool k d => exact kept_poolStep hP k d fun hd => ht k (hd ▸ rfl)
  | usageBoth nodes pool => exact (within_read _).map _
  | logUsageBoth nodes pool =>
    exact (within_read _).bind fun _ => (within_logLines _).bind fun _ => within_pure _
  | describeBoth nodes pool => exact (within_read _).map _
  | _ => exact absurd trivial hu

theorem kept_in_place (ht : ∀ k, c.TakesFrom s k → takes k) (hc : ∀ i j, c ≠ .swapPools i j)
    (hs : s.Kept P) : (step c s).state.Kept P := by
  by_cases hh : c.HoldsPool
  · cases c with
    | text r d =>
      cases d with
      | assignReading o => exact kept_assignReading hP r o s hs
      | _ => exact hh.elim
    | _ => exact hh.elim
  · by_cases hu : c.UsesContainer
    · exact (keeping_step hP ht hu hh).kept hs
    · refine kept_outside hP hu hc (fun k hk => ht k ?_) s hs
      subst hk
      exact ⟨trivial, rfl⟩

/-- **No command takes from the pools what lasts, or from containers their pools**; and what lasts in a
pool while none of its slots is taken, goes by commands only that take one. -/
theorem kept_step (ht : ∀ k, c.TakesFrom s k → takes k) (hs : s.Kept P) :
    (step c s).state.Kept fun k => P (c.poolOrigin s k) := by
  cases c with
  | swapPools i j => exact kept_swapPools hs i j
  | _ => exact kept_in_place hP ht nofun hs

end Outlasts

/-- **Every command leaves the numbers of containers in use**, or adds to them. -/
theorem size_le_step (c : Command) (s : Store) :
    s.containers.size ≤ (step c s).state.containers.size := by
  by_cases haside : c.Aside
  · exact (congrArg Array.size (calm_step haside s).containers).ge
  · by_cases hc : c.UsesContainer
    · have hh : ¬c.HoldsPool := by
        intro hh
        cases c with
        | text r d =>
          cases d with
          | assignReading o => exact haside nofun
          | _ => exact hh
        | _ => exact hh
      exact (keeping_step (fun _ => TextPool.lasting_tidy.outlasts) (fun _ _ => trivial) hc hh).size
    · cases c with
      | reserveArena capacity blockSize =>
        rw [step, map_apply]
        obtain h | ⟨-, h⟩ := addArena_cases capacity blockSize s
        · rw [h]
        · rw [h]
      | reserve sizing =>
        rw [step, map_apply]
        obtain h | h | ⟨-, -, h⟩ := addArenas_cases sizing s
        · rw [h]
        · rw [h]
        · rw [h]
      | swapArenas i j =>
        rw [step, read_bind]
        split
        · exact Nat.le_refl _
        · exact Nat.le_refl _
      | arena n d => exact (congrArg Array.size (tends_arena (k := 0) (W := []) n d s).containers).ge
      | _ => first | exact absurd trivial hc | exact absurd trivial haside

end Store

/-- **At every moment of every run**, all pools have every property that lasts, and every container has
its pool, whoever holds what and whatever changed places. -/
theorem Run.kept {Q : TextPool → Prop} (hQ : TextPool.Lasting Q) (run : Run) :
    (store run).Kept fun _ => Q := by
  induction run with
  | nil => exact ⟨nofun, by decide, fun r c hc => by simp [store, Store.containerAt] at hc⟩
  | cons c past ih => exact Store.kept_step (fun _ => hQ.outlasts) (fun _ _ => trivial) ih

end FixedArena
