import FixedArena.Proofs.Store.Bookkeeping
import FixedArena.Proofs.Store.Listed

/-!
What the commands to containers post to the ledgers of the pools. A text ring takes slots from callers
or from the pool and gives them back to the pool; a container that is given up gives all of its slots
back, unless its arena or its pool is held.

Main facts:
* `GivesFreely`: nothing is given up under a hold;
* `step_posts`: what every command posts.
-/

namespace FixedArena

namespace Store

open OwnedText (Edits)
open TextPool (Stays)

variable {α : Type} {s t : Store} {k r n pool : Nat} {c : Command} {W : List TextHandle}
  {f : List TextHandle → List TextHandle}

/-! ### Rings -/

section Rings

variable {type : ElementType} {ring : Ring type.Value} {tr : TextRing} {g : Guarded BlockArena}
  {p : Guarded TextPool} {ns : List UInt32} {vs : List TextHandle}

theorem posts_onRing (x : Act Error (Ring.Site type.Value) α)
    (hc : s.containerAt r = some (.ring type ring n)) :
    PostsTo k W (s.heldOn k r) s (fun L => L) ((onRing r ring n x s).state.heldOn k r)
      (onRing r ring n x s).state := by
  cases hg : s.arenas[n]? with
  | none =>
    rw [onRing_none r ring hg]
    exact .of_same rfl
  | some g =>
    rw [onRing_some r ring hg]
    refine .of_empty rfl (heldOn_of_ring hc) ?_
    exact heldOn_of_ring ((containerAt_of_set (lt_size_of_containerAt hc) rfl r).trans (if_pos rfl))

theorem posts_ring (r : Nat) (c : RingCommand Datum) (s : Store) :
    PostsAt k s (.ring r c) (step (.ring r c) s).state := by
  obtain h | ⟨type, ring, n, d, hc, -, h⟩ := ring_cases r c s
  · rw [h]
    exact .of_same rfl
  · have hon : ∀ {β : Type} (x : Act Error (Ring.Site type.Value) β) (f : β → Reply),
        PostsAt k s (.ring r c) ((f <$> onRing r ring n x) s).state := by
      intro _ x f
      rw [Act.map_apply]
      exact posts_onRing x hc
    rw [h]
    cases d with
    | size => exact .of_same rfl
    | describe => exact .of_same rfl
    | _ => exact hon _ _

/-! ### Text rings -/

/-- A text ring finds its arena and its pool, and holds a list. -/
theorem exists_site (hc : s.containerAt r = some (.textRing tr n pool)) (hs : s.Settled n) :
    ∃ g p ns vs, s.arenas[n]? = some g ∧ s.pools[pool]? = some p ∧ g.value.Sound ∧
      tr.handles.Holds g.value ns vs := by
  have hplaced := placedAt_of_container hc
  have hhomed := hs.homed r _ hplaced
  have hg := Array.getElem?_eq_getElem hhomed.nodes
  have hp := Array.getElem?_eq_getElem (hhomed.pool pool rfl)
  obtain ⟨ns, vs, hh⟩ := hs.valid _ (arenaAt_of_get hg) r _ hplaced rfl
  exact ⟨_, _, ns, vs, hg, hp, hs.sound _ (arenaAt_of_get hg), hh⟩

theorem onTextRing_some (r : Nat) (tr : TextRing) (hg : s.arenas[n]? = some g)
    (hp : s.pools[pool]? = some p) (x : Act Error TextRing.Site α) :
    onTextRing r tr n pool x s = ⟨(x ⟨tr, g, p⟩).result.mapError .refused,
      { s with
        arenas := s.arenas.setIfInBounds n (x ⟨tr, g, p⟩).state.nodes
        pools := s.pools.setIfInBounds pool (x ⟨tr, g, p⟩).state.pool
        containers := s.containers.setIfInBounds r
          (some (.textRing (x ⟨tr, g, p⟩).state.ring n pool)) },
      (x ⟨tr, g, p⟩).events⟩ := by
  unfold onTextRing
  rw [hg, hp]
  rfl

/-- What an operation of a text ring posts to its pool, it posts to the store. -/
theorem posts_onTextRing {x : Act Error TextRing.Site α}
    (hc : s.containerAt r = some (.textRing tr n pool)) (hg : s.arenas[n]? = some g)
    (hp : s.pools[pool]? = some p) (hs : g.value.Sound) (hh : tr.handles.Holds g.value ns vs)
    (hx : pool = k → TextRing.Site.Posts ⟨tr, g, p⟩ f (x ⟨tr, g, p⟩).state)
    (hf : pool ≠ k → f = fun L => L) :
    PostsTo k [] (s.heldOn k r) s f ((onTextRing r tr n pool x s).state.heldOn k r)
      (onTextRing r tr n pool x s).state := by
  rw [onTextRing_some r tr hg hp]
  let site := (x ⟨tr, g, p⟩).state
  let t : Store := { s with
    arenas := s.arenas.setIfInBounds n site.nodes
    pools := s.pools.setIfInBounds pool site.pool
    containers := s.containers.setIfInBounds r (some (.textRing site.ring n pool)) }
  have hct : t.containerAt r = some (.textRing site.ring n pool) :=
    (containerAt_of_set (lt_size_of_containerAt hc) rfl r).trans (if_pos rfl)
  have hat : t.arenaAt n = some site.nodes.value := (arenaAt_of_set hg rfl n).trans (if_pos rfl)
  have hpt := poolAt_of_set (t := t) hp rfl
  suffices h : PostsTo k [] (s.heldOn k r) s f (t.heldOn k r) t from h
  by_cases hk : pool = k
  · subst hk
    refine .of_tidy fun htidy => ?_
    obtain ⟨ns', vs', hh', hposts⟩ := hx rfl ns vs hh hs (htidy _ (poolAt_of_get hp))
    rw [heldOn_of_textRing hc (arenaAt_of_get hg) hh, heldOn_of_textRing hct hat hh']
    exact .of_posts (poolAt_of_get hp) ((hpt pool).trans (if_pos rfl)) hposts
  · rw [hf hk]
    refine .of_empty ((hpt k).trans (if_neg (Ne.symm hk))) (heldOn_of_elsewhere ?_)
      (heldOn_of_elsewhere ?_)
    · rw [poolOf_of_containerAt hc]
      exact fun h => hk (Option.some.inj h)
    · rw [poolOf_of_containerAt hct]
      exact fun h => hk (Option.some.inj h)

/-- A handle goes from a caller to a ring. -/
theorem posts_push (side : Ring.Side) (h : TextHandle)
    (hc : s.containerAt r = some (.textRing tr n pool)) (hs : s.Settled n)
    (hstep : step (.textRing r (.push side h)) s = textRingStep r tr n pool (.push side h) s) :
    PostsAt k s (.textRing r (.push side h)) (step (.textRing r (.push side h)) s).state := by
  obtain ⟨g, p, ns, vs, hg, hp, hsound, hh⟩ := exists_site hc hs
  have hpool : s.poolOf r = some pool := poolOf_of_containerAt hc
  have hresult : (step (.textRing r (.push side h)) s).result =
      ((TextRing.push side h ⟨tr, g, p⟩).result.mapError Failure.refused).map
        fun _ => Reply.done := by
    rw [hstep, textRingStep, Act.map_apply, textRingStep.on, onTextRing_some r tr hg hp]
  have hlent : s.lentAfter k (.textRing r (.push side h)) = fun L =>
      if pool = k then TextRing.stillLent (TextRing.push side h ⟨tr, g, p⟩).result h L else L := by
    funext L
    simp only [lentAfter, hresult, hpool, Option.some_inj]
    cases (TextRing.push side h ⟨tr, g, p⟩).result <;>
      simp [Except.map, Except.mapError, TextRing.stillLent]
  unfold PostsAt
  rw [hlent, hstep, textRingStep, Act.map_apply]
  refine posts_onTextRing hc hg hp hsound hh (fun hk => ?_) fun hk => ?_
  · have hposts := TextRing.posts_push side h ⟨tr, g, p⟩
    simp only [if_pos hk]
    exact hposts
  · simp only [if_neg hk]

theorem posts_textRingStep {c : TextRingCommand} (hne : c ≠ .intoTexts)
    (hpush : ∀ side h, c ≠ .push side h) (hc : s.containerAt r = some (.textRing tr n pool))
    (hs : s.Settled n) :
    PostsTo k [] (s.heldOn k r) s (fun L => L) ((textRingStep r tr n pool c s).state.heldOn k r)
      (textRingStep r tr n pool c s).state := by
  obtain ⟨g, p, ns, vs, hg, hp, hsound, hh⟩ := exists_site hc hs
  have hon : ∀ {β : Type} {x : Act Error TextRing.Site β} (f : β → Reply),
      TextRing.Site.Posts ⟨tr, g, p⟩ (fun L => L) (x ⟨tr, g, p⟩).state →
      PostsTo k [] (s.heldOn k r) s (fun L => L)
        (((f <$> textRingStep.on r tr n pool x) s).state.heldOn k r)
        ((f <$> textRingStep.on r tr n pool x) s).state := by
    intro _ x f hx
    rw [Act.map_apply]
    exact posts_onTextRing hc hg hp hsound hh (fun _ => hx) fun _ => rfl
  have hread : ∀ {β : Type} {x : Act Error TextRing.Site β} (f : β → Reply),
      (∀ site, (x site).state = site) → PostsTo k [] (s.heldOn k r) s (fun L => L)
        (((f <$> textRingStep.on r tr n pool x) s).state.heldOn k r)
        ((f <$> textRingStep.on r tr n pool x) s).state := by
    intro _ x f hx
    refine hon f ?_
    rw [hx]
    exact .refl _
  cases c with
  | push side h => exact absurd rfl (hpush side h)
  | pushText t => exact hon _ (TextRing.posts_pushText t _)
  | pop side => exact hon _ (TextRing.posts_pop side _)
  | clear => exact hon _ (TextRing.posts_clear _)
  | peek side => exact hread _ (TextRing.state_onHandles (Ring.state_peek side))
  | get index => exact hread _ (TextRing.state_onHandles (Ring.state_get index))
  | text index => exact hread _ (TextRing.state_text index)
  | scan steps => exact hread _ (TextRing.state_onHandles (Ring.state_scan steps))
  | intoTexts => exact absurd rfl hne
  | size => exact .of_same rfl
  | livesIn k => exact .of_same rfl
  | _ => exact hread _ fun _ => rfl

/-! ### Giving up -/

/-- Nobody holds the pool. -/
def PoolFreeAt (s : Store) (k : Nat) : Prop := ∀ p, s.pools[k]? = some p → p.hold = .free

instance (s : Store) (k : Nat) : Decidable (s.FreeAt k) :=
  inferInstanceAs (Decidable (∀ g ∈ s.arenas[k]?, g.hold = .free))

instance (s : Store) (k : Nat) : Decidable (s.PoolFreeAt k) :=
  inferInstanceAs (Decidable (∀ p ∈ s.pools[k]?, p.hold = .free))

/-- Nobody holds the arena or the pool where a container lives. -/
def Loose (s : Store) : Container → Prop
  | .ring _ _ n => s.FreeAt n
  | .textRing _ n pool => s.FreeAt n ∧ s.PoolFreeAt pool
  | .text _ pool => s.PoolFreeAt pool

instance (s : Store) : DecidablePred s.Loose := by
  intro x
  cases x <;> unfold Loose <;> infer_instance

/-- The container that a command gives up. -/
def givenUp (s : Store) : Command → Option Container
  | .drop r => s.containerAt r
  | .textRing r .intoTexts =>
    match s.containerAt r with
    | some (.textRing tr n pool) => some (.textRing tr n pool)
    | _ => none
  | _ => none

/-- **Nothing is given up while its arena or its pool is held.** -/
def GivesFreely (s : Store) (c : Command) : Prop := ∀ x ∈ s.givenUp c, s.Loose x

instance (s : Store) (c : Command) : Decidable (s.GivesFreely c) :=
  inferInstanceAs (Decidable (∀ x ∈ s.givenUp c, s.Loose x))

/-- A container that is gone has nothing. -/
theorem PostsTo.of_gone (h : PostsTo k W (s.heldOn k r) s (fun L => L) [] t) :
    PostsTo k W (s.heldOn k r) s (fun L => L) ((without r t).heldOn k r) (without r t) := by
  rw [heldOn_of_absent (containerAt_without r t)]
  exact h.congr rfl

theorem posts_dropTextRing {x : Act Error TextRing.Site α}
    (hx : ∀ site, (x site).state = (TextRing.drop site).state)
    (hc : s.containerAt r = some (.textRing tr n pool)) (hs : s.Settled n)
    (hfree : s.FreeAt n ∧ s.PoolFreeAt pool) :
    PostsTo k W (s.heldOn k r) s (fun L => L)
      ((without r (onTextRing r tr n pool x s).state).heldOn k r)
      (without r (onTextRing r tr n pool x s).state) := by
  obtain ⟨g, p, ns, vs, hg, hp, -, hh⟩ := exists_site hc hs
  rw [onTextRing_some r tr hg hp]
  refine .of_gone ?_
  by_cases hk : pool = k
  · subst hk
    have hposts := TextRing.drop_posts (s := ⟨tr, g, p⟩) hh ⟨hfree.1 g hg, hfree.2 p hp⟩ W []
    rw [List.append_nil, ← hx] at hposts
    rw [heldOn_of_textRing hc (arenaAt_of_get hg) hh]
    exact .of_posts (poolAt_of_get hp) ((poolAt_of_set hp rfl pool).trans (if_pos rfl)) hposts
  · have hnone : s.heldOn k r = [] := by
      apply heldOn_of_elsewhere
      rw [poolOf_of_containerAt hc]
      exact fun h => hk (Option.some.inj h)
    rw [hnone]
    exact .of_same ((poolAt_of_set hp rfl k).trans (if_neg (Ne.symm hk)))

theorem posts_dropText {h : TextHandle} (hc : s.containerAt r = some (.text h pool))
    (hfree : s.PoolFreeAt pool) :
    PostsTo k W (s.heldOn k r) s (fun L => L)
      ((without r (onText pool (OwnedText.drop h) s).state).heldOn k r)
      (without r (onText pool (OwnedText.drop h) s).state) := by
  have hheld := heldOn_of_text (k := k) hc
  refine .of_gone ?_
  unfold onText
  by_cases hk : pool = k
  · subst hk
    rw [hheld, if_pos rfl]
    cases hg : s.pools[pool]? with
    | none =>
      have hnone : s.poolAt pool = none := by
        rw [poolAt, hg]
        rfl
      rw [onPool_none hg]
      exact .of_missing hnone hnone
    | some g =>
      rw [onPool_some hg]
      exact .of_posts (poolAt_of_get hg) ((poolAt_of_set hg rfl pool).trans (if_pos rfl))
        (OwnedText.drop_posts h (hfree g hg) W [])
  · rw [hheld, if_neg hk]
    exact .of_same (poolAt_onPool_of_ne hk _ s)

theorem posts_dropContainer {c : Container} (hc : s.containerAt r = some c)
    (hs : ∀ j, s.Settled j) (hfree : s.Loose c) :
    PostsTo k W (s.heldOn k r) s (fun L => L) ((dropContainer r c s).state.heldOn k r)
      (dropContainer r c s).state := by
  unfold dropContainer
  rw [Act.afterwards_apply]
  cases c with
  | ring type ring n =>
    have hstay := state_onRing ring n Ring.drop r s
    refine .of_gone ?_
    rw [heldOn_of_ring hc]
    exact .of_same (poolAt_of_eq hstay.1 k)
  | textRing tr n pool => exact posts_dropTextRing (fun _ => rfl) hc (hs n) hfree
  | text h pool => exact posts_dropText hc hfree

theorem posts_drop (r : Nat) (hs : ∀ j, s.Settled j) (hfree : s.GivesFreely (.drop r)) :
    PostsAt k s (.drop r) (step (.drop r) s).state := by
  obtain ⟨-, h⟩ | ⟨c, hc, h⟩ := drop_cases r s
  · rw [h]
    exact .of_same rfl
  · rw [h]
    exact posts_dropContainer hc hs (hfree c hc)

theorem posts_textRing (r : Nat) (c : TextRingCommand) (hs : ∀ j, s.Settled j)
    (hfree : s.GivesFreely (.textRing r c)) :
    PostsAt k s (.textRing r c) (step (.textRing r c) s).state := by
  obtain ⟨-, h⟩ | ⟨tr, n, pool, hc, h⟩ := textRing_cases r c s
  · have hsame : s.lentAfter k (.textRing r c) = fun L => L := by
      cases c with
      | push side h' =>
        funext L
        simp only [lentAfter, h]
      | _ => rfl
    rw [PostsAt, hsame, h]
    exact .of_same rfl
  · cases c with
    | push side h' => exact posts_push side h' hc (hs n) h
    | intoTexts =>
      have hloose : s.Loose (.textRing tr n pool) := by
        apply hfree
        rw [givenUp, hc]
        rfl
      have hdrop := posts_dropTextRing (W := []) (k := k) TextRing.state_intoTexts hc (hs n) hloose
      rw [h]
      simp only [textRingStep, Act.map_apply, Act.afterwards_apply]
      exact hdrop
    | _ =>
      rw [h]
      refine posts_textRingStep (fun heq => ?_) (fun side h' heq => ?_) hc (hs n)
      · cases heq
      · cases heq

end Rings

/-! ### Texts -/

section Texts

variable {h : TextHandle}

theorem tends_textAt (r : Nat) {F : List TextHandle} : Act.Within (Tends k W F) (textAt r) := by
  intro s
  rw [state_textAt]
  exact refl_of _ s

/-- **A command to a text writes to no other.** -/
theorem tends_textStep {c : TextCommand} {F : List TextHandle} (hne : c ≠ .clone)
    (hW : pool = k → h ∈ W) : Act.Within (Tends k W F) (textStep h pool c) := by
  have hread : ∀ {β : Type} (n : Nat) {x : TextPool.GuardedAct β}, Act.Within (Stays W F) x →
      Act.Within (Tends k W F) (onText n x) :=
    fun n _ hx => tends_onPool fun _ => hx.mapError _
  have hedit : ∀ {x : TextPool.GuardedAct Unit}, Edits h x →
      Act.Within (Tends k W F) (onText pool x) :=
    fun hx => tends_onPool fun hk => (OwnedText.stays_of_edits hx (hW hk)).mapError _
  have hcontent : ∀ n g, Act.Within (Tends k W F) (onText n (OwnedText.content g)) :=
    fun n g => hread n (OwnedText.still_content g).within
  have hequals : ∀ t, Act.Within (Tends k W F) (onText pool (OwnedText.equals h t)) :=
    fun t => hread pool (OwnedText.still_equals h t).within
  cases c with
  | assign t => exact (hedit (OwnedText.edits_assign h t)).map _
  | append t => exact (hedit (OwnedText.edits_append h t)).map _
  | assignFrom other =>
    refine (tends_textAt other).bind fun ⟨source, sourcePool⟩ => ?_
    refine Act.Within.bind ?_ fun _ => Act.within_pure _
    unfold assignFrom
    split
    · exact hedit (OwnedText.edits_copy h source)
    · exact (hcontent _ _).bind fun t => hedit (OwnedText.edits_assign h t)
  | assignReading other =>
    refine (tends_textAt other).bind fun _ => (hcontent _ _).bind fun t => ?_
    exact (tends_whileReading _ (hedit (OwnedText.edits_assign h t))).bind fun _ =>
      Act.within_pure _
  | compare t => exact (hread pool (OwnedText.still_compare h t).within).map _
  | equals other =>
    exact (tends_textAt other).bind fun _ => (hcontent _ _).bind fun t => (hequals t).map _
  | equalsText t => exact (hequals t).bind fun _ => (hequals t).bind fun _ => Act.within_pure _
  | measure =>
    exact (hread pool (OwnedText.still_length h).within).bind fun _ =>
      (hread pool (OwnedText.still_isEmpty h).within).bind fun _ =>
      (hread pool (OwnedText.still_maxLength h).within).bind fun _ => Act.within_pure _
  | content => exact (hcontent pool h).map _
  | describe => exact (hread pool (OwnedText.still_describe h).within).map _
  | handle => exact Act.within_pure _
  | livesIn n => exact Act.within_pure _
  | clone => exact absurd rfl hne

theorem posts_text (r : Nat) {c : TextCommand} (hne : c ≠ .clone) (s : Store) :
    PostsTo k (s.heldOn k r) (s.heldOn k r) s (fun L => L)
      ((step (.text r c) s).state.heldOn k r) (step (.text r c) s).state := by
  have hstate : (textAt r s).state = s := state_textAt r s
  have hunknown : ∀ e, (textAt r s).result = .error e → (step (.text r c) s).state = s := by
    intro e he
    rw [step, Act.bind_of_error he, hstate]
  rcases hc : s.containerAt r with _ | ⟨type, ring, n⟩ | ⟨tr, n, pool⟩ | ⟨h, pool⟩
  · rw [hunknown .unknown]
    · exact .of_same rfl
    · rw [textAt, Act.bind_error (container_unknown hc)]
  · rw [hunknown .unknown]
    · exact .of_same rfl
    · rw [textAt, Act.bind_ok (container_ok hc)]
      rfl
  · rw [hunknown .unknown]
    · exact .of_same rfl
    · rw [textAt, Act.bind_ok (container_ok hc)]
      rfl
  · have hat : textAt r s = ⟨.ok (h, pool), s, []⟩ := Act.bind_ok (container_ok hc)
    have hstep : (step (.text r c) s).state = (textStep h pool c s).state := by
      rw [step, Act.bind_ok hat]
    have htends : s.Tends k (s.heldOn k r) (s.heldOn k r) (textStep h pool c s).state := by
      refine tends_textStep hne (fun hk => ?_) s
      rw [heldOn_of_text hc, if_pos hk]
      exact List.mem_singleton_self h
    have hc' : (textStep h pool c s).state.containerAt r = some (.text h pool) := by
      rw [containerAt, htends.containers]
      exact hc
    have hsame : (textStep h pool c s).state.heldOn k r = s.heldOn k r := by
      rw [heldOn_of_text hc, heldOn_of_text hc']
    rw [hstep, hsame]
    exact htends.posts

end Texts

/-! ### All commands -/

/-- **What every command posts to the ledger of every pool.** -/
theorem step_posts (ha : c.KeepsArenas) (hp : c.KeepsPools) (hs : ∀ j, s.Settled j)
    (hfree : s.GivesFreely c) (k : Nat) : PostsAt k s c (step c s).state := by
  cases c with
  | reserveArena capacity blockSize => exact posts_reserveArena capacity blockSize s
  | reservePool slots maxLen => exact posts_reservePool slots maxLen s
  | reserve sizing => exact posts_reserve sizing s
  | newRing type n => exact posts_newRing type n hs
  | newTextRing n pool => exact posts_newTextRing n pool hs
  | newText pool content => exact posts_newText pool content s
  | drop r => exact posts_drop r hs hfree
  | hold target mode => exact .of_tends ((tends_takeHold target mode).map _ s)
  | release target mode =>
    exact .of_tends (((Act.within_modify (tends_released target mode)).bind fun _ =>
      Act.within_pure _) s)
  | swapArenas i j => exact absurd rfl (ha i j)
  | swapPools i j => exact absurd rfl (hp i j)
  | arena n c => exact posts_arena n c s
  | pool n c => exact posts_pool n c s
  | ring r c => exact posts_ring r c s
  | textRing r c => exact posts_textRing r c hs hfree
  | text r c =>
    by_cases hclone : c = .clone
    · subst hclone
      exact posts_clone r s
    · have hholder : s.holder (.text r c) = r := by
        cases c with
        | clone => exact absurd rfl hclone
        | _ => rfl
      rw [PostsAt, hholder]
      exact posts_text r hclone s
  | usageBoth nodes pool => exact .of_tends ((Act.within_read _).map _ s)
  | logUsageBoth nodes pool =>
    exact .of_tends (((Act.within_read _).bind fun _ => (within_logLines _).bind fun _ =>
      Act.within_pure _) s)
  | describeBoth nodes pool => exact .of_tends ((Act.within_read _).map _ s)

end Store

end FixedArena
