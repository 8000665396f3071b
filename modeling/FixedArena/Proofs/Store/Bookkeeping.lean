import FixedArena.Proofs.Store.Books

/-!
What direct commands post to the ledgers of the pools, and what the making of containers posts. A
caller is handed a slot, gives one back, or writes to one; a new text takes a slot, a new ring takes
none.

Main facts:
* `lentAfter`: what a command makes of the handles that callers have;
* `writtenAt`: the handles whose texts a command may change;
* `posts_allocate`, `posts_free`, `posts_written`: direct commands to a pool;
* `posts_newRing`, `posts_newTextRing`, `posts_newText`, `posts_clone`: the making of containers.
-/

namespace FixedArena

namespace Store

open OwnedText (Edits make)
open TextPool (Ledger Posts Stays)

variable {α : Type} {s t : Store} {k r n pool : Nat} {c : Command} {W F : List TextHandle}
  {f : List TextHandle → List TextHandle}

/-! ### Whose handles, and whose texts -/

/-- The container whose handles a command may change; it may be the one that the command makes. -/
def holder (s : Store) : Command → Nat
  | .text _ .clone => s.containers.size
  | .text r _ => r
  | c => s.subject c

/-- **What a command makes of the handles of a pool that callers have**: a slot is handed out, or given
back, or put into a text ring. -/
def lentAfter (s : Store) (k : Nat) (c : Command) (lent : List TextHandle) : List TextHandle :=
  match c with
  | .pool n .allocate =>
    match (step c s).result with
    | .ok (.handle h) => if n = k then h :: lent else lent
    | _ => lent
  | .pool n (.free h) =>
    match (step c s).result with
    | .ok (.flag true) => if n = k then lent.erase h else lent
    | _ => lent
  | .textRing r (.push _ h) =>
    match (step c s).result with
    | .ok _ => if s.poolOf r = some k then lent.erase h else lent
    | .error _ => lent
  | _ => lent

/-- The handles of a pool that a command may write to, whoever has them. -/
def writtenAt (s : Store) (k : Nat) : Command → List TextHandle
  | .pool n (.assign h _) | .pool n (.append h _) | .pool n (.copy h _) => if n = k then [h] else []
  | .text r _ => s.heldOn k r
  | _ => []

/-- **What a command posts to the ledger of a pool.** -/
abbrev PostsAt (k : Nat) (s : Store) (c : Command) (t : Store) : Prop :=
  PostsTo k (s.writtenAt k c) (s.heldOn k (s.holder c)) s (s.lentAfter k c)
    (t.heldOn k (s.holder c)) t

/-! ### Commands without a container -/

/-- What keeps the containers posts nothing for one that is not there. -/
theorem PostsTo.of_absent (hs : s.containers.size ≤ r) (ht : t.containers.size ≤ r)
    (h : PostsTo k W [] s f [] t) : PostsTo k W (s.heldOn k r) s f (t.heldOn k r) t := by
  rw [heldOn_of_size_le hs, heldOn_of_size_le ht]
  exact h

theorem PostsTo.of_tends (h : s.Tends k W [] t) :
    PostsTo k W (s.heldOn k s.containers.size) s (fun L => L) (t.heldOn k s.containers.size) t :=
  .of_absent (Nat.le_refl _) (h.containers ▸ Nat.le_refl _) h.posts

theorem tends_arena (n : Nat) (c : ArenaCommand) : Act.Within (Tends k W []) (step (.arena n c)) := by
  have hlines : ∀ (x : Act Failure (Guarded BlockArena) (List String)), Act.Within (Tends k W [])
      (onArena n x >>= fun ls => logLines ls >>= fun _ => pure Reply.done) :=
    fun x => (tends_onArena n x).bind fun _ => (within_logLines _).bind fun _ => Act.within_pure _
  cases c with
  | logUsage => exact hlines _
  | logLayout => exact hlines _
  | _ => exact (tends_onArena n _).map _

theorem posts_arena (n : Nat) (c : ArenaCommand) (s : Store) :
    PostsAt k s (.arena n c) (step (.arena n c) s).state :=
  .of_tends (tends_arena n c s)

theorem posts_reservePool (slots maxLen : Nat) (s : Store) :
    PostsAt k s (.reservePool slots maxLen) (step (.reservePool slots maxLen) s).state := by
  rw [step, Act.map_apply]
  cases hroom : TextPool.room slots maxLen with
  | error e =>
    obtain ⟨log, hadd⟩ := addPool_error hroom s
    rw [hadd]
    exact .of_tends (refl_of _ s)
  | ok u =>
    obtain ⟨-, -, hslots, -⟩ := TextPool.room_eq_ok_iff.1 hroom
    rw [addPool_ok hroom]
    exact .of_absent (Nat.le_refl _) (Nat.le_refl _) (posts_of_push hslots rfl)

theorem posts_reserveArena (capacity blockSize : Nat) (s : Store) :
    PostsAt k s (.reserveArena capacity blockSize)
      (step (.reserveArena capacity blockSize) s).state := by
  rw [step, Act.map_apply]
  obtain h | ⟨-, h⟩ := addArena_cases capacity blockSize s
  · rw [h]
    exact .of_tends (refl_of _ s)
  · rw [h]
    exact .of_tends (tends_of_same rfl rfl)

theorem posts_reserve (sizing : Sizing) (s : Store) :
    PostsAt k s (.reserve sizing) (step (.reserve sizing) s).state := by
  rw [step, Act.map_apply]
  obtain h | h | ⟨-, hslots, h⟩ := addArenas_cases sizing s
  · rw [h]
    exact .of_tends (refl_of _ s)
  · rw [h]
    exact .of_tends (tends_of_same rfl rfl)
  · obtain ⟨-, -, hlt, -⟩ := TextPool.room_eq_ok_iff.1 hslots
    rw [h]
    exact .of_absent (Nat.le_refl _) (Nat.le_refl _) (posts_of_push hlt rfl)

/-! ### Direct commands to a pool -/

/-- A direct change of a pool, which nobody holds then, or a refusal. -/
theorem writePool_cases (n : Nat) (x : Act Error TextPool α) (s : Store) :
    (∃ e log, writePool n x s = ⟨.error e, s, log⟩) ∨
    ∃ g, s.pools[n]? = some g ∧ writePool n x s = ⟨(x g.value).result.mapError .refused,
      { s with pools := s.pools.setIfInBounds n { g with value := (x g.value).state } },
      (x g.value).events⟩ := by
  unfold writePool
  cases hg : s.pools[n]? with
  | none => exact .inl ⟨.unknown, [], onPool_none hg _⟩
  | some g =>
    rw [onPool_some hg]
    by_cases hf : g.hold = .free
    · refine .inr ⟨g, rfl, ?_⟩
      rw [Guarded.writing_free _ _ g hf]
      rfl
    · refine .inl ⟨.held, [], ?_⟩
      simp only [Guarded.writing_busy _ _ g hf, set_back hg]

/-- One pool changes. -/
theorem PostsTo.of_set {g g' : Guarded TextPool} (hg : s.pools[n]? = some g)
    (ht : t.pools = s.pools.setIfInBounds n g')
    (h : n = k → Posts W F g.value f F g'.value) (hf : n ≠ k → f = fun L => L) :
    PostsTo k W F s f F t := by
  by_cases hk : n = k
  · subst hk
    exact .of_posts (poolAt_of_get hg) ((poolAt_of_set hg ht n).trans (if_pos rfl)) (h rfl)
  · rw [hf hk]
    exact .of_same ((poolAt_of_set hg ht k).trans (if_neg (Ne.symm hk)))

theorem posts_allocate (n : Nat) (s : Store) :
    PostsAt k s (.pool n .allocate) (step (.pool n .allocate) s).state := by
  have hstep : step (.pool n .allocate) s = (Reply.handle <$> writePool n TextPool.allocate) s := rfl
  rw [Act.map_apply] at hstep
  obtain ⟨e, log, hw⟩ | ⟨g, hg, hw⟩ := writePool_cases n TextPool.allocate s
  · rw [hw] at hstep
    have hsame : s.lentAfter k (.pool n .allocate) = fun L => L := by
      funext L
      simp [lentAfter, hstep, Except.map]
    rw [PostsAt, hsame, hstep]
    exact .of_tends (refl_of _ s)
  · obtain ⟨h, p, log, halloc, hposts⟩ | ⟨e, log, halloc⟩ := TextPool.allocate_posts g.value
    · rw [hw, halloc] at hstep
      have hcons : s.lentAfter k (.pool n .allocate) = fun L => if n = k then h :: L else L := by
        funext L
        simp [lentAfter, hstep, Except.map, Except.mapError]
      rw [PostsAt, hcons, hstep]
      refine .of_absent (Nat.le_refl _) (Nat.le_refl _) (.of_set hg rfl (fun hk => ?_) fun hk => ?_)
      · simp only [if_pos hk]
        exact hposts _ _
      · simp only [if_neg hk]
    · rw [hw, halloc] at hstep
      simp only [set_back hg] at hstep
      have hsame : s.lentAfter k (.pool n .allocate) = fun L => L := by
        funext L
        simp [lentAfter, hstep, Except.map, Except.mapError]
      rw [PostsAt, hsame, hstep]
      exact .of_tends (refl_of _ s)

theorem posts_free (n : Nat) (h : TextHandle) (s : Store) :
    PostsAt k s (.pool n (.free h)) (step (.pool n (.free h)) s).state := by
  have hstep : step (.pool n (.free h)) s = (Reply.flag <$> writePool n (TextPool.free h)) s := rfl
  rw [Act.map_apply] at hstep
  obtain ⟨e, log, hw⟩ | ⟨g, hg, hw⟩ := writePool_cases n (TextPool.free h) s
  · rw [hw] at hstep
    have hsame : s.lentAfter k (.pool n (.free h)) = fun L => L := by
      funext L
      simp [lentAfter, hstep, Except.map]
    rw [PostsAt, hsame, hstep]
    exact .of_tends (refl_of _ s)
  · obtain ⟨p, hfree, hposts⟩ | ⟨log, hfree⟩ := TextPool.free_posts h g.value
    · rw [hw, hfree] at hstep
      have herase : s.lentAfter k (.pool n (.free h)) = fun L => if n = k then L.erase h else L := by
        funext L
        simp [lentAfter, hstep, Except.map, Except.mapError]
      rw [PostsAt, herase, hstep]
      refine .of_absent (Nat.le_refl _) (Nat.le_refl _) (.of_set hg rfl (fun hk => ?_) fun hk => ?_)
      · simp only [if_pos hk]
        exact hposts _ _
      · simp only [if_neg hk]
    · rw [hw, hfree] at hstep
      simp only [set_back hg] at hstep
      have hsame : s.lentAfter k (.pool n (.free h)) = fun L => L := by
        funext L
        simp [lentAfter, hstep, Except.map, Except.mapError]
      rw [PostsAt, hsame, hstep]
      exact .of_tends (refl_of _ s)

/-- A direct write to the text of one handle. -/
theorem posts_written {h : TextHandle} {x : Act Error TextPool Nat} (hx : TextPool.Writes h x)
    (n : Nat) (s : Store) : s.Tends k (if n = k then [h] else []) []
      ((Reply.number <$> writePool n x) s).state := by
  rw [Act.map_apply]
  obtain ⟨e, log, hw⟩ | ⟨g, hg, hw⟩ := writePool_cases n x s
  · rw [hw]
    exact refl_of _ s
  · rw [hw]
    refine ⟨rfl, .of_tidy fun hp => .of_set hg rfl (fun hk => ?_) fun _ => rfl⟩
    exact (hx g.value (hp _ (hk ▸ poolAt_of_get hg))).1.posts (by simp [hk])

theorem posts_pool (n : Nat) (c : PoolCommand) (s : Store) :
    PostsAt k s (.pool n c) (step (.pool n c) s).state := by
  have hread : ∀ {β : Type} (h : TextPool → Except Error β) (f : β → Reply) {W : List TextHandle},
      s.Tends k W [] ((f <$> readPool n h) s).state :=
    fun h f => (tends_readPool n h).map f s
  cases c with
  | allocate => exact posts_allocate n s
  | free h => exact posts_free n h s
  | assign h t => exact .of_tends (posts_written (TextPool.writes_assign h t) n s)
  | append h t => exact .of_tends (posts_written (TextPool.writes_append h t) n s)
  | copy h source => exact .of_tends (posts_written (TextPool.writes_copy h source) n s)
  | logUsage =>
    exact .of_tends (((tends_readPool n _).bind fun _ => (within_logLines _).bind fun _ =>
      Act.within_pure _) s)
  | state h => exact .of_tends (tends_readPool n _ s)
  | _ => exact .of_tends (hread _ _)

/-! ### Making containers -/

/-- Making a ring takes no slot. -/
theorem posts_make (type : ElementType) (n : Nat) (make : Ring type.Value → Container)
    (hs : ∀ j, s.Settled j)
    (hmake : ∀ (t : Store) ring, t.containerAt s.containers.size = some (make ring) →
      (∃ b, t.arenaAt n = some b ∧ ring.Holds b [] []) → t.heldOn k s.containers.size = []) :
    PostsTo k W (s.heldOn k s.containers.size) s (fun L => L)
      (((onArena n (Ring.create.mapError .refused) >>= fun ring =>
        Reply.container <$> addContainer (make ring)) s).state.heldOn k s.containers.size)
      ((onArena n (Ring.create.mapError .refused) >>= fun ring =>
        Reply.container <$> addContainer (make ring)) s).state := by
  have habsent := s.heldOn_of_size_le (k := k) (Nat.le_refl s.containers.size)
  obtain ⟨e, log, hcreate⟩ | ⟨g, ring, b, log, hg, hcreate, hh, -⟩ :=
    onArena_create type.Value hs n
  · rw [Act.bind_error hcreate]
    exact .of_empty rfl habsent habsent
  · rw [Act.bind_ok hcreate]
    let t : Store := { s with
      arenas := s.arenas.setIfInBounds n { g with value := b }
      containers := s.containers.push (some (make ring)) }
    have hc : t.containerAt s.containers.size = some (make ring) :=
      (containerAt_of_push (s := s) rfl _).trans (if_pos rfl)
    have hb : t.arenaAt n = some b := (arenaAt_of_set hg rfl n).trans (if_pos rfl)
    exact .of_empty (t := t) rfl habsent (hmake t ring hc ⟨b, hb, hh⟩)

theorem posts_newRing (type : ElementType) (n : Nat) (hs : ∀ j, s.Settled j) :
    PostsAt k s (.newRing type n) (step (.newRing type n) s).state := by
  rw [step]
  exact posts_make type n _ hs fun t ring hc _ => heldOn_of_ring hc

theorem posts_newTextRing (n pool : Nat) (hs : ∀ j, s.Settled j) :
    PostsAt k s (.newTextRing n pool) (step (.newTextRing n pool) s).state := by
  obtain h | ⟨-, h⟩ := newTextRing_cases n pool s
  · rw [h]
    exact .of_tends (refl_of _ s)
  · rw [h]
    refine posts_make .handle n (fun handles => .textRing ⟨handles⟩ n pool) hs ?_
    intro t ring hc ⟨b, hb, hh⟩
    unfold heldOn
    rw [heldAt_of_textRing hc hb hh]
    exact ite_self _

section MakeText

variable {y : TextHandle → TextPool.GuardedAct Unit}

/-- Making a text and editing it is one operation on its pool. -/
theorem newText_bind {β : Type} (pool : Nat) (y : TextHandle → TextPool.GuardedAct Unit)
    (z : TextHandle → StoreAct β) : (newText pool >>= fun h => onText pool (y h) >>= fun _ => z h) =
      onText pool (make y) >>= z := by
  have hedit : ∀ h, ((fun _ => h) <$> onText pool (y h) >>= z) =
      onText pool (y h) >>= fun _ => z h := by
    intro h
    rw [map_eq_pure_bind, bind_assoc]
    simp only [pure_bind]
  unfold newText make onText
  rw [Act.mapError_bind, ← onPool_bind, bind_assoc]
  refine congrArg _ (funext fun h => ?_)
  rw [Act.mapError_map, onPool_map]
  exact (hedit h).symm

/-- A text that was made on the pool becomes a container. -/
theorem posts_addText {x : StoreAct TextHandle} {u : Store} {h : TextHandle} {log : List Event}
    (hx : x s = ⟨.ok h, u, log⟩) (hu : u.containers = s.containers)
    (hp : PostsTo k W [] s (fun L => L) (if pool = k then [h] else []) u) :
    PostsTo k W (s.heldOn k s.containers.size) s (fun L => L)
      (((x >>= fun h => Reply.container <$> addContainer (.text h pool)) s).state.heldOn k
        s.containers.size)
      ((x >>= fun h => Reply.container <$> addContainer (.text h pool)) s).state := by
  rw [Act.bind_ok hx]
  let t : Store := { u with containers := u.containers.push (some (.text h pool)) }
  have hc : t.containerAt s.containers.size = some (.text h pool) := by
    rw [containerAt_of_push (s := u) rfl, hu, if_pos rfl]
  have hposts : PostsTo k W (s.heldOn k s.containers.size) s (fun L => L)
      (t.heldOn k s.containers.size) t := by
    rw [heldOn_of_size_le (Nat.le_refl _), heldOn_of_text hc]
    exact hp.congr rfl
  exact hposts

/-- **A text is made with a slot of its own**, or nothing happens. -/
theorem posts_makeText (pool : Nat) (hy : ∀ h, Edits h (y h)) (s : Store) :
    PostsTo k W (s.heldOn k s.containers.size) s (fun L => L)
      (((onText pool (make y) >>= fun h =>
        Reply.container <$> addContainer (.text h pool)) s).state.heldOn k s.containers.size)
      ((onText pool (make y) >>= fun h =>
        Reply.container <$> addContainer (.text h pool)) s).state := by
  refine .of_tidy fun htidy => ?_
  have habsent := s.heldOn_of_size_le (k := k) (Nat.le_refl s.containers.size)
  cases hg : s.pools[pool]? with
  | none =>
    have hx : onText pool (make y) s = ⟨.error .unknown, s, []⟩ := onPool_none hg _
    rw [Act.bind_error hx]
    exact .of_empty rfl habsent habsent
  | some g =>
    have hx : onText pool (make y) s = _ := onPool_some hg ((make y).mapError .refused)
    rw [Act.mapError_apply] at hx
    by_cases hk : pool = k
    · obtain ⟨h, g', log, hmake, -, hposts⟩ | ⟨e, log, hmake⟩ :=
        OwnedText.make_cases hy (htidy _ (hk ▸ poolAt_of_get hg))
      · rw [hmake] at hx
        refine posts_addText hx rfl ?_
        rw [if_pos hk]
        subst hk
        exact .of_posts (poolAt_of_get hg) ((poolAt_of_set hg rfl pool).trans (if_pos rfl))
          (hposts W [])
      · rw [hmake] at hx
        simp only [set_back hg] at hx
        rw [Act.bind_error hx]
        exact .of_empty rfl habsent habsent
    · have hsame : ∀ g', Store.poolAt { s with pools := s.pools.setIfInBounds pool g' } k =
          s.poolAt k :=
        fun _ => (poolAt_of_set hg rfl k).trans (if_neg (Ne.symm hk))
      cases hr : (make y g).result with
      | error e =>
        rw [hr] at hx
        rw [Act.bind_error hx]
        exact .of_empty (hsame _) habsent (heldOn_of_size_le (Nat.le_refl _))
      | ok h =>
        rw [hr] at hx
        refine posts_addText hx rfl ?_
        rw [if_neg hk]
        exact .of_same (hsame _)

end MakeText

theorem step_newText (pool : Nat) : step (.newText pool none) =
    onText pool (make fun _ => pure ()) >>= fun h =>
      Reply.container <$> addContainer (.text h pool) := by
  have hmake : make (fun _ => pure ()) = OwnedText.create := by
    unfold make
    simp
  rw [hmake]
  rfl

theorem step_newText_with (pool : Nat) (t : String) : step (.newText pool (some t)) =
    onText pool (make (OwnedText.assign · t)) >>= fun h =>
      Reply.container <$> addContainer (.text h pool) :=
  newText_bind pool (OwnedText.assign · t) _

theorem textStep_clone (h : TextHandle) (pool : Nat) : textStep h pool .clone =
    onText pool (make (OwnedText.copy · h)) >>= fun copy =>
      Reply.container <$> addContainer (.text copy pool) := by
  rw [← newText_bind]
  simp only [textStep, assignFrom, if_pos]

theorem posts_newText (pool : Nat) (content : Option String) (s : Store) :
    PostsAt k s (.newText pool content) (step (.newText pool content) s).state := by
  cases content with
  | none =>
    rw [step_newText]
    exact posts_makeText pool OwnedText.edits_pure s
  | some t =>
    rw [step_newText_with]
    exact posts_makeText pool (OwnedText.edits_assign · t) s

/-- A copy is a new text; no other text is written to. -/
theorem posts_clone (r : Nat) (s : Store) :
    PostsTo k W (s.heldOn k s.containers.size) s (fun L => L)
      ((step (.text r .clone) s).state.heldOn k s.containers.size)
      (step (.text r .clone) s).state := by
  have hstate : (textAt r s).state = s := state_textAt r s
  rw [step]
  rcases hr : (textAt r s).result with e | ⟨h, pool⟩
  · rw [Act.bind_of_error hr, hstate]
    exact .of_tends (refl_of _ s)
  · rw [Act.bind_of_ok hr, hstate]
    dsimp only
    rw [textStep_clone]
    exact posts_makeText pool (OwnedText.edits_copy · h) s

end Store

end FixedArena
