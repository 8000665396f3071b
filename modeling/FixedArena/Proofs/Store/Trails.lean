import FixedArena.Proofs.Store.Books
import FixedArena.Proofs.Store.Quiet
import FixedArena.Proofs.Text.Trails

/-!
Commands reach arenas and pools by calls. A command calls one arena and one pool at most, those that it
names or those of its container; all others stay as they were.

Main facts:
* `Command.arena?`, `Command.pool?`: the arena and the pool that a command calls;
* `Store.Went`: one arena and one pool were called, and no other;
* `Store.step_went`: every command that neither reserves nor exchanges anything is of this kind.
-/

namespace FixedArena

open Act
open TextPool (Unmarked GuardedAct)

/-- The arena where the nodes of a container live. -/
def Container.nodes? : Container → Option Nat
  | .ring _ _ nodes | .textRing _ nodes _ => some nodes
  | .text .. => none

/-- The arena that a command calls. -/
def Command.arena? (s : Store) : Command → Option Nat
  | .newRing _ n | .newTextRing n _ | .arena n _ => some n
  | .drop r | .ring r _ | .textRing r _ => (s.containerAt r).bind Container.nodes?
  | _ => none

/-- The pool that a command calls. -/
def Command.pool? (s : Store) : Command → Option Nat
  | .newText k _ | .pool k _ => some k
  | .drop r | .textRing r _ | .text r _ => s.poolOf r
  | _ => none

/-- The command reserves nothing, and leaves every arena and every pool in its place. -/
def Command.Calls : Command → Prop
  | .reserveArena .. | .reservePool .. | .reserve _ | .swapArenas .. | .swapPools .. => False
  | _ => True

namespace Store

variable {α τ κ : Type} {s t : Store} {n k r : Nat} {n? m? : Option Nat} {l : List Event}

/-! ### Stocks of a store -/

/-- **One stock was called, and no other.** If there is none of that number, or none was called, then no
mark was logged. -/
structure Asked (S : Stock τ κ) (part : Store → Nat → Option τ) (n? : Option Nat) (s : Store)
    (l : List Event) (t : Store) : Prop where
  called : ∀ k a, n? = some k → part s k = some a → ∃ b, part t k = some b ∧ S.Follows a l b
  absent : ∀ k, n? = some k → part s k = none → part t k = none ∧ S.marks l = []
  others : ∀ k, n? ≠ some k → part t k = part s k
  silent : n? = none → S.marks l = []

section Asked

variable {S : Stock τ κ} {part : Store → Nat → Option τ} {a b : τ}

instance : IsTrail (Asked S part n?) where
  nil s := ⟨fun _ a _ ha => ⟨a, ha, IsTrail.nil a⟩, fun _ _ ha => ⟨ha, rfl⟩, fun _ _ => rfl,
    fun _ => rfl⟩
  append h h' := by
    refine ⟨fun k a hk ha => ?_, fun k hk ha => ?_, fun k hk => ?_, fun hn => ?_⟩
    · obtain ⟨b, hb, hab⟩ := h.called k a hk ha
      obtain ⟨c, hc, hbc⟩ := h'.called k b hk hb
      exact ⟨c, hc, IsTrail.append hab hbc⟩
    · obtain ⟨hb, hl⟩ := h.absent k hk ha
      obtain ⟨hc, hl'⟩ := h'.absent k hk hb
      exact ⟨hc, by rw [Stock.marks_append, hl, hl', List.append_nil]⟩
    · rw [h'.others k hk, h.others k hk]
    · rw [Stock.marks_append, h.silent hn, h'.silent hn, List.append_nil]

/-- No stock was called. -/
theorem asked_of_same (ht : ∀ k, part t k = part s k) (hl : S.marks l = []) :
    Asked S part n? s l t :=
  ⟨fun k a _ ha => ⟨a, (ht k).trans ha, Stock.follows_silent hl⟩,
    fun k _ ha => ⟨(ht k).trans ha, hl⟩, fun k _ => ht k, fun _ => hl⟩

/-- One stock was called. -/
theorem asked_of_set (ha : part s n = some a) (ht : ∀ k, part t k = if k = n then some b else part s k)
    (h : S.Follows a l b) : Asked S part (some n) s l t := by
  refine ⟨fun k a' hk ha' => ?_, fun k hk hnone => ?_, fun k hk => ?_, nofun⟩
  · obtain rfl := Option.some.inj hk
    obtain rfl := Option.some.inj (ha.symm.trans ha')
    exact ⟨b, (ht n).trans (if_pos rfl), h⟩
  · obtain rfl := Option.some.inj hk
    rw [ha] at hnone
    cases hnone
  · exact (ht k).trans (if_neg fun he => hk (congrArg some he.symm))

end Asked

/-- **One arena was called, and one pool, and no others.** -/
structure Went (n? m? : Option Nat) (s : Store) (l : List Event) (t : Store) : Prop where
  arenas : Asked BlockArena.stock Store.arenaAt n? s l t
  pools : Asked TextPool.stock Store.poolAt m? s l t

instance : IsTrail (Went n? m?) where
  nil _ := ⟨IsTrail.nil _, IsTrail.nil _⟩
  append h h' := ⟨IsTrail.append h.arenas h'.arenas, IsTrail.append h.pools h'.pools⟩

/-- Nothing was called. -/
theorem went_of_same (ha : ∀ k, t.arenaAt k = s.arenaAt k) (hp : ∀ k, t.poolAt k = s.poolAt k)
    (hl : Unmarked l) : Went n? m? s l t :=
  ⟨asked_of_same ha hl.blocks, asked_of_same hp hl.slots⟩

/-! ### Access to the parts -/

theorem went_onArena {x : Act Failure (Guarded BlockArena) α}
    (hx : Along (Guarded.On BlockArena.Went) x) (n : Nat) :
    Along (Went (some n) m?) (onArena n x) := by
  intro s
  cases hg : s.arenas[n]? with
  | none =>
    rw [onArena_none hg]
    exact IsTrail.nil s
  | some g =>
    rw [onArena_some hg]
    exact ⟨asked_of_set (arenaAt_of_get hg) (arenaAt_of_set hg rfl) (hx g).1,
      asked_of_same (poolAt_of_eq rfl) (hx g).2⟩

theorem went_onPool {x : Act Failure (Guarded TextPool) α}
    (hx : Along (Guarded.On TextPool.Went) x) (k : Nat) : Along (Went n? (some k)) (onPool k x) := by
  intro s
  cases hg : s.pools[k]? with
  | none =>
    rw [onPool_none hg]
    exact IsTrail.nil s
  | some g =>
    rw [onPool_some hg]
    exact ⟨asked_of_same (fun _ => rfl) (hx g).2,
      asked_of_set (poolAt_of_get hg) (poolAt_of_set hg rfl) (hx g).1⟩

/-- Looking at an arena, or holding it. -/
theorem went_onArena_same {x : Act Failure (Guarded BlockArena) α}
    (hx : ∀ g, (x g).state.value = g.value ∧ (x g).events = []) (k : Nat) :
    Along (Went n? m?) (onArena k x) := by
  intro s
  cases hg : s.arenas[k]? with
  | none =>
    rw [onArena_none hg]
    exact IsTrail.nil s
  | some g =>
    rw [onArena_some hg]
    refine went_of_same (fun j => ?_) (poolAt_of_eq rfl) ((hx g).2 ▸ ⟨rfl, rfl⟩)
    rw [arenaAt_of_set hg rfl, (hx g).1]
    split
    · next hj => rw [hj, arenaAt_of_get hg]
    · rfl

/-- Looking at a pool, or holding it. -/
theorem went_onPool_same {x : Act Failure (Guarded TextPool) α}
    (hx : ∀ g, (x g).state.value = g.value ∧ Unmarked (x g).events) (k : Nat) :
    Along (Went n? m?) (onPool k x) := by
  intro s
  cases hg : s.pools[k]? with
  | none =>
    rw [onPool_none hg]
    exact IsTrail.nil s
  | some g =>
    rw [onPool_some hg]
    refine went_of_same (fun _ => rfl) (fun j => ?_) (hx g).2
    rw [poolAt_of_set hg rfl, (hx g).1]
    split
    · next hj => rw [hj, poolAt_of_get hg]
    · rfl

theorem went_readArena (k : Nat) (f : BlockArena → Except Error α) :
    Along (Went n? m?) (readArena k f) :=
  went_onArena_same (fun _ => ⟨rfl, rfl⟩) k

theorem went_readPool (k : Nat) (f : TextPool → Except Error α) :
    Along (Went n? m?) (readPool k f) :=
  went_onPool_same (fun _ => ⟨rfl, rfl, rfl⟩) k

theorem went_writeArena {x : Act Error BlockArena α} (hx : Along BlockArena.Went x) (n : Nat) :
    Along (Went (some n) m?) (writeArena n x) :=
  went_onArena (Guarded.along_writing (hx.mapError _) _) n

theorem went_writePool {x : Act Error TextPool α} (hx : Along TextPool.Went x) (k : Nat) :
    Along (Went n? (some k)) (writePool k x) :=
  went_onPool (Guarded.along_writing (hx.mapError _) _) k

theorem went_onText {x : GuardedAct α} (hx : Along (Guarded.On TextPool.Went) x) (k : Nat) :
    Along (Went n? (some k)) (onText k x) :=
  went_onPool (hx.mapError _) k

/-- Looking at a text, of whatever pool. -/
theorem went_onText_idle {x : GuardedAct α} (hx : Along Idle x) (k : Nat) :
    Along (Went n? m?) (onText k x) :=
  went_onPool_same (fun g => ⟨congrArg Guarded.value (hx g).state, (hx g).unmarked⟩) k

theorem went_onRing {type : ElementType} {x : Act Error (Ring.Site type.Value) α}
    (hx : Along Ring.Site.Went x) (r : Nat) (ring : Ring type.Value) (n : Nat) :
    Along (Went (some n) m?) (onRing r ring n x) := by
  intro s
  cases hg : s.arenas[n]? with
  | none =>
    rw [onRing_none r ring hg]
    exact IsTrail.nil s
  | some g =>
    rw [onRing_some r ring hg]
    exact ⟨asked_of_set (arenaAt_of_get hg) (arenaAt_of_set hg rfl) (hx ⟨ring, g⟩).1,
      asked_of_same (poolAt_of_eq rfl) (hx ⟨ring, g⟩).2⟩

theorem went_onTextRing {x : Act Error TextRing.Site α} (hx : Along TextRing.Site.Went x) (r : Nat)
    (ring : TextRing) (n pool : Nat) :
    Along (Went (some n) (some pool)) (onTextRing r ring n pool x) := by
  intro s
  obtain ⟨-, h⟩ | ⟨g, p, hg, hp, h⟩ := onTextRing_cases r ring pool n x s
  · rw [h]
    exact IsTrail.nil s
  · have hwent := hx ⟨ring, g, p⟩
    rw [h]
    exact ⟨asked_of_set (arenaAt_of_get hg) (arenaAt_of_set hg rfl) hwent.blocks,
      asked_of_set (poolAt_of_get hp) (poolAt_of_set hp rfl) hwent.slots⟩

theorem went_addContainer (c : Container) : Along (Went n? m?) (addContainer c) :=
  fun _ => went_of_same (fun _ => rfl) (fun _ => rfl) ⟨rfl, rfl⟩

theorem went_without (r : Nat) (s : Store) : Went n? m? s [] (without r s) :=
  went_of_same (fun _ => rfl) (fun _ => rfl) ⟨rfl, rfl⟩

theorem went_logLines (ls : List String) : Along (Went n? m?) (logLines ls) := by
  unfold logLines
  induction ls with
  | nil => exact along_pure _
  | cons line ls ih =>
    have hlog : Along (Went n? m?) (log (.report line) : StoreAct Unit) :=
      fun _ => went_of_same (fun _ => rfl) (fun _ => rfl) ⟨rfl, rfl⟩
    exact hlog.bind fun _ => ih

/-! ### Holds -/

theorem events_hold {β : Type} (mode : Mode) (g : Guarded β) : (takeHold.hold mode g).events = [] := by
  unfold takeHold.hold
  rw [get_bind]
  cases g.take? mode <;> rfl

theorem went_takeHold (target : Target) (mode : Mode) : Along (Went n? m?) (takeHold target mode) := by
  cases target with
  | arena k => exact went_onArena_same (fun g => ⟨value_hold mode g, events_hold mode g⟩) k
  | pool k =>
    exact went_onPool_same (fun g => ⟨value_hold mode g, (events_hold mode g).symm ▸ ⟨rfl, rfl⟩⟩) k

theorem went_released (target : Target) (mode : Mode) (s : Store) :
    Went n? m? s [] (released target mode s) := by
  refine went_of_same (calm_released target mode s).arenaAt (fun j => ?_) ⟨rfl, rfl⟩
  cases target with
  | arena k => rfl
  | pool k =>
    simp only [released, poolAt, Array.getElem?_modify]
    split
    · cases s.pools[j]? <;> rfl
    · rfl

/-! ### Commands to containers -/

theorem went_ringStep {type : ElementType} (r : Nat) (ring : Ring type.Value) (n : Nat)
    (c : RingCommand type.Value) : Along (Went (some n) m?) (ringStep r ring n c) := by
  cases c with
  | push side v => exact (went_onRing (Ring.went_push side v) r ring n).map _
  | pop side => exact (went_onRing (Ring.went_pop side) r ring n).map _
  | peek side => exact (went_onRing (Ring.went_peek side) r ring n).map _
  | get index => exact (went_onRing (Ring.went_get index) r ring n).map _
  | set index v => exact (went_onRing (Ring.went_set index v) r ring n).map _
  | clear => exact (went_onRing Ring.went_clear r ring n).map _
  | size => exact along_pure _
  | toList => exact (went_onRing (along_read _) r ring n).map _
  | scan steps => exact (went_onRing (Ring.went_scan steps) r ring n).map _
  | describe => exact along_pure _

theorem went_textRingStep (r : Nat) (ring : TextRing) (n pool : Nat) (c : TextRingCommand) :
    Along (Went (some n) (some pool)) (textRingStep r ring n pool c) := by
  have hon : ∀ {β : Type} {x : Act Error TextRing.Site β}, Along TextRing.Site.Went x →
      Along (Went (some n) (some pool)) (onTextRing r ring n pool x) :=
    fun hx => went_onTextRing hx r ring n pool
  cases c with
  | push side h => exact (hon (TextRing.went_push side h)).map _
  | pushText t => exact (hon (TextRing.went_pushText t)).map _
  | pop side => exact (hon (TextRing.went_pop side)).map _
  | peek side => exact (hon (TextRing.went_peek side)).map _
  | get index => exact (hon (TextRing.went_get index)).map _
  | text index => exact (hon (TextRing.went_text index)).map _
  | position t => exact (hon (along_read _)).map _
  | size => exact along_pure _
  | toList => exact (hon (along_read _)).map _
  | scan steps => exact (hon (TextRing.went_onHandles (Ring.went_scan steps))).map _
  | clear => exact (hon TextRing.went_clear).map _
  | describe => exact (hon (along_read _)).map _
  | describeLong => exact (hon (along_read _)).map _
  | intoTexts => exact ((hon TextRing.went_intoTexts).afterwards (went_without r)).map _
  | livesIn k => exact along_pure _

theorem went_dropContainer (r : Nat) (c : Container) :
    Along (Went c.nodes? c.pool?) (dropContainer r c) := by
  unfold dropContainer
  refine Along.afterwards ?_ (went_without r)
  cases c with
  | ring type ring n => exact went_onRing Ring.went_drop r ring n
  | textRing ring n pool => exact went_onTextRing TextRing.went_drop r ring n pool
  | text h pool => exact went_onText (OwnedText.went_drop h) pool

theorem went_assignFrom (h : TextHandle) (pool : Nat) (source : TextHandle) (sourcePool : Nat) :
    Along (Went n? (some pool)) (assignFrom h pool source sourcePool) := by
  unfold assignFrom
  split
  · exact went_onText (OwnedText.went_copy h source) pool
  · exact (went_onText_idle (OwnedText.idle_content source) sourcePool).bind fun t =>
      went_onText (OwnedText.went_assign h t) pool

theorem went_whileReading (pool : Nat) {x : StoreAct α} (hx : Along (Went n? m?) x) :
    Along (Went n? m?) (whileReading pool x) := by
  refine (went_takeHold _ _).settled.bind fun taken => ?_
  match taken with
  | .ok () => exact hx.afterwards (went_released _ _)
  | .error _ => exact hx

theorem went_textAt (r : Nat) : Along (Went n? m?) (textAt r) := by
  refine (along_read _).bind fun c => ?_
  cases c with
  | text h pool => exact along_pure _
  | ring type ring nodes => exact along_fail _
  | textRing ring nodes pool => exact along_fail _

theorem went_textStep (h : TextHandle) (pool : Nat) (c : TextCommand) :
    Along (Went n? (some pool)) (textStep h pool c) := by
  have hcontent : ∀ h k, Along (Went n? (some pool)) (onText k (OwnedText.content h)) :=
    fun h k => went_onText_idle (OwnedText.idle_content h) k
  have hequals : ∀ t, Along (Went n? (some pool)) (onText pool (OwnedText.equals h t)) :=
    fun t => went_onText_idle (OwnedText.idle_equals h t) pool
  have hassign : ∀ t, Along (Went n? (some pool)) (onText pool (OwnedText.assign h t)) :=
    fun t => went_onText (OwnedText.went_assign h t) pool
  cases c with
  | assign t => exact (hassign t).map _
  | append t => exact (went_onText (OwnedText.went_append h t) pool).map _
  | assignFrom other =>
    exact (went_textAt other).bind fun _ =>
      (went_assignFrom _ _ _ _).bind fun _ => along_pure _
  | assignReading other =>
    exact (went_textAt other).bind fun _ => (hcontent _ _).bind fun t =>
      (went_whileReading _ (hassign t)).bind fun _ => along_pure _
  | compare t => exact (went_onText_idle (OwnedText.idle_compare h t) pool).map _
  | equals other =>
    exact (went_textAt other).bind fun _ => (hcontent _ _).bind fun t => (hequals t).map _
  | equalsText t => exact (hequals t).bind fun _ => (hequals t).bind fun _ => along_pure _
  | measure =>
    exact (went_onText_idle (OwnedText.idle_length h) pool).bind fun _ =>
      (went_onText_idle (OwnedText.idle_isEmpty h) pool).bind fun _ =>
      (went_onText_idle (OwnedText.idle_maxLength h) pool).bind fun _ => along_pure _
  | content => exact (hcontent h pool).map _
  | describe => exact (went_onText_idle (OwnedText.idle_describe h) pool).map _
  | handle => exact along_pure _
  | livesIn k => exact along_pure _
  | clone =>
    exact (went_onText OwnedText.went_create pool).bind fun _ =>
      (went_assignFrom _ _ _ _).bind fun _ => (went_addContainer _).map _

/-! ### Direct commands -/

theorem went_arenaStep (n : Nat) (c : ArenaCommand) : Along (Went (some n) m?) (arenaStep n c) := by
  cases c with
  | allocate => exact (went_writeArena BlockArena.went_allocate n).map _
  | free h => exact (went_writeArena (BlockArena.went_free h) n).map _
  | write h offset bs => exact (went_writeArena (BlockArena.went_write h offset bs) n).map _
  | fill h b =>
    refine (went_writeArena (fun a => ?_) n).map _
    exact BlockArena.went_write h 0 (List.replicate a.blockSize b) a
  | contains h => exact (went_readArena n _).map _
  | block h => exact (went_readArena n _).map _
  | usage => exact (went_readArena n _).map _
  | layout => exact (went_readArena n _).map _
  | logUsage =>
    exact (went_readArena n _).bind fun _ => (went_logLines _).bind fun _ => along_pure _
  | logLayout =>
    exact (went_readArena n _).bind fun _ => (went_logLines _).bind fun _ => along_pure _
  | describe => exact (went_readArena n _).map _

theorem went_poolStep (k : Nat) (c : PoolCommand) : Along (Went n? (some k)) (poolStep k c) := by
  cases c with
  | allocate => exact (went_writePool TextPool.went_allocate k).map _
  | free h => exact (went_writePool (TextPool.went_free h) k).map _
  | assign h t => exact (went_writePool (TextPool.went_assign h t) k).map _
  | append h t => exact (went_writePool (TextPool.went_append h t) k).map _
  | copy target source => exact (went_writePool (TextPool.went_copy target source) k).map _
  | text h => exact (went_readPool k _).map _
  | length h => exact (went_readPool k _).map _
  | compare h t => exact (went_readPool k _).map _
  | state h => exact went_readPool k _
  | usage => exact (went_readPool k _).map _
  | logUsage =>
    exact (went_readPool k _).bind fun _ => (went_logLines _).bind fun _ => along_pure _
  | describe => exact (went_readPool k _).map _

/-! ### All commands -/

theorem went_drop (r : Nat) (s : Store) : Went (Command.arena? s (.drop r)) (Command.pool? s (.drop r))
    s (step (.drop r) s).events (step (.drop r) s).state := by
  rw [step]
  cases hc : s.containerAt r with
  | none =>
    rw [bind_error (container_unknown hc)]
    exact IsTrail.nil s
  | some c =>
    have hnodes : Command.arena? s (.drop r) = c.nodes? := by simp [Command.arena?, hc]
    have hpool : Command.pool? s (.drop r) = c.pool? := by simp [Command.pool?, poolOf, hc]
    have hdrop : Along (Went c.nodes? c.pool?) (dropContainer r c >>= fun _ => pure Reply.done) :=
      (went_dropContainer r c).bind fun _ => along_pure _
    rw [bind_ok (container_ok hc), hnodes, hpool]
    exact hdrop s

/-- **Every command that neither reserves nor exchanges anything calls one arena and one pool at most.** -/
theorem step_went {c : Command} (hc : c.Calls) (s : Store) :
    Went (c.arena? s) (c.pool? s) s (step c s).events (step c s).state := by
  cases c with
  | newRing type n =>
    exact ((went_onArena (Ring.went_create.mapError _) n).bind fun _ =>
      (went_addContainer _).map _) s
  | newTextRing n pool =>
    exact ((along_read _).bind fun _ => (went_onArena (Ring.went_create.mapError _) n).bind fun _ =>
      (went_addContainer _).map _) s
  | newText pool content =>
    refine ((went_onText OwnedText.went_create pool).bind fun h => ?_) s
    cases content with
    | none => exact (went_addContainer _).map _
    | some t =>
      exact (went_onText (OwnedText.went_assign h t) pool).bind fun _ => (went_addContainer _).map _
  | drop r => exact went_drop r s
  | hold target mode => exact (went_takeHold target mode).map _ s
  | release target mode =>
    have hmodify : Along (Went none none) (Act.modify (released target mode) : StoreAct Unit) :=
      went_released target mode
    exact (hmodify.bind fun _ => along_pure _) s
  | arena n c => exact went_arenaStep n c s
  | pool k c => exact went_poolStep k c s
  | ring r c =>
    obtain h | ⟨type, ring, n, d, hc, -, h⟩ := ring_cases r c s
    · rw [h]
      exact IsTrail.nil s
    · have hnodes : Command.arena? s (.ring r c) = some n := by
        simp [Command.arena?, hc, Container.nodes?]
      rw [h, hnodes]
      exact went_ringStep r ring n d s
  | textRing r c =>
    obtain ⟨-, h⟩ | ⟨tr, n, pool, hc, h⟩ := textRing_cases r c s
    · rw [h]
      exact IsTrail.nil s
    · have hnodes : Command.arena? s (.textRing r c) = some n := by
        simp [Command.arena?, hc, Container.nodes?]
      have hpool : Command.pool? s (.textRing r c) = some pool := by
        simp [Command.pool?, poolOf, hc, Container.pool?]
      rw [h, hnodes, hpool]
      exact went_textRingStep r tr n pool c s
  | text r c =>
    obtain h | ⟨h, pool, hc⟩ := textAt_cases r s
    · rw [step, bind_error h]
      exact IsTrail.nil s
    · have hpool : Command.pool? s (.text r c) = some pool := by
        simp [Command.pool?, poolOf, hc, Container.pool?]
      rw [step_text hc, hpool]
      exact went_textStep h pool c s
  | usageBoth nodes pool => exact (along_read _).map _ s
  | logUsageBoth nodes pool =>
    exact ((along_read _).bind fun _ => (went_logLines _).bind fun _ => along_pure _) s
  | describeBoth nodes pool => exact (along_read _).map _ s
  | _ => exact hc.elim

end Store

end FixedArena
