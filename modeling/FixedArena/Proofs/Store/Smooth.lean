import FixedArena.Proofs.Store.TextVars
import FixedArena.Proofs.Text.Smooth

/-!
Runs without alarms. As long as nobody holds an arena or a pool while a container is made, used or given
up, no command logs an alarm, and no command to a container meets a refusal that tells of broken insides.

Main facts:
* `Store.hushed_step`: direct commands never log an alarm;
* `Store.smooth_step`: a command to a container is smooth while nothing is held;
* `Run.Unhindered`: nothing is held while containers are used;
* `Run.never_alarmed`: whole runs without alarms.
-/

namespace FixedArena

/-- A command met a refusal that tells of broken insides, or of a hold. -/
def Failure.Inner : Failure → Prop
  | .refused e => e.Inner
  | .held | .unreserved _ | .unknown => False

/-- The command makes a container, uses one, or gives it up. -/
def Command.UsesContainer : Command → Prop
  | .newRing .. | .newTextRing .. | .newText .. | .drop _ | .ring .. | .textRing .. | .text .. => True
  | .reserveArena .. | .reservePool .. | .reserve _ | .hold .. | .release .. | .swapArenas ..
  | .swapPools .. | .arena .. | .pool .. | .usageBoth .. | .logUsageBoth .. | .describeBoth .. => False

/-- The command itself holds a pool while it uses a text. -/
def Command.HoldsPool : Command → Prop
  | .text _ (.assignReading _) => True
  | _ => False

instance decidableUsesContainer : ∀ c : Command, Decidable c.UsesContainer
  | .newRing .. | .newTextRing .. | .newText .. | .drop _ | .ring .. | .textRing .. | .text .. =>
    .isTrue trivial
  | .reserveArena .. | .reservePool .. | .reserve _ | .hold .. | .release .. | .swapArenas ..
  | .swapPools .. | .arena .. | .pool .. | .usageBoth .. | .logUsageBoth .. | .describeBoth .. =>
    .isFalse not_false

instance (c : Command) : Decidable c.HoldsPool := by
  unfold Command.HoldsPool
  split <;> infer_instance

namespace Store

open Act
open Outcome (Smooth)
open OwnedText (make)

variable {α : Type} {s : Store} {k r n pool : Nat} {c : Command}

/-! ### Direct commands -/

theorem hushed_onArena (k : Nat) {x : Act Failure (Guarded BlockArena) α} (hx : Hushed x) :
    Hushed (onArena k x) := by
  intro s
  cases hg : s.arenas[k]? with
  | none =>
    rw [onArena_none hg]
    exact smooth_error not_false s
  | some g =>
    rw [onArena_some hg]
    exact ⟨(hx g).events, (hx g).result⟩

theorem hushed_onPool (k : Nat) {x : Act Failure (Guarded TextPool) α} (hx : Hushed x) :
    Hushed (onPool k x) := by
  intro s
  cases hg : s.pools[k]? with
  | none =>
    rw [onPool_none hg]
    exact smooth_error not_false s
  | some g =>
    rw [onPool_some hg]
    exact ⟨(hx g).events, (hx g).result⟩

theorem hushed_logLines (ls : List String) : Hushed (logLines ls) := by
  unfold logLines
  induction ls with
  | nil => exact hushed_pure ()
  | cons l ls ih => exact (hushed_log rfl).bind fun _ => ih

theorem hushed_allocate : Hushed BlockArena.allocate := by
  intro a
  cases hn : a.freeList.next? with
  | none =>
    rw [BlockArena.allocate_full a hn]
    exact smooth_error_log (fun e he => List.mem_singleton.1 he ▸ rfl) not_false
  | some p =>
    rw [BlockArena.allocate_ok a hn]
    exact smooth_ok_log a.isAlarm_peakLog

theorem hushed_free (h : BlockHandle) : Hushed (BlockArena.free h) := by
  intro a
  unfold BlockArena.free
  cases a.locate h with
  | error e => exact smooth_error_log (fun e he => List.mem_singleton.1 he ▸ rfl) not_false
  | ok i => exact smooth_ok _ _

theorem hushed_write (h : BlockHandle) (offset : Nat) (bs : List UInt8) :
    Hushed (BlockArena.write h offset bs) := by
  intro a
  unfold BlockArena.write
  cases a.locate h with
  | error e => exact smooth_error not_false a
  | ok i =>
    dsimp only
    split
    · exact smooth_error not_false a
    · exact smooth_ok _ _

theorem hushed_arenaStep (k : Nat) (c : ArenaCommand) : Hushed (arenaStep k c) := by
  have hwrite : ∀ {β : Type} {x : Act Error BlockArena β}, Hushed x → Hushed (writeArena k x) :=
    fun hx => hushed_onArena k (Guarded.hushed_writing (hx.mapError _) _)
  have hread : ∀ {β : Type} (f : BlockArena → Except Error β), Hushed (readArena k f) :=
    fun f => hushed_onArena k (Guarded.hushed_reading _ _)
  have hlines : ∀ f, Hushed (readArena k f >>= fun ls => logLines ls >>= fun _ => pure Reply.done) :=
    fun f => (hread f).bind fun ls => (hushed_logLines ls).bind fun _ => hushed_pure _
  cases c with
  | allocate => exact (hwrite hushed_allocate).map _
  | free h => exact (hwrite (hushed_free h)).map _
  | write h offset bs => exact (hwrite (hushed_write h offset bs)).map _
  | fill h b => exact (hwrite fun a => hushed_write h 0 (List.replicate a.blockSize b) a).map _
  | logUsage => exact hlines _
  | logLayout => exact hlines _
  | _ => exact (hread _).map _

theorem hushed_poolStep (k : Nat) (c : PoolCommand) : Hushed (poolStep k c) := by
  have hwrite : ∀ {β : Type} {x : Act Error TextPool β}, (∀ p, (x p).Smooth Error.Inner) →
      Hushed (writePool k x) := fun hx =>
    hushed_onPool k (Guarded.hushed_writing (Hushed.mapError (fun p => (hx p).imp nofun) _) _)
  have hread : ∀ {β : Type} (f : TextPool → Except Error β), Hushed (readPool k f) :=
    fun f => hushed_onPool k (Guarded.hushed_reading _ _)
  cases c with
  | allocate => exact (hwrite TextPool.smooth_allocate).map _
  | free h => exact (hwrite (TextPool.smooth_free h)).map _
  | assign h t => exact (hwrite (TextPool.smooth_assign h t)).map _
  | append h t => exact (hwrite (TextPool.smooth_append h t)).map _
  | copy h source => exact (hwrite (TextPool.smooth_copy h source)).map _
  | state h => exact hread _
  | logUsage => exact (hread _).bind fun ls => (hushed_logLines ls).bind fun _ => hushed_pure _
  | _ => exact (hread _).map _

theorem hushed_addArena (capacity blockSize : Nat) : Hushed (addArena capacity blockSize) := by
  have hreserve : ∀ id, Hushed (BlockArena.reserve (σ := Store) id capacity blockSize) := by
    intro id
    refine (hushed_read _).bind fun _ => (hushed_log rfl).bind fun _ => ?_
    split
    · exact hushed_fail _
    · exact hushed_pure _
  exact hushed_get.bind fun s => ((hreserve s.nextArena).mapError _).bind fun a =>
    (hushed_modify _).bind fun _ => hushed_pure _

theorem hushed_addPool (slots maxLen : Nat) : Hushed (addPool slots maxLen) := by
  have hreserve : ∀ id, Hushed (TextPool.reserve (σ := Store) id slots maxLen) := by
    intro id
    refine (hushed_read _).bind fun _ => (hushed_log rfl).bind fun _ => ?_
    split
    · exact hushed_fail _
    · exact hushed_pure _
  exact hushed_get.bind fun s => ((hreserve s.nextPool).mapError _).bind fun p =>
    (hushed_modify _).bind fun _ => hushed_pure _

theorem hushed_takeHold (target : Target) (mode : Mode) : Hushed (takeHold target mode) := by
  have hhold : ∀ {β : Type}, Hushed (takeHold.hold (α := β) mode) := by
    intro β
    refine hushed_get.bind fun g => ?_
    cases g.take? mode with
    | some g => exact hushed_modify _
    | none => exact hushed_fail _
  cases target with
  | arena k => exact hushed_onArena k hhold
  | pool k => exact hushed_onPool k hhold

/-- **Direct commands never log an alarm**, whoever holds what. -/
theorem hushed_step (hc : ¬c.UsesContainer) : Hushed (step c) := by
  cases c with
  | reserveArena capacity blockSize => exact (hushed_addArena capacity blockSize).map _
  | reservePool slots maxLen => exact (hushed_addPool slots maxLen).map _
  | reserve sizing =>
    exact ((hushed_log rfl).bind fun _ => (hushed_addArena _ _).bind fun _ =>
      ((hushed_addPool _ _).onFailure _).bind fun _ => hushed_pure _).map _
  | hold target mode => exact (hushed_takeHold target mode).map _
  | release target mode => exact (hushed_modify _).bind fun _ => hushed_pure _
  | swapArenas i j =>
    exact (hushed_read _).bind fun _ => (hushed_modify _).bind fun _ => hushed_pure _
  | swapPools i j =>
    exact (hushed_read _).bind fun _ => (hushed_modify _).bind fun _ => hushed_pure _
  | arena k c => exact hushed_arenaStep k c
  | pool k c => exact hushed_poolStep k c
  | usageBoth nodes pool => exact (hushed_read _).map _
  | logUsageBoth nodes pool =>
    exact (hushed_read _).bind fun ls => (hushed_logLines ls).bind fun _ => hushed_pure _
  | describeBoth nodes pool => exact (hushed_read _).map _
  | _ => exact absurd trivial hc

/-! ### Commands to containers -/

/-- What an operation of a part refuses, its command refuses. -/
theorem smooth_refused {σ : Type} {x : Act Error σ α} {t : σ} (hx : (x t).Smooth Error.Inner) :
    (x.mapError Failure.refused t).Smooth Failure.Inner :=
  hx.mapError fun _ h => h

theorem smooth_onArena {x : Act Error (Guarded BlockArena) α}
    (hx : ∀ g, s.arenas[k]? = some g → (x g).Smooth Error.Inner) :
    (onArena k (x.mapError .refused) s).Smooth Failure.Inner := by
  cases hg : s.arenas[k]? with
  | none =>
    rw [onArena_none hg]
    exact smooth_error not_false s
  | some g =>
    have hmap := smooth_refused (hx g hg)
    rw [onArena_some hg]
    exact ⟨hmap.events, hmap.result⟩

theorem smooth_onText {x : TextPool.GuardedAct α}
    (hx : ∀ g, s.pools[pool]? = some g → (x g).Smooth Error.Inner) :
    (onText pool x s).Smooth Failure.Inner := by
  unfold onText
  cases hg : s.pools[pool]? with
  | none =>
    rw [onPool_none hg]
    exact smooth_error not_false s
  | some g =>
    have hmap := smooth_refused (hx g hg)
    rw [onPool_some hg]
    exact ⟨hmap.events, hmap.result⟩

variable (hrest : s.AtRest) (hset : ∀ j, s.Settled j)
  (hb : ∀ k, ∃ L, s.Books k (s.ownedOn k) L)

section Rings

include hrest hset

theorem smooth_create (type : ElementType) (n : Nat) :
    (onArena n ((Ring.create (α := type.Value)).mapError .refused) s).Smooth Failure.Inner :=
  smooth_onArena fun g hg => Ring.smooth_create (hrest.arenas.freeAt n g hg)
    ((hset n).sound g.value (arenaAt_of_get hg))

/-- An operation of a ring finds a list, on an arena that nobody holds. -/
theorem smooth_onRing {type : ElementType} {ring : Ring type.Value}
    (hc : s.containerAt r = some (.ring type ring n)) {x : Act Error (Ring.Site type.Value) α}
    (hx : ∀ (t : Ring.Site type.Value) ns vs, t.Holds ns vs → t.nodes.hold = .free →
      t.nodes.value.Sound → (x t).Smooth Error.Inner) :
    (onRing r ring n x s).Smooth Failure.Inner := by
  cases hg : s.arenas[n]? with
  | none =>
    rw [onRing_none r ring hg]
    exact smooth_error not_false s
  | some g =>
    have ha := arenaAt_of_get hg
    obtain ⟨ns, vs, hh⟩ := (hset n).valid g.value ha r _ (placedAt_of_container hc) rfl
    have hsmooth := hx ⟨ring, g⟩ ns vs hh (hrest.arenas.freeAt n g hg) ((hset n).sound g.value ha)
    have hmap := smooth_refused hsmooth
    rw [onRing_some r ring hg]
    exact ⟨hmap.events, hmap.result⟩

theorem smooth_ringStep {type : ElementType} {ring : Ring type.Value}
    (hc : s.containerAt r = some (.ring type ring n)) (d : RingCommand type.Value) :
    (ringStep r ring n d s).Smooth Failure.Inner := by
  have hon : ∀ {β : Type} {x : Act Error (Ring.Site type.Value) β} (f : β → Reply),
      (∀ (t : Ring.Site type.Value) ns vs, t.Holds ns vs → t.nodes.hold = .free →
        t.nodes.value.Sound → (x t).Smooth Error.Inner) →
      ((f <$> onRing r ring n x) s).Smooth Failure.Inner :=
    fun f hx => (smooth_onRing hrest hset hc hx).map f
  cases d with
  | push side v => exact hon _ fun t ns vs h hf hs => Ring.smooth_push h hf hs v
  | pop side => exact hon _ fun t ns vs h hf _ => Ring.smooth_pop h hf
  | peek side => exact hon _ fun t ns vs h hf _ => Ring.smooth_peek h hf
  | get index => exact hon _ fun t ns vs h hf _ => Ring.smooth_get h hf index
  | set index v => exact hon _ fun t ns vs h hf _ => Ring.smooth_set h hf index v
  | clear => exact hon _ fun t ns vs h hf _ => Ring.smooth_clear h hf
  | size => exact smooth_ok _ s
  | toList => exact hon _ fun t ns vs h hf _ => Ring.smooth_toList h hf
  | scan steps => exact hon _ fun t _ _ _ _ _ => Ring.smooth_scan steps t
  | describe => exact smooth_ok _ s

theorem smooth_ring (r : Nat) (d : RingCommand Datum) :
    (step (.ring r d) s).Smooth Failure.Inner := by
  obtain h | ⟨type, ring, n, d', hc, -, h⟩ := ring_cases r d s
  · rw [h]
    exact smooth_error not_false s
  · rw [h]
    exact smooth_ringStep hrest hset hc d'

end Rings

section TextRings

variable {tr : TextRing}

include hrest hset hb

/-- An operation of a text ring finds a list of entries, on an arena and a pool that nobody holds. -/
theorem smooth_onTextRing (hc : s.containerAt r = some (.textRing tr n pool))
    {x : Act Error TextRing.Site α}
    (hx : ∀ (t : TextRing.Site) ns es, t.Shows ns es → t.Open → t.nodes.value.Sound →
      (x t).Smooth Error.Inner) : (onTextRing r tr n pool x s).Smooth Failure.Inner := by
  obtain ⟨L, hbooks⟩ := hb pool
  obtain ⟨tr', g, p, ns, hc', hg, hp, hs⟩ := shows hc (hset n) hbooks
  obtain rfl : tr = tr' := by
    cases hc.symm.trans hc'
    rfl
  have ho : TextRing.Site.Open ⟨tr, g, p⟩ :=
    ⟨hrest.arenas.freeAt n g hg, hrest.poolFreeAt pool p hp⟩
  have hsmooth := hx ⟨tr, g, p⟩ ns _ hs ho ((hset n).sound g.value (arenaAt_of_get hg))
  have hmap := smooth_refused hsmooth
  rw [onTextRing_some r tr hg hp]
  exact ⟨hmap.events, hmap.result⟩

theorem smooth_textRingStep (hc : s.containerAt r = some (.textRing tr n pool))
    (d : TextRingCommand) : (textRingStep r tr n pool d s).Smooth Failure.Inner := by
  have hon : ∀ {β : Type} {x : Act Error TextRing.Site β},
      (∀ (t : TextRing.Site) ns es, t.Shows ns es → t.Open → t.nodes.value.Sound →
        (x t).Smooth Error.Inner) → (textRingStep.on r tr n pool x s).Smooth Failure.Inner :=
    fun hx => smooth_onTextRing hrest hset hb hc hx
  cases d with
  | push side h => exact (hon fun t ns es h' ho hs => TextRing.smooth_push h'.holds hs ho side h).map _
  | pushText t => exact (hon fun u ns es h' ho hs => TextRing.smooth_pushText h'.holds hs ho t).map _
  | pop side => exact (hon fun t ns es h' ho _ => h'.smooth_pop ho side).map _
  | peek side => exact (hon fun t ns es h' ho _ => (Ring.smooth_peek h'.holds ho.nodes).zoom).map _
  | get index =>
    exact (hon fun t ns es h' ho _ => (Ring.smooth_get h'.holds ho.nodes index).zoom).map _
  | text index => exact (hon fun t ns es h' ho _ => h'.smooth_text ho index).map _
  | position t => exact (hon fun u ns es h' ho _ => h'.smooth_position ho t).map _
  | size => exact smooth_ok _ s
  | toList => exact (hon fun t ns es h' ho _ => h'.smooth_toList ho).map _
  | scan steps => exact (hon fun t ns es h' ho _ => (Ring.smooth_scan steps t.handles).zoom).map _
  | clear => exact (hon fun t ns es h' ho _ => h'.smooth_clear ho).map _
  | describe => exact (hon fun t ns es h' ho _ => h'.smooth_describe ho).map _
  | describeLong => exact (hon fun t ns es h' ho _ => h'.smooth_describeLong ho).map _
  | intoTexts =>
    exact (Outcome.Smooth.afterwards (hon fun t ns es h' ho _ => h'.smooth_intoTexts ho)).map _
  | livesIn k => exact smooth_ok _ s

theorem smooth_textRing (r : Nat) (d : TextRingCommand) :
    (step (.textRing r d) s).Smooth Failure.Inner := by
  obtain ⟨-, h⟩ | ⟨tr, n, pool, hc, h⟩ := textRing_cases r d s
  · rw [h]
    exact smooth_error not_false s
  · rw [h]
    exact smooth_textRingStep hrest hset hb hc d

end TextRings

section Texts

variable {v : TextVar}

include hrest hb

/-- An operation of a text finds its entry, in a pool that nobody holds. -/
theorem smooth_ofText (hv : s.IsText r v) {x : TextPool.GuardedAct α}
    (hx : ∀ g : Guarded TextPool, g.hold = .free → g.value.Tidy →
      g.value.catalog.find v.handle = some ⟨v.content, true⟩ → (x g).Smooth Error.Inner) :
    (onText v.pool x s).Smooth Failure.Inner := by
  obtain ⟨g, hg, hfree, htidy, he⟩ := hv.ready hrest hb
  refine smooth_onText fun g' hg' => ?_
  obtain rfl := Option.some.inj (hg.symm.trans hg')
  exact hx g hfree htidy he

omit hb in
/-- A text that is made on a pool becomes a container. -/
theorem smooth_make {y : TextHandle → TextPool.GuardedAct Unit} (hb : ∃ L, s.Books pool (s.ownedOn pool) L)
    (hy : ∀ (g : Guarded TextPool) h p, s.pools[pool]? = some g → g.hold = .free →
      g.value.catalog.find h = none → TextPool.Puts h ⟨"", true⟩ g.value p →
      (y h { g with value := p }).Smooth Error.Inner) :
    ((onText pool (make y) >>= fun h => Reply.container <$> addContainer (.text h pool)) s).Smooth
      Failure.Inner := by
  obtain ⟨L, hbooks⟩ := hb
  refine (smooth_onText fun g hg => ?_).bind fun h _ => smooth_ok _ _
  have hfree := hrest.poolFreeAt pool g hg
  have htidy := ((books_iff (poolAt_of_get hg)).1 hbooks).tidy
  exact OwnedText.smooth_make hfree htidy fun h p => hy g h p hg hfree

theorem smooth_newText (pool : Nat) (content : Option String) :
    (step (.newText pool content) s).Smooth Failure.Inner := by
  cases content with
  | none =>
    rw [step_newText]
    exact smooth_make hrest (hb pool) fun g h p _ _ _ _ => smooth_ok _ _
  | some t =>
    rw [step_newText_with]
    refine smooth_make hrest (hb pool) fun g h p _ hfree _ hputs => ?_
    obtain ⟨p', hassign, -⟩ :=
      OwnedText.assign_eq (g := { g with value := p }) hfree hputs.tidy hputs.find_self t
    rw [hassign]
    exact smooth_ok _ _

/-- **A text is read and written without alarms**, as long as it holds nothing itself. -/
theorem smooth_ofIsText (hv : s.IsText r v) {d : TextCommand} (hd : ∀ o, d ≠ .assignReading o) :
    (step (.text r d) s).Smooth Failure.Inner := by
  obtain ⟨g, hg, hfree, htidy, he⟩ := hv.ready hrest hb
  have hacts := actsAsText hv hrest hb (poolAt_of_get hg)
  have hadmits : g.hold.admits .shared = true := by
    rw [hfree]
    rfl
  have hother : ∀ o, textAt o s = ⟨.error .unknown, s, []⟩ ∨ ∃ w, s.IsText o w :=
    fun o => (textAt_cases o s).imp_right fun ⟨h, pool, hc⟩ =>
      let ⟨L, hbooks⟩ := hb pool
      let ⟨t, ht⟩ := isText_of_books hc hbooks
      ⟨_, ht⟩
  cases d with
  | assign t =>
    obtain ⟨s', hstep, -⟩ := hacts.assign t
    rw [hstep]
    exact smooth_ok _ _
  | append t =>
    obtain ⟨s', hstep, -⟩ := hacts.append t
    rw [hstep]
    exact smooth_ok _ _
  | assignFrom o =>
    obtain hnone | ⟨w, hw⟩ := hother o
    · rw [step_text hv.container, textStep, Act.bind_error hnone]
      exact smooth_error not_false s
    · obtain ⟨s', hstep, -⟩ := hacts.assignFrom o w hw
      rw [hstep]
      exact smooth_ok _ _
  | assignReading o => exact absurd rfl (hd o)
  | compare t =>
    rw [step_text hv.container, textStep, Act.map_apply,
      onText_same hg (OwnedText.compare_eq hadmits htidy he t)]
    exact smooth_ok _ s
  | equals o =>
    rw [step_text hv.container, textStep]
    obtain hnone | ⟨w, hw⟩ := hother o
    · rw [Act.bind_error hnone]
      exact smooth_error not_false s
    · obtain ⟨g', hg', hfree', htidy', he'⟩ := hw.ready hrest hb
      have hadmits' : g'.hold.admits .shared = true := by
        rw [hfree']
        rfl
      rw [Act.bind_ok (textAt_ok hw.container)]
      dsimp only
      rw [Act.bind_ok (onText_same hg' (OwnedText.content_eq hadmits' htidy' he')), Act.map_apply,
        onText_same hg (OwnedText.equals_eq hadmits htidy he w.content)]
      exact smooth_ok _ s
  | equalsText t =>
    have hequals := onText_same hg (OwnedText.equals_eq hadmits htidy he t)
    rw [step_text hv.container, textStep, Act.bind_ok hequals, Act.bind_ok hequals]
    exact smooth_ok _ s
  | measure =>
    rw [hacts.measure]
    exact smooth_ok _ s
  | content =>
    rw [hacts.content]
    exact smooth_ok _ s
  | describe =>
    obtain ⟨t, ht⟩ := OwnedText.describe_eq hadmits htidy he
    rw [step_text hv.container, textStep, Act.map_apply, onText_same hg ht]
    exact smooth_ok _ s
  | handle =>
    rw [hacts.handle]
    exact smooth_ok _ s
  | livesIn k =>
    rw [step_text hv.container]
    exact smooth_ok _ s
  | clone =>
    rw [step_text hv.container, textStep_clone]
    refine smooth_make hrest (hb v.pool) fun g' h p hg' _ hnone hputs => ?_
    obtain rfl := Option.some.inj (hg.symm.trans hg')
    have hne : v.handle ≠ h := by
      rintro rfl
      rw [hnone] at he
      cases he
    obtain ⟨p', hcopy, -⟩ := OwnedText.copy_eq (g := { g with value := p }) hfree hputs.tidy
      hputs.find_self ((hputs.find_of_ne hne).trans he)
    rw [hcopy]
    exact smooth_ok _ _

theorem smooth_text (r : Nat) {d : TextCommand} (hd : ∀ o, d ≠ .assignReading o) :
    (step (.text r d) s).Smooth Failure.Inner := by
  obtain hnone | ⟨h, pool, hc⟩ := textAt_cases r s
  · rw [step, Act.bind_error hnone]
    exact smooth_error not_false s
  · obtain ⟨L, hbooks⟩ := hb pool
    obtain ⟨t, ht⟩ := isText_of_books hc hbooks
    exact smooth_ofIsText hrest hb ht hd

end Texts

include hrest hset hb

/-- **A container is given up without alarms.** -/
theorem smooth_drop (r : Nat) : (step (.drop r) s).Smooth Failure.Inner := by
  rw [step]
  cases hc : s.containerAt r with
  | none =>
    rw [Act.bind_error (container_unknown hc)]
    exact smooth_error not_false s
  | some x =>
    rw [Act.bind_ok (container_ok hc)]
    suffices hdrop : (dropContainer r x s).Smooth Failure.Inner from
      ⟨(hdrop.bind fun _ _ => smooth_ok Reply.done _).events,
        (hdrop.bind fun _ _ => smooth_ok Reply.done _).result⟩
    refine Outcome.Smooth.afterwards ?_
    cases x with
    | ring type ring n =>
      exact smooth_onRing hrest hset hc fun t ns vs h hf _ => Ring.smooth_drop h hf
    | textRing tr n pool =>
      exact smooth_onTextRing hrest hset hb hc fun t ns es h ho _ => h.smooth_drop ho
    | text h pool =>
      obtain ⟨L, hbooks⟩ := hb pool
      obtain ⟨t, ht⟩ := isText_of_books hc hbooks
      refine smooth_ofText hrest hb ht fun g hfree htidy he => ?_
      obtain ⟨p, hdrop, -⟩ := OwnedText.drop_eq hfree htidy he
      rw [hdrop]
      exact smooth_ok _ _

/-- **Containers are used without alarms** while nothing is held. -/
theorem smooth_step (hc : c.UsesContainer) (hh : ¬c.HoldsPool) :
    (step c s).Smooth Failure.Inner := by
  cases c with
  | newRing type n => exact (smooth_create hrest hset type n).bind fun ring _ => smooth_ok _ _
  | newTextRing n pool =>
    obtain h | ⟨-, h⟩ := newTextRing_cases n pool s
    · rw [h]
      exact smooth_error not_false s
    · rw [h]
      exact (smooth_create hrest hset .handle n).bind fun ring _ => smooth_ok _ _
  | newText pool content => exact smooth_newText hrest hb pool content
  | drop r => exact smooth_drop hrest hset hb r
  | ring r d => exact smooth_ring hrest hset r d
  | textRing r d => exact smooth_textRing hrest hset hb r d
  | text r d =>
    refine smooth_text hrest hb r ?_
    rintro o rfl
    exact hh trivial
  | _ => exact hc.elim

end Store

namespace Store

variable {s : Store} {c : Command}

/-- The command uses no container while anything is held. -/
def Unhindered (s : Store) (c : Command) : Prop := c.UsesContainer → s.AtRest ∧ ¬c.HoldsPool

instance (s : Store) (c : Command) : Decidable (s.Unhindered c) :=
  inferInstanceAs (Decidable (_ → _))

theorem Unhindered.givesFreely (h : s.Unhindered c) : s.GivesFreely c := by
  by_cases hc : c.UsesContainer
  · exact (h hc).1.givesFreely c
  · intro x hx
    cases c with
    | drop | textRing => exact absurd trivial hc
    | _ => cases hx

end Store

namespace Run

variable {past : Run} {c : Command}

/-- All events of a run. -/
def events : Run → List Event
  | [] => []
  | c :: past => events past ++ (Store.step c (store past)).events

/-- Nothing is held while a container is made, used or given up. -/
def Unhindered : Run → Prop
  | [] => True
  | c :: past => Unhindered past ∧ (store past).Unhindered c

instance decidableUnhindered : ∀ run, Decidable (Unhindered run)
  | [] => .isTrue trivial
  | c :: past =>
    have := decidableUnhindered past
    inferInstanceAs (Decidable (Unhindered past ∧ (store past).Unhindered c))

theorem Unhindered.givesFreely {run : Run} (h : Unhindered run) : GivesFreely run := by
  induction run with
  | nil => trivial
  | cons c past ih => exact ⟨ih h.1, h.2.givesFreely⟩

/-- **A command logs no alarm**, and one to a container meets no refusal from inside. -/
theorem smooth_cons (h : Ordinary past) (hy : Young past) (hp : ∀ c ∈ past, c.KeepsPools)
    (hu : Unhindered (c :: past)) :
    (∀ e ∈ (Store.step c (store past)).events, e.isAlarm = false) ∧
    (c.UsesContainer → (Store.step c (store past)).Smooth Failure.Inner) := by
  by_cases hc : c.UsesContainer
  · obtain ⟨hrest, hh⟩ := hu.2 hc
    have hbooks := books h hy hp hu.1.givesFreely
    have hsmooth := Store.smooth_step hrest (inOrder h hy).settled (fun k => ⟨_, hbooks k⟩) hc hh
    exact ⟨hsmooth.events, fun _ => hsmooth⟩
  · exact ⟨(Store.hushed_step hc (store past)).events, fun hc' => absurd hc' hc⟩

/-- At every moment of an unhindered run no alarm was logged. -/
theorem events_notAlarm {run : Run} (h : Ordinary run) (hy : Young run)
    (hp : ∀ c ∈ run, c.KeepsPools) (hu : Unhindered run) : ∀ e ∈ events run, e.isAlarm = false := by
  induction run with
  | nil => exact Act.notAlarm_nil
  | cons c past ih =>
    have hp' : ∀ c' ∈ past, c'.KeepsPools := fun c' hc' => hp c' (List.mem_cons_of_mem c hc')
    intro e he
    rcases List.mem_append.1 he with he | he
    · exact ih h.1 hy.tail hp' hu.1 e he
    · exact (smooth_cons h.1 hy.tail hp' hu).1 e he

/-- **Nothing is ever broken inside.** Take any run in which callers change blocks only through handles
that they were issued, no arenas or pools change places, no two arenas share an identity, no block is
freed so often that its generation comes round again, and nothing is held while a container is made,
used or given up. No event of level error is ever logged, and no slot is ever lost; and no command to a
container is refused for a foreign or a stale block, for bytes that are no text, or for a hold. -/
theorem never_alarmed {run : Run} (h : Honest run) (hy : Young run)
    (hapart : (store run).ArenasApart) (hp : ∀ c ∈ run, c.KeepsPools) (hu : Unhindered run) :
    (∀ e ∈ events run, e.level ≠ .error ∧ ∀ g, e ≠ .slotLost g) ∧
    ∀ c past, c :: past <:+ run → c.UsesContainer → ∀ e,
      (Store.step c (store past)).result = .error (.refused e) → ¬e.Inner := by
  have hord := h.ordinary hy hapart
  refine ⟨fun e he => ?_, fun c past hl hc e hr => ?_⟩
  · have hquiet := events_notAlarm hord hy hp hu e he
    rw [← Bool.not_eq_true, Event.isAlarm_iff, not_or] at hquiet
    exact ⟨hquiet.1, fun g hg => hquiet.2 ⟨g, hg⟩⟩
  · obtain ⟨l, rfl⟩ := hl
    have hord' : Ordinary (c :: past) := of_append (fun _ _ ho => ho.1) hord
    have hy' : Young (c :: past) := of_append (fun _ _ => Young.tail) hy
    have hu' : Unhindered (c :: past) := of_append (fun _ _ hu => hu.1) hu
    have hp' : ∀ c' ∈ past, c'.KeepsPools := fun c' hc' =>
      hp c' (List.mem_append_right l (List.mem_cons_of_mem c hc'))
    exact ((smooth_cons hord'.1 hy'.tail hp' hu').2 hc).result _ hr

/-- A text ring and a text, under pressure: a caller frees a slot that is owned, adds a handle that is
not in use, asks for a slot under a hold, and frees a block twice; the pool runs full. -/
def pressed : Run :=
  [.drop 1, .drop 0, .newText 0 none, .newText 0 (some "b"), .arena 0 (.free ⟨1, 2, 0⟩),
    .arena 0 (.free ⟨1, 2, 0⟩), .arena 0 .allocate, .release (.pool 0) .exclusive, .pool 0 .allocate,
    .hold (.pool 0) .exclusive, .textRing 0 (.push .back ⟨1, 1⟩), .pool 0 (.free ⟨1, 0⟩),
    .textRing 0 (.pushText "a"), .newTextRing 0 0, .reservePool 2 8, .reserveArena 8 32]

theorem honest_pressed : Honest pressed := by
  have hissued : (⟨1, 2, 0⟩ : BlockHandle) ∈ issued 0 (pressed.drop 6) := by decide +kernel
  have hpast : Honest (pressed.drop 6) := by
    refine Honest.append (l := pressed.drop 6) (show Honest [] from trivial) ?_
    simp only [pressed, List.drop_succ_cons, List.drop_zero, List.forall_mem_cons]
    exact ⟨⟨nofun, rfl⟩, ⟨nofun, rfl⟩, ⟨nofun, rfl⟩, ⟨nofun, rfl⟩, ⟨nofun, rfl⟩, ⟨nofun, rfl⟩,
      ⟨nofun, rfl⟩, ⟨nofun, rfl⟩, ⟨nofun, rfl⟩, ⟨nofun, rfl⟩, nofun⟩
  have hfreed : ∀ past, (⟨1, 2, 0⟩ : BlockHandle) ∈ issued 0 past → Honest past →
      Honest (.arena 0 (.free ⟨1, 2, 0⟩) :: past) := by
    refine fun past hin hpast => ⟨hpast, nofun, fun k h hc => ?_⟩
    cases hc
    exact ⟨0, hin⟩
  refine Honest.append (l := pressed.take 4)
    (hfreed _ (List.mem_append_right _ hissued) (hfreed _ hissued hpast)) ?_
  simp only [pressed, List.take_succ_cons, List.take_zero, List.forall_mem_cons]
  exact ⟨⟨nofun, rfl⟩, ⟨nofun, rfl⟩, ⟨nofun, rfl⟩, ⟨nofun, rfl⟩, nofun⟩

/-- All that goes wrong is reported as a warning, or refused for a reason of the caller's. -/
theorem never_alarmed_pressed : Honest pressed ∧ Young pressed ∧ (store pressed).ArenasApart ∧
    (∀ c ∈ pressed, c.KeepsPools) ∧ Unhindered pressed ∧
    (∀ e ∈ events pressed, e.level ≠ .error ∧ ∀ g, e ≠ .slotLost g) ∧
    (∀ e ∈ [.slotOwned ⟨1, 0⟩, .blockNotFreed (.stale 2 0 1), .slotsExhausted 2], e ∈ events pressed) ∧
    (Store.step (.textRing 0 (.push .back ⟨1, 1⟩)) (store (pressed.drop 11))).result =
      .error (.refused (.notAllocated 1)) ∧ ¬(Error.notAllocated 1).Inner := by
  have hyoung : Young pressed := young_of_length (by decide)
  have hapart : (store pressed).ArenasApart := Store.arenasApart_of_nodup (by decide +kernel)
  have hpools : ∀ c ∈ pressed, c.KeepsPools := by
    simp only [pressed, List.forall_mem_cons]
    exact ⟨nofun, nofun, nofun, nofun, nofun, nofun, nofun, nofun, nofun, nofun, nofun, nofun, nofun,
      nofun, nofun, nofun, nofun⟩
  have hunhindered : Unhindered pressed := by decide +kernel
  have hwarned : ∀ e ∈ [.slotOwned ⟨1, 0⟩, .blockNotFreed (.stale 2 0 1), .slotsExhausted 2],
      e ∈ events pressed := by decide +kernel
  have hrefused : (Store.step (.textRing 0 (.push .back ⟨1, 1⟩)) (store (pressed.drop 11))).result.map
      (fun _ => ()) = .error (.refused (.notAllocated 1)) := by decide +kernel
  obtain ⟨hquiet, hinner⟩ := never_alarmed honest_pressed hyoung hapart hpools hunhindered
  have hpush := hinner (.textRing 0 (.push .back ⟨1, 1⟩)) (pressed.drop 11) ⟨pressed.take 10, rfl⟩ trivial
  cases hr : (Store.step (.textRing 0 (.push .back ⟨1, 1⟩)) (store (pressed.drop 11))).result with
  | ok a =>
    rw [hr] at hrefused
    cases hrefused
  | error e =>
    rw [hr] at hrefused
    obtain rfl := Except.error.inj hrefused
    exact ⟨honest_pressed, hyoung, hapart, hpools, hunhindered, hquiet, hwarned, rfl, hpush _ hr⟩

end Run

end FixedArena
