import FixedArena.Proofs.Store.Texts
import FixedArena.Proofs.Text.Variable

/-!
Owned texts as variables, one command at a time. While no arena and no pool is held, a text of a store
is a slot with a content of its own: it answers with the content, and takes over what is written as far
as it fits.

Main facts:
* `Command.Edits`: the commands that write to a text;
* `Store.IsText`, `Store.isText_iff`: a text and its variable;
* `Store.newText_makes`: a text is made;
* `Store.ActsAsText`, `Store.actsAsText`: what a text answers, and what it becomes.
-/

namespace FixedArena

/-- A variable: the slot of a text, and its content. -/
structure TextVar where
  pool : Nat
  handle : TextHandle
  content : String
  deriving DecidableEq, Repr

namespace Command

/-- The text that a command writes to, by its number. -/
def edited? : Command → Option Nat
  | .text r (.assign _) | .text r (.append _) | .text r (.assignFrom _)
  | .text r (.assignReading _) => some r
  | _ => none

/-- **The command writes to a text**, through the text itself or directly to its slot. -/
def Edits (r : Nat) (v : TextVar) (c : Command) : Prop :=
  c.edited? = some r ∨ c.written? = some (v.pool, v.handle)

instance (r : Nat) (v : TextVar) (c : Command) : Decidable (c.Edits r v) :=
  inferInstanceAs (Decidable (_ ∨ _))

theorem written?_of_edited? {c : Command} {r : Nat} (h : c.edited? = some r) :
    c.written? = none := by
  cases c with
  | text r d => rfl
  | _ => cases h

end Command

namespace Store

open OwnedText (make)
open TextPool (Entry Puts)

variable {α : Type} {s s' : Store} {k r r' n pool : Nat} {v w : TextVar} {h h' : TextHandle}
  {g g' : Guarded TextPool} {p : TextPool} {t : String} {e : Entry}

/-! ### Views -/

/-- **The container is a text with this slot and this content.** -/
structure IsText (s : Store) (r : Nat) (v : TextVar) : Prop where
  container : s.containerAt r = some (.text v.handle v.pool)
  entry : s.entryAt v.pool v.handle = some ⟨v.content, true⟩

/-- The variable of a container, if it is a text. -/
def textVarAt (s : Store) (r : Nat) : Option TextVar :=
  match s.containerAt r with
  | some (.text h pool) => some ⟨pool, h, ((s.entryAt pool h).map Entry.text).getD ""⟩
  | _ => none

theorem IsText.textVarAt_eq (hv : s.IsText r v) : s.textVarAt r = some v := by
  rw [textVarAt, hv.container]
  simp only [hv.entry]
  rfl

theorem IsText.heldOn (hv : s.IsText r v) : s.heldOn v.pool r = [v.handle] := by
  rw [heldOn_of_text hv.container, if_pos rfl]

theorem IsText.mem_heldOn (hv : s.IsText r v) : v.handle ∈ s.heldOn v.pool r := by
  rw [hv.heldOn]
  exact List.mem_singleton.2 rfl

theorem entryAt_of_get (hg : s.pools[k]? = some g) : s.entryAt k h = g.value.catalog.find h := by
  rw [entryAt, poolAt_of_get hg]
  rfl

/-- A container that is a text owns its slot. -/
theorem isText_of_books {L : List TextHandle} (hc : s.containerAt r = some (.text h pool))
    (hb : s.Books pool (s.ownedOn pool) L) : ∃ t, s.IsText r ⟨pool, h, t⟩ := by
  have hheld : h ∈ s.heldOn pool r := by
    rw [heldOn_of_text hc, if_pos rfl]
    exact List.mem_singleton.2 rfl
  have hmem := mem_ownedOn hheld
  cases hk : s.poolAt pool with
  | none =>
    rw [Books, hk] at hb
    rw [hb.1] at hmem
    cases hmem
  | some p =>
    obtain ⟨t, hf⟩ := (((books_iff hk).1 hb).mem_owned_iff h).1 hmem
    refine ⟨t, hc, ?_⟩
    rw [entryAt, hk]
    exact hf

/-- **Every text is one variable.** -/
theorem isText_iff (hb : ∀ k, ∃ L, s.Books k (s.ownedOn k) L) :
    s.IsText r v ↔ s.textVarAt r = some v := by
  refine ⟨IsText.textVarAt_eq, fun hv => ?_⟩
  unfold textVarAt at hv
  split at hv
  · next h pool hc =>
    obtain ⟨L, hbooks⟩ := hb pool
    obtain ⟨t, ht⟩ := isText_of_books hc hbooks
    obtain rfl := Option.some.inj hv
    rw [ht.entry]
    exact ht
  · cases hv

/-- **No two texts share a slot.** -/
theorem IsText.slot_ne (hb : ∀ k, ∃ L, s.Books k (s.ownedOn k) L) (hv : s.IsText r v)
    (hw : s.IsText r' w) (hne : r' ≠ r) : (w.pool, w.handle) ≠ (v.pool, v.handle) := by
  intro heq
  obtain ⟨hpool, hhandle⟩ := Prod.ext_iff.1 heq
  dsimp only at hpool hhandle
  obtain ⟨L, hbooks⟩ := hb v.pool
  have hmem := hw.mem_heldOn
  rw [hpool, hhandle] at hmem
  have hnd : (s.ownedOn v.pool).Nodup := by
    cases hk : s.poolAt v.pool with
    | none =>
      rw [Books, hk] at hbooks
      rw [hbooks.1]
      exact List.nodup_nil
    | some p => exact ((books_iff hk).1 hbooks).nodup_owned
  exact hne (eq_of_heldOn hnd hmem hv.mem_heldOn)

/-- No command writes to two texts. -/
theorem IsText.not_edits (hb : ∀ k, ∃ L, s.Books k (s.ownedOn k) L) (hv : s.IsText r v)
    (hw : s.IsText r' w) (hne : r' ≠ r) {c : Command} (hc : c.Edits r v) : ¬c.Edits r' w := by
  have hslot := hv.slot_ne hb hw hne
  rintro (hc' | hc')
  · rcases hc with hc | hc
    · exact hne (Option.some.inj (hc'.symm.trans hc))
    · rw [Command.written?_of_edited? hc'] at hc
      cases hc
  · rcases hc with hc | hc
    · rw [Command.written?_of_edited? hc] at hc'
      cases hc'
    · exact hslot (Option.some.inj (hc'.symm.trans hc))

/-! ### One slot of a store -/

/-- **A slot gets an entry**, and no other slot of any pool changes. -/
structure PutsAt (pool : Nat) (h : TextHandle) (e : Entry) (s s' : Store) : Prop where
  arenas : s'.arenas = s.arenas
  entry : s'.entryAt pool h = some e
  kept : ∀ k h', (k, h') ≠ (pool, h) → s'.entryAt k h' = s.entryAt k h'

theorem putsAt_of_puts (hg : s.pools[pool]? = some g) (hp : Puts h e g.value p)
    (ha : s'.arenas = s.arenas)
    (hs : s'.pools = s.pools.setIfInBounds pool { g with value := p }) : PutsAt pool h e s s' := by
  have hat := poolAt_of_set hg hs
  refine ⟨ha, ?_, fun k h' hne => ?_⟩
  · rw [entryAt, hat, if_pos rfl]
    exact hp.find_self
  · by_cases hk : k = pool
    · subst hk
      have hh : h' ≠ h := fun hh => hne (by rw [hh])
      rw [entryAt, hat, if_pos rfl, entryAt_of_get hg]
      exact hp.find_of_ne hh
    · rw [entryAt, hat, if_neg hk, entryAt]

/-- **The content of one text changes**, and nothing else. -/
structure Becomes (r : Nat) (v : TextVar) (t : String) (s s' : Store) : Prop where
  isText : s'.IsText r { v with content := t }
  arenas : s'.arenas = s.arenas
  containers : s'.containers = s.containers
  entries : ∀ k h, (k, h) ≠ (v.pool, v.handle) → s'.entryAt k h = s.entryAt k h
  others : ∀ r' w, r' ≠ r → s.IsText r' w → s'.IsText r' w

/-- **A text is made** with a slot that was free, and nothing else changes. -/
structure Makes (v : TextVar) (s s' : Store) : Prop where
  fresh : s.entryAt v.pool v.handle = none
  isText : s'.IsText s.containers.size v
  arenas : s'.arenas = s.arenas
  containers : s'.containers = s.containers.push (some (.text v.handle v.pool))
  entries : ∀ k h, (k, h) ≠ (v.pool, v.handle) → s'.entryAt k h = s.entryAt k h
  others : ∀ r' w, s.IsText r' w → s'.IsText r' w

theorem becomes_of_putsAt (hb : ∀ k, ∃ L, s.Books k (s.ownedOn k) L) (hv : s.IsText r v)
    (hp : PutsAt v.pool v.handle ⟨t, true⟩ s s') (hc : s'.containers = s.containers) :
    Becomes r v t s s' := by
  have hat : ∀ r, s'.containerAt r = s.containerAt r := fun r => by
    rw [containerAt, hc, containerAt]
  refine ⟨⟨(hat r).trans hv.container, hp.entry⟩, hp.arenas, hc, hp.kept, fun r' w hne hw => ?_⟩
  exact ⟨(hat r').trans hw.container, (hp.kept _ _ (hv.slot_ne hb hw hne)).trans hw.entry⟩

theorem makes_of_putsAt (hfresh : s.entryAt v.pool v.handle = none)
    (hp : PutsAt v.pool v.handle ⟨v.content, true⟩ s s')
    (hc : s'.containers = s.containers.push (some (.text v.handle v.pool))) : Makes v s s' := by
  have hat := containerAt_of_push (s := s) (t := s') hc
  refine ⟨hfresh, ⟨(hat _).trans (if_pos rfl), hp.entry⟩, hp.arenas, hc, hp.kept, fun r' w hw => ?_⟩
  have hne : (w.pool, w.handle) ≠ (v.pool, v.handle) := by
    intro heq
    obtain ⟨hpool, hhandle⟩ := Prod.ext_iff.1 heq
    have hentry := hw.entry
    dsimp only at hpool hhandle
    rw [hpool, hhandle, hfresh] at hentry
    cases hentry
  have hlt := lt_size_of_containerAt hw.container
  exact ⟨(hat r').trans ((if_neg (Nat.ne_of_lt hlt)).trans hw.container),
    (hp.kept _ _ hne).trans hw.entry⟩

/-! ### Operations of a text -/

theorem onText_ok {x : TextPool.GuardedAct α} {a : α} {log : List Event}
    (hg : s.pools[pool]? = some g) (hx : x g = ⟨.ok a, g', log⟩) : onText pool x s =
      ⟨.ok a, { s with pools := s.pools.setIfInBounds pool g' }, log⟩ := by
  unfold onText
  rw [onPool_some hg, Act.mapError_apply, hx]
  rfl

/-- An operation that leaves its pool as it was. -/
theorem onText_same {x : TextPool.GuardedAct α} {a : α} {log : List Event}
    (hg : s.pools[pool]? = some g) (hx : x g = ⟨.ok a, g, log⟩) :
    onText pool x s = ⟨.ok a, s, log⟩ := by
  rw [onText_ok hg hx]
  simp only [set_back hg]

theorem still_onText (pool : Nat) {x : TextPool.GuardedAct α} (hx : Act.Still x) :
    Act.Still (onText pool x) := by
  intro s
  cases hg : s.pools[pool]? with
  | none => exact (congrArg Outcome.state (onPool_none hg _)).symm
  | some g =>
    unfold onText
    rw [onPool_some hg, Act.mapError_apply, ← hx g]
    simp only [set_back hg]

theorem still_textAt (r : Nat) : Act.Still (textAt r) := fun s => (state_textAt r s).symm

theorem still_textStep {d : TextCommand} (hd : (Command.text r d).edited? = none)
    (hclone : d ≠ .clone) : Act.Still (textStep h pool d) := by
  have hread : ∀ {β : Type} {pool : Nat} {x : TextPool.GuardedAct β}, Act.Still x →
      Act.Still (onText pool x) := fun hx => still_onText _ hx
  cases d with
  | compare t => exact (hread (OwnedText.still_compare h t)).map _
  | equals other =>
    exact (still_textAt other).bind fun _ => (hread (OwnedText.still_content _)).bind fun t =>
      (hread (OwnedText.still_equals h t)).map _
  | equalsText t =>
    exact (hread (OwnedText.still_equals h t)).bind fun _ =>
      (hread (OwnedText.still_equals h t)).bind fun _ => Act.within_pure _
  | measure =>
    exact (hread (OwnedText.still_length h)).bind fun _ =>
      (hread (OwnedText.still_isEmpty h)).bind fun _ =>
        (hread (OwnedText.still_maxLength h)).bind fun _ => Act.within_pure _
  | content => exact (hread (OwnedText.still_content h)).map _
  | describe => exact (hread (OwnedText.still_describe h)).map _
  | handle => exact Act.within_pure _
  | livesIn k => exact Act.within_pure _
  | clone => exact absurd rfl hclone
  | _ => cases hd

/-- **What does not write to a text, and does not copy it, changes nothing.** -/
theorem still_text {d : TextCommand} (hd : (Command.text r d).edited? = none)
    (hclone : d ≠ .clone) : Act.Still (step (.text r d)) :=
  (still_textAt r).bind fun _ => still_textStep hd hclone

/-- A command to a ring does nothing to a text. -/
theorem refused_of_text (hc : s.containerAt r = some (.text h pool)) :
    (∀ d, (step (.ring r d) s).state = s) ∧ ∀ d, (step (.textRing r d) s).state = s := by
  constructor
  · intro d
    rw [step, Act.bind_ok (container_ok hc)]
    rfl
  · intro d
    rw [step, Act.bind_ok (container_ok hc)]
    rfl

/-! ### Answers -/

/-- **A text acts as a variable.** What is read is its content; what is written becomes its content as
far as it fits, and changes nothing else. A copy is a text of its own with the same content, unless no
slot is free. -/
structure ActsAsText (s : Store) (r : Nat) (v : TextVar) (p : TextPool) : Prop where
  owned : p.isOwned v.handle = true
  text : p.text v.handle = .ok v.content
  handle : step (.text r .handle) s = ⟨.ok (.handle v.handle), s, []⟩
  content : step (.text r .content) s = ⟨.ok (.text v.content), s, []⟩
  measure : step (.text r .measure) s = ⟨.ok (.measure (Text.bytes v.content).length
    ((Text.bytes v.content).length == 0) p.maxLen), s, []⟩
  assign : ∀ t, ∃ s', step (.text r (.assign t)) s = ⟨.ok .done, s', []⟩ ∧
    Becomes r v (Text.clip t p.maxLen) s s'
  append : ∀ t, ∃ s', step (.text r (.append t)) s = ⟨.ok .done, s', []⟩ ∧
    Becomes r v (v.content ++ Text.clip t (p.maxLen - (Text.bytes v.content).length)) s s'
  assignFrom : ∀ o w, s.IsText o w → ∃ s',
    step (.text r (.assignFrom o)) s = ⟨.ok .done, s', []⟩ ∧
      Becomes r v (Text.clip w.content p.maxLen) s s'
  clone : (∃ h s' log, step (.text r .clone) s = ⟨.ok (.container s.containers.size), s', log⟩ ∧
      h ≠ v.handle ∧ Makes ⟨v.pool, h, v.content⟩ s s') ∨
    ¬p.HasRoom ∧ ∃ log, step (.text r .clone) s =
      ⟨.error (.refused (.full TextPool.kind p.capacity)), s, log⟩

section Pool

variable (hg : s.pools[pool]? = some g) (hfree : g.hold = .free) (hp : g.value.Tidy)

include hg hfree hp

/-- **A text that is made becomes a container**, or no slot is free. -/
theorem makes_of_make {y : TextHandle → TextPool.GuardedAct Unit}
    (hy : ∀ h p, g.value.catalog.find h = none → Puts h ⟨"", true⟩ g.value p →
      ∃ p', y h { g with value := p } = ⟨.ok (), { g with value := p' }, []⟩ ∧
        Puts h ⟨t, true⟩ p p') :
    (∃ h s' log, (onText pool (make y) >>= fun h =>
        Reply.container <$> addContainer (.text h pool)) s =
        ⟨.ok (.container s.containers.size), s', log⟩ ∧ Makes ⟨pool, h, t⟩ s s') ∨
    ¬g.value.HasRoom ∧ ∃ log, (onText pool (make y) >>= fun h =>
        Reply.container <$> addContainer (.text h pool)) s =
        ⟨.error (.refused (.full TextPool.kind g.value.capacity)), s, log⟩ := by
  obtain ⟨h, p, log, hmake, hnone, hputs⟩ | ⟨hfull, hmake⟩ := OwnedText.make_eq hfree hp hy
  · rw [Act.bind_ok (onText_ok hg hmake)]
    refine .inl ⟨h, _, _, rfl, makes_of_putsAt ?_ ?_ rfl⟩
    · rw [entryAt_of_get hg]
      exact hnone
    · exact putsAt_of_puts hg hputs rfl rfl
  · have hroom : ¬g.value.HasRoom := by
      rw [TextPool.hasRoom_iff, hfull]
      exact fun h => h rfl
    have hon : onText pool (make y) s = _ := onPool_some hg _
    rw [Act.mapError_apply, hmake] at hon
    simp only [set_back hg] at hon
    rw [Act.bind_error hon]
    exact .inr ⟨hroom, _, rfl⟩

/-- **A new text is empty**, or has the content that it is made with. -/
theorem newText_makes (content : Option String) :
    (∃ h s' log, step (.newText pool content) s =
        ⟨.ok (.container s.containers.size), s', log⟩ ∧
      Makes ⟨pool, h, content.elim "" (Text.clip · g.value.maxLen)⟩ s s') ∨
    ¬g.value.HasRoom ∧ ∃ log, step (.newText pool content) s =
      ⟨.error (.refused (.full TextPool.kind g.value.capacity)), s, log⟩ := by
  cases content with
  | none =>
    rw [step_newText]
    exact makes_of_make hg hfree hp fun h p _ hputs => ⟨p, rfl, hputs.again⟩
  | some t =>
    rw [step_newText_with]
    refine makes_of_make hg hfree hp fun h p _ hputs => ?_
    obtain ⟨p', hassign, hputs'⟩ :=
      OwnedText.assign_eq (g := { g with value := p }) hfree hputs.tidy hputs.find_self t
    dsimp only at hassign hputs'
    rw [hputs.maxLen_eq] at hputs'
    exact ⟨p', hassign, hputs'⟩

end Pool

section Text

variable (hg : s.pools[v.pool]? = some g) (hfree : g.hold = .free) (hp : g.value.Tidy)
  (he : g.value.catalog.find v.handle = some ⟨v.content, true⟩) (hv : s.IsText r v)

include hg hfree hp he hv

/-- A copy is made in the pool of the text. -/
theorem clone_makes : (∃ h s' log, step (.text r .clone) s =
      ⟨.ok (.container s.containers.size), s', log⟩ ∧ h ≠ v.handle ∧
        Makes ⟨v.pool, h, v.content⟩ s s') ∨
    ¬g.value.HasRoom ∧ ∃ log, step (.text r .clone) s =
      ⟨.error (.refused (.full TextPool.kind g.value.capacity)), s, log⟩ := by
  rw [step_text hv.container, textStep_clone]
  obtain ⟨h, s', log, hmake, hmakes⟩ | hfull := makes_of_make hg hfree hp
    (y := (OwnedText.copy · v.handle)) (t := v.content) fun h p hnone hputs => by
      have hne : v.handle ≠ h := by
        rintro rfl
        rw [hnone] at he
        cases he
      have hsource := (hputs.find_of_ne hne).trans he
      obtain ⟨p', hcopy, hputs'⟩ :=
        OwnedText.copy_eq (g := { g with value := p }) hfree hputs.tidy hputs.find_self hsource
      exact ⟨p', hcopy, hputs'⟩
  · refine .inl ⟨h, s', log, hmake, ?_, hmakes⟩
    rintro rfl
    have hentry := hmakes.fresh
    rw [hv.entry] at hentry
    cases hentry
  · exact .inr hfull

variable (hb : ∀ k, ∃ L, s.Books k (s.ownedOn k) L)

include hb

omit hfree hp he in
/-- An edit of the text. -/
theorem becomes_of_puts {x : TextPool.GuardedAct Unit} (hx : ∃ p,
      x g = ⟨.ok (), { g with value := p }, []⟩ ∧ Puts v.handle ⟨t, true⟩ g.value p) :
    ∃ s', onText v.pool x s = ⟨.ok (), s', []⟩ ∧ Becomes r v t s s' := by
  obtain ⟨p, hedit, hputs⟩ := hx
  exact ⟨_, onText_ok hg hedit, becomes_of_putsAt hb hv (putsAt_of_puts hg hputs rfl rfl) rfl⟩

theorem assign_becomes (t : String) : ∃ s', step (.text r (.assign t)) s = ⟨.ok .done, s', []⟩ ∧
    Becomes r v (Text.clip t g.value.maxLen) s s' := by
  obtain ⟨s', hon, hs'⟩ :=
    becomes_of_puts hg hv hb (OwnedText.assign_eq hfree hp he t)
  refine ⟨s', ?_, hs'⟩
  rw [step_text hv.container, textStep, Act.map_apply, hon]
  rfl

theorem append_becomes (t : String) : ∃ s', step (.text r (.append t)) s = ⟨.ok .done, s', []⟩ ∧
    Becomes r v (v.content ++ Text.clip t (g.value.maxLen - (Text.bytes v.content).length)) s s' := by
  obtain ⟨s', hon, hs'⟩ :=
    becomes_of_puts hg hv hb (OwnedText.append_eq hfree hp he t)
  refine ⟨s', ?_, hs'⟩
  rw [step_text hv.container, textStep, Act.map_apply, hon]
  rfl

/-- The content of another text is copied, from the same pool or from another one. -/
theorem assignFrom_becomes {o : Nat} (hw : s.IsText o w) (hg' : s.pools[w.pool]? = some g')
    (hfree' : g'.hold = .free) (hp' : g'.value.Tidy)
    (he' : g'.value.catalog.find w.handle = some ⟨w.content, true⟩) :
    ∃ s', step (.text r (.assignFrom o)) s = ⟨.ok .done, s', []⟩ ∧
      Becomes r v (Text.clip w.content g.value.maxLen) s s' := by
  have hstep : step (.text r (.assignFrom o)) s =
      (assignFrom v.handle v.pool w.handle w.pool >>= fun _ => pure Reply.done) s := by
    rw [step_text hv.container, textStep, Act.bind_ok (textAt_ok hw.container)]
    rfl
  suffices h : ∃ s', assignFrom v.handle v.pool w.handle w.pool s = ⟨.ok (), s', []⟩ ∧
      Becomes r v (Text.clip w.content g.value.maxLen) s s' by
    obtain ⟨s', hassign, hs'⟩ := h
    exact ⟨s', hstep.trans (Act.bind_ok hassign), hs'⟩
  unfold assignFrom
  by_cases hsame : v.pool = w.pool
  · rw [if_pos hsame]
    rw [← hsame] at hg'
    obtain rfl := Option.some.inj (hg.symm.trans hg')
    -- what fits into one slot of the pool fits into all of them
    rw [Text.clip_eq_self (TextPool.noNul_text hp he') (TextPool.length_text_le hp he')]
    exact becomes_of_puts hg hv hb (OwnedText.copy_eq hfree hp he he')
  · rw [if_neg hsame]
    have hadmits : g'.hold.admits .shared = true := by
      rw [hfree']
      rfl
    have hread := onText_same hg' (OwnedText.content_eq hadmits hp' he')
    obtain ⟨s', hon, hs'⟩ :=
      becomes_of_puts hg hv hb (OwnedText.assign_eq hfree hp he w.content)
    exact ⟨s', (Act.bind_ok hread).trans (by rw [hon]; rfl), hs'⟩

end Text

/-- The pool of a text, with the entry of the text. -/
theorem IsText.exists_pool (hv : s.IsText r v) : ∃ g, s.pools[v.pool]? = some g ∧
    g.value.catalog.find v.handle = some ⟨v.content, true⟩ := by
  cases hg : s.pools[v.pool]? with
  | none =>
    have hentry := hv.entry
    rw [entryAt, poolAt, hg] at hentry
    cases hentry
  | some g => exact ⟨g, rfl, (entryAt_of_get hg).symm.trans hv.entry⟩

/-- While nothing is held, the pool of a text is ready to be read and written. -/
theorem IsText.ready (hv : s.IsText r v) (hrest : s.AtRest)
    (hb : ∀ k, ∃ L, s.Books k (s.ownedOn k) L) : ∃ g, s.pools[v.pool]? = some g ∧ g.hold = .free ∧
      g.value.Tidy ∧ g.value.catalog.find v.handle = some ⟨v.content, true⟩ := by
  obtain ⟨g, hg, he⟩ := hv.exists_pool
  obtain ⟨L, hbooks⟩ := hb v.pool
  exact ⟨g, hg, hrest.poolFreeAt v.pool g hg, ((books_iff (poolAt_of_get hg)).1 hbooks).tidy, he⟩

/-- **Texts are variables**, one command at a time. -/
theorem actsAsText (hv : s.IsText r v) (hrest : s.AtRest)
    (hb : ∀ k, ∃ L, s.Books k (s.ownedOn k) L) (hp : s.poolAt v.pool = some p) :
    s.ActsAsText r v p := by
  obtain ⟨g, hg, hfree, htidy, he⟩ := hv.ready hrest hb
  obtain rfl := Option.some.inj ((poolAt_of_get hg).symm.trans hp)
  have hadmits : g.hold.admits .shared = true := by
    rw [hfree]
    rfl
  exact
    { owned := TextPool.Ledger.isOwned_iff_find.2 ⟨_, he⟩
      text := by rw [htidy.text_eq, he]
      handle := step_text hv.container .handle
      content := by
        rw [step_text hv.container, textStep, Act.map_apply,
          onText_same hg (OwnedText.content_eq hadmits htidy he)]
        rfl
      measure := by
        rw [step_text hv.container, textStep,
          Act.bind_ok (onText_same hg (OwnedText.length_eq hadmits htidy he)),
          Act.bind_ok (onText_same hg (OwnedText.isEmpty_eq hadmits htidy he)),
          Act.bind_ok (onText_same hg (OwnedText.maxLength_eq hadmits))]
        rfl
      assign := assign_becomes hg hfree htidy he hv hb
      append := append_becomes hg hfree htidy he hv hb
      assignFrom := fun o w hw => by
        obtain ⟨g', hg', hfree', htidy', he'⟩ := hw.ready hrest hb
        exact assignFrom_becomes hg hfree htidy he hv hb hw hg' hfree' htidy' he'
      clone := clone_makes hg hfree htidy he hv }

end Store

end FixedArena
