import FixedArena.Proofs.Store.TextVars

/-!
Owned texts are private variables over whole runs. At every moment of a run that rests, a text has one
content, which was empty in the beginning and changes by writes to the text alone, or to its slot. A
text that is made, be it as a copy, has a slot that no other text has.

Main facts:
* `Run.isText_cons`, `Run.isText_append`: what a text keeps, whoever works beside it;
* `Run.text_private`: texts over whole runs.
-/

namespace FixedArena

namespace Run

variable {past l : Run} {c : Command} {r : Nat} {v : TextVar}

section Step

variable (hio : InOrder past) (hc : Ordinary (c :: past))

include hio hc

/-- A text is there until it is dropped. -/
theorem text_kept {h : TextHandle} {pool : Nat}
    (hcont : (store past).containerAt r = some (.text h pool)) (hd : c ≠ .drop r) :
    (store (c :: past)).containerAt r = some (.text h pool) := by
  have hother : r ≠ (store past).subject c →
      (store (c :: past)).containerAt r = some (.text h pool) :=
    fun hr => (container_other hio hc hr).trans hcont
  have hrefused : (Store.step c (store past)).state = store past →
      (store (c :: past)).containerAt r = some (.text h pool) := by
    intro hsame
    rw [store, hsame, hcont]
  have hne := Nat.ne_of_lt (Store.lt_size_of_containerAt hcont)
  cases c with
  | ring r' d =>
    by_cases hr : r = r'
    · subst hr
      exact hrefused ((Store.refused_of_text hcont).1 d)
    · exact hother hr
  | textRing r' d =>
    by_cases hr : r = r'
    · subst hr
      exact hrefused ((Store.refused_of_text hcont).2 d)
    · exact hother hr
  | drop r' => exact hother fun hr => hd (by rw [hr]; rfl)
  | _ => exact hother hne

variable (hp : c.KeepsPools) (hrest : (store past).AtRest)
  (hb : ∀ k, (store past).Books k ((store past).ownedOn k) (lent k past))
  (hv : (store past).IsText r v) (hd : c ≠ .drop r)

include hp hrest hb hv hd

/-- **What one step leaves of a text**: its slot, and its content too unless the step writes to it. -/
theorem isText_cons : ∃ t, (store (c :: past)).IsText r { v with content := t } ∧
    (¬c.Edits r v → t = v.content) := by
  have hfree := hrest.givesFreely c
  have hcont := text_kept hio hc hv.container hd
  obtain ⟨t, ht⟩ := Store.isText_of_books hcont (books_cons hio hc hp hfree (hb v.pool))
  refine ⟨t, ht, fun hu => ?_⟩
  suffices hsame : (store (c :: past)).entryAt v.pool v.handle = some ⟨v.content, true⟩ by
    have hentry := ht.entry.symm.trans hsame
    exact congrArg TextPool.Entry.text (Option.some.inj hentry)
  by_cases hw : v.handle ∈ (store past).writtenAt v.pool c
  · -- nobody else writes to the slot of a text; a copy is made without a write to it
    obtain hdirect | ⟨r', d, rfl, hr'⟩ := Store.writtenAt_cases hw
    · exact absurd (.inr hdirect) hu
    obtain ⟨g, hg, -⟩ := hv.exists_pool
    have hk := Store.poolAt_of_get hg
    have hnd := ((Store.books_iff hk).1 (hb v.pool)).nodup_owned
    obtain rfl := Store.eq_of_heldOn hnd hv.mem_heldOn hr'
    have hacts := Store.actsAsText hv hrest (fun k => ⟨_, hb k⟩) hk
    by_cases hclone : d = .clone
    · subst hclone
      obtain ⟨h, s', log, hstep, -, hmakes⟩ | ⟨-, log, hstep⟩ := hacts.clone
      · rw [store, hstep]
        exact (hmakes.others r v hv).entry
      · rw [store, hstep]
        exact hv.entry
    · have hread : (Command.text r d).edited? = none := by
        cases d with
        | assign | append | assignFrom | assignReading => exact absurd (.inl rfl) hu
        | _ => rfl
      rw [store, ← Store.still_text hread hclone (store past)]
      exact hv.entry
  · have hmem := Store.mem_ownedOn hv.mem_heldOn
    have hmem' := Store.mem_ownedOn ht.mem_heldOn
    exact (entry_kept hio hc hp hfree (hb v.pool) hmem hmem' hw).trans hv.entry

end Step

/-- **What a run leaves of a text**: its slot until it is dropped, and its content until it is written
to. -/
theorem isText_append (h : Ordinary (l ++ past)) (hy : Young (l ++ past))
    (hp : ∀ c ∈ l ++ past, c.KeepsPools) (hrest : AtRest (l ++ past))
    (hv : (store past).IsText r v) (hd : ∀ c ∈ l, c ≠ .drop r) :
    ∃ t, (store (l ++ past)).IsText r { v with content := t } ∧
      ((∀ c ∈ l, ¬c.Edits r v) → t = v.content) := by
  induction l with
  | nil => exact ⟨v.content, hv, fun _ => rfl⟩
  | cons c l ih =>
    have hp' : ∀ c ∈ l ++ past, c.KeepsPools := fun c' hc' => hp c' (List.mem_cons_of_mem c hc')
    obtain ⟨t, ht, hkept⟩ :=
      ih h.1 hy.tail hp' hrest.1 fun c' hc' => hd c' (List.mem_cons_of_mem c hc')
    obtain ⟨t', ht', hkept'⟩ := isText_cons (inOrder h.1 hy.tail) h (hp c List.mem_cons_self)
      hrest.1.store (books h.1 hy.tail hp' hrest.1.givesFreely) ht (hd c List.mem_cons_self)
    refine ⟨t', ht', fun hu => (hkept' (hu c List.mem_cons_self)).trans (hkept fun c' hc' => ?_)⟩
    exact hu c' (List.mem_cons_of_mem c hc')

/-- **A text is a private variable.** Take any run in which callers change blocks only through handles
that they were issued, no arenas or pools change places, no two arenas share an identity, no block is
freed so often that its generation comes round again, and nothing is held at any moment. At every moment
a text has one slot and one content and acts as the variable; it is made empty, or with a content that is
given, in a slot that was free. Until it is dropped it keeps its slot, and its content too until a
command writes to the text or directly to its slot. No command writes to two texts. -/
theorem text_private {past l : Run} (h : Honest (l ++ past)) (hy : Young (l ++ past))
    (hapart : (store (l ++ past)).ArenasApart) (hp : ∀ c ∈ l ++ past, c.KeepsPools)
    (hrest : AtRest (l ++ past)) :
    (∀ r v, (store past).IsText r v ↔ (store past).textVarAt r = some v) ∧
    (∀ r v, (store past).IsText r v → ∃ p, (store past).poolAt v.pool = some p ∧
      (store past).ActsAsText r v p) ∧
    (∀ pool p content, (store past).poolAt pool = some p →
      (∃ h s' log, Store.step (.newText pool content) (store past) =
          ⟨.ok (.container (store past).containers.size), s', log⟩ ∧
        Store.Makes ⟨pool, h, content.elim "" (Text.clip · p.maxLen)⟩ (store past) s') ∨
      ¬p.HasRoom ∧ ∃ log, Store.step (.newText pool content) (store past) =
        ⟨.error (.refused (.full TextPool.kind p.capacity)), store past, log⟩) ∧
    (∀ r v, (store past).IsText r v → (∀ c ∈ l, c ≠ .drop r) →
      ∃ t, (store (l ++ past)).IsText r { v with content := t } ∧
        ((∀ c ∈ l, ¬c.Edits r v) → t = v.content)) ∧
    ∀ r r' v w, (store past).IsText r v → (store past).IsText r' w → r' ≠ r →
      ∀ c : Command, c.Edits r v → ¬c.Edits r' w := by
  have hord := h.ordinary hy hapart
  have hpast : Ordinary past := of_append (fun _ _ ho => ho.1) hord
  have hrest' : AtRest past := of_append (fun _ _ ha => ha.1) hrest
  have hyoung : Young past := of_append (fun _ _ => Young.tail) hy
  have hp' : ∀ c ∈ past, c.KeepsPools := fun c hc => hp c (List.mem_append_right l hc)
  have hbooks := books hpast hyoung hp' hrest'.givesFreely
  have hb : ∀ k, ∃ L, (store past).Books k ((store past).ownedOn k) L := fun k => ⟨_, hbooks k⟩
  refine ⟨fun r v => Store.isText_iff hb, fun r v hv => ?_, fun pool p content hk => ?_,
    fun r v hv hd => isText_append hord hy hp hrest hv hd, fun r r' v w hv hw hne c hc hc' => ?_⟩
  · obtain ⟨g, hg, -⟩ := hv.exists_pool
    have hk := Store.poolAt_of_get hg
    exact ⟨_, hk, Store.actsAsText hv hrest'.store hb hk⟩
  · obtain ⟨g, hg, rfl⟩ := Option.map_eq_some_iff.1 hk
    exact Store.newText_makes hg (hrest'.store.poolFreeAt pool g hg)
      ((Store.books_iff hk).1 (hbooks pool)).tidy content
  · exact hv.not_edits hb hw hne hc hc'

/-- A text and a copy of it, in the larger one of two pools. -/
def copying : Run :=
  [.text 0 .clone, .newText 0 (some "abc"), .reservePool 2 2, .reservePool 4 8]

/-- The copy is written to, through itself and directly, and copied to the smaller pool. -/
def parting : Run :=
  [.text 2 (.assignFrom 1), .newText 1 none, .text 1 (.append "é"), .pool 0 (.assign ⟨1, 1⟩ "y")]

theorem keeps_copying : ∀ c ∈ parting ++ copying,
    c.KeepsPools ∧ c.KeepsArenas ∧ c.changed? = none := by
  intro c hc
  simp only [parting, copying, List.cons_append, List.nil_append, List.mem_cons, List.not_mem_nil,
    or_false] at hc
  rcases hc with rfl | rfl | rfl | rfl | rfl | rfl | rfl | rfl
  all_goals exact ⟨nofun, nofun, rfl⟩

/-- The text keeps its content, whatever is made of its copy. -/
theorem text_private_parting : Honest (parting ++ copying) ∧ Young (parting ++ copying) ∧
    (store (parting ++ copying)).ArenasApart ∧ (∀ c ∈ parting ++ copying, c.KeepsPools) ∧
    AtRest (parting ++ copying) ∧ (store copying).IsText 0 ⟨0, ⟨1, 0⟩, "abc"⟩ ∧
    (store copying).IsText 1 ⟨0, ⟨1, 1⟩, "abc"⟩ ∧
    (store (parting ++ copying)).IsText 0 ⟨0, ⟨1, 0⟩, "abc"⟩ ∧
    (store (parting ++ copying)).textVarAt 1 = some ⟨0, ⟨1, 1⟩, "yé"⟩ ∧
    (store (parting ++ copying)).textVarAt 2 = some ⟨1, ⟨2, 0⟩, "y"⟩ := by
  have hhonest : Honest (parting ++ copying) :=
    Honest.append (l := parting ++ copying) (show Honest [] from trivial) fun c hc =>
      (keeps_copying c hc).2
  have hyoung : Young (parting ++ copying) := young_of_length (by decide)
  have hapart : (store (parting ++ copying)).ArenasApart :=
    Store.arenasApart_of_nodup (by decide +kernel)
  have hpools : ∀ c ∈ parting ++ copying, c.KeepsPools := fun c hc => (keeps_copying c hc).1
  have hrest : AtRest (parting ++ copying) := by decide +kernel
  have hfirst : (store copying).textVarAt 0 = some ⟨0, ⟨1, 0⟩, "abc"⟩ := by decide +kernel
  have hcopy : (store copying).textVarAt 1 = some ⟨0, ⟨1, 1⟩, "abc"⟩ := by decide +kernel
  have hcopy' : (store (parting ++ copying)).textVarAt 1 = some ⟨0, ⟨1, 1⟩, "yé"⟩ := by
    decide +kernel
  have hcut : (store (parting ++ copying)).textVarAt 2 = some ⟨1, ⟨2, 0⟩, "y"⟩ := by
    decide +kernel
  obtain ⟨hiff, -, -, hkept, -⟩ := text_private hhonest hyoung hapart hpools hrest
  have htext := (hiff 0 _).2 hfirst
  have hthere : ∀ c ∈ parting, c ≠ .drop 0 := by
    intro c hc
    simp only [parting, List.mem_cons, List.not_mem_nil, or_false] at hc
    rcases hc with rfl | rfl | rfl | rfl
    all_goals exact nofun
  have hunwritten : ∀ c ∈ parting, ¬c.Edits 0 ⟨0, ⟨1, 0⟩, "abc"⟩ := by decide +kernel
  obtain ⟨t, ht, hsame⟩ := hkept 0 _ htext hthere
  rw [hsame hunwritten] at ht
  exact ⟨hhonest, hyoung, hapart, hpools, hrest, htext, (hiff 1 _).2 hcopy, ht, hcopy', hcut⟩

end Run

end FixedArena
