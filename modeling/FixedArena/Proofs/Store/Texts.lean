import FixedArena.Proofs.Store.Holdings
import FixedArena.Proofs.Store.Lists
import FixedArena.Proofs.Store.TextLists

/-!
Text rings refine lists of owned texts over whole runs. At every moment of a run that rests, every
text ring of the store is a list of entries and answers as it does. What others do keeps the entries;
a direct command that writes to the slot of an entry changes its text, and nothing else.

Main facts:
* `Store.shows`: every text ring of a run is a list of entries;
* `Run.shows_cons`, `Run.shows_append`: what a list keeps while others work;
* `Run.texts_refined`: text rings over whole runs.
-/

namespace FixedArena

namespace Command

/-- The slot that a direct command writes a text to. -/
def written? : Command → Option (Nat × TextHandle)
  | .pool k (.assign h _) | .pool k (.append h _) | .pool k (.copy h _) => some (k, h)
  | _ => none

/-- The command is about the text ring with a number. -/
def UsesTexts (r : Nat) : Command → Prop
  | .textRing r' _ | .drop r' => r' = r
  | _ => False

instance (r : Nat) : ∀ c : Command, Decidable (c.UsesTexts r)
  | .textRing r' _ | .drop r' => inferInstanceAs (Decidable (r' = r))
  | .reserveArena .. | .reservePool .. | .reserve .. | .newRing .. | .newTextRing .. | .newText ..
  | .hold .. | .release .. | .swapArenas .. | .swapPools .. | .arena .. | .pool .. | .ring ..
  | .text .. | .usageBoth .. | .logUsageBoth .. | .describeBoth .. => .isFalse nofun

end Command

namespace Store

variable {s : Store} {k r r' n pool : Nat} {h : TextHandle} {q q' : TextList} {c : Command}
  {tr : TextRing} {L : List TextHandle}

/-- What a command may write to is named by a direct command, or belongs to one text. -/
theorem writtenAt_cases (hw : h ∈ s.writtenAt k c) :
    c.written? = some (k, h) ∨ ∃ r d, c = .text r d ∧ h ∈ s.heldOn k r := by
  have hdirect : ∀ {n : Nat} {g : TextHandle}, h ∈ (if n = k then [g] else []) → n = k ∧ g = h := by
    intro n g hg
    split at hg
    · next hn => exact ⟨hn, (List.mem_singleton.1 hg).symm⟩
    · cases hg
  cases c with
  | pool n d =>
    left
    cases d with
    | assign g t | append g t | copy g t =>
      obtain ⟨rfl, rfl⟩ := hdirect hw
      rfl
    | _ => cases hw
  | text r d => exact .inr ⟨r, d, rfl, hw⟩
  | _ => cases hw

theorem lt_size_of_heldOn (hh : h ∈ s.heldOn k r) : r < s.containers.size := by
  by_contra hle
  rw [heldOn_of_size_le (Nat.le_of_not_lt hle)] at hh
  cases hh

theorem mem_ownedOn (hh : h ∈ s.heldOn k r) : h ∈ s.ownedOn k :=
  List.mem_flatMap.2 ⟨r, List.mem_range.2 (lt_size_of_heldOn hh), hh⟩

/-- No handle is held by two containers. -/
theorem eq_of_heldOn (hnd : (s.ownedOn k).Nodup) (hr : h ∈ s.heldOn k r)
    (hr' : h ∈ s.heldOn k r') : r = r' := by
  by_contra hne
  have hsplit := perm_ownedOn (k := k) (Nat.le_refl _) (lt_size_of_heldOn hr)
  have hdisjoint := (List.nodup_append'.1 (hsplit.nodup_iff.1 hnd)).2.2
  refine hdisjoint hr (List.mem_flatMap.2 ⟨r', ?_, hr'⟩)
  exact List.nodup_range.mem_erase_iff.2
    ⟨Ne.symm hne, List.mem_range.2 (lt_size_of_heldOn hr')⟩

/-! ### The entries of a container -/

/-- The handles of a container, each with the text that a pool has for it. -/
def entries (s : Store) (k r : Nat) : List (TextHandle × String) :=
  (s.heldAt r).map fun h => (h, ((s.entryAt k h).map TextPool.Entry.text).getD "")

theorem ShowsTexts.entries_eq (hq : s.ShowsTexts r q) : q.entries = s.entries q.pool r := by
  rw [entries, hq.heldAt, List.map_map]
  conv_lhs => rw [← List.map_id q.entries]
  refine List.map_congr_left fun e he => ?_
  simp only [Function.comp_apply, hq.entryAt he]
  rfl

/-- The list of a container, if it is a text ring. -/
def textListAt (s : Store) (r : Nat) : Option TextList :=
  match s.containerAt r with
  | some (.textRing _ n pool) => some ⟨n, pool, s.entries pool r⟩
  | _ => none

theorem ShowsTexts.textListAt_eq (hq : s.ShowsTexts r q) : s.textListAt r = some q := by
  have hes := hq.entries_eq
  obtain ⟨n, pool, es⟩ := q
  obtain ⟨tr, -, -, -, hc, -⟩ := hq
  rw [textListAt, hc]
  exact congrArg (fun es => some (TextList.mk n pool es)) hes.symm

theorem textListAt_cases (h : s.textListAt r = some q) :
    ∃ tr, s.containerAt r = some (.textRing tr q.nodes q.pool) ∧ q.entries = s.entries q.pool r := by
  unfold textListAt at h
  split at h
  · next tr n pool hc =>
    obtain rfl := Option.some.inj h
    exact ⟨tr, hc, rfl⟩
  · cases h

/-- **Every text ring is a list of entries.** -/
theorem shows (hc : s.containerAt r = some (.textRing tr n pool)) (hs : s.Settled n)
    (hb : s.Books pool (s.ownedOn pool) L) : s.ShowsTexts r ⟨n, pool, s.entries pool r⟩ := by
  obtain ⟨g, p, ns, vs, hg, hp, -, hh⟩ := exists_site hc hs
  have hledger := (books_iff (poolAt_of_get hp)).1 hb
  have hheld := heldAt_of_textRing hc (arenaAt_of_get hg) hh
  have hon := heldOn_of_textRing hc (arenaAt_of_get hg) hh
  have hsplit := perm_ownedOn (k := pool) (Nat.le_refl _) (lt_size_of_containerAt hc)
  rw [hon] at hsplit
  have hfst : (s.entries pool r).map Prod.fst = vs := by
    rw [entries, hheld, List.map_map]
    exact List.map_id vs
  have hnd : vs.Nodup := (List.nodup_append'.1 (hsplit.nodup_iff.1 hledger.nodup_owned)).1
  refine ⟨tr, g, p, ns, hc, hg, hp, ⟨hfst.symm ▸ hh, hledger.tidy, hfst.symm ▸ hnd, fun e he => ?_⟩⟩
  rw [entries, hheld] at he
  obtain ⟨h, hh, rfl⟩ := List.mem_map.1 he
  obtain ⟨t, hf⟩ := (hledger.mem_owned_iff h).1 (hsplit.mem_iff.2 (List.mem_append_left _ hh))
  dsimp only
  rw [entryAt, poolAt_of_get hp, Option.bind_some, hf]
  rfl

/-- A command to a ring, or to a text, does nothing to a text ring. -/
theorem refused_of_textRing (hc : s.containerAt r = some (.textRing tr n pool)) :
    (∀ d, (step (.ring r d) s).state = s) ∧ ∀ d, (step (.text r d) s).state = s := by
  constructor
  · intro d
    rw [step, Act.bind_ok (container_ok hc)]
    rfl
  · intro d
    have hat : textAt r s = ⟨.error .unknown, s, []⟩ := Act.bind_ok (container_ok hc)
    rw [step, Act.bind_error hat]

end Store

namespace Run

variable {past l : Run} {c : Command} {r k : Nat} {q : TextList} {h : TextHandle}

/-- No arena and no pool is held at any moment. -/
def AtRest : Run → Prop
  | [] => True
  | c :: past => AtRest past ∧ (store (c :: past)).AtRest

instance decidableAtRest : ∀ run, Decidable (AtRest run)
  | [] => .isTrue trivial
  | c :: past =>
    have := decidableAtRest past
    inferInstanceAs (Decidable (AtRest past ∧ (store (c :: past)).AtRest))

theorem AtRest.store {run : Run} (h : AtRest run) : (store run).AtRest := by
  cases run with
  | nil => exact ⟨nofun, nofun⟩
  | cons c past => exact h.2

theorem AtRest.givesFreely {run : Run} (h : AtRest run) : GivesFreely run := by
  induction run with
  | nil => trivial
  | cons c past ih => exact ⟨ih h.1, h.1.store.givesFreely c⟩

/-- What holds of a run held before its last commands, if it held before each of them. -/
theorem of_append {P : Run → Prop} (hP : ∀ c past, P (c :: past) → P past) (h : P (l ++ past)) :
    P past := by
  induction l with
  | nil => exact h
  | cons c l ih => exact ih (hP c _ h)

/-! ### What others do -/

section Step

variable (hio : InOrder past) (hc : Ordinary (c :: past)) (hy : Young (c :: past))
  (hp : c.KeepsPools) (hfree : (store past).GivesFreely c)
  (hb : ∀ k, (store past).Books k ((store past).ownedOn k) (lent k past))
  (hq : (store past).ShowsTexts r q) (hu : ¬c.UsesTexts r)

include hq

/-- A command of others writes to a handle of a text ring only if it is direct, and names it. -/
theorem written_of_others (hnd : ((store past).ownedOn q.pool).Nodup)
    (hh : h ∈ (store past).heldOn q.pool r) (hw : h ∈ (store past).writtenAt q.pool c) :
    store (c :: past) = store past ∨ c.written? = some (q.pool, h) := by
  obtain hdirect | ⟨r', d, rfl, hr'⟩ := Store.writtenAt_cases hw
  · exact .inr hdirect
  · obtain rfl := Store.eq_of_heldOn hnd hh hr'
    obtain ⟨tr, -, -, -, hcont, -⟩ := hq
    exact .inl ((Store.refused_of_textRing hcont).2 d)

include hu

/-- A command of others is about another container, or does nothing. -/
theorem subject_ne_of_others : store (c :: past) = store past ∨ r ≠ (store past).subject c := by
  obtain ⟨tr, -, -, -, hcont, -⟩ := hq
  have hne : r ≠ (store past).containers.size := Nat.ne_of_lt (Store.lt_size_of_containerAt hcont)
  cases c with
  | ring r' d =>
    by_cases hr : r = r'
    · subst hr
      exact .inl ((Store.refused_of_textRing hcont).1 d)
    · exact .inr hr
  | textRing r' d => exact .inr (Ne.symm hu)
  | drop r' => exact .inr (Ne.symm hu)
  | _ => exact .inr hne

include hio hc hy hp hfree hb

/-- **What others do in one step** keeps the handles of a text ring, and their texts too unless a
direct command writes to them. -/
theorem shows_cons : ∃ es, (store (c :: past)).ShowsTexts r { q with entries := es } ∧
    es.map Prod.fst = q.entries.map Prod.fst ∧ ∀ (i : Nat) (e : TextHandle × String),
      q.entries[i]? = some e → c.written? ≠ some (q.pool, e.1) → es[i]? = some e := by
  by_cases hsame : store (c :: past) = store past
  · rw [hsame]
    exact ⟨q.entries, hq, rfl, fun i e he _ => he⟩
  have hr := (subject_ne_of_others hq hu).resolve_left hsame
  obtain ⟨tr, g, p, ns, hcont, hg, hpool, hs⟩ := id hq
  have hheld := heldAt_other hio hc hr
  have hshows := Store.shows ((container_other hio hc hr).trans hcont)
    ((inOrder_cons hio hc hy.recent).settled q.nodes) (books_cons hio hc hp hfree (hb q.pool))
  have hhandles : ((store (c :: past)).entries q.pool r).map Prod.fst = q.entries.map Prod.fst := by
    rw [← hq.heldAt, ← hheld]
    exact hshows.heldAt.symm
  refine ⟨_, hshows, hhandles, fun i e he hw => ?_⟩
  have hmem : e.1 ∈ q.entries.map Prod.fst := List.mem_map_of_mem (List.mem_of_getElem? he)
  have hon : e.1 ∈ (store past).heldOn q.pool r := hq.heldOn ▸ hmem
  have hon' : e.1 ∈ (store (c :: past)).heldOn q.pool r := by
    rw [hshows.heldOn, hhandles]
    exact hmem
  have hnd := ((Store.books_iff (Store.poolAt_of_get hpool)).1 (hb q.pool)).nodup_owned
  have hkept := entry_kept hio hc hp hfree (hb q.pool) (Store.mem_ownedOn hon)
    (Store.mem_ownedOn hon') fun hwrite =>
      hw ((written_of_others hq hnd hon hwrite).resolve_left hsame)
  have hat : ((store past).heldAt r)[i]? = some e.1 := by
    rw [hq.heldAt, List.getElem?_map, he]
    rfl
  rw [Store.entries, List.getElem?_map, hheld, hat, Option.map_some, hkept,
    hq.entryAt (List.mem_of_getElem? he)]
  rfl

end Step

/-- **What others do** keeps the handles of a text ring, and their texts too unless direct commands
write to them. -/
theorem shows_append (h : Ordinary (l ++ past)) (hy : Young (l ++ past))
    (hp : ∀ c ∈ l ++ past, c.KeepsPools) (hrest : AtRest (l ++ past))
    (hq : (store past).ShowsTexts r q) (hu : ∀ c ∈ l, ¬c.UsesTexts r) :
    ∃ es, (store (l ++ past)).ShowsTexts r { q with entries := es } ∧
      es.map Prod.fst = q.entries.map Prod.fst ∧ ∀ (i : Nat) (e : TextHandle × String),
        q.entries[i]? = some e → (∀ c ∈ l, c.written? ≠ some (q.pool, e.1)) → es[i]? = some e := by
  induction l with
  | nil => exact ⟨q.entries, hq, rfl, fun i e he _ => he⟩
  | cons c l ih =>
    have hp' : ∀ c ∈ l ++ past, c.KeepsPools := fun c' hc' => hp c' (List.mem_cons_of_mem c hc')
    have hfree := AtRest.givesFreely hrest
    obtain ⟨es, hshows, hhandles, hkept⟩ :=
      ih h.1 hy.tail hp' hrest.1 fun c' hc' => hu c' (List.mem_cons_of_mem c hc')
    obtain ⟨es', hshows', hhandles', hkept'⟩ :=
      shows_cons (inOrder h.1 hy.tail) h hy (hp c List.mem_cons_self) hfree.2
        (books h.1 hy.tail hp' hfree.1) hshows (hu c List.mem_cons_self)
    refine ⟨es', hshows', hhandles'.trans hhandles, fun i e he hw => ?_⟩
    have hes := hkept i e he fun c' hc' => hw c' (List.mem_cons_of_mem c hc')
    exact hkept' i e hes (hw c List.mem_cons_self)

/-- **Every text ring is one list**, that of its handles and of the texts that the pool has for them. -/
theorem showsTexts_iff {run : Run} (h : Ordinary run) (hy : Young run)
    (hp : ∀ c ∈ run, c.KeepsPools) (hrest : AtRest run) :
    (store run).ShowsTexts r q ↔ (store run).textListAt r = some q := by
  refine ⟨Store.ShowsTexts.textListAt_eq, fun hq => ?_⟩
  obtain ⟨tr, hc, hes⟩ := Store.textListAt_cases hq
  have hshows := Store.shows hc ((inOrder h hy).settled q.nodes)
    (books h hy hp hrest.givesFreely q.pool)
  rw [← hes] at hshows
  exact hshows

/-- **Text rings refine lists of owned texts.** Take any run in which callers change blocks only through
handles that they were issued, no arenas or pools change places, no two arenas share an identity, no
block is freed so often that its generation comes round again, and nothing is held at any moment. At
every moment a text ring is one list of entries and answers as the list does; it is made as the empty
list. Whatever others do later keeps the handles of its entries, in their order, and the text of every
entry to whose slot no direct command writes. -/
theorem texts_refined {past l : Run} (h : Honest (l ++ past)) (hy : Young (l ++ past))
    (hapart : (store (l ++ past)).ArenasApart) (hp : ∀ c ∈ l ++ past, c.KeepsPools)
    (hrest : AtRest (l ++ past)) (r : Nat) :
    (∀ q, (store past).ShowsTexts r q ↔ (store past).textListAt r = some q) ∧
    (∀ q, (store past).ShowsTexts r q → ∃ a p, (store past).arenaAt q.nodes = some a ∧
      (store past).poolAt q.pool = some p ∧ (store past).AnswersAs r q a p) ∧
    (∀ n pool, (Store.step (.newTextRing n pool) (store past)).result = .ok (.container r) →
      (Store.step (.newTextRing n pool) (store past)).state.ShowsTexts r ⟨n, pool, []⟩) ∧
    ∀ q, (store past).ShowsTexts r q → (∀ c ∈ l, ¬c.UsesTexts r) →
      ∃ es, (store (l ++ past)).ShowsTexts r { q with entries := es } ∧
        es.map Prod.fst = q.entries.map Prod.fst ∧ ∀ (i : Nat) (e : TextHandle × String),
          q.entries[i]? = some e → (∀ c ∈ l, c.written? ≠ some (q.pool, e.1)) →
            es[i]? = some e := by
  have hord := h.ordinary hy hapart
  have hpast : Ordinary past := of_append (fun _ _ ho => ho.1) hord
  have hrest' : AtRest past := of_append (fun _ _ ha => ha.1) hrest
  have hyoung : Young past := of_append (fun _ _ => Young.tail) hy
  have hp' : ∀ c ∈ past, c.KeepsPools := fun c hc => hp c (List.mem_append_right l hc)
  have hset := (inOrder hpast hyoung).settled
  refine ⟨fun q => showsTexts_iff hpast hyoung hp' hrest', fun q hq => ?_, fun n pool hok => ?_,
    fun q hq hu => shows_append hord hy hp hrest hq hu⟩
  · obtain ⟨tr, g, p, -, -, hg, hpool, -⟩ := id hq
    have ha := Store.arenaAt_of_get hg
    have hk := Store.poolAt_of_get hpool
    exact ⟨_, _, ha, hk, Store.answersAs hq hrest'.store hset ha hk⟩
  · have hbooks := books hpast hyoung hp' hrest'.givesFreely pool
    exact Store.shows_newTextRing hset (fun p hk => ((Store.books_iff hk).1 hbooks).tidy) hok

/-- A text ring with a text of its own and one that was handed to it, beside a text. -/
def texting : Run :=
  [.textRing 0 (.push .front ⟨1, 1⟩), .textRing 0 (.pushText "a"), .pool 0 (.assign ⟨1, 1⟩ "b"),
    .pool 0 .allocate, .newText 0 (some "x"), .newTextRing 0 0, .reservePool 4 8,
    .reserveArena 6 32]

/-- A caller writes to the text that the ring made, and asks for the slot of the other one. The text
beside them is changed and given up, and a ring is made. -/
def others : Run :=
  [.drop 1, .newRing (.unsigned 1) 0, .text 1 (.assign "y"), .pool 0 (.free ⟨1, 1⟩),
    .pool 0 (.assign ⟨1, 2⟩ "c")]

/-- Neither of them changes a block, or the place of a pool. -/
theorem keeps_texting : ∀ c ∈ others ++ texting,
    c.KeepsPools ∧ c.KeepsArenas ∧ c.changed? = none := by
  intro c hc
  simp only [others, texting, List.cons_append, List.nil_append, List.mem_cons, List.not_mem_nil,
    or_false] at hc
  rcases hc with rfl | rfl | rfl | rfl | rfl | rfl | rfl | rfl | rfl | rfl | rfl | rfl | rfl
  all_goals exact ⟨nofun, nofun, rfl⟩

theorem honest_texting : Honest (others ++ texting) :=
  Honest.append (l := others ++ texting) (show Honest [] from trivial) fun c hc =>
    (keeps_texting c hc).2

theorem apart_texting : (store (others ++ texting)).ArenasApart := by
  have hids : ((store (others ++ texting)).arenas.toList.map fun g => g.value.id).Nodup := by
    decide +kernel
  exact Store.arenasApart_of_nodup hids

theorem atRest_texting : AtRest (others ++ texting) := by decide +kernel

theorem not_usesTexts_others : ∀ c ∈ others, ¬c.UsesTexts 0 := by decide +kernel

theorem textListAt_texting : (store texting).textListAt 0 =
    some ⟨0, 0, [(⟨1, 1⟩, "b"), (⟨1, 2⟩, "a")]⟩ := by decide +kernel

theorem textListAt_others : (store (others ++ texting)).textListAt 0 =
    some ⟨0, 0, [(⟨1, 1⟩, "b"), (⟨1, 2⟩, "c")]⟩ := by decide +kernel

/-- The list before, what it answers, and what is left of it. -/
theorem texts_refined_others : Honest (others ++ texting) ∧ Young (others ++ texting) ∧
    (store (others ++ texting)).ArenasApart ∧ (∀ c ∈ others ++ texting, c.KeepsPools) ∧
    AtRest (others ++ texting) ∧ (∀ c ∈ others, ¬c.UsesTexts 0) ∧
    (∃ a p, (store texting).arenaAt 0 = some a ∧ (store texting).poolAt 0 = some p ∧
      (store texting).AnswersAs 0 ⟨0, 0, [(⟨1, 1⟩, "b"), (⟨1, 2⟩, "a")]⟩ a p) ∧
    (∃ es, (store (others ++ texting)).ShowsTexts 0 ⟨0, 0, es⟩ ∧
      es.map Prod.fst = [⟨1, 1⟩, ⟨1, 2⟩] ∧ es[0]? = some (⟨1, 1⟩, "b")) ∧
    (store (others ++ texting)).textListAt 0 =
      some ⟨0, 0, [(⟨1, 1⟩, "b"), (⟨1, 2⟩, "c")]⟩ := by
  have hyoung : Young (others ++ texting) := young_of_length (by decide)
  have hpools : ∀ c ∈ others ++ texting, c.KeepsPools := fun c hc => (keeps_texting c hc).1
  obtain ⟨hiff, hanswers, -, hkept⟩ :=
    texts_refined honest_texting hyoung apart_texting hpools atRest_texting 0
  have hshows := (hiff _).2 textListAt_texting
  obtain ⟨es, hes, hhandles, htexts⟩ := hkept _ hshows not_usesTexts_others
  have hunwritten : ∀ c ∈ others, c.written? ≠ some (0, ⟨1, 1⟩) := by decide +kernel
  exact ⟨honest_texting, hyoung, apart_texting, hpools, atRest_texting, not_usesTexts_others,
    hanswers _ hshows, ⟨es, hes, hhandles, htexts 0 _ rfl hunwritten⟩, textListAt_others⟩

/-- A text ring does not have its texts to itself: whoever has the handle of an entry can write to
its slot. -/
theorem texts_shared : ¬∀ (past l : Run) (r : Nat) (q : TextList), Honest (l ++ past) →
    Young (l ++ past) → (store (l ++ past)).ArenasApart → (∀ c ∈ l ++ past, c.KeepsPools) →
    AtRest (l ++ past) → (store past).ShowsTexts r q → (∀ c ∈ l, ¬c.UsesTexts r) →
      (store (l ++ past)).ShowsTexts r q := by
  intro hall
  have hpools : ∀ c ∈ others ++ texting, c.KeepsPools := fun c hc => (keeps_texting c hc).1
  have hord : Ordinary texting := ordinary_of_forall fun c hc =>
    (keeps_texting c (List.mem_append_right others hc)).2
  have hrest : AtRest texting := of_append (fun _ _ ha => ha.1) atRest_texting
  have hshows := (showsTexts_iff hord (young_of_length (by decide))
    (fun c hc => hpools c (List.mem_append_right others hc)) hrest).2 textListAt_texting
  have hkept := hall texting others 0 _ honest_texting (young_of_length (by decide))
    apart_texting hpools atRest_texting hshows not_usesTexts_others
  have hsame := hkept.textListAt_eq.symm.trans textListAt_others
  exact absurd hsame (by decide)

end Run

end FixedArena
