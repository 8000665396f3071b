import FixedArena.Proofs.Store.Lists
import FixedArena.Proofs.Store.Postings
import FixedArena.Proofs.Text.Entries

/-!
Text rings as lists of owned texts, one command at a time. While no arena and no pool is held, a text
ring of a store answers as its list of entries does, and holds what the list becomes.

Main facts:
* `Store.ShowsTexts`: a text ring and its list of entries;
* `BlockArena.HasRoom`, `TextPool.HasRoom`: a block, or a slot, is free;
* `Store.AnswersAs`, `Store.answersAs`: what a text ring answers, and what it becomes.
-/

namespace FixedArena

/-- Some block is free. -/
def BlockArena.HasRoom (a : BlockArena) : Prop := ∃ i : UInt32, i.toNat < a.capacity ∧ ¬a.InUse i

/-- Some slot is free. -/
def TextPool.HasRoom (p : TextPool) : Prop := ∃ i : Nat, p.slots[i]? = some .free

theorem BlockArena.Sound.hasRoom_iff {a : BlockArena} (hs : a.Sound) :
    a.HasRoom ↔ a.freeList.next? ≠ none := by
  rw [ne_eq, FreeList.next?_eq_none_iff, List.eq_nil_iff_forall_not_mem, not_forall]
  simp only [not_not, hs.mem_free_iff]
  rfl

theorem TextPool.hasRoom_iff {p : TextPool} : p.HasRoom ↔ p.catalog.firstFree ≠ none := by
  rw [firstFree_eq, ne_eq, Array.findIdx?_eq_none_iff, not_forall]
  constructor
  · rintro ⟨i, hi⟩
    exact ⟨.free, by simpa using Array.mem_of_getElem? hi⟩
  · rintro ⟨x, hx⟩
    obtain ⟨hmem, hfree⟩ : x ∈ p.slots ∧ x = .free := by simpa using hx
    obtain ⟨i, hi⟩ := Array.mem_iff_getElem?.1 hmem
    exact ⟨i, hfree ▸ hi⟩

/-- A list of owned texts, each with its handle; the arena where its ring lives, and its pool. -/
structure TextList where
  nodes : Nat
  pool : Nat
  entries : List (TextHandle × String)
  deriving DecidableEq, Repr

namespace Store

variable {α : Type} {s t : Store} {k r n : Nat} {q : TextList}

/-- No arena and no pool is held. -/
structure AtRest (s : Store) : Prop where
  arenas : s.Unheld
  pools : ∀ p ∈ s.pools, p.hold = .free

instance (s : Store) : Decidable s.AtRest :=
  decidable_of_iff (s.Unheld ∧ ∀ p ∈ s.pools, p.hold = .free)
    ⟨fun h => ⟨h.1, h.2⟩, fun h => ⟨h.1, h.2⟩⟩

theorem AtRest.poolFreeAt (h : s.AtRest) (k : Nat) : s.PoolFreeAt k :=
  fun p hp => h.pools p (Array.mem_of_getElem? hp)

/-- Nothing is given up under a hold if nothing is held. -/
theorem AtRest.givesFreely (h : s.AtRest) (c : Command) : s.GivesFreely c := by
  intro x _
  cases x with
  | ring type ring n => exact h.arenas.freeAt n
  | textRing tr n pool => exact ⟨h.arenas.freeAt n, h.poolFreeAt pool⟩
  | text h' pool => exact h.poolFreeAt pool

/-- **The container is a text ring with these entries.** -/
def ShowsTexts (s : Store) (r : Nat) (q : TextList) : Prop :=
  ∃ tr g p ns, s.containerAt r = some (.textRing tr q.nodes q.pool) ∧
    s.arenas[q.nodes]? = some g ∧ s.pools[q.pool]? = some p ∧
    TextRing.Site.Shows ⟨tr, g, p⟩ ns q.entries

theorem ShowsTexts.heldAt (h : s.ShowsTexts r q) : s.heldAt r = q.entries.map Prod.fst := by
  obtain ⟨tr, g, p, ns, hc, hg, -, hs⟩ := h
  exact heldAt_of_textRing hc (arenaAt_of_get hg) hs.holds

theorem ShowsTexts.heldOn (h : s.ShowsTexts r q) :
    s.heldOn q.pool r = q.entries.map Prod.fst := by
  obtain ⟨tr, g, p, ns, hc, hg, -, hs⟩ := h
  exact heldOn_of_textRing hc (arenaAt_of_get hg) hs.holds

theorem ShowsTexts.entryAt (h : s.ShowsTexts r q) {e : TextHandle × String} (he : e ∈ q.entries) :
    s.entryAt q.pool e.1 = some ⟨e.2, true⟩ := by
  obtain ⟨tr, g, p, ns, -, -, hp, hs⟩ := h
  rw [Store.entryAt, poolAt_of_get hp]
  exact hs.texts e he

/-- The first entry with a text. -/
theorem position_iff {es : List (TextHandle × String)} {t : String} {i : Nat} :
    (es.findIdx? fun e => e.2 == t) = some i ↔
      es[i]?.map Prod.snd = some t ∧ ∀ j < i, es[j]?.map Prod.snd ≠ some t := by
  simp only [List.findIdx?_eq_some_iff_getElem, beq_iff_eq, Option.map_eq_some_iff]
  constructor
  · rintro ⟨hi, ht, hfirst⟩
    refine ⟨⟨_, List.getElem?_eq_getElem hi, ht⟩, fun j hj => ?_⟩
    rw [List.getElem?_eq_getElem (hj.trans hi)]
    simpa using hfirst j hj
  · rintro ⟨⟨e, he, ht⟩, hfirst⟩
    obtain ⟨hi, rfl⟩ := List.getElem?_eq_some_iff.1 he
    refine ⟨hi, ht, fun j hj hjt => hfirst j hj ?_⟩
    rw [List.getElem?_eq_getElem (hj.trans hi), Option.map_some, hjt]

/-! ### Operations of a text ring -/

section Ops

variable {tr : TextRing} {g : Guarded BlockArena} {p : Guarded TextPool} {ns : List UInt32}
  {pool : Nat} {es : List (TextHandle × String)} {x : Act Error TextRing.Site α}
  {u : TextRing.Site} {result : Except Error α} {log : List Event}

theorem step_textRing (hc : s.containerAt r = some (.textRing tr n pool)) (c : TextRingCommand) :
    step (.textRing r c) s = textRingStep r tr n pool c s :=
  Act.bind_ok (container_ok hc)

/-- An operation that leaves its site as it was. -/
theorem onTextRing_same (hc : s.containerAt r = some (.textRing tr n pool))
    (hg : s.arenas[n]? = some g) (hp : s.pools[pool]? = some p)
    (hx : x ⟨tr, g, p⟩ = ⟨result, ⟨tr, g, p⟩, log⟩) :
    onTextRing r tr n pool x s = ⟨result.mapError .refused, s, log⟩ := by
  have hc' : s.containers[r]? = some (some (.textRing tr n pool)) := Option.join_eq_some_iff.1 hc
  rw [onTextRing_some r tr hg hp, hx]
  simp only [set_back hg, set_back hp, set_back hc']

/-- An operation that leaves its site with other entries. -/
theorem onTextRing_shows (hc : s.containerAt r = some (.textRing tr n pool))
    (hg : s.arenas[n]? = some g) (hp : s.pools[pool]? = some p)
    (hx : x ⟨tr, g, p⟩ = ⟨result, u, log⟩) (hu : u.Shows ns es) :
    (onTextRing r tr n pool x s).result = result.mapError .refused ∧
      (onTextRing r tr n pool x s).state.ShowsTexts r ⟨n, pool, es⟩ ∧
      (onTextRing r tr n pool x s).state.poolAt pool = some u.pool.value := by
  rw [onTextRing_some r tr hg hp, hx]
  have hlt := (Array.getElem?_eq_some_iff.1 hg).1
  have hlt' := (Array.getElem?_eq_some_iff.1 hp).1
  refine ⟨rfl, ⟨u.ring, u.nodes, u.pool, ns, ?_, ?_, ?_, hu⟩, ?_⟩
  · exact (containerAt_of_set (lt_size_of_containerAt hc) rfl r).trans (if_pos rfl)
  · exact Array.getElem?_setIfInBounds_self_of_lt hlt
  · exact Array.getElem?_setIfInBounds_self_of_lt hlt'
  · exact (poolAt_of_set hp rfl pool).trans (if_pos rfl)

end Ops

/-- **A text ring is made as an empty list.** -/
theorem shows_newTextRing {pool : Nat} (hs : ∀ j, s.Settled j)
    (ht : ∀ p, s.poolAt pool = some p → p.Tidy)
    (hok : (step (.newTextRing n pool) s).result = .ok (.container r)) :
    (step (.newTextRing n pool) s).state.ShowsTexts r ⟨n, pool, []⟩ := by
  obtain h | ⟨hpool, h⟩ := newTextRing_cases n pool s
  · rw [h] at hok
    cases hok
  rw [h] at hok ⊢
  obtain ⟨e, log, hcreate⟩ | ⟨g, ring, b, log, hg, hcreate, hh, -⟩ :=
    onArena_create TextHandle hs n
  · rw [Act.bind_error hcreate] at hok
    cases hok
  · rw [Act.bind_ok hcreate] at hok ⊢
    obtain rfl : s.containers.size = r := by
      cases hok
      rfl
    let t : Store := { s with
      arenas := s.arenas.setIfInBounds n { g with value := b }
      containers := s.containers.push (some (.textRing ⟨ring⟩ n pool)) }
    have hc : t.containerAt s.containers.size = some (.textRing ⟨ring⟩ n pool) :=
      (containerAt_of_push (s := s) rfl _).trans (if_pos rfl)
    have hlt := (Array.getElem?_eq_some_iff.1 hg).1
    have hp := Array.getElem?_eq_getElem hpool
    exact ⟨⟨ring⟩, _, _, [], hc, Array.getElem?_setIfInBounds_self_of_lt hlt, hp,
      ⟨hh, ht _ (poolAt_of_get hp), List.nodup_nil, nofun⟩⟩

/-! ### Answers -/

/-- **A text ring answers as its list of entries.** A handle is taken exactly if it is in use in the
pool, no container owns it, and a block is free; it becomes an outer entry. A text is taken exactly if a
slot and a block are free; as much of it as fits becomes the last entry. A pop answers with the handle
of an outer entry, whose slot is free then. What is read at a position is the text of the entry there,
and a text is found at the first entry that has it. -/
structure AnswersAs (s : Store) (r : Nat) (q : TextList) (a : BlockArena) (p : TextPool) : Prop where
  push_iff : ∀ side h, (step (.textRing r (.push side h)) s).result = .ok .done ↔
    p.inUse h = true ∧ p.isOwned h = false ∧ a.HasRoom
  pushed : ∀ side h, (step (.textRing r (.push side h)) s).result = .ok .done →
    ∃ t, p.text h = .ok t ∧ (step (.textRing r (.push side h)) s).state.ShowsTexts r
      { q with entries := side.add (h, t) q.entries }
  notPushed : ∀ side h e, (step (.textRing r (.push side h)) s).result = .error e →
    (step (.textRing r (.push side h)) s).state = s
  pushText_iff : ∀ t, (∃ h, (step (.textRing r (.pushText t)) s).result = .ok (.handle h)) ↔
    p.HasRoom ∧ a.HasRoom
  pushedText : ∀ t h, (step (.textRing r (.pushText t)) s).result = .ok (.handle h) →
    (step (.textRing r (.pushText t)) s).state.ShowsTexts r
      { q with entries := q.entries ++ [(h, Text.clip t p.maxLen)] }
  notPushedText : ∀ t e, (step (.textRing r (.pushText t)) s).result = .error e →
    (step (.textRing r (.pushText t)) s).state.ShowsTexts r q
  pop : ∀ side, (step (.textRing r (.pop side)) s).result =
      .ok (.poppedHandle ((side.outer? q.entries).map Prod.fst)) ∧
    (step (.textRing r (.pop side)) s).state.ShowsTexts r
      { q with entries := side.shorten q.entries }
  popped : ∀ side, ∀ e ∈ side.outer? q.entries, ∃ p',
    (step (.textRing r (.pop side)) s).state.poolAt q.pool = some p' ∧ p'.inUse e.1 = false ∧
      p'.available = p.available + 1
  read : ∀ e ∈ q.entries, p.text e.1 = .ok e.2
  text : ∀ i, ∃ log, step (.textRing r (.text i)) s = ⟨match q.entries[i]? with
    | some e => .ok (.text e.2)
    | none => .error (.refused (.outOfBounds i q.entries.length)), s, log⟩
  position : ∀ t, ∃ i? log, step (.textRing r (.position t)) s = ⟨.ok (.position i?), s, log⟩ ∧
    (∀ i, i? = some i ↔ (q.entries[i]?.map Prod.snd = some t ∧
      ∀ j < i, q.entries[j]?.map Prod.snd ≠ some t)) ∧
    (i? = none ↔ ∀ e ∈ q.entries, e.2 ≠ t)
  intoTexts : (step (.textRing r .intoTexts) s).result = .ok (.texts (q.entries.map Prod.snd)) ∧
    (step (.textRing r .intoTexts) s).state.containerAt r = none

section Answers

variable {tr : TextRing} {g : Guarded BlockArena} {p : Guarded TextPool} {ns : List UInt32}
  {pool : Nat} {es : List (TextHandle × String)}

variable (hc : s.containerAt r = some (.textRing tr n pool)) (hg : s.arenas[n]? = some g)
  (hp : s.pools[pool]? = some p) (hs : TextRing.Site.Shows ⟨tr, g, p⟩ ns es)

include hc hg hp hs

section Push

variable (hsound : g.value.Sound) (ho : TextRing.Site.Open ⟨tr, g, p⟩)

include hsound ho

/-- A handle becomes an entry, or nothing happens. -/
theorem push_cases (side : Ring.Side) (h : TextHandle) :
    (∃ t, p.value.catalog.find h = some ⟨t, false⟩ ∧ g.value.HasRoom ∧
      (step (.textRing r (.push side h)) s).result = .ok .done ∧
      (step (.textRing r (.push side h)) s).state.ShowsTexts r ⟨n, pool, side.add (h, t) es⟩) ∨
    ¬((∃ t, p.value.catalog.find h = some ⟨t, false⟩) ∧ g.value.HasRoom) ∧
      ∃ e log, step (.textRing r (.push side h)) s = ⟨.error (.refused e), s, log⟩ := by
  have hstep := step_textRing hc (.push side h)
  rw [textRingStep, textRingStep.on, Act.map_apply] at hstep
  by_cases ht : ∃ t, TextRing.Site.Takes ⟨tr, g, p⟩ h t
  · obtain ⟨t, ht⟩ := ht
    obtain ⟨u, ns', log, hpush, hu⟩ := hs.push_ok hsound ht side
    obtain ⟨hresult, hshows, -⟩ := onTextRing_shows hc hg hp hpush hu
    rw [hstep, hresult]
    exact .inl ⟨t, ht.lent, hsound.hasRoom_iff.2 ht.room, rfl, hshows⟩
  · obtain ⟨e, log, hpush, -⟩ :=
      TextRing.push_refused hs.holds (fun t htakes => ht ⟨t, htakes⟩) side
    rw [onTextRing_same hc hg hp hpush] at hstep
    refine .inr ⟨?_, e, log, hstep⟩
    rintro ⟨⟨t, hlent⟩, hroom⟩
    exact ht ⟨t, ho, hsound.hasRoom_iff.1 hroom, hlent⟩

/-- A text becomes the last entry, or the list stays. -/
theorem pushText_cases (t : String) :
    (p.value.HasRoom ∧ g.value.HasRoom ∧ ∃ h,
      (step (.textRing r (.pushText t)) s).result = .ok (.handle h) ∧
      (step (.textRing r (.pushText t)) s).state.ShowsTexts r
        ⟨n, pool, es ++ [(h, Text.clip t p.value.maxLen)]⟩) ∨
    ¬(p.value.HasRoom ∧ g.value.HasRoom) ∧ ∃ e,
      (step (.textRing r (.pushText t)) s).result = .error (.refused e) ∧
      (step (.textRing r (.pushText t)) s).state.ShowsTexts r ⟨n, pool, es⟩ := by
  have hstep := step_textRing hc (.pushText t)
  rw [textRingStep, textRingStep.on, Act.map_apply] at hstep
  rw [TextPool.hasRoom_iff, hsound.hasRoom_iff]
  by_cases hroom : p.value.catalog.firstFree ≠ none ∧ g.value.freeList.next? ≠ none
  · obtain ⟨h, u, ns', log, hpush, hu⟩ := hs.pushText_ok hsound ho hroom.2 hroom.1 t
    obtain ⟨hresult, hshows, -⟩ := onTextRing_shows hc hg hp hpush hu
    rw [hstep, hresult]
    exact .inl ⟨hroom.1, hroom.2, h, rfl, hshows⟩
  · obtain ⟨e, u, log, hpush, hu⟩ := hs.pushText_refused (fun hr => hroom ⟨hr.2.2, hr.2.1⟩) t
    obtain ⟨hresult, hshows, -⟩ := onTextRing_shows hc hg hp hpush hu
    rw [hstep, hresult]
    exact .inr ⟨hroom, e, rfl, hshows⟩

theorem push_answers (side : Ring.Side) (h : TextHandle) :
    ((step (.textRing r (.push side h)) s).result = .ok .done ↔
      p.value.inUse h = true ∧ p.value.isOwned h = false ∧ g.value.HasRoom) ∧
    ((step (.textRing r (.push side h)) s).result = .ok .done → ∃ t, p.value.text h = .ok t ∧
      (step (.textRing r (.push side h)) s).state.ShowsTexts r ⟨n, pool, side.add (h, t) es⟩) ∧
    ∀ e, (step (.textRing r (.push side h)) s).result = .error e →
      (step (.textRing r (.push side h)) s).state = s := by
  rw [← and_assoc (a := p.value.inUse h = true), TextPool.Ledger.lent_iff]
  obtain ⟨t, hf, hroom, hok, hshows⟩ | ⟨hno, e, log, hstep⟩ :=
    push_cases hc hg hp hs hsound ho side h
  · refine ⟨iff_of_true hok ⟨⟨t, hf⟩, hroom⟩, fun _ => ⟨t, ?_, hshows⟩, fun e he => ?_⟩
    · rw [hs.tidy.text_eq, hf]
    · rw [hok] at he
      cases he
  · rw [hstep]
    exact ⟨iff_of_false nofun hno, nofun, fun _ _ => rfl⟩

theorem pushText_answers (t : String) :
    ((∃ h, (step (.textRing r (.pushText t)) s).result = .ok (.handle h)) ↔
      p.value.HasRoom ∧ g.value.HasRoom) ∧
    (∀ h, (step (.textRing r (.pushText t)) s).result = .ok (.handle h) →
      (step (.textRing r (.pushText t)) s).state.ShowsTexts r
        ⟨n, pool, es ++ [(h, Text.clip t p.value.maxLen)]⟩) ∧
    ∀ e, (step (.textRing r (.pushText t)) s).result = .error e →
      (step (.textRing r (.pushText t)) s).state.ShowsTexts r ⟨n, pool, es⟩ := by
  obtain ⟨hslot, hblock, h, hok, hshows⟩ | ⟨hno, e, herr, hshows⟩ :=
    pushText_cases hc hg hp hs hsound ho t
  · rw [hok]
    refine ⟨iff_of_true ⟨h, rfl⟩ ⟨hslot, hblock⟩, fun h' hh => ?_, nofun⟩
    cases hh
    exact hshows
  · rw [herr]
    exact ⟨iff_of_false nofun hno, nofun, fun _ _ => hshows⟩

end Push

section Pop

variable (ho : TextRing.Site.Open ⟨tr, g, p⟩)

include ho

/-- An outer entry is removed, and its slot is free then. -/
theorem pop_answers (side : Ring.Side) :
    (step (.textRing r (.pop side)) s).result =
      .ok (.poppedHandle ((side.outer? es).map Prod.fst)) ∧
    (step (.textRing r (.pop side)) s).state.ShowsTexts r ⟨n, pool, side.shorten es⟩ ∧
    ∀ e ∈ side.outer? es, ∃ p', (step (.textRing r (.pop side)) s).state.poolAt pool = some p' ∧
      p'.inUse e.1 = false ∧ p'.available = p.value.available + 1 := by
  have hstep := step_textRing hc (.pop side)
  rw [textRingStep, textRingStep.on, Act.map_apply] at hstep
  obtain ⟨u, ns', hpop, hu, -, hfree⟩ := hs.pop_ok ho side
  obtain ⟨hresult, hshows, hpool⟩ := onTextRing_shows hc hg hp hpop hu
  rw [hstep, hresult]
  refine ⟨rfl, hshows, fun e he => ⟨u.pool.value, hpool, ?_, (hfree e he).2⟩⟩
  rw [TextPool.Ledger.inUse_eq, (hfree e he).1]
  rfl

theorem text_answers (i : Nat) :
    step (.textRing r (.text i)) s = ⟨match es[i]? with
      | some e => .ok (.text e.2)
      | none => .error (.refused (.outOfBounds i es.length)), s, []⟩ := by
  have hstep := step_textRing hc (.text i)
  rw [textRingStep, textRingStep.on, Act.map_apply,
    onTextRing_same hc hg hp (hs.text_eq ho i)] at hstep
  rw [hstep]
  cases es[i]? <;> rfl

theorem position_answers (t : String) : step (.textRing r (.position t)) s =
    ⟨.ok (.position (es.findIdx? fun e => e.2 == t)), s, []⟩ := by
  have hstep := step_textRing hc (.position t)
  have hread : Act.read (TextRing.position t) ⟨tr, g, p⟩ =
      ⟨.ok (es.findIdx? fun e => e.2 == t), ⟨tr, g, p⟩, []⟩ := by
    unfold Act.read
    rw [hs.position_eq ho]
  rw [textRingStep, textRingStep.on, Act.map_apply, onTextRing_same hc hg hp hread] at hstep
  exact hstep

/-- All texts are answered, and the container is gone. -/
theorem intoTexts_answers :
    (step (.textRing r .intoTexts) s).result = .ok (.texts (es.map Prod.snd)) ∧
    (step (.textRing r .intoTexts) s).state.containerAt r = none := by
  have hstep := step_textRing hc .intoTexts
  rw [textRingStep, textRingStep.on, Act.map_apply, Act.afterwards_apply] at hstep
  obtain ⟨u, hinto⟩ := hs.intoTexts_eq ho
  rw [hstep]
  constructor
  · rw [onTextRing_some r tr hg hp, hinto]
    rfl
  · exact containerAt_without r _

end Pop

end Answers

/-- **Text rings refine lists of owned texts**, one command at a time. -/
theorem answersAs (h : s.ShowsTexts r q) (hrest : s.AtRest) (hset : ∀ j, s.Settled j)
    {a : BlockArena} {p : TextPool} (ha : s.arenaAt q.nodes = some a)
    (hp : s.poolAt q.pool = some p) : s.AnswersAs r q a p := by
  obtain ⟨n, pool, es⟩ := q
  obtain ⟨tr, g, g', ns, hc, hg, hg', hs⟩ := h
  obtain rfl := Option.some.inj ((arenaAt_of_get hg).symm.trans ha)
  obtain rfl := Option.some.inj ((poolAt_of_get hg').symm.trans hp)
  have hsound := (hset n).sound g.value ha
  have ho : TextRing.Site.Open ⟨tr, g, g'⟩ :=
    ⟨hrest.arenas.freeAt n g hg, hrest.poolFreeAt pool g' hg'⟩
  have hpush := push_answers hc hg hg' hs hsound ho
  have htext := pushText_answers hc hg hg' hs hsound ho
  have hpop := pop_answers hc hg hg' hs ho
  exact
    { push_iff := fun side h => (hpush side h).1
      pushed := fun side h => (hpush side h).2.1
      notPushed := fun side h => (hpush side h).2.2
      pushText_iff := fun t => (htext t).1
      pushedText := fun t => (htext t).2.1
      notPushedText := fun t => (htext t).2.2
      pop := fun side => ⟨(hpop side).1, (hpop side).2.1⟩
      popped := fun side => (hpop side).2.2
      read := fun e he => hs.read he
      text := fun i => ⟨[], text_answers hc hg hg' hs ho i⟩
      position := fun t => ⟨_, [], position_answers hc hg hg' hs ho t, fun i => position_iff,
        by simp only [List.findIdx?_eq_none_iff, beq_eq_false_iff_ne]⟩
      intoTexts := intoTexts_answers hc hg hg' hs ho }

end Store

end FixedArena
