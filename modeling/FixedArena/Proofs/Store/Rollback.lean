import FixedArena.Proofs.Store.Harmless
import FixedArena.Proofs.Store.Texts

/-!
Handles and texts that a text ring does not take. Adding one takes several steps, on a pool and on an
arena, and each of them can fail. What was done before is then undone, so that nobody sees a difference.

Main facts:
* `TextPool.Resembles`, `Store.Resembles`: what callers see of a pool, and of a store, is the same;
* `Store.push_failed`, `Store.pushText_failed`: a handle or a text that is not added, in a settled store;
* `Run.pushes_undone`: so it is in every run, under all holds.
-/

namespace FixedArena

namespace TextPool

variable {p p' : TextPool}

/-- **Callers see no difference between two pools**: the sizes and the counts are the same, and so is
what is told about every handle. -/
structure Resembles (p p' : TextPool) : Prop where
  capacity : p'.capacity = p.capacity
  maxLen : p'.maxLen = p.maxLen
  live : p'.live = p.live
  available : p'.available = p.available
  owned : p'.owned = p.owned
  inUse : ∀ h, p'.inUse h = p.inUse h
  isOwned : ∀ h, p'.isOwned h = p.isOwned h
  text : ∀ h, p'.text h = p.text h

theorem Resembles.refl (p : TextPool) : p.Resembles p :=
  ⟨rfl, rfl, rfl, rfl, rfl, fun _ => rfl, fun _ => rfl, fun _ => rfl⟩

theorem Restored.locate (h : Restored p p') (v : TextHandle) : p'.locate v = p.locate v := by
  unfold TextPool.locate
  rw [h.id, h.slots]

/-- A slot in use has the content that it had. -/
theorem Restored.content (h : Restored p p') (hw : 0 < p.slab.width) {i : Nat}
    (hi : p.slots[i]? ≠ some .free) : p'.content i = p.content i := by
  rw [content_eq_before hw, content_eq_before (h.width ▸ hw), h.cells i hi]

/-- What is not in use is not seen. -/
theorem Restored.resembles (h : Restored p p') (hw : 0 < p.slab.width) : p.Resembles p' where
  capacity := congrArg Array.size h.slots
  maxLen := congrArg (· - 1) h.width
  live := h.live
  available := by rw [available, available, TextPool.capacity, TextPool.capacity, h.slots, h.live]
  owned := by rw [owned, owned, h.slots]
  inUse v := congrArg Except.toBool (h.locate v)
  isOwned v := by
    unfold isOwned
    rw [h.locate, h.slots]
  text v := by
    unfold text
    rw [h.locate]
    cases hi : p.locate v with
    | error e => rfl
    | ok i =>
      obtain ⟨-, -, state, hstate, hne⟩ := (locate_eq_ok_iff ..).1 hi
      have hused : p.slots[i]? ≠ some .free := fun hf =>
        hne (Option.some.inj (hstate.symm.trans hf))
      simp only [bind, Except.bind, h.content hw hused]

end TextPool

namespace Store

variable {s t u : Store} {k r : Nat}

/-- **Callers see no difference between two stores**: arenas and containers are the same, and the pools
are held by the same and look the same. -/
structure Resembles (s t : Store) : Prop where
  arenas : t.arenas = s.arenas
  containers : t.containers = s.containers
  size : t.pools.size = s.pools.size
  pools : ∀ (k : Nat) (g : Guarded TextPool), s.pools[k]? = some g →
    ∃ g', t.pools[k]? = some g' ∧ g'.hold = g.hold ∧ g.value.Resembles g'.value

theorem Resembles.refl (s : Store) : s.Resembles s :=
  ⟨rfl, rfl, rfl, fun _ g hg => ⟨g, hg, rfl, .refl g.value⟩⟩

theorem Undone.resembles (h : s.Undone r t) (hs : s.Kept fun _ => TextPool.Tidy) : s.Resembles t := by
  obtain ⟨tr, n, k, g, p, -, hg, hrestored, rfl⟩ := h
  refine ⟨rfl, rfl, Array.size_setIfInBounds .., fun k' g' hg' => ?_⟩
  by_cases hk : k = k'
  · subst hk
    obtain rfl := Option.some.inj (hg.symm.trans hg')
    refine ⟨_, Array.getElem?_setIfInBounds_self_of_lt (Array.getElem?_eq_some_iff.1 hg).1, rfl, ?_⟩
    exact hrestored.resembles (hs.of_mem (mem_poolList hg)).width
  · refine ⟨g', ?_, rfl, .refl g'.value⟩
    rw [← hg']
    exact Array.getElem?_setIfInBounds_ne hk

/-! ### Stores that differ in their holds -/

theorem arenaAt_unheld (s : Store) (k : Nat) : s.unheld.arenaAt k = s.arenaAt k := by
  simp [unheld, arenaAt, Function.comp_def, Guarded.unheld]

theorem quiet_of_unheld (h : s.unheld = u.unheld) : u.Quiet s where
  arenaAt k := by rw [← arenaAt_unheld, h, arenaAt_unheld]
  containers := (congrArg Store.containers h :)
  grown := by
    constructor
    · simpa [unheld] using (congrArg (·.arenas.size) h).ge
    · simpa [unheld] using (congrArg (·.pools.size) h).ge

theorem Quiet.settled (h : s.Quiet t) (hs : s.Settled k) : t.Settled k where
  sound a ha := hs.sound a (h.arenaAt k ▸ ha)
  valid a ha r p hp := hs.valid a (h.arenaAt k ▸ ha) r p (h.placedAt r ▸ hp)
  homed r p hp := (hs.homed r p (h.placedAt r ▸ hp)).grown h.grown

/-! ### What is not added -/

section Failed

variable (hs : ∀ n, s.Settled n) (hp : s.Kept fun _ => TextPool.Tidy) {f : Failure}

include hs hp

/-- **A handle that is not added changes nothing.** -/
theorem push_failed {side : Ring.Side} {h : TextHandle}
    (hf : (step (.textRing r (.push side h)) s).result = .error f) :
    (step (.textRing r (.push side h)) s).state = s := by
  obtain ⟨-, hstep⟩ | ⟨tr, n, k, hc, hstep⟩ := textRing_cases r (.push side h) s
  · rw [hstep]
  · obtain ⟨g, p, ns, vs, hg, hpool, hsound, hh⟩ := exists_site hc (hs n)
    let site : TextRing.Site := ⟨tr, g, p⟩
    rw [hstep, textRingStep, textRingStep.on, Act.map_apply] at hf ⊢
    by_cases ht : ∃ text, site.Takes h text
    · obtain ⟨text, ht⟩ := ht
      have htidy : p.value.Tidy := hp.of_mem (mem_poolList hpool)
      obtain ⟨i, u, log, hpush, -⟩ := TextRing.push_ok (s := site) hh hsound htidy ht side
      rw [onTextRing_some r tr hg hpool, hpush] at hf
      cases hf
    · obtain ⟨e, log, hpush, -⟩ :=
        TextRing.push_refused (s := site) hh (fun text htakes => ht ⟨text, htakes⟩) side
      rw [onTextRing_same hc hg hpool hpush]

/-- **A text that is not added leaves nothing that is seen.** -/
theorem pushText_failed {text : String}
    (hf : (step (.textRing r (.pushText text)) s).result = .error f) :
    (step (.textRing r (.pushText text)) s).state = s ∨
      s.Undone r (step (.textRing r (.pushText text)) s).state := by
  obtain ⟨-, hstep⟩ | ⟨tr, n, k, hc, hstep⟩ := textRing_cases r (.pushText text) s
  · exact .inl (by rw [hstep])
  · obtain ⟨g, p, ns, vs, hg, hpool, hsound, hh⟩ := exists_site hc (hs n)
    have htidy : p.value.Tidy := hp.of_mem (mem_poolList hpool)
    have hc' : s.containers[r]? = some (some (.textRing tr n k)) := Option.join_eq_some_iff.1 hc
    rw [hstep, textRingStep, textRingStep.on, Act.map_apply, onTextRing_some r tr hg hpool] at hf ⊢
    let site : TextRing.Site := ⟨tr, g, p⟩
    by_cases hroom : site.Open ∧ g.value.freeList.next? ≠ none ∧ p.value.catalog.firstFree ≠ none
    · obtain ⟨ho, hnext, hfirst⟩ := hroom
      obtain ⟨j, hfree⟩ := Option.ne_none_iff_exists'.1 hfirst
      obtain ⟨i, u, h, log, hpush, -⟩ :=
        TextRing.pushText_ok (s := site) htidy hh hsound ho hnext hfree text
      rw [hpush] at hf
      cases hf
    · obtain ⟨e, p', log, hpush, -, -, hrestored⟩ :=
        TextRing.pushText_refused (s := site) htidy hh hroom text
      refine .inr ⟨tr, n, k, p, p', hc, hpool, hrestored, ?_⟩
      simp only [hpush, TextRing.Site.withPool, site, set_back hg, set_back hc']

end Failed

end Store

namespace Run

theorem exists_error {ε α : Type} {x : Except ε α} (h : x.isOk = false) : ∃ e, x = .error e := by
  cases x with
  | error e => exact ⟨e, rfl⟩
  | ok a => cases h

/-- **What a text ring does not take, leaves no trace.** Take the store of any run of callers who keep to
their blocks, with any holds on its arenas and its pools. A handle of any kind that a text ring refuses
changes nothing at all: a caller who has a slot goes on having it, with the same text. After a text was
refused, the ring, the arenas and all other pools are the same, and the ring's own pool has no other slots
in use, with no other contents: there is no difference but in bytes of free slots and in the most slots
that were ever in use. -/
theorem pushes_undone {run : Run} (h : Ordinary run) (hy : Young run) {s : Store}
    (hs : s.unheld = (store run).unheld) (r : Nat) (f : Failure) :
    (∀ side v, (Store.step (.textRing r (.push side v)) s).result = .error f →
      (Store.step (.textRing r (.push side v)) s).state = s) ∧
    ∀ text, (Store.step (.textRing r (.pushText text)) s).result = .error f →
      ((Store.step (.textRing r (.pushText text)) s).state = s ∨
        s.Undone r (Store.step (.textRing r (.pushText text)) s).state) ∧
      s.Resembles (Store.step (.textRing r (.pushText text)) s).state := by
  have hsettled : ∀ n, s.Settled n := fun n =>
    (Store.quiet_of_unheld hs).settled ((inOrder h hy).settled n)
  have hkept := Store.kept_of_unheld (kept TextPool.lasting_tidy run) hs
  refine ⟨fun side v hf => Store.push_failed hsettled hkept hf, fun text hf => ?_⟩
  obtain hsame | hundone := Store.pushText_failed hsettled hkept hf
  · exact ⟨.inl hsame, hsame.symm ▸ .refl s⟩
  · exact ⟨.inr hundone, hundone.resembles hkept⟩

/-- A text ring on an arena that is full, and a text that a caller has. -/
def crowded : Run :=
  [.pool 0 (.assign ⟨1, 1⟩ "b"), .pool 0 .allocate, .textRing 0 (.pushText "a"), .newTextRing 0 0,
    .reservePool 4 8, .reserveArena 2 32]

/-- The same, while somebody reads the arena. -/
def watched : Run := .hold (.arena 0) .shared :: crowded

theorem ordinary_watched : Ordinary watched := by
  apply ordinary_of_forall
  intro c hc
  simp only [watched, crowded, List.mem_cons, List.not_mem_nil, or_false] at hc
  rcases hc with rfl | rfl | rfl | rfl | rfl | rfl | rfl
  all_goals exact ⟨nofun, rfl⟩

/-- The caller keeps his text when the ring refuses it. A text that finds the arena held is not seen. -/
theorem pushes_undone_crowded :
    Ordinary watched ∧ Young watched ∧
    (Store.step (.textRing 0 (.push .back ⟨1, 1⟩)) (store crowded)).result.isOk = false ∧
    (Store.step (.textRing 0 (.push .back ⟨1, 1⟩)) (store crowded)).state = store crowded ∧
    (Store.step (.textRing 0 (.pushText "c")) (store watched)).result.isOk = false ∧
    (store watched).Resembles (Store.step (.textRing 0 (.pushText "c")) (store watched)).state := by
  have hyoung : Young watched := young_of_length (by decide)
  have hfull : (Store.step (.textRing 0 (.push .back ⟨1, 1⟩)) (store crowded)).result.isOk = false := by
    decide +kernel
  have hbusy : (Store.step (.textRing 0 (.pushText "c")) (store watched)).result.isOk = false := by
    decide +kernel
  obtain ⟨f, hf⟩ := exists_error hfull
  obtain ⟨f', hf'⟩ := exists_error hbusy
  refine ⟨ordinary_watched, hyoung, hfull, ?_, hbusy, ?_⟩
  · exact (pushes_undone ordinary_watched.1 hyoung.tail rfl 0 f).1 .back ⟨1, 1⟩ hf
  · exact ((pushes_undone ordinary_watched hyoung rfl 0 f').2 "c" hf').2

end Run

end FixedArena
