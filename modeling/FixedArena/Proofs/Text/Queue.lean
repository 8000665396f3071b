import FixedArena.Proofs.Text.Posting
import FixedArena.Proofs.Text.Ring

/-!
Text rings as lists of texts, on arenas and pools that others use, too. An operation is carried out
to the end or leaves the ring, its blocks and the map of the pool as they were; what is taken on the
way is given back.

Main facts:
* `push_ok`, `push_refused`: a handle is added if its slot is a caller's and a block is free;
* `pushText_ok`, `pushText_refused`: a text is added if a slot and a block are free;
* `pop_ok`, `pop_empty`, `pop_none`: a handle is removed and its slot given back, or nothing happens;
* `clear_ok`, `clear_closed`, `drop_posts`: all handles are removed, or nothing happens;
* `Site.Posts`: what an operation posts to the ledger of the pool.
-/

namespace FixedArena

namespace TextPool

variable {p : TextPool} {h : TextHandle} {i : Nat} {old state : SlotState} {t : String}

theorem setState_back (hold : p.slots[i]? = some old) : (p.setState i state).setState i old = p := by
  have hslots : (p.slots.setIfInBounds i state).setIfInBounds i old = p.slots := by
    rw [Array.setIfInBounds_setIfInBounds, set_back hold]
  cases p
  simp only [setState, hslots]

/-- An owner that gives up at once leaves the slot as it was. -/
theorem own_disown (hf : p.catalog.find h = some ⟨t, false⟩) :
    own h p = ⟨.ok (), p.setState h.index.toNat .owned, []⟩ ∧
      disown h (p.setState h.index.toNat .owned) = ⟨.ok (), p, []⟩ := by
  have hs : p.slots[h.index.toNat]? = some .lent := slot_of_find hf
  refine ⟨own_eq hf, ?_⟩
  have hlt := (Array.getElem?_eq_some_iff.1 hs).1
  have hlocate : (p.setState h.index.toNat .owned).locate h = .ok h.index.toNat :=
    (locate_eq_ok_iff ..).2 ⟨Catalog.pool_of_find hf, rfl, .owned,
      Array.getElem?_setIfInBounds_self_of_lt hlt, by decide⟩
  unfold disown
  rw [hlocate]
  exact congrArg (fun p : TextPool => (⟨.ok (), p, []⟩ : Outcome Error TextPool Unit))
    (setState_back hs)

/-- The pool after handles were given back, the first one first. -/
def reclaimAll (l : List TextHandle) (p : TextPool) : TextPool :=
  l.foldl (fun p h => (reclaim h p).state) p

theorem reclaimAll_posts (l W F : List TextHandle) (p : TextPool) :
    Posts W (l ++ F) p (fun L => L) F (reclaimAll l p) := by
  induction l generalizing p with
  | nil => exact .refl W F p
  | cons h l ih =>
    have hfirst : Posts W (h :: l ++ F) p (fun L => L) (l ++ F) (reclaim h p).state :=
      reclaim_posts h W (l ++ F) p
    exact hfirst.trans (ih _) (.inr (List.subset_append_right l F))

end TextPool

namespace TextRing

open TextPool (Posts)

variable {s t : Site} {ns ns' : List UInt32} {vs vs' : List TextHandle} {h v : TextHandle}
  {i : UInt32} {text : String} {side : Ring.Side} {W F : List TextHandle}

/-- **From one site to another, the ring turned its blocks over** and holds other handles; holds stay,
and the pool stays tidy. -/
structure Site.Becomes (s : Site) (ns : List UInt32) (t : Site) (ns' : List UInt32)
    (vs' : List TextHandle) : Prop where
  holds : t.handles.Holds ns' vs'
  moves : s.handles.Moves ns t.handles ns'
  hold : t.pool.hold = s.pool.hold
  tidy : t.pool.value.Tidy

theorem Site.Becomes.nodes_hold (hb : s.Becomes ns t ns' vs') : t.nodes.hold = s.nodes.hold :=
  hb.moves.hold

/-- Nobody holds the arena or the pool. -/
structure Site.Open (s : Site) : Prop where
  nodes : s.nodes.hold = .free
  pool : s.pool.hold = .free

theorem Site.Becomes.open (hb : s.Becomes ns t ns' vs') (ho : s.Open) : t.Open :=
  ⟨hb.nodes_hold.trans ho.nodes, hb.hold.trans ho.pool⟩

/-- The site with another pool, which the same hold. -/
def Site.withPool (s : Site) (p : TextPool) : Site := { s with pool := { s.pool with value := p } }

/-- An operation on a pool that nobody holds. -/
theorem onPool_eq {α : Type} {x : Act Error TextPool α} {result : Except Error α} {p : TextPool}
    {log : List Event} (hf : s.pool.hold = .free) (hx : x s.pool.value = ⟨result, p, log⟩) :
    onPool (TextPool.writing x) s = ⟨result, s.withPool p, log⟩ := by
  unfold onPool TextPool.writing
  rw [Act.zoom_apply, Guarded.writing_free _ _ _ hf, hx]
  rfl

theorem onPool_held {α : Type} {x : Act Error TextPool α} (hf : s.pool.hold ≠ .free) :
    onPool (TextPool.writing x) s = ⟨.error TextPool.busy, s, []⟩ := by
  unfold onPool TextPool.writing
  rw [Act.zoom_apply, Guarded.writing_busy _ _ _ hf]

/-! ### Adding a handle -/

/-- **There is room for a handle**: its slot is a caller's, a block is free, and nobody holds the
arena or the pool. -/
structure Site.Takes (s : Site) (h : TextHandle) (text : String) : Prop extends s.Open where
  room : s.nodes.value.freeList.next? ≠ none
  lent : s.pool.value.catalog.find h = some ⟨text, false⟩

section Push

/-- **A handle that cannot be linked in is given back**, and nothing is changed. -/
theorem push_undone (hpool : s.pool.hold = .free)
    (hlent : s.pool.value.catalog.find h = some ⟨text, false⟩) {e : Error} {log : List Event}
    (hpush : Ring.push side h s.handles = ⟨.error e, s.handles, log⟩) (he : e.isFault = false) :
    ∃ log, push side h s = ⟨.error e, s, log⟩ := by
  obtain ⟨hown, hback⟩ := TextPool.own_disown hlent
  let u := s.withPool (s.pool.value.setState h.index.toNat .owned)
  have hlink : onHandles (Ring.push side h) u = ⟨.error e, u, log⟩ := onHandles_eq (s := u) hpush
  have hundo : onPool (TextPool.writing (TextPool.disown h)) u = ⟨.ok (), s, []⟩ :=
    onPool_eq (s := u) hpool hback
  unfold push
  rw [Act.bind_ok (onPool_eq hpool hown), Act.bind_ok (Act.attempt_of_error hlink he)]
  dsimp only
  rw [Act.bind_ok (Act.attempt_of_ok hundo)]
  exact ⟨_, rfl⟩

/-- A handle that is not a caller's is refused, whoever holds the arena. -/
theorem push_notLent (hpool : s.pool.hold = .free)
    (hlent : ∀ text, s.pool.value.catalog.find h ≠ some ⟨text, false⟩) (side : Ring.Side) :
    ∃ e, TextPool.own h s.pool.value = ⟨.error e, s.pool.value, []⟩ ∧
      push side h s = ⟨.error e, s, []⟩ ∧ e.isFault = false := by
  obtain ⟨e, hown, he⟩ := TextPool.own_refused hlent
  exact ⟨e, hown, Act.bind_error (onPool_eq hpool hown), he⟩

variable (hh : s.handles.Holds ns vs) (hs : s.nodes.value.Sound) (hp : s.pool.value.Tidy)

include hh hs hp

/-- **A caller's handle is added**, and its slot is the ring's. -/
theorem push_ok (ht : s.Takes h text) (side : Ring.Side) : ∃ i t log,
    push side h s = ⟨.ok (), t, log⟩ ∧ s.Becomes ns t (side.add i ns) (side.add h vs) ∧
    t.pool.value.catalog = s.pool.value.catalog.put h.index.toNat (some ⟨text, true⟩) := by
  obtain ⟨hown, hp', hcat⟩ := TextPool.own_lent hp ht.lent
  obtain ⟨⟨i, rest⟩, hn⟩ := Option.ne_none_iff_exists'.1 ht.room
  obtain ⟨t, hpush, hholds, hmoves⟩ := Ring.push_ok hh ht.nodes hs hn side h
  let u := s.withPool (s.pool.value.setState h.index.toNat .owned)
  have hlink : onHandles (Ring.push side h) u = _ := onHandles_eq (s := u) hpush
  unfold push
  rw [Act.bind_ok (onPool_eq ht.pool hown), Act.bind_ok (Act.attempt_of_ok hlink)]
  exact ⟨i, u.withHandles t, _, rfl, ⟨hholds, hmoves, rfl, hp'⟩, hcat⟩

omit hs hp in
/-- A ring without room for a node refuses every handle, and changes nothing. -/
theorem link_refused (hn : ¬(s.nodes.hold = .free ∧ s.nodes.value.freeList.next? ≠ none)) :
    ∃ e log, e.isFault = false ∧
      ∀ side h, Ring.push side h s.handles = ⟨.error e, s.handles, log⟩ := by
  by_cases hnodes : s.nodes.hold = .free
  · have hnone : s.nodes.value.freeList.next? = none := by
      by_contra hroom
      exact hn ⟨hnodes, hroom⟩
    exact ⟨_, _, rfl, fun side h => Ring.push_full hh hnodes hnone side h⟩
  · exact ⟨_, _, rfl, fun side h => Ring.push_busy side h hnodes⟩

omit hs hp in
/-- **A handle that finds no room changes nothing.** -/
theorem push_refused (hn : ∀ text, ¬s.Takes h text) (side : Ring.Side) :
    ∃ e log, push side h s = ⟨.error e, s, log⟩ ∧ e.isFault = false := by
  by_cases hpool : s.pool.hold = .free
  · by_cases hlent : ∃ text, s.pool.value.catalog.find h = some ⟨text, false⟩
    · obtain ⟨text, hlent⟩ := hlent
      obtain ⟨e, log, he, hlink⟩ := link_refused hh fun hroom =>
        hn text ⟨⟨hroom.1, hpool⟩, hroom.2, hlent⟩
      obtain ⟨log, hpush⟩ := push_undone hpool hlent (hlink side h) he
      exact ⟨e, log, hpush, he⟩
    · obtain ⟨e, -, hpush, he⟩ := push_notLent hpool (fun text hf => hlent ⟨text, hf⟩) side
      exact ⟨e, _, hpush, he⟩
  · have hpush : push side h s = _ := Act.bind_error (onPool_held hpool)
    exact ⟨_, _, hpush, rfl⟩

end Push

/-! ### Adding a text -/

/-- Taking a slot for a text, on a pool that nobody holds. -/
def store (t : String) : Act Error TextPool TextHandle := do
  let h ← TextPool.allocate
  let _ ← TextPool.assign h t
  return h

/-- A slot is taken for as much of a text as fits, if one is free. -/
theorem store_cases {p : TextPool} (hp : p.Tidy) (t : String) :
    (∃ i p' log, p.catalog.firstFree = some i ∧
      store t p = ⟨.ok ⟨p.id, UInt16.ofNat i⟩, p', log⟩ ∧ (UInt16.ofNat i).toNat = i ∧
      TextPool.Changes p i .free .lent (Text.clip t p.maxLen) p') ∨
    p.catalog.firstFree = none ∧ ∃ e log, store t p = ⟨.error e, p, log⟩ := by
  obtain ⟨i, hfree, hi, hnone, hp', hcat, log, halloc⟩ | ⟨hfree, e, log, halloc⟩ :=
    hp.firstFree_cases
  · let h : TextHandle := ⟨p.id, UInt16.ofNat i⟩
    have hnum : h.index.toNat = i := hp.toNat_ofNat hi
    have hfind : (p.lend i).catalog.find h = some ⟨"", false⟩ := by
      rw [hcat, ← hnum]
      exact TextPool.Catalog.find_put_self rfl
    obtain ⟨p', hassign, hc⟩ := TextPool.assign_found hp' hfind t
    rw [hnum] at hc
    refine .inl ⟨i, p', log ++ ([] ++ []), hfree, ?_, hnum, ?_⟩
    · exact (Act.bind_ok halloc).trans (by rw [Act.bind_ok hassign]; rfl)
    · exact (TextPool.changes_lend hp (TextPool.slot_of_entries_none hi hnone)).trans hc
  · exact .inr ⟨hfree, e, log, Act.bind_error halloc⟩

section PushText

variable (hp : s.pool.value.Tidy)

include hp

/-- What is stored is a caller's, and was nobody's before. -/
theorem stored {p : TextPool} {j : Nat} {h : TextHandle} (hh : h.pool = s.pool.value.id)
    (hnum : h.index.toNat = j)
    (hc : TextPool.Changes s.pool.value j .free .lent text p) :
    s.pool.value.catalog.find h = none ∧ p.catalog.find h = some ⟨text, false⟩ := by
  subst hnum
  have hnone := TextPool.entries_of_slot hc.before
  constructor
  · unfold TextPool.Catalog.find
    rw [if_pos (show h.pool = s.pool.value.catalog.id from hh)]
    exact hnone
  · rw [hc.catalog_eq hp]
    exact TextPool.Catalog.find_put_self hh

/-- **A text whose handle cannot be linked in leaves nothing behind**: its slot is free again. -/
theorem pushText_undone (hpool : s.pool.hold = .free) {e : Error} {log : List Event}
    (he : e.isFault = false)
    (hlink : ∀ h, Ring.push .back h s.handles = ⟨.error e, s.handles, log⟩) (text : String) :
    (∃ j t p log, pushText text s = ⟨.error e, s.withPool p, log⟩ ∧
      TextPool.Changes s.pool.value j .free .free t p) ∨
    ∃ e log, store text s.pool.value = ⟨.error e, s.pool.value, log⟩ ∧
      pushText text s = ⟨.error e, s, log⟩ := by
  obtain ⟨j, p, log, hj, hstore, hnum, hc⟩ | ⟨-, e, log, hstore⟩ := store_cases hp text
  · let h : TextHandle := ⟨s.pool.value.id, UInt16.ofNat j⟩
    let u := s.withPool p
    obtain ⟨-, hlent⟩ := stored hp (h := h) rfl hnum hc
    obtain ⟨log', hpush⟩ := push_undone (s := u) hpool hlent (hlink h) he
    have hfree := TextPool.free_lent hlent
    have hundo : onPool (TextPool.writing (TextPool.free h)) u =
        ⟨.ok true, u.withPool (p.takeBack h.index.toNat), []⟩ := onPool_eq (s := u) hpool hfree
    have hback := (TextPool.takeBack_found (hc.tidy hp) hlent).2
    rw [hnum] at hback hundo
    refine .inl ⟨j, _, p.takeBack j, log ++ (log' ++ ([] ++ [])), ?_, hc.trans hback⟩
    unfold pushText
    refine (Act.bind_ok (onPool_eq (x := store text) hpool hstore)).trans ?_
    rw [Act.bind_ok (Act.attempt_of_error hpush he)]
    dsimp only
    rw [Act.bind_ok (Act.attempt_of_ok hundo)]
    rfl
  · exact .inr ⟨e, log, hstore, Act.bind_error (onPool_eq (x := store text) hpool hstore)⟩

variable (hh : s.handles.Holds ns vs)

include hh

/-- **As much of a text as fits is added at the back**, if a slot and a block are free. -/
theorem pushText_ok {k : Nat} (hs : s.nodes.value.Sound) (ho : s.Open)
    (hroom : s.nodes.value.freeList.next? ≠ none)
    (hfree : s.pool.value.catalog.firstFree = some k) (text : String) : ∃ i t h log,
    pushText text s = ⟨.ok h, t, log⟩ ∧ s.Becomes ns t (Ring.Side.back.add i ns) (vs ++ [h]) ∧
    h.pool = s.pool.value.id ∧ s.pool.value.catalog.find h = none ∧
    t.pool.value.catalog = s.pool.value.catalog.put h.index.toNat
      (some ⟨Text.clip text s.pool.value.maxLen, true⟩) := by
  obtain ⟨j, p, log, hj, hstore, hnum, hc⟩ | ⟨hnone, -⟩ := store_cases hp text
  · let h : TextHandle := ⟨s.pool.value.id, UInt16.ofNat j⟩
    obtain ⟨hnone, hlent⟩ := stored hp (h := h) rfl hnum hc
    let u := s.withPool p
    have htakes : u.Takes h (Text.clip text s.pool.value.maxLen) :=
      ⟨⟨ho.nodes, ho.pool⟩, hroom, hlent⟩
    obtain ⟨i, t, log', hpush, hb, hcat⟩ := push_ok (s := u) hh hs (hc.tidy hp) htakes .back
    refine ⟨i, t, h, log ++ (log' ++ []), ?_, ⟨hb.holds, hb.moves, hb.hold, hb.tidy⟩, rfl, hnone, ?_⟩
    · unfold pushText
      refine (Act.bind_ok (onPool_eq (x := store text) ho.pool hstore)).trans ?_
      rw [Act.bind_ok (Act.attempt_of_ok hpush)]
      rfl
    · rw [hcat]
      change p.catalog.put _ _ = _
      rw [hc.catalog_eq hp, ← hnum, TextPool.Catalog.put_put]
  · rw [hfree] at hnone
    cases hnone

/-- **A text that finds no room leaves nothing behind.** -/
theorem pushText_refused (hn : ¬(s.Open ∧ s.nodes.value.freeList.next? ≠ none ∧
    s.pool.value.catalog.firstFree ≠ none)) (text : String) : ∃ e p log,
    pushText text s = ⟨.error e, s.withPool p, log⟩ ∧ p.Tidy ∧
    p.catalog = s.pool.value.catalog ∧ s.pool.value.Restored p := by
  by_cases hpool : s.pool.hold = .free
  · by_cases hfree : s.pool.value.catalog.firstFree = none
    · obtain ⟨j, -, -, hj, -⟩ | ⟨-, e, log, hstore⟩ := store_cases hp text
      · rw [hfree] at hj
        cases hj
      · have hpush : pushText text s = _ :=
          Act.bind_error (onPool_eq (x := store text) hpool hstore)
        exact ⟨e, s.pool.value, log, hpush, hp, rfl, .refl _⟩
    · obtain ⟨e, log, he, hlink⟩ := link_refused hh fun hroom =>
        hn ⟨⟨hroom.1, hpool⟩, hroom.2, hfree⟩
      obtain ⟨j, t, p, log, hpush, hc⟩ | ⟨e, log, -, hpush⟩ :=
        pushText_undone hp hpool he (hlink .back) text
      · refine ⟨e, p, log, hpush, hc.tidy hp, (hc.catalog_eq hp).trans ?_, hc.restored⟩
        exact TextPool.Catalog.put_self (TextPool.entries_of_slot hc.before)
      · exact ⟨e, s.pool.value, log, hpush, hp, rfl, .refl _⟩
  · exact ⟨_, s.pool.value, _, Act.bind_error (onPool_held (x := store text) hpool), hp, rfl, .refl _⟩

end PushText

/-! ### Removing -/

/-- **A handle is removed, and its slot given back.** -/
theorem pop_ok (hh : s.handles.Holds (side.add i ns) (side.add v vs)) (hp : s.pool.value.Tidy)
    (ho : s.Open) : ∃ t,
    pop side s = ⟨.ok (some v), t, (TextPool.reclaim v s.pool.value).events⟩ ∧
    s.Becomes (side.add i ns) t ns vs ∧
    t.pool.value = (TextPool.reclaim v s.pool.value).state := by
  obtain ⟨t, hpop, hholds, hmoves⟩ := Ring.pop_ok hh ho.nodes
  have hadmits : s.pool.hold.admits .exclusive = true := by rw [ho.pool]; rfl
  have hcomes := hp.comesTo_reclaim v
  rw [TextPool.Call.act, Act.map_apply] at hcomes
  have hfirst : onHandles (Ring.pop side) s = ⟨.ok (some v), s.withHandles t, []⟩ :=
    onHandles_eq hpop
  obtain ⟨b, hb⟩ : ∃ b, (TextPool.reclaim v s.pool.value).result = .ok b := by
    unfold TextPool.reclaim
    split <;> exact ⟨_, rfl⟩
  let u := (s.withHandles t).withPool (TextPool.reclaim v s.pool.value).state
  have hsecond : onPool (TextPool.writing (TextPool.reclaim v)) (s.withHandles t) =
      ⟨.ok b, u, (TextPool.reclaim v s.pool.value).events⟩ :=
    onPool_eq (s := s.withHandles t) ho.pool (by rw [← hb]; rfl)
  refine ⟨u, ?_, ⟨hholds, hmoves, rfl, hcomes.tidy⟩, rfl⟩
  unfold pop
  rw [Act.get_bind, if_pos hadmits, Act.bind_ok hfirst]
  dsimp only
  rw [Act.bind_ok hsecond]
  simp

/-- Nothing is removed from an empty ring. -/
theorem pop_empty (hh : s.handles.Holds ns []) (hadmits : s.pool.hold.admits .exclusive = true)
    (side : Ring.Side) : pop side s = ⟨.ok none, s, []⟩ := by
  have hpop : onHandles (Ring.pop side) s = ⟨.ok none, s, []⟩ :=
    onHandles_eq (Ring.pop_empty side hh.len_eq)
  unfold pop
  rw [Act.get_bind, if_pos hadmits, Act.bind_ok hpop]
  rfl

/-- **Nothing is removed while the arena or the pool is held.** -/
theorem pop_closed (ho : ¬s.Open) (side : Ring.Side) : ∃ log, pop side s = ⟨.ok none, s, log⟩ := by
  by_cases hnodes : s.nodes.hold = .free
  · have hadmits : ¬s.pool.hold.admits .exclusive = true := fun ha =>
      ho ⟨hnodes, Guarded.hold_of_admits ha⟩
    unfold pop
    rw [Act.get_bind, if_neg hadmits]
    exact ⟨_, rfl⟩
  · exact pop_busy side hnodes

/-- Nothing is removed from an empty ring, or while the arena or the pool is held. -/
theorem pop_none (hh : s.handles.Holds ns vs) (hn : vs = [] ∨ ¬s.Open) (side : Ring.Side) :
    ∃ log, pop side s = ⟨.ok none, s, log⟩ := by
  by_cases ho : s.Open
  · obtain rfl : vs = [] := hn.resolve_right fun hclosed => hclosed ho
    have hadmits : s.pool.hold.admits .exclusive = true := by rw [ho.pool]; rfl
    exact ⟨_, pop_empty hh hadmits side⟩
  · exact pop_closed ho side

/-- Whatever is popped is given back. -/
theorem drain_ok (n : Nat) (hh : s.handles.Holds ns vs) (hp : s.pool.value.Tidy) (ho : s.Open)
    (hn : vs.length ≤ n) : ∃ t log, drain n s = ⟨.ok (), t, log⟩ ∧ s.Becomes ns t [] [] ∧
    t.pool.value = TextPool.reclaimAll vs s.pool.value := by
  induction n generalizing s ns vs with
  | zero =>
    obtain rfl := List.eq_nil_of_length_eq_zero (Nat.le_zero.1 hn)
    obtain rfl := List.eq_nil_of_length_eq_zero (hh.length_eq.symm.trans rfl)
    obtain ⟨log, hpop⟩ := pop_none hh (.inl rfl) .front
    refine ⟨s, log ++ [], ?_, ⟨hh, .refl _ _, rfl, hp⟩, rfl⟩
    unfold drain
    rw [Act.bind_ok hpop]
    rfl
  | succ n ih =>
    unfold drain
    by_cases hv : vs = []
    · subst hv
      obtain rfl := List.eq_nil_of_length_eq_zero (hh.length_eq.symm.trans rfl)
      obtain ⟨log, hpop⟩ := pop_none hh (.inl rfl) .front
      rw [Act.bind_ok hpop]
      exact ⟨s, _, rfl, ⟨hh, .refl _ _, rfl, hp⟩, rfl⟩
    · obtain ⟨i, ns', v, vs', rfl, rfl⟩ := hh.exists_entry .front hv
      obtain ⟨t, hpop, hb, hpool⟩ := pop_ok hh hp ho
      have hn' : vs'.length ≤ n := by
        rw [← (Ring.Side.front.perm_add (x := v)).length_eq, List.length_cons] at hn
        omega
      obtain ⟨u, log', hdrain, hb', hall⟩ := ih hb.holds hb.tidy (hb.open ho) hn'
      rw [Act.bind_ok hpop]
      dsimp only
      rw [hdrain]
      refine ⟨u, _, rfl, ⟨hb'.holds, hb.moves.trans hb'.moves, hb'.hold.trans hb.hold, hb'.tidy⟩, ?_⟩
      rw [hall, hpool]
      rfl

theorem clear_ok (hh : s.handles.Holds ns vs) (hp : s.pool.value.Tidy) (ho : s.Open) : ∃ t log,
    clear s = ⟨.ok (), t, log⟩ ∧ s.Becomes ns t [] [] ∧
    t.pool.value = TextPool.reclaimAll vs s.pool.value := by
  unfold clear
  rw [Act.get_bind]
  exact drain_ok s.ring.len hh hp ho hh.len_eq.ge

/-- While the arena or the pool is held, nothing is removed. -/
theorem clear_closed (ho : ¬s.Open) : ∃ log, clear s = ⟨.ok (), s, log⟩ := by
  obtain ⟨log, hpop⟩ := pop_closed ho .front
  unfold clear
  rw [Act.get_bind]
  cases s.ring.len with
  | zero => exact ⟨_, Act.bind_ok hpop⟩
  | succ n => exact ⟨_, Act.bind_ok hpop⟩

/-- **A ring that is given up gives all of its slots back**, while nobody holds the arena or the
pool. -/
theorem drop_pool (hh : s.handles.Holds ns vs) (hp : s.pool.value.Tidy) (ho : s.Open) :
    (drop s).state.pool.value = TextPool.reclaimAll vs s.pool.value := by
  obtain ⟨t, log, hclear, -, hall⟩ := clear_ok hh hp ho
  unfold drop
  rw [Act.bind_ok hclear]
  exact hall

theorem drop_posts (hh : s.handles.Holds ns vs) (ho : s.Open) (W F : List TextHandle) :
    Posts W (vs ++ F) s.pool.value (fun L => L) F (drop s).state.pool.value := by
  refine .of_tidy fun hp => ?_
  rw [drop_pool hh hp ho]
  exact TextPool.reclaimAll_posts vs W F s.pool.value

/-! ### Postings -/

/-- **What an operation posts to the ledger of the pool**, and the ring it leaves. -/
def Site.Posts (s : Site) (f : List TextHandle → List TextHandle) (t : Site) : Prop :=
  ∀ ns vs, s.handles.Holds ns vs → s.nodes.value.Sound → s.pool.value.Tidy →
    ∃ ns' vs', t.handles.Holds ns' vs' ∧ TextPool.Posts [] vs s.pool.value f vs' t.pool.value

theorem Site.Posts.refl (s : Site) : s.Posts (fun L => L) s :=
  fun ns vs hh _ _ => ⟨ns, vs, hh, .refl [] vs s.pool.value⟩

/-- The handles that callers have left when a text ring took one of them, or refused it. -/
def stillLent (result : Except Error Unit) (h : TextHandle) (L : List TextHandle) : List TextHandle :=
  match result with
  | .ok _ => L.erase h
  | .error _ => L

/-- A handle goes from a caller to the ring, or nothing happens. -/
theorem posts_push (side : Ring.Side) (h : TextHandle) (s : Site) :
    s.Posts (stillLent (push side h s).result h) (push side h s).state := by
  intro ns vs hh hs hp
  by_cases ht : ∃ text, s.Takes h text
  · obtain ⟨text, ht⟩ := ht
    obtain ⟨i, t, log, hpush, hb, hcat⟩ := push_ok hh hs hp ht side
    rw [hpush]
    refine ⟨_, _, hb.holds, ?_⟩
    exact (Posts.claim (TextPool.Catalog.pool_of_find ht.lent) hb.tidy hcat ht.lent rfl).perm_right
      side.perm_add
  · obtain ⟨e, log, hpush, -⟩ := push_refused hh (fun text htakes => ht ⟨text, htakes⟩) side
    rw [hpush]
    exact ⟨ns, vs, hh, .refl [] vs s.pool.value⟩

theorem posts_pushText (text : String) (s : Site) :
    s.Posts (fun L => L) (pushText text s).state := by
  intro ns vs hh hs hp
  by_cases hroom : s.Open ∧ s.nodes.value.freeList.next? ≠ none ∧
      s.pool.value.catalog.firstFree ≠ none
  · obtain ⟨ho, hnext, hfirst⟩ := hroom
    obtain ⟨k, hfree⟩ := Option.ne_none_iff_exists'.1 hfirst
    obtain ⟨i, t, h, log, hpush, hb, hid, hnone, hcat⟩ := pushText_ok hp hh hs ho hnext hfree text
    rw [hpush]
    refine ⟨_, _, hb.holds, (Posts.take hid hb.tidy hcat hnone rfl).perm_right ?_⟩
    exact (List.perm_append_singleton h vs).symm
  · obtain ⟨e, p, log, hpush, hp', hcat, -⟩ := pushText_refused hp hh hroom text
    rw [hpush]
    exact ⟨ns, vs, hh, .of_catalog hp' hcat⟩

/-- A handle is given back, or nothing happens. -/
theorem posts_pop (side : Ring.Side) (s : Site) : s.Posts (fun L => L) (pop side s).state := by
  intro ns vs hh hs hp
  by_cases hn : vs = [] ∨ ¬s.Open
  · obtain ⟨log, hpop⟩ := pop_none hh hn side
    rw [hpop]
    exact ⟨ns, vs, hh, .refl [] vs s.pool.value⟩
  · rw [not_or, not_not] at hn
    obtain ⟨i, ns', v, vs', rfl, rfl⟩ := hh.exists_entry side hn.1
    obtain ⟨t, hpop, hb, hpool⟩ := pop_ok hh hp hn.2
    rw [hpop]
    refine ⟨ns', vs', hb.holds, ?_⟩
    rw [hpool]
    exact (TextPool.reclaim_posts v [] vs' s.pool.value).perm_left side.perm_add

theorem posts_clear (s : Site) : s.Posts (fun L => L) (clear s).state := by
  intro ns vs hh hs hp
  by_cases ho : s.Open
  · obtain ⟨t, log, hclear, hb, hall⟩ := clear_ok hh hp ho
    rw [hclear]
    refine ⟨_, _, hb.holds, ?_⟩
    have hposts := TextPool.reclaimAll_posts vs [] [] s.pool.value
    rwa [List.append_nil, ← hall] at hposts
  · obtain ⟨log, hclear⟩ := clear_closed ho
    rw [hclear]
    exact ⟨ns, vs, hh, .refl [] vs s.pool.value⟩

end TextRing

end FixedArena
