import FixedArena.Proofs.Text.Queue

/-!
Text rings as lists of owned texts. An entry is a handle and the text that the pool has in its slot. No
handle is in two entries, so that a slot that is given back takes away one entry, and a slot that is
taken changes none.

Main facts:
* `Site.Shows`: the entries of a text ring;
* `Shows.push_ok`, `Shows.pushText_ok`, `Shows.pop_ok`: what adds and removes an entry;
* `Shows.drop_ok`, `Shows.intoTexts_eq`: the end of a text ring;
* `Shows.text_eq`, `Shows.position_eq`: what reads the entries.
-/

namespace FixedArena

namespace TextPool

variable {p : TextPool} {h : TextHandle} {e : Entry}

/-- **A slot that is given back** is free again, and no other entry changes. -/
theorem reclaim_found (hp : p.Tidy) (hf : p.catalog.find h = some e) :
    (reclaim h p).state.catalog = p.catalog.put h.index.toNat none ∧
      (reclaim h p).state.available = p.available + 1 ∧ (reclaim h p).events = [] := by
  have hreclaim : reclaim h p = ⟨.ok true, p.takeBack h.index.toNat, []⟩ := by
    unfold reclaim
    rw [locate_eq, hf]
  obtain ⟨hpos, hc⟩ := takeBack_found hp hf
  have hle := hp.live_le
  have hcap : (p.takeBack h.index.toNat).capacity = p.capacity := Array.size_setIfInBounds ..
  rw [hreclaim]
  refine ⟨hc.catalog_eq hp, ?_, rfl⟩
  unfold available
  rw [hcap]
  change p.capacity - (p.live - 1) = _
  omega

end TextPool

namespace TextRing

variable {s : Site} {ns : List UInt32} {es : List (TextHandle × String)} {h : TextHandle}
  {t : String} {side : Ring.Side}

theorem Site.Open.admits (ho : s.Open) :
    s.nodes.hold.admits .shared = true ∧ s.pool.hold.admits .shared = true := by
  rw [ho.nodes, ho.pool]
  exact ⟨rfl, rfl⟩

/-! ### Reading handles -/

section Reading

variable {vs : List TextHandle} (hh : s.handles.Holds ns vs) (ho : s.Open)

include hh ho

/-- The text at a position is what the pool has in the slot of its handle. -/
theorem text_eq (index : Nat) : text index s = ⟨match vs[index]? with
    | some h => s.pool.value.text h
    | none => .error (.outOfBounds index vs.length), s, []⟩ := by
  have hget : get index s = ⟨if hi : index < vs.length then .ok vs[index]
      else .error (.outOfBounds index vs.length), s, []⟩ :=
    onHandles_eq (Ring.get_ok hh ho.admits.1 index)
  unfold text
  by_cases hi : index < vs.length
  · rw [dif_pos hi] at hget
    rw [Act.bind_ok hget, List.getElem?_eq_getElem hi]
    unfold onPool TextPool.reading
    rw [Act.zoom_apply, Guarded.reading_free _ _ _ ho.pool]
    rfl
  · rw [dif_neg hi] at hget
    rw [Act.bind_error hget, List.getElem?_eq_none (Nat.le_of_not_lt hi)]

theorem toList_eq : toList s = .ok vs := Ring.toList_ok hh ho.admits.1

theorem position_eq (t : String) : position t s =
    .ok (vs.findIdx? fun h => (s.pool.value.text h).toOption == some t) := by
  unfold position
  rw [if_pos ho.admits.2, toList_eq hh ho]
  rfl

theorem texts_eq : texts s =
    ⟨.ok (vs.map fun h => (s.pool.value.text h).toOption.getD ""), s, []⟩ := by
  unfold texts
  rw [Act.get_bind, if_pos ho.admits.2, Act.read_bind_ok (toList_eq hh ho)]
  rfl

end Reading

/-! ### Entries -/

/-- **The entries of a text ring**: its handles, each with its text. -/
structure Site.Shows (s : Site) (ns : List UInt32) (es : List (TextHandle × String)) : Prop where
  holds : s.handles.Holds ns (es.map Prod.fst)
  tidy : s.pool.value.Tidy
  nodup : (es.map Prod.fst).Nodup
  texts : ∀ e ∈ es, s.pool.value.catalog.find e.1 = some ⟨e.2, true⟩

namespace Site.Shows

/-- A handle that nobody owns is in no entry. -/
theorem ne_of_notOwned (hs : s.Shows ns es)
    (hf : ∀ u, s.pool.value.catalog.find h ≠ some ⟨u, true⟩) {e : TextHandle × String}
    (he : e ∈ es) : e.1 ≠ h := by
  rintro rfl
  exact hf e.2 (hs.texts e he)

theorem notMem_of_notOwned (hs : s.Shows ns es)
    (hf : ∀ u, s.pool.value.catalog.find h ≠ some ⟨u, true⟩) : h ∉ es.map Prod.fst := by
  intro hm
  obtain ⟨e, he, rfl⟩ := List.mem_map.1 hm
  exact hs.ne_of_notOwned hf he rfl

/-- A slot becomes a new entry, and all others stay. -/
theorem added {u : Site} {ns' : List UInt32} (hs : s.Shows ns es)
    (hb : s.Becomes ns u ns' (side.add h (es.map Prod.fst)))
    (hid : h.pool = s.pool.value.id)
    (hf : ∀ v, s.pool.value.catalog.find h ≠ some ⟨v, true⟩)
    (hcat : u.pool.value.catalog = s.pool.value.catalog.put h.index.toNat (some ⟨t, true⟩)) :
    u.Shows ns' (side.add (h, t) es) := by
  refine ⟨?_, hb.tidy, ?_, fun e he => ?_⟩
  · rw [side.map_add]
    exact hb.holds
  · rw [side.map_add]
    exact side.perm_add.nodup_iff.1 (List.nodup_cons.2 ⟨hs.notMem_of_notOwned hf, hs.nodup⟩)
  · rw [hcat]
    rcases side.mem_add.1 he with rfl | he
    · exact TextPool.Catalog.find_put_self hid
    · rw [TextPool.Catalog.find_put_of_ne hid (hs.ne_of_notOwned hf he)]
      exact hs.texts e he

/-! ### Adding and removing -/

section Ops

variable (hs : s.Shows ns es)

include hs

/-- **A caller's handle becomes an entry**, with the text that its slot has. -/
theorem push_ok (hsound : s.nodes.value.Sound) (ht : s.Takes h t) (side : Ring.Side) :
    ∃ u ns' log, push side h s = ⟨.ok (), u, log⟩ ∧ u.Shows ns' (side.add (h, t) es) := by
  obtain ⟨i, u, log, hpush, hb, hcat⟩ := TextRing.push_ok hs.holds hsound hs.tidy ht side
  refine ⟨u, _, log, hpush, hs.added hb (TextPool.Catalog.pool_of_find ht.lent) ?_ hcat⟩
  intro v hv
  rw [ht.lent] at hv
  cases hv

/-- **A text becomes the last entry**, as much of it as fits. -/
theorem pushText_ok (hsound : s.nodes.value.Sound) (ho : s.Open)
    (hroom : s.nodes.value.freeList.next? ≠ none)
    (hfree : s.pool.value.catalog.firstFree ≠ none) (t : String) : ∃ h u ns' log,
    pushText t s = ⟨.ok h, u, log⟩ ∧
      u.Shows ns' (es ++ [(h, Text.clip t s.pool.value.maxLen)]) := by
  obtain ⟨k, hfree⟩ := Option.ne_none_iff_exists'.1 hfree
  obtain ⟨i, u, h, log, hpush, hb, hid, hnone, hcat⟩ :=
    TextRing.pushText_ok hs.tidy hs.holds hsound ho hroom hfree t
  have hb' : s.Becomes ns u _ (Ring.Side.back.add h (es.map Prod.fst)) := hb
  refine ⟨h, u, _, log, hpush, hs.added hb' hid ?_ hcat⟩
  intro v hv
  rw [hnone] at hv
  cases hv

theorem pushText_refused (hn : ¬(s.Open ∧ s.nodes.value.freeList.next? ≠ none ∧
    s.pool.value.catalog.firstFree ≠ none)) (t : String) : ∃ e u log,
    pushText t s = ⟨.error e, u, log⟩ ∧ u.Shows ns es := by
  obtain ⟨e, p, log, hpush, hp, hcat, -⟩ := TextRing.pushText_refused hs.tidy hs.holds hn t
  refine ⟨e, s.withPool p, log, hpush, hs.holds, hp, hs.nodup, fun e he => ?_⟩
  change p.catalog.find e.1 = _
  rw [hcat]
  exact hs.texts e he

/-- **An entry is removed**, and its slot is free again. -/
theorem pop_ok (ho : s.Open) (side : Ring.Side) : ∃ u ns',
    pop side s = ⟨.ok ((side.outer? es).map Prod.fst), u, []⟩ ∧ u.Shows ns' (side.shorten es) ∧
    u.Open ∧ ∀ e ∈ side.outer? es, u.pool.value.catalog.find e.1 = none ∧
      u.pool.value.available = s.pool.value.available + 1 := by
  by_cases hes : es = []
  · subst hes
    have hadmits : s.pool.hold.admits .exclusive = true := by
      rw [ho.pool]
      rfl
    have hnone : side.outer? ([] : List (TextHandle × String)) = none := by cases side <;> rfl
    have hnil : side.shorten ([] : List (TextHandle × String)) = [] := by cases side <;> rfl
    rw [hnone, hnil]
    exact ⟨s, ns, pop_empty hs.holds hadmits side, hs, ho, nofun⟩
  · obtain ⟨⟨h, t⟩, es, rfl⟩ := side.exists_eq_add hes
    obtain ⟨i, ns, rfl⟩ : ∃ i ns', ns = side.add i ns' := by
      obtain ⟨i, ns', -, -, rfl, -⟩ := hs.holds.exists_entry side (by simpa using hes)
      exact ⟨i, ns', rfl⟩
    have hholds := hs.holds
    have hnodup := hs.nodup
    rw [side.map_add] at hholds hnodup
    obtain ⟨u, hpop, hb, hpool⟩ := TextRing.pop_ok hholds hs.tidy ho
    have hown : s.pool.value.catalog.find h = some ⟨t, true⟩ :=
      hs.texts (h, t) (side.mem_add.2 (.inl rfl))
    have hid := TextPool.Catalog.pool_of_find hown
    obtain ⟨hcat, havail, hlog⟩ := TextPool.reclaim_found hs.tidy hown
    rw [hlog] at hpop
    rw [← hpool] at hcat havail
    obtain ⟨hnot, hnodup'⟩ := List.nodup_cons.1 (side.perm_add.nodup_iff.2 hnodup)
    rw [side.outer?_add, side.shorten_add]
    refine ⟨u, ns, hpop, ⟨hb.holds, hb.tidy, hnodup', fun e he => ?_⟩, hb.open ho, fun e he => ?_⟩
    · have hne : e.1 ≠ h := fun heq => hnot (List.mem_map.2 ⟨e, he, heq⟩)
      rw [hcat, TextPool.Catalog.find_put_of_ne hid hne]
      exact hs.texts e (side.mem_add.2 (.inr he))
    · obtain rfl := Option.mem_some_iff.1 he
      exact ⟨hcat ▸ TextPool.Catalog.find_put_self hid, havail⟩

/-! ### Giving up -/

omit hs in
/-- Draining as many times as there are entries leaves none. -/
theorem drain_ok (n : Nat) (hs : s.Shows ns es) (ho : s.Open) (hn : es.length ≤ n) :
    ∃ u ns', drain n s = ⟨.ok (), u, []⟩ ∧ u.Shows ns' [] ∧ u.Open := by
  induction n generalizing s ns es with
  | zero =>
    obtain rfl := List.eq_nil_of_length_eq_zero (Nat.le_zero.1 hn)
    obtain ⟨u, ns', hpop, hu, hou, -⟩ := hs.pop_ok ho .front
    refine ⟨u, ns', ?_, hu, hou⟩
    unfold drain
    rw [Act.bind_ok hpop]
    rfl
  | succ n ih =>
    obtain ⟨u, ns', hpop, hu, hou, -⟩ := hs.pop_ok ho .front
    unfold drain
    rw [Act.bind_ok hpop]
    cases es with
    | nil => exact ⟨u, ns', rfl, hu, hou⟩
    | cons e es =>
      obtain ⟨v, ns'', hdrain, hv, hov⟩ := ih hu hou (Nat.le_of_succ_le_succ hn)
      refine ⟨v, ns'', ?_, hv, hov⟩
      exact congrArg (fun o => Outcome.mk o.result o.state ([] ++ o.events)) hdrain

theorem clear_ok (ho : s.Open) :
    ∃ u ns', clear s = ⟨.ok (), u, []⟩ ∧ u.Shows ns' [] ∧ u.Open := by
  have hlen : s.ring.len = es.length := hs.holds.len_eq.trans (List.length_map ..)
  unfold clear
  rw [Act.get_bind]
  exact drain_ok s.ring.len hs ho hlen.ge

/-- **A ring is given up**, and nothing is logged. -/
theorem drop_ok (ho : s.Open) : ∃ u, drop s = ⟨.ok (), u, []⟩ := by
  obtain ⟨u, ns', hclear, hu, hou⟩ := hs.clear_ok ho
  obtain ⟨t, hdrop, -⟩ := Ring.drop_ok hu.holds hou.nodes
  unfold drop
  rw [Act.bind_ok hclear, onHandles_eq hdrop]
  exact ⟨_, rfl⟩

/-! ### Reading -/

/-- The pool reads every entry as its text. -/
theorem read {e : TextHandle × String} (he : e ∈ es) : s.pool.value.text e.1 = .ok e.2 := by
  rw [hs.tidy.text_eq, hs.texts e he]

theorem map_text : (es.map Prod.fst).map (fun h => (s.pool.value.text h).toOption) =
    es.map fun e => some e.2 := by
  rw [List.map_map]
  refine List.map_congr_left fun e he => ?_
  simp only [Function.comp_apply, hs.read he]
  rfl

variable (ho : s.Open)

include ho

/-- **The text at a position** is that of the entry there. -/
theorem text_eq (index : Nat) : TextRing.text index s = ⟨match es[index]? with
    | some e => .ok e.2
    | none => .error (.outOfBounds index es.length), s, []⟩ := by
  rw [TextRing.text_eq hs.holds ho, List.getElem?_map, List.length_map]
  cases he : es[index]? with
  | none => rfl
  | some e =>
    dsimp only [Option.map_some]
    rw [hs.read (List.mem_of_getElem? he)]

/-- **The first position** whose text is the one that is looked for. -/
theorem position_eq (t : String) : position t s = .ok (es.findIdx? fun e => e.2 == t) := by
  let read : TextHandle → Option String := fun h => (s.pool.value.text h).toOption
  rw [TextRing.position_eq hs.holds ho]
  congr 1
  calc (es.map Prod.fst).findIdx? ((· == some t) ∘ read)
      = ((es.map Prod.fst).map read).findIdx? (· == some t) := List.findIdx?_map.symm
    _ = (es.map fun e => some e.2).findIdx? (· == some t) := by rw [hs.map_text]
    _ = es.findIdx? ((· == some t) ∘ fun e => some e.2) := List.findIdx?_map

/-- **A ring that is given up for its texts** answers with all of them, from front to back. -/
theorem intoTexts_eq : ∃ u, intoTexts s = ⟨.ok (es.map Prod.snd), u, []⟩ := by
  let read : TextHandle → Option String := fun h => (s.pool.value.text h).toOption
  have htexts : TextRing.texts s = ⟨.ok (es.map Prod.snd), s, []⟩ := by
    rw [TextRing.texts_eq hs.holds ho]
    congr 2
    calc (es.map Prod.fst).map ((·.getD "") ∘ read)
        = ((es.map Prod.fst).map read).map (·.getD "") := List.map_map.symm
      _ = (es.map fun e => some e.2).map (·.getD "") := by rw [hs.map_text]
      _ = es.map ((·.getD "") ∘ fun e => some e.2) := List.map_map
  have hsettled : Act.settled TextRing.texts s = ⟨.ok (.ok (es.map Prod.snd)), s, []⟩ := by
    unfold Act.settled
    rw [htexts]
  obtain ⟨u, hdrop⟩ := hs.drop_ok ho
  refine ⟨u, ?_⟩
  unfold intoTexts
  rw [Act.bind_ok hsettled, Act.bind_ok hdrop]
  rfl

end Ops

end Site.Shows

end TextRing

end FixedArena
