import FixedArena.Proofs.Ring.Holds

/-!
The operations of a ring, told as operations on the list that it holds. Each of them has one
equation for every way it can end; a held arena changes nothing.

Main facts:
* `push_ok`, `push_full`, `pop_ok`, `pop_empty`, `peek_ok`, `get_ok`, `set_ok`, `clear_ok`,
  `drop_ok`, `create_ok`: what the operations answer, leave behind and log;
* `Moves`, `Advances`: what an operation does to the blocks of its ring and to all others;
* `advances_push`, `advances_pop`, `advances_set`, `advances_clear`: no operation, be the arena held
  or not, leaves a ring without a list.
-/

namespace FixedArena

namespace Ring

variable {α β : Type} {s t u : Site α} {ns ns' ns'' : List UInt32} {vs vs' : List α} {side : Side}
  {v : α} {i : UInt32} {rest : FreeList}

namespace Site

/-- The site with so many values and another arena; the head and the holds stay. -/
def turned (s : Site α) (len : Nat) (b : BlockArena) : Site α :=
  ⟨⟨s.ring.head, len⟩, { s.nodes with value := b }⟩

/-- From one site to another, the ring turned its blocks over; its head and the holds stayed. -/
structure Moves (s : Site α) (ns : List UInt32) (t : Site α) (ns' : List UInt32) : Prop where
  head : t.ring.head = s.ring.head
  hold : t.nodes.hold = s.nodes.hold
  turns : s.nodes.value.Turns (s.ring.head.index :: ns) t.nodes.value (t.ring.head.index :: ns')

theorem Moves.refl (s : Site α) (ns : List UInt32) : s.Moves ns s ns := ⟨rfl, rfl, .refl _ _⟩

theorem Moves.trans (hst : s.Moves ns t ns') (htu : t.Moves ns' u ns'') : s.Moves ns u ns'' :=
  ⟨htu.head.trans hst.head, htu.hold.trans hst.hold, hst.turns.trans htu.turns⟩

end Site

/-! ### Access to the arena -/

theorem writing_free {x : Ring α → Act Error BlockArena β} {result : Except Error β}
    {b : BlockArena} {log : List Event} (hf : s.nodes.hold = .free)
    (hx : x s.ring s.nodes.value = ⟨result, b, log⟩) :
    writing x s = ⟨result, s.turned s.ring.len b, log⟩ := by
  unfold writing
  rw [Act.get_bind, Act.zoom_apply, Guarded.writing_free _ _ _ hf, hx]
  rfl

theorem writing_busy (x : Ring α → Act Error BlockArena β) (hf : s.nodes.hold ≠ .free) :
    writing x s = ⟨.error nodesBusy, s, []⟩ := by
  unfold writing
  rw [Act.get_bind, Act.zoom_apply, Guarded.writing_busy _ _ _ hf]

theorem reading_ok {f : Ring α → BlockArena → Except Error β} {result : Except Error β}
    (hf : s.nodes.hold.admits .shared = true) (hx : f s.ring s.nodes.value = result) :
    reading f s = ⟨result, s, []⟩ := by
  unfold reading
  rw [Act.get_bind, Act.zoom_apply, Guarded.reading_apply, if_pos hf, hx]

/-- Reading changes nothing. -/
theorem state_reading (f : Ring α → BlockArena → Except Error β) : (reading f s).state = s := by
  unfold reading
  rw [Act.get_bind, Act.zoom_apply, Guarded.reading_apply]

variable [Element α]

/-- The ring holds a list on its arena. -/
abbrev Site.Holds (s : Site α) (ns : List UInt32) (vs : List α) : Prop :=
  s.ring.Holds s.nodes.value ns vs

/-! ### Adding a value -/

theorem push_busy (side : Side) (v : α) (hf : s.nodes.hold ≠ .free) :
    push side v s = ⟨.error nodesBusy, s, []⟩ := by
  unfold push
  exact Act.bind_error (writing_busy _ hf)

/-- Between the head and its neighbour is the gap at an end. -/
theorem link_end (h : s.Holds ns vs) (side : Side) (v : α) :
    (Act.read (linkOf · s.ring.head.index side.link) >>= fun neighbour =>
      match side with
      | .front => linkIn s.ring.head.index neighbour v
      | .back => linkIn neighbour s.ring.head.index v) s.nodes.value =
    linkIn (side.before s.ring.head.index ns) (side.behind s.ring.head.index ns) v
      s.nodes.value := by
  simp only [Act.read_bind, h.circle.linkOf_end side]
  cases side <;> rfl

/-- A push links a node in while a block is free. -/
theorem push_eq (h : s.Holds ns vs) (hf : s.nodes.hold = .free) (hs : s.nodes.value.Sound)
    (hn : s.nodes.value.freeList.next? = some (i, rest)) (side : Side) (v : α) :
    push side v s = ⟨.ok (), s.turned (s.ring.len + 1) (linkedIn s.nodes.value i rest
      (side.before s.ring.head.index ns) (side.behind s.ring.head.index ns) v),
      s.nodes.value.peakLog⟩ := by
  have hp := h.inUse (side.before_mem s.ring.head.index ns)
  have hq := h.inUse (side.behind_mem s.ring.head.index ns)
  have hx := (link_end h side v).trans (linkIn_ok hs hn h.wide hp hq)
  unfold push
  apply (Act.bind_ok (writing_free hf hx)).trans
  simp [setLen, Site.turned]

/-- **A push is refused if no block is free.** -/
theorem push_full (h : s.Holds ns vs) (hf : s.nodes.hold = .free)
    (hn : s.nodes.value.freeList.next? = none) (side : Side) (v : α) :
    push side v s = ⟨.error (.full BlockArena.kind s.nodes.value.capacity), s,
      [.blocksExhausted s.nodes.value.capacity]⟩ := by
  have hx := (link_end h side v).trans (linkIn_full hn)
  unfold push
  exact Act.bind_error (writing_free hf hx)

/-! ### Removing a value -/

theorem pop_empty (side : Side) (h0 : s.ring.len = 0) : pop side s = ⟨.ok none, s, []⟩ := by
  unfold pop
  rw [Act.get_bind, if_pos (by simpa [isEmpty] using h0)]
  rfl

theorem pop_busy (side : Side) (h0 : s.ring.len ≠ 0) (hf : s.nodes.hold ≠ .free) :
    pop side s = ⟨.ok none, s, [.popFailed nodesBusy]⟩ := by
  have hx := writing_busy (s := s) (fun r => linkOut (α := α) r.head.index side.link) hf
  have ha := Act.attempt_of_error hx rfl
  unfold pop
  rw [Act.get_bind, if_neg (by simpa [isEmpty] using h0), Act.bind_ok ha]
  rfl

/-- A pop links the node at the end out. -/
theorem pop_eq (h : s.Holds (side.add i ns) (side.add v vs)) (hf : s.nodes.hold = .free) :
    pop side s = ⟨.ok (some v), s.turned (s.ring.len - 1) (linkedOut s.nodes.value i
      (side.before s.ring.head.index ns) (side.behind s.ring.head.index ns)), []⟩ := by
  have hu : ∀ j ∈ s.ring.head.index :: ns, s.nodes.value.InUse j :=
    fun j hj => h.inUse (side.subset_add _ hj)
  have hi := h.inUse (List.mem_cons_of_mem _ (side.mem_add.2 (.inl rfl)))
  obtain ⟨hpi, hiq⟩ := h.circle.linked_entry
  have hend := h.circle.linkOf_end side
  rw [Side.neighbour, Side.outer?_add, Option.getD_some] at hend
  have hout := linkOut_ok h.links_fit hi (hu _ (side.before_mem _ ns))
    (hu _ (side.behind_mem _ ns)) hend h.valueOf_entry hiq.1 hpi.2
  have hx := writing_free (x := fun r => linkOut (α := α) r.head.index side.link) hf hout
  have ha := Act.attempt_of_ok hx
  have h0 : s.ring.len ≠ 0 := by
    rw [h.len, side.length_add]
    omega
  unfold pop
  rw [Act.get_bind, if_neg (by simpa [isEmpty] using h0), Act.bind_ok ha]
  rfl

/-! ### Looking at values -/

theorem peek_empty (side : Side) (h0 : s.ring.len = 0) : peek side s = ⟨.error .empty, s, []⟩ := by
  unfold peek
  rw [Act.get_bind, if_pos (by simpa [isEmpty] using h0)]
  rfl

/-- **A peek answers with the value at the end.** -/
theorem peek_ok (h : s.Holds (side.add i ns) (side.add v vs))
    (hf : s.nodes.hold.admits .shared = true) : peek side s = ⟨.ok v, s, []⟩ := by
  have hend := h.circle.linkOf_end side
  rw [Side.neighbour, Side.outer?_add, Option.getD_some] at hend
  have h0 : s.ring.len ≠ 0 := by
    rw [h.len, side.length_add]
    omega
  unfold peek
  rw [Act.get_bind, if_neg (by simpa [isEmpty] using h0)]
  apply reading_ok hf
  rw [hend]
  exact h.valueOf_entry

/-- The node at a position. -/
theorem Holds.nodeAt_eq {r : Ring α} {a : BlockArena} (h : r.Holds a ns vs) (index : Nat) :
    r.nodeAt a index =
      if hi : index < ns.length then .ok ns[index] else .error (.outOfBounds index vs.length) := by
  unfold nodeAt
  rw [h.len_eq, h.length_eq]
  by_cases hi : index < ns.length
  · have hget : (r.head.index :: ns ++ [r.head.index])[index + 1]? = some ns[index] := by
      rw [List.cons_append, List.getElem?_cons_succ, List.getElem?_append_left hi]
      exact List.getElem?_eq_getElem hi
    rw [if_neg (by omega), dif_pos hi]
    exact h.circle.follow hget
  · rw [if_pos (by omega), dif_neg hi]

/-- **Looking up a position answers with the value there, or that it lies past the end.** -/
theorem get_ok (h : s.Holds ns vs) (hf : s.nodes.hold.admits .shared = true) (index : Nat) :
    get index s = ⟨if hi : index < vs.length then .ok vs[index]
      else .error (.outOfBounds index vs.length), s, []⟩ := by
  apply reading_ok hf
  rw [h.nodeAt_eq index]
  by_cases hi : index < ns.length
  · have hv : index < vs.length := by rwa [h.length_eq]
    rw [dif_pos hi, dif_pos hv]
    exact h.valueOf_getElem hi hv
  · rw [dif_neg hi, dif_neg (by rwa [h.length_eq])]
    rfl

theorem set_busy (index : Nat) (v : α) (hf : s.nodes.hold ≠ .free) :
    set index v s = ⟨.error nodesBusy, s, []⟩ := writing_busy _ hf

/-- Setting a position sets the value of the node there. -/
theorem set_eq (h : s.Holds ns vs) (hf : s.nodes.hold = .free) {index : Nat}
    (hi : index < ns.length) (v : α) :
    set index v s = ⟨.ok (), s.turned s.ring.len (s.nodes.value.putValue ns[index] v), []⟩ := by
  apply writing_free hf
  simp only [Act.read_bind, h.nodeAt_eq index, dif_pos hi]
  exact setValue_ok (h.used _ (List.getElem_mem hi)) h.wide

theorem set_outOfBounds (h : s.Holds ns vs) (hf : s.nodes.hold = .free) {index : Nat}
    (hi : ¬index < ns.length) (v : α) :
    set index v s = ⟨.error (.outOfBounds index vs.length), s, []⟩ := by
  apply writing_free hf
  simp only [Act.read_bind, h.nodeAt_eq index, dif_neg hi]

theorem state_peek (side : Side) (s : Site α) : (peek side s).state = s := by
  unfold peek
  rw [Act.get_bind]
  split
  · rfl
  · exact state_reading _

theorem state_get (index : Nat) (s : Site α) : (get index s).state = s := state_reading _

/-! ### What becomes of the values and of the blocks -/

/-- **A push adds the value while a block is free.** -/
theorem push_ok (h : s.Holds ns vs) (hf : s.nodes.hold = .free) (hs : s.nodes.value.Sound)
    (hn : s.nodes.value.freeList.next? = some (i, rest)) (side : Side) (v : α) : ∃ t,
    push side v s = ⟨.ok (), t, s.nodes.value.peakLog⟩ ∧
    t.Holds (side.add i ns) (side.add v vs) ∧ s.Moves ns t (side.add i ns) := by
  refine ⟨_, push_eq h hf hs hn side v, h.linkedIn hs hn, ⟨rfl, rfl, ?_⟩⟩
  have ht := turns_linkedIn (v := v) hs hn h.wide (side.before_mem s.ring.head.index ns)
    (side.behind_mem s.ring.head.index ns)
  exact ht.perm_right (side.perm_cons_add _)

/-- **A pop removes the value at the end and answers with it.** -/
theorem pop_ok (h : s.Holds (side.add i ns) (side.add v vs)) (hf : s.nodes.hold = .free) : ∃ t,
    pop side s = ⟨.ok (some v), t, []⟩ ∧ t.Holds ns vs ∧ s.Moves (side.add i ns) t ns := by
  refine ⟨_, pop_eq h hf, h.linkedOut, ⟨rfl, rfl, ?_⟩⟩
  have hi := h.used i (side.mem_add.2 (.inl rfl))
  have ht := turns_linkedOut h.links_fit hi (side.before_mem s.ring.head.index ns)
    (side.behind_mem s.ring.head.index ns)
  exact ht.perm_left (side.perm_cons_add _)

/-- **Setting a position replaces the value there.** -/
theorem set_ok (h : s.Holds ns vs) (hf : s.nodes.hold = .free) {index : Nat}
    (hi : index < ns.length) (v : α) : ∃ t, set index v s = ⟨.ok (), t, []⟩ ∧
    t.Holds ns (vs.set index v) ∧ s.Moves ns t ns := by
  refine ⟨_, set_eq h hf hi v, h.putValue hi, ⟨rfl, rfl, ?_⟩⟩
  have ht := BlockArena.Turns.refl s.nodes.value (s.ring.head.index :: ns)
  exact ht.putValue h.wide (List.mem_cons_of_mem _ (List.getElem_mem hi)) v

/-! ### Emptying and dropping -/

/-- Draining as many times as there are values leaves none. -/
theorem drain_ok (h : s.Holds ns vs) (hf : s.nodes.hold = .free) : ∃ t,
    drain vs.length s = ⟨.ok (), t, []⟩ ∧ t.Holds [] [] ∧ s.Moves ns t [] := by
  induction vs generalizing s ns with
  | nil =>
    obtain rfl : ns = [] := List.length_eq_zero_iff.1 h.length_eq.symm
    exact ⟨s, rfl, h, .refl s []⟩
  | cons v vs ih =>
    obtain ⟨i, ns', w, vs', rfl, hvs⟩ := h.exists_entry .front (List.cons_ne_nil v vs)
    obtain ⟨rfl, rfl⟩ := (Side.add_inj .front).1 (show Side.front.add v vs = _ from hvs)
    obtain ⟨t, hpop, ht, hmoves⟩ := pop_ok h hf
    obtain ⟨u, hdrain, hu, hmoves'⟩ := ih ht (hmoves.hold.trans hf)
    refine ⟨u, ?_, hu, hmoves.trans hmoves'⟩
    rw [List.length_cons, drain, Act.bind_ok hpop]
    simp only [hdrain]
    rfl

/-- **Clearing leaves no value.** -/
theorem clear_ok (h : s.Holds ns vs) (hf : s.nodes.hold = .free) : ∃ t,
    clear s = ⟨.ok (), t, []⟩ ∧ t.Holds [] [] ∧ s.Moves ns t [] := by
  unfold clear
  rw [Act.get_bind, h.len_eq]
  exact drain_ok h hf

theorem clear_busy (hf : s.nodes.hold ≠ .free) :
    clear s = ⟨.ok (), s, if s.ring.len = 0 then [] else [.popFailed nodesBusy]⟩ := by
  unfold clear
  rw [Act.get_bind]
  cases hl : s.ring.len with
  | zero => rfl
  | succ n =>
    have h0 : s.ring.len ≠ 0 := by omega
    unfold drain
    rw [Act.bind_ok (pop_busy .front h0 hf)]
    rfl

/-- **Dropping gives all blocks of the ring back.** -/
theorem drop_ok (h : s.Holds ns vs) (hf : s.nodes.hold = .free) : ∃ t,
    drop s = ⟨.ok (), t, []⟩ ∧ t.nodes.hold = .free ∧
    s.nodes.value.Turns (s.ring.head.index :: ns) t.nodes.value [] := by
  obtain ⟨t, hclear, ht, hmoves⟩ := clear_ok h hf
  have hft := hmoves.hold.trans hf
  have hx := writing_free (x := fun r => BlockArena.free r.head) hft
    (BlockArena.free_ok _ _ ht.head.locate)
  have ha := Act.attempt_of_ok hx
  refine ⟨t.turned t.ring.len (t.nodes.value.takeBack t.ring.head.index), ?_, hft, ?_⟩
  · unfold drop
    rw [Act.bind_ok hclear, Act.bind_ok ha]
    rfl
  · exact hmoves.turns.trans (BlockArena.turns_takeBack ht.head.inUse)

/-- **Dropping a ring whose arena is held changes nothing.** -/
theorem drop_busy (hf : s.nodes.hold ≠ .free) :
    drop s = ⟨.ok (), s, (if s.ring.len = 0 then [] else [.popFailed nodesBusy]) ++
      [.nodesLeaked nodesBusy s.ring.len]⟩ := by
  have hx := writing_busy (s := s) (fun r => BlockArena.free r.head) hf
  have ha := Act.attempt_of_error hx rfl
  unfold drop
  rw [Act.bind_ok (clear_busy hf), Act.bind_ok ha]
  rfl

/-! ### Making a ring -/

section Create

variable {g : Guarded BlockArena}

theorem create_busy (hf : g.hold ≠ .free) :
    (create : Act Error (Guarded BlockArena) (Ring α)) g = ⟨.error nodesBusy, g, []⟩ :=
  Guarded.writing_busy _ _ _ hf

/-- What is answered about blocks that are too narrow for a node. -/
def tooNarrow (α : Type) [Element α] (width : Nat) : Error :=
  .badSizing s!"deque nodes need {nodeSize α} bytes, allocator blocks hold {width}"

theorem create_narrow (hf : g.hold = .free) (hw : g.value.blockSize < nodeSize α) :
    (create : Act Error (Guarded BlockArena) (Ring α)) g =
      ⟨.error (tooNarrow α g.value.blockSize), g, []⟩ := by
  unfold create
  rw [Guarded.writing_free _ _ _ hf, Act.get_bind, if_pos hw]
  rfl

theorem create_full (hf : g.hold = .free) (hw : nodeSize α ≤ g.value.blockSize)
    (hn : g.value.freeList.next? = none) :
    (create : Act Error (Guarded BlockArena) (Ring α)) g =
      ⟨.error (.full BlockArena.kind g.value.capacity), g,
        [.blocksExhausted g.value.capacity]⟩ := by
  unfold create newHead
  rw [Guarded.writing_free _ _ _ hf, Act.get_bind, if_neg (Nat.not_lt.2 hw),
    Act.bind_error (Act.bind_error (BlockArena.allocate_full _ hn))]

theorem newHead_ok {a : BlockArena} (hs : a.Sound) (hw : linkBytes ≤ a.blockSize)
    (hn : a.freeList.next? = some (i, rest)) :
    newHead a = ⟨.ok ⟨a.id, i, a.generation i⟩,
      ((a.handOut i rest).putLink i .next i).putLink i .prev i, a.peakLog⟩ := by
  have ha : (a.handOut i rest).Accepts ⟨a.id, i, a.generation i⟩ :=
    accepts_handOut (hs.of_next? hn).1
  unfold newHead
  rw [Act.bind_ok (BlockArena.allocate_ok a hn),
    Act.bind_ok (BlockArena.write_ok ha (link_fits hw .next i)),
    Act.bind_ok (BlockArena.write_ok ha.put (link_fits hw .prev i))]
  simp [BlockArena.peakLog, BlockArena.putLink]

/-- **A new ring holds no value and has one block, its head.** -/
theorem create_ok (hf : g.hold = .free) (hs : g.value.Sound) (hw : nodeSize α ≤ g.value.blockSize)
    (hn : g.value.freeList.next? = some (i, rest)) : ∃ (r : Ring α) (b : BlockArena),
    create g = ⟨.ok r, { g with value := b }, g.value.peakLog⟩ ∧ r.Holds b [] [] ∧
    ∀ l, g.value.Turns l b (r.head.index :: l) := by
  have hl : linkBytes ≤ g.value.blockSize := linkBytes_le hw
  obtain ⟨hlt, -⟩ := hs.of_next? hn
  have hu : (g.value.handOut i rest).InUse i := (BlockArena.inUse_handOut hlt).2 (.inl rfl)
  let b := ((g.value.handOut i rest).putLink i .next i).putLink i .prev i
  have hlink : ∀ link, linkOf b i link = .ok i := by
    intro link
    rw [linkOf_putLink (a := (g.value.handOut i rest).putLink i .next i) hu hl,
      linkOf_putLink hu hl]
    cases link <;> simp
  refine ⟨⟨⟨g.value.id, i, g.value.generation i⟩, 0⟩, b, ?_, ?_, fun l => ?_⟩
  · unfold create
    rw [Guarded.writing_free _ _ _ hf, Act.get_bind, if_neg (Nat.not_lt.2 hw),
      Act.bind_ok (newHead_ok hs hl hn)]
    simp [b]
  · refine ⟨hw, (accepts_handOut hlt).put.put, by simp, by simp, ?_, rfl, rfl⟩
    exact List.isChain_pair.2 ⟨hlink .next, hlink .prev⟩
  · have ht : g.value.Turns l (g.value.handOut i rest) (i :: l) := BlockArena.turns_handOut hs hn
    exact (ht.putLink hl List.mem_cons_self .next).putLink hl List.mem_cons_self .prev

/-- Making a ring takes a block, or changes nothing. -/
theorem create_cases (hs : g.value.Sound) :
    (∃ (r : Ring α) (b : BlockArena) (log : List Event),
      create g = ⟨.ok r, { g with value := b }, log⟩ ∧ r.Holds b [] [] ∧
      ∀ l, g.value.Turns l b (r.head.index :: l)) ∨
    ∃ e log, (create : Act Error (Guarded BlockArena) (Ring α)) g = ⟨.error e, g, log⟩ := by
  by_cases hf : g.hold = .free
  · by_cases hw : g.value.blockSize < nodeSize α
    · exact .inr ⟨_, _, create_narrow hf hw⟩
    · match hn : g.value.freeList.next? with
      | none => exact .inr ⟨_, _, create_full hf (Nat.le_of_not_lt hw) hn⟩
      | some (i, rest) =>
        obtain ⟨r, b, hcreate, hh, hturns⟩ := create_ok (α := α) hf hs (Nat.le_of_not_lt hw) hn
        exact .inl ⟨r, b, _, hcreate, hh, hturns⟩
  · exact .inr ⟨_, _, create_busy hf⟩

end Create

/-! ### Any hold of the arena -/

/-- If the ring held a list then it holds one still, and it turned its own blocks over. -/
def Site.Advances (s t : Site α) : Prop :=
  s.nodes.value.Sound → ∀ ns vs, s.Holds ns vs → ∃ ns' vs', t.Holds ns' vs' ∧ s.Moves ns t ns'

instance : IsPreorder (Site α) Site.Advances where
  refl s _ ns vs h := ⟨ns, vs, h, .refl s ns⟩
  trans s t u hst htu hs ns vs h := by
    obtain ⟨ns', vs', h', hm⟩ := hst hs ns vs h
    obtain ⟨ns'', vs'', h'', hm'⟩ := htu (hm.turns.sound hs) ns' vs' h'
    exact ⟨ns'', vs'', h'', hm.trans hm'⟩

/-- A push adds the value, or changes nothing. -/
theorem push_cases (h : s.Holds ns vs) (hs : s.nodes.value.Sound) (side : Side) (v : α) :
    (∃ i t log, push side v s = ⟨.ok (), t, log⟩ ∧ t.Holds (side.add i ns) (side.add v vs) ∧
      s.Moves ns t (side.add i ns)) ∨
    ∃ e log, push side v s = ⟨.error e, s, log⟩ := by
  by_cases hf : s.nodes.hold = .free
  · match hn : s.nodes.value.freeList.next? with
    | none => exact .inr ⟨_, _, push_full h hf hn side v⟩
    | some (i, rest) =>
      obtain ⟨t, hpush, ht, hm⟩ := push_ok h hf hs hn side v
      exact .inl ⟨i, t, _, hpush, ht, hm⟩
  · exact .inr ⟨_, _, push_busy side v hf⟩

/-- A pop removes the value at the end and answers with it, or changes nothing. -/
theorem pop_cases (h : s.Holds ns vs) (side : Side) :
    (∃ i ns' v vs' t, ns = side.add i ns' ∧ vs = side.add v vs' ∧
      pop side s = ⟨.ok (some v), t, []⟩ ∧ t.Holds ns' vs' ∧ s.Moves ns t ns') ∨
    ∃ log, pop side s = ⟨.ok none, s, log⟩ := by
  by_cases h0 : vs = []
  · have hlen : s.ring.len = 0 := by rw [h.len_eq, h0]; rfl
    exact .inr ⟨_, pop_empty side hlen⟩
  by_cases hf : s.nodes.hold = .free
  · obtain ⟨i, ns', v, vs', rfl, rfl⟩ := h.exists_entry side h0
    obtain ⟨t, hpop, ht, hm⟩ := pop_ok h hf
    exact .inl ⟨i, ns', v, vs', t, rfl, rfl, hpop, ht, hm⟩
  · have hlen : s.ring.len ≠ 0 := by
      rw [h.len_eq]
      exact fun hl => h0 (List.length_eq_zero_iff.1 hl)
    exact .inr ⟨_, pop_busy side hlen hf⟩

theorem advances_push (side : Side) (v : α) : Act.Within Site.Advances (push side v) := by
  intro s hs ns vs h
  obtain ⟨i, t, log, hpush, ht, hm⟩ | ⟨e, log, hpush⟩ := push_cases h hs side v
  · exact hpush ▸ ⟨_, _, ht, hm⟩
  · exact hpush ▸ ⟨ns, vs, h, .refl s ns⟩

theorem advances_pop (side : Side) : Act.Within Site.Advances (pop (α := α) side) := by
  intro s hs ns vs h
  obtain ⟨i, ns', v, vs', t, -, -, hpop, ht, hm⟩ | ⟨log, hpop⟩ := pop_cases h side
  · exact hpop ▸ ⟨ns', vs', ht, hm⟩
  · exact hpop ▸ ⟨ns, vs, h, .refl s ns⟩

theorem advances_set (index : Nat) (v : α) : Act.Within Site.Advances (set index v) := by
  intro s hs ns vs h
  by_cases hf : s.nodes.hold = .free
  · by_cases hi : index < ns.length
    · obtain ⟨t, hset, ht, hm⟩ := set_ok h hf hi v
      exact hset ▸ ⟨_, _, ht, hm⟩
    · exact set_outOfBounds h hf hi v ▸ ⟨ns, vs, h, .refl s ns⟩
  · exact set_busy index v hf ▸ ⟨ns, vs, h, .refl s ns⟩

/-- What every removal keeps, the removal of all values keeps. -/
theorem within_drain {Q : Site α → Site α → Prop} [IsPreorder (Site α) Q]
    (hpop : Act.Within Q (pop .front)) (n : Nat) : Act.Within Q (drain n) := by
  induction n with
  | zero => exact Act.within_pure ()
  | succ n ih =>
    refine hpop.bind fun v? => ?_
    cases v? with
    | none => exact Act.within_pure ()
    | some v => exact ih

theorem within_clear {Q : Site α → Site α → Prop} [IsPreorder (Site α) Q]
    (hpop : Act.Within Q (pop .front)) : Act.Within Q clear :=
  Act.within_get.bind fun s => within_drain hpop s.ring.len

theorem advances_clear : Act.Within Site.Advances (clear (α := α)) :=
  within_clear (advances_pop .front)

end Ring

end FixedArena
