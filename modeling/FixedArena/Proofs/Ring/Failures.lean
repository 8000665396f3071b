import FixedArena.Proofs.Ring.Foreign

/-!
What operations of a ring leave behind when they fail. Refusals come before the first change, with two
exceptions: links are set one after the other, and nothing is undone when one of them is refused. Both
exceptions need a link that leads to a block that is not in use; a ring that holds a list has none.

Main facts:
* `Site.Strands`, `push_strands`: the pushes that fail and leave a block in use that is in no ring;
* `Site.Halts`, `pop_halts`: the pops that stop after the first of two links;
* `failures`: all other operations that fail leave the ring and the arena as they were;
* `unchanged_of_holds`: all operations that fail do so on a ring that holds a list.
-/

namespace FixedArena.Ring

variable {α : Type} [Element α] {a : BlockArena} {head i n p q t u : UInt32} {link : Link}
  {rest : FreeList} {side : Side} {s : Site α} {v : α} {e : Error}

/-! ### Two links in turn -/

section Links

variable (hl : linkBytes ≤ a.blockSize)

theorem setLinks_first (hp : ¬a.InUse p) :
    (do setLink p .next t; setLink q .prev u) a = ⟨.error (.foreign p), a, []⟩ :=
  Act.bind_error (setLink_foreign hp)

include hl in
theorem setLinks_second (hp : a.InUse p) (hq : ¬a.InUse q) :
    (do setLink p .next t; setLink q .prev u) a =
      ⟨.error (.foreign q), a.putLink p .next t, []⟩ := by
  have hnext : setLink p .next t a = ⟨.ok (), a.putLink p .next t, []⟩ := setLink_ok hp hl
  rw [Act.bind_ok hnext, setLink_foreign (a := a.putLink p .next t) hq]
  rfl

include hl in
theorem setLinks_ok (hp : a.InUse p) (hq : a.InUse q) :
    (do setLink p .next t; setLink q .prev u) a =
      ⟨.ok (), (a.putLink p .next t).putLink q .prev u, []⟩ := by
  have hnext : setLink p .next t a = ⟨.ok (), a.putLink p .next t, []⟩ := setLink_ok hp hl
  have hprev : setLink q .prev u (a.putLink p .next t) =
      ⟨.ok (), (a.putLink p .next t).putLink q .prev u, []⟩ := setLink_ok hq hl
  rw [Act.bind_ok hnext, hprev]
  rfl

end Links

theorem inUse_withNode (hlt : i.toNat < a.capacity) {j : UInt32} :
    (withNode a i rest p q v).InUse j ↔ j = i ∨ a.InUse j := by
  change (a.handOut i rest).InUse j ↔ _
  exact BlockArena.inUse_handOut hlt

/-- Linking in makes the node first, and then sets the two links that lead to it. -/
theorem linkIn_eq (hs : a.Sound) (hw : nodeSize α ≤ a.blockSize)
    (hn : a.freeList.next? = some (i, rest)) {r : Except Error Unit} {b : BlockArena}
    (hlinks : (do setLink p .next i; setLink q .prev i) (withNode a i rest p q v) = ⟨r, b, []⟩) :
    linkIn p q v a = ⟨r, b, a.peakLog⟩ := by
  have hu : (a.handOut i rest).InUse i := (BlockArena.inUse_handOut (hs.of_next? hn).1).2 (.inl rfl)
  have hv : setValue i v (((a.handOut i rest).putLink i .next q).putLink i .prev p) =
      ⟨.ok (), withNode a i rest p q v, []⟩ := setValue_ok hu hw
  unfold linkIn
  rw [Act.bind_ok (newNode_ok hs hn (linkBytes_le hw)), Act.bind_ok hv, hlinks]
  simp

/-! ### Pushing -/

/-- The two nodes between which a push at an end links its node in, if the head is linked to `n`. -/
def Site.ends (s : Site α) (side : Side) (n : UInt32) : UInt32 × UInt32 :=
  match side with
  | .front => (s.ring.head.index, n)
  | .back => (n, s.ring.head.index)

omit [Element α] in
theorem Site.gap_eq (s : Site α) (side : Side) :
    s.gap side = (linkOf s.nodes.value s.ring.head.index side.link).map (s.ends side) := by
  cases side <;> rfl

omit [Element α] in
theorem Site.mem_ends {j : UInt32} (hj : j = (s.ends side n).1 ∨ j = (s.ends side n).2) :
    j = s.ring.head.index ∨ j = n := by
  cases side with
  | front => exact hj
  | back => exact hj.symm

/-- **The pushes that strand a block**: nobody holds the arena, and it has a free block; but the link of the
head leads to a block that is not in use, and that will not be in use when the node is made. -/
structure Site.Strands (s : Site α) (side : Side) (n i : UInt32) (rest : FreeList) : Prop where
  free : s.nodes.hold = .free
  linked : linkOf s.nodes.value s.ring.head.index side.link = .ok n
  next? : s.nodes.value.freeList.next? = some (i, rest)
  ne : n ≠ i
  unused : ¬s.nodes.value.InUse n

/-- What such a push leaves of the arena. The block is in use, as a node with both links and the value;
at the front the link of the head leads to it, at the back no link does. -/
def Site.stranded (s : Site α) (side : Side) (v : α) (n i : UInt32) (rest : FreeList) : BlockArena :=
  match side with
  | .front =>
    (withNode s.nodes.value i rest s.ring.head.index n v).putLink s.ring.head.index .next i
  | .back => withNode s.nodes.value i rest n s.ring.head.index v

theorem Site.takesOne_stranded (hs : s.nodes.value.Sound) (h : s.Strands side n i rest) (v : α) :
    s.nodes.value.TakesOne (s.stranded side v n i rest) := by
  obtain ⟨hlt, hfree⟩ := hs.of_next? h.next?
  cases side with
  | front => exact ⟨i, hfree, fun j => inUse_putLink.trans (inUse_withNode hlt), rfl⟩
  | back => exact ⟨i, hfree, fun j => inUse_withNode hlt, rfl⟩

section Wide

variable (hs : s.nodes.value.Sound) (hw : nodeSize α ≤ s.nodes.value.blockSize)

include hs hw

/-- **A push that strands a block** is refused, since it cannot set the link that leads back. -/
theorem push_strands (h : s.Strands side n i rest) (v : α) : push side v s =
    ⟨.error (.foreign n), s.turned s.ring.len (s.stranded side v n i rest), s.nodes.value.peakLog⟩ := by
  have hlt := (hs.of_next? h.next?).1
  have hhead := inUse_of_linkOf h.linked
  have hunused : ∀ {p q}, ¬(withNode s.nodes.value i rest p q v).InUse n :=
    fun hn => ((inUse_withNode hlt).1 hn).elim h.ne h.unused
  have hlinked : linkIn (s.ends side n).1 (s.ends side n).2 v s.nodes.value =
      ⟨.error (.foreign n), s.stranded side v n i rest, s.nodes.value.peakLog⟩ := by
    apply linkIn_eq hs hw h.next?
    cases side with
    | front => exact setLinks_second (linkBytes_le hw) ((inUse_withNode hlt).2 (.inr hhead)) hunused
    | back => exact setLinks_first hunused
  have hx := linkIn_gap s side v
  rw [Site.gap_eq, h.linked] at hx
  exact Act.bind_error (writing_free h.free (hx.trans hlinked))

/-- **Any other push that fails changes nothing.** -/
theorem push_failed (hno : ∀ n i rest, ¬s.Strands side n i rest)
    (he : (push side v s).result = .error e) : (push side v s).state = s := by
  by_cases hf : s.nodes.hold = .free
  · have hx := linkIn_gap s side v
    rw [Site.gap_eq] at hx
    cases hn : linkOf s.nodes.value s.ring.head.index side.link with
    | error e' =>
      rw [hn] at hx
      have hpush : push side v s = ⟨.error e', s, []⟩ := Act.bind_error (writing_free hf hx)
      rw [hpush]
    | ok n =>
    rw [hn] at hx
    cases hnext : s.nodes.value.freeList.next? with
    | none =>
      have hpush : push side v s = ⟨.error (.full BlockArena.kind s.nodes.value.capacity), s,
          [.blocksExhausted s.nodes.value.capacity]⟩ :=
        Act.bind_error (writing_free hf (hx.trans (linkIn_full hnext)))
      rw [hpush]
    | some next =>
      obtain ⟨i, rest⟩ := next
      let b := withNode s.nodes.value i rest (s.ends side n).1 (s.ends side n).2 v
      -- by then the head is in use, and the block that the head is linked to
      have hu : ∀ j, j = (s.ends side n).1 ∨ j = (s.ends side n).2 → b.InUse j := by
        intro j hj
        refine (inUse_withNode (hs.of_next? hnext).1).2 ?_
        obtain rfl | rfl := Site.mem_ends hj
        · exact .inr (inUse_of_linkOf hn)
        · by_contra hnot
          obtain ⟨hne, hunused⟩ := not_or.1 hnot
          exact hno j i rest ⟨hf, hn, hnext, hne, hunused⟩
      have hlinks := setLinks_ok (t := i) (u := i) (a := b) (linkBytes_le hw) (hu _ (.inl rfl))
        (hu _ (.inr rfl))
      have hpush : (push side v s).result = .ok () := by
        unfold push
        rw [Act.bind_ok (writing_free hf (hx.trans (linkIn_eq hs hw hnext hlinks)))]
        rfl
      rw [hpush] at he
      cases he
  · rw [push_busy side v hf]

end Wide

/-! ### Popping -/

/-- **The pops that stop halfway**: nobody holds the arena, and the node to be taken off can be read; the
node that it names as the one before it is in use, but not the one that it names as the one behind. -/
structure Site.Halts (s : Site α) (side : Side) (p q : UInt32) : Prop where
  nonempty : s.ring.len ≠ 0
  free : s.nodes.hold = .free
  around : around s.nodes.value s.ring.head.index side.link = .ok (p, q)
  before : s.nodes.value.InUse p
  behind : ¬s.nodes.value.InUse q

theorem around_eq_ok_iff : around a head link = .ok (p, q) ↔
    ∃ i, linkOf a head link = .ok i ∧ linkOf a i .next = .ok q ∧ linkOf a i .prev = .ok p := by
  unfold around
  constructor
  · intro h
    cases hi : linkOf a head link with
    | error e => simp [hi, bind, Except.bind] at h
    | ok i =>
    cases hq : linkOf a i .next with
    | error e => simp [hi, hq, bind, Except.bind] at h
    | ok q' =>
    cases hp : linkOf a i .prev with
    | error e => simp [hi, hq, hp, bind, Except.bind] at h
    | ok p' =>
      simp only [hi, hq, hp, bind, Except.bind, pure, Except.pure, Except.ok.injEq,
        Prod.mk.injEq] at h
      obtain ⟨rfl, rfl⟩ := h
      exact ⟨i, rfl, hq, hp⟩
  · rintro ⟨i, hi, hq, hp⟩
    simp only [hi, hq, hp, bind, Except.bind, pure, Except.pure]

/-- What is in use and wide enough has a value. -/
theorem exists_valueOf (hu : a.InUse i) (hw : nodeSize α ≤ a.blockSize) :
    ∃ v : α, valueOf a i = .ok v :=
  ⟨_, congrArg (Except.map _) (nodeBytes_ok hu hw)⟩

/-- Linking out reads four fields before it sets the two links. -/
theorem linkOut_error {b : BlockArena} (hi : linkOf a head link = .ok i) (hv : valueOf a i = .ok v)
    (hq : linkOf a i .next = .ok q) (hp : linkOf a i .prev = .ok p)
    (hlinks : (do setLink p .next q; setLink q .prev p) a = ⟨.error e, b, []⟩) :
    (linkOut head link a : Outcome Error BlockArena α) = ⟨.error e, b, []⟩ := by
  simp only [linkOut, Act.read_bind, hi, hv, hq, hp]
  rw [← Act.bind_bind, Act.bind_error hlinks]

/-- A pop that cannot link its node out. -/
theorem pop_of_error {b : BlockArena} (h0 : s.ring.len ≠ 0) (hf : s.nodes.hold = .free)
    (hout : (linkOut s.ring.head.index side.link s.nodes.value : Outcome Error BlockArena α) =
      ⟨.error e, b, []⟩) (he : e.isFault = false) :
    pop side s = ⟨.ok none, s.turned s.ring.len b, [.popFailed e]⟩ := by
  have hx := Act.attempt_of_error (writing_free
    (x := fun r : Ring α => (linkOut r.head.index side.link : Act Error BlockArena α)) hf hout) he
  unfold pop
  rw [Act.get_bind, if_neg (by simpa [isEmpty] using h0), Act.bind_ok hx]
  rfl

section Wide

variable (hw : nodeSize α ≤ s.nodes.value.blockSize)

include hw

/-- **A pop that stops halfway** brings no value, and leaves the link that leads on set. -/
theorem pop_halts (h : s.Halts side p q) : pop side s =
    ⟨.ok none, s.turned s.ring.len (s.nodes.value.putLink p .next q), [.popFailed (.foreign q)]⟩ := by
  obtain ⟨i, hi, hq, hp⟩ := around_eq_ok_iff.1 h.around
  obtain ⟨v, hv⟩ := exists_valueOf (inUse_of_linkOf hq) hw
  have hlinks := setLinks_second (t := q) (u := p) (linkBytes_le hw) h.before h.behind
  exact pop_of_error h.nonempty h.free (linkOut_error hi hv hq hp hlinks) rfl

/-- A pop that finds a node to take off, and both links to set, brings its value. -/
theorem pop_of_around (h0 : s.ring.len ≠ 0) (hf : s.nodes.hold = .free)
    (ha : around s.nodes.value s.ring.head.index side.link = .ok (p, q))
    (hp : s.nodes.value.InUse p) (hq : s.nodes.value.InUse q) :
    ∃ v, (pop side s).result = .ok (some v) := by
  obtain ⟨i, hi, hnext, hprev⟩ := around_eq_ok_iff.1 ha
  obtain ⟨v, hv⟩ := exists_valueOf (inUse_of_linkOf hnext) hw
  have hout := linkOut_ok (linkBytes_le hw) (inUse_of_linkOf hnext) hp hq hi hv hnext hprev
  have hx := Act.attempt_of_ok (writing_free
    (x := fun r : Ring α => linkOut r.head.index side.link) hf hout)
  refine ⟨v, ?_⟩
  unfold pop
  rw [Act.get_bind, if_neg (by simpa [isEmpty] using h0), Act.bind_ok hx]
  rfl

/-- A pop that finds no node to take off changes nothing. -/
theorem pop_around_error (h0 : s.ring.len ≠ 0) (hf : s.nodes.hold = .free)
    (ha : around s.nodes.value s.ring.head.index side.link = .error e) : (pop side s).state = s := by
  have hl : linkBytes ≤ s.nodes.value.blockSize := linkBytes_le hw
  obtain ⟨e', he, hout⟩ : ∃ e', e'.isFault = false ∧
      (linkOut s.ring.head.index side.link s.nodes.value : Outcome Error BlockArena α) =
        ⟨.error e', s.nodes.value, []⟩ := by
    cases hi : linkOf s.nodes.value s.ring.head.index side.link with
    | error e' => exact ⟨e', faultless_linkOf hl e' hi, Act.read_bind_error hi⟩
    | ok i =>
    cases hv : (valueOf s.nodes.value i : Except Error α) with
    | error e' =>
      refine ⟨e', faultless_valueOf hw e' hv, ?_⟩
      simp only [linkOut, Act.read_bind, hi, hv]
    | ok v =>
    cases hq : linkOf s.nodes.value i .next with
    | error e' =>
      refine ⟨e', faultless_linkOf hl e' hq, ?_⟩
      simp only [linkOut, Act.read_bind, hi, hv, hq]
    | ok q =>
    cases hp : linkOf s.nodes.value i .prev with
    | error e' =>
      refine ⟨e', faultless_linkOf hl e' hp, ?_⟩
      simp only [linkOut, Act.read_bind, hi, hv, hq, hp]
    | ok p =>
      rw [around_eq_ok_iff.2 ⟨i, hi, hq, hp⟩] at ha
      cases ha
  rw [pop_of_error h0 hf hout he]
  rfl

/-- **Any other pop that brings no value changes nothing.** -/
theorem pop_failed (hno : ∀ p q, ¬s.Halts side p q) (hnone : (pop side s).result = .ok none) :
    (pop side s).state = s := by
  by_cases h0 : s.ring.len = 0
  · rw [pop_empty side h0]
  by_cases hf : s.nodes.hold = .free
  · cases ha : around s.nodes.value s.ring.head.index side.link with
    | error e => exact pop_around_error hw h0 hf ha
    | ok ends =>
    obtain ⟨p, q⟩ := ends
    by_cases hp : s.nodes.value.InUse p
    · by_cases hq : s.nodes.value.InUse q
      · obtain ⟨v, hv⟩ := pop_of_around hw h0 hf ha hp hq
        rw [hv] at hnone
        cases hnone
      · exact absurd ⟨h0, hf, ha, hp, hq⟩ (hno p q)
    · obtain ⟨i, hi, hnext, hprev⟩ := around_eq_ok_iff.1 ha
      obtain ⟨v, hv⟩ := exists_valueOf (inUse_of_linkOf hnext) hw
      have hlinks := setLinks_first (a := s.nodes.value) (q := q) (t := q) (u := p) hp
      rw [pop_of_error h0 hf (linkOut_error hi hv hnext hprev hlinks) rfl]
      rfl
  · rw [pop_busy side h0 hf]

/-! ### Setting -/

/-- **Setting a position changes nothing if it fails.** -/
theorem set_failed {index : Nat} (he : (set index v s).result = .error e) :
    (set index v s).state = s := by
  by_cases hf : s.nodes.hold = .free
  · cases hi : s.ring.nodeAt s.nodes.value index with
    | error e' =>
      have hset : set index v s = ⟨.error e', s, []⟩ := by
        apply writing_free hf
        simp only [Act.read_bind, hi]
      rw [hset]
    | ok i =>
    by_cases hu : s.nodes.value.InUse i
    · have hset : set index v s = ⟨.ok (), s.turned s.ring.len (s.nodes.value.putValue i v), []⟩ := by
        apply writing_free hf
        simp only [Act.read_bind, hi]
        exact setValue_ok hu hw
      rw [hset] at he
      cases he
    · have hset : set index v s = ⟨.error (.foreign i), s, []⟩ := by
        apply writing_free hf
        simp only [Act.read_bind, hi]
        exact Act.read_bind_error (BlockArena.currentHandle_of_not_inUse hu)
      rw [hset]
  · rw [set_busy index v hf]

end Wide

/-! ### All failures -/

/-- **What the operations of a ring leave behind when they fail.** -/
structure Site.Failures (s : Site α) : Prop where
  push : ∀ side v e, (push side v s).result = .error e → (∀ n i rest, ¬s.Strands side n i rest) →
    (push side v s).state = s
  /-- A block is in use afterwards that was not, and it is counted. -/
  strands : ∀ side n i rest, s.Strands side n i rest → ∀ v,
    (Ring.push side v s).result = .error (.foreign n) ∧
    (Ring.push side v s).state = s.turned s.ring.len (s.stranded side v n i rest) ∧
    s.nodes.value.TakesOne (s.stranded side v n i rest)
  pop : ∀ side, (pop side s).result = .ok none → (∀ p q, ¬s.Halts side p q) → (pop side s).state = s
  /-- All blocks in use are as they were, but for one link. -/
  halts : ∀ side p q, s.Halts side p q →
    (Ring.pop side s).result = .ok none ∧
    (Ring.pop side s).state = s.turned s.ring.len (s.nodes.value.putLink p .next q)
  set : ∀ index v e, (set index v s).result = .error e → (set index v s).state = s

/-- **An operation that fails leaves the ring and the arena as they were**, unless it is one of the pushes
that strand a block or of the pops that stop halfway. -/
theorem failures (hs : s.nodes.value.Sound) (hw : nodeSize α ≤ s.nodes.value.blockSize) :
    s.Failures where
  push side v e he hno := push_failed hs hw hno he
  strands side n i rest h v := by
    rw [push_strands hs hw h v]
    exact ⟨rfl, rfl, Site.takesOne_stranded hs h v⟩
  pop side hnone hno := pop_failed hw hno hnone
  halts side p q h := by
    rw [pop_halts hw h]
    exact ⟨rfl, rfl⟩
  set index v e he := set_failed hw he

/-! ### Rings on their own arena -/

/-- Every operation that fails leaves the ring and the arena as they were. -/
structure Site.Unchanged (s : Site α) : Prop where
  push : ∀ side v e, (push side v s).result = .error e → (push side v s).state = s
  pop : ∀ side, (pop side s).result = .ok none → (pop side s).state = s
  set : ∀ index v e, (set index v s).result = .error e → (set index v s).state = s

section Holds

variable {ns : List UInt32} {vs : List α} (h : s.Holds ns vs)

include h

/-- What the head of a ring leads to is in use. -/
theorem Site.Holds.not_strands : ¬s.Strands side n i rest := by
  intro hstrands
  have hn := hstrands.linked
  rw [h.circle.linkOf_end side] at hn
  obtain rfl := Except.ok.inj hn
  refine hstrands.unused (h.inUse ?_)
  cases side with
  | front => exact Side.front.behind_mem s.ring.head.index ns
  | back => exact Side.back.before_mem s.ring.head.index ns

/-- What the nodes of a ring lead to is in use. -/
theorem Site.Holds.not_halts : ¬s.Halts side p q := by
  intro hhalts
  have hne : ns ≠ [] := by
    rintro rfl
    exact hhalts.nonempty h.len
  obtain ⟨i, ns, rfl⟩ := side.exists_eq_add hne
  obtain ⟨j, hj, hq, -⟩ := around_eq_ok_iff.1 hhalts.around
  have hend := h.circle.linkOf_end side
  rw [Side.neighbour, Side.outer?_add, Option.getD_some, hj] at hend
  obtain rfl := Except.ok.inj hend
  rw [h.circle.linked_entry.2.1] at hq
  obtain rfl := Except.ok.inj hq
  exact hhalts.behind (h.inUse (side.subset_add _ (side.behind_mem _ ns)))

/-- **A ring that holds a list is as it was after every operation that fails**, and so is its arena. -/
theorem unchanged_of_holds (hs : s.nodes.value.Sound) : s.Unchanged :=
  have hfailures := failures hs h.wide
  { push := fun side v e he => hfailures.push side v e he fun _ _ _ => h.not_strands
    pop := fun side hnone => hfailures.pop side hnone fun _ _ => h.not_halts
    set := hfailures.set }

end Holds

end FixedArena.Ring
