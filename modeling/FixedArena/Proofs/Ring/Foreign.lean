import FixedArena.Proofs.Block.Bytes
import FixedArena.Proofs.Ring.Smooth

/-!
Rings on an arena that is not theirs. Another arena may have come in the place of the one that a ring was
made on, with anything at all in its blocks: the head of the ring may be no block in use, and links may
lead to free blocks, past the end, or back to where they come from. Nothing is known of the ring but that
the blocks are wide enough for its nodes.

Main facts:
* `linkIn_cases`, `linkOut_cases`: linking in and out on any arena;
* `pushed`, `popped`, `overwritten`: what goes in, out and over, block by block and byte by byte.
-/

namespace FixedArena

/-- What is refused is no fault. -/
def Faultless {β : Type} (r : Except Error β) : Prop := ∀ e, r = .error e → e.isFault = false

theorem faultless_ok {β : Type} (b : β) : Faultless (.ok b) := nofun

theorem faultless_error {β : Type} {e : Error} (he : e.isFault = false) :
    Faultless (.error e : Except Error β) :=
  fun _ h => Except.error.inj h ▸ he

namespace Faultless

variable {β γ : Type} {r : Except Error β}

theorem bind {f : β → Except Error γ} (hr : Faultless r) (hf : ∀ b, Faultless (f b)) :
    Faultless (r >>= f) := by
  cases r with
  | ok b => exact hf b
  | error e => exact faultless_error (hr e rfl)

theorem map (hr : Faultless r) (f : β → γ) : Faultless (r.map f) := by
  cases r with
  | ok b => exact faultless_ok (f b)
  | error e => exact faultless_error (hr e rfl)

theorem orNone (hr : Faultless r) : Faultless (Error.orNone r) :=
  fun e he => hr e ((Error.orNone_eq_error_iff r e).1 he).1

/-- What is refused by faults alone, and is no fault, is no refusal. -/
theorem exists_ok (hr : Faultless r) (ho : Ring.OnlyFaults r) : ∃ b, r = .ok b := by
  cases r with
  | ok b => exact ⟨b, rfl⟩
  | error e => exact absurd (ho e rfl) (by simp [hr e rfl])

end Faultless

/-! ### What becomes of the blocks in use -/

namespace BlockArena

theorem faultless_locate (a : BlockArena) (h : BlockHandle) : Faultless (a.locate h) := by
  unfold locate
  split
  · exact faultless_error rfl
  split
  · exact faultless_error rfl
  split
  · exact faultless_error rfl
  split
  · exact faultless_ok _
  · exact faultless_error rfl

/-- The same blocks are in use, and as many are counted. -/
def KeepsUse (a b : BlockArena) : Prop := (∀ j, b.InUse j ↔ a.InUse j) ∧ b.live = a.live

/-- One more block is in use, and one more is counted. -/
def TakesOne (a b : BlockArena) : Prop :=
  ∃ i, ¬a.InUse i ∧ (∀ j, b.InUse j ↔ j = i ∨ a.InUse j) ∧ b.live = a.live + 1

/-- One block less is in use, and one less is counted. -/
def GivesOne (a b : BlockArena) : Prop :=
  ∃ i, a.InUse i ∧ (∀ j, b.InUse j ↔ j ≠ i ∧ a.InUse j) ∧ b.live + 1 = a.live

variable {a b c : BlockArena} {spots : UInt32 → Nat → Prop} {i : UInt32} {rest : FreeList}

theorem Rewrites.keepsUse (hab : Rewrites spots a b) : a.KeepsUse b :=
  ⟨fun _ => hab.inUse_iff, hab.live⟩

theorem takesOne_handOut (hs : a.Sound) (hn : a.freeList.next? = some (i, rest))
    (hb : Rewrites spots (a.handOut i rest) b) : a.TakesOne b := by
  obtain ⟨hlt, hfree⟩ := hs.of_next? hn
  exact ⟨i, hfree, fun j => hb.inUse_iff.trans (inUse_handOut hlt), hb.live⟩

theorem givesOne_takeBack (hs : a.Sound) (hi : a.InUse i) (hb : Rewrites spots a b) :
    a.GivesOne (b.takeBack i) := by
  refine ⟨i, hi, fun j => inUse_takeBack.trans (and_congr_right fun _ => hb.inUse_iff), ?_⟩
  have hpos := hs.live_pos hi
  change b.live - 1 + 1 = a.live
  rw [hb.live]
  omega

end BlockArena

namespace Ring

open BlockArena (Rewrites)

variable {α : Type} [Element α] {a b : BlockArena} {head i p q : UInt32} {link : Link} {side : Side}
  {s : Site α} {v : α} {g : Guarded BlockArena}

/-! ### The fields of any block -/

theorem nodeBytes_foreign (hu : ¬a.InUse i) (offset len : Nat) :
    nodeBytes a i offset len = .error (.foreign i) := by
  unfold nodeBytes
  rw [BlockArena.currentHandle_of_not_inUse hu]
  rfl

theorem faultless_nodeBytes {offset len : Nat} (hw : offset + len ≤ a.blockSize) :
    Faultless (nodeBytes a i offset len) := by
  by_cases hu : a.InUse i
  · rw [nodeBytes_ok hu hw]
    exact faultless_ok _
  · rw [nodeBytes_foreign hu]
    exact faultless_error rfl

theorem faultless_linkOf (hl : linkBytes ≤ a.blockSize) : Faultless (linkOf a i link) :=
  (faultless_nodeBytes (Nat.le_trans (offset_add_le link) hl)).map _

theorem faultless_valueOf (hw : nodeSize α ≤ a.blockSize) :
    Faultless (valueOf a i : Except Error α) :=
  (faultless_nodeBytes hw).map _

/-- What has a link is in use. -/
theorem inUse_of_linkOf {n : UInt32} (hn : linkOf a i link = .ok n) : a.InUse i := by
  by_contra hu
  rw [linkOf, nodeBytes_foreign hu] at hn
  cases hn

/-- A link of a block that is not in use cannot be set. -/
theorem setLink_foreign {t : UInt32} (hu : ¬a.InUse i) :
    setLink i link t a = ⟨.error (.foreign i), a, []⟩ := by
  unfold setLink setNodeBytes
  exact Act.read_bind_error (BlockArena.currentHandle_of_not_inUse hu)

/-! ### Two nodes and the links between them -/

/-- The bytes of a link. -/
def Link.Covers (link : Link) (k : Nat) : Prop := link.offset ≤ k ∧ k < link.offset + 4

/-- The bytes of the link that leads on from `p`, and of the link that leads back from `q`. -/
def Joint (p q j : UInt32) (k : Nat) : Prop :=
  j = p ∧ Link.next.Covers k ∨ j = q ∧ Link.prev.Covers k

theorem rewrites_putLink {spots : UInt32 → Nat → Prop} {t : UInt32} (hl : linkBytes ≤ a.blockSize)
    (h : ∀ k, link.Covers k → spots i k) : Rewrites spots a (a.putLink i link t) := by
  refine (BlockArena.rewrites_put (link_fits hl link t)).mono fun j k hk => ?_
  obtain ⟨rfl, hk⟩ := hk
  exact h k (by rwa [Element.length_encode] at hk)

theorem rewrites_putValue {spots : UInt32 → Nat → Prop} (hw : nodeSize α ≤ a.blockSize)
    (h : ∀ k, linkBytes ≤ k → k < nodeSize α → spots i k) :
    Rewrites spots a (a.putValue i v) := by
  refine (BlockArena.rewrites_put (value_fits hw v)).mono fun j k hk => ?_
  obtain ⟨rfl, hk⟩ := hk
  rw [Element.length_encode] at hk
  exact h k hk.1 hk.2

/-- Both links are set, or the first node that is not in use is refused. -/
theorem setLinks_cases {t u : UInt32} (hl : linkBytes ≤ a.blockSize) : ∃ r b,
    (do setLink p .next t; setLink q .prev u) a = ⟨r, b, []⟩ ∧ Faultless r ∧
      Rewrites (Joint p q) a b ∧
      (r = .ok () → a.InUse p ∧ a.InUse q ∧ b = (a.putLink p .next t).putLink q .prev u) := by
  have hp' : Rewrites (Joint p q) a (a.putLink p .next t) :=
    rewrites_putLink hl fun k hk => .inl ⟨rfl, hk⟩
  by_cases hp : a.InUse p
  · have hx : setLink p .next t a = ⟨.ok (), a.putLink p .next t, []⟩ := setLink_ok hp hl
    rw [Act.bind_ok hx]
    by_cases hq : a.InUse q
    · have hq' : setLink q .prev u (a.putLink p .next t) =
          ⟨.ok (), (a.putLink p .next t).putLink q .prev u, []⟩ := setLink_ok hq hl
      rw [hq']
      refine ⟨_, _, rfl, faultless_ok _, ?_, fun _ => ⟨hp, hq, rfl⟩⟩
      exact trans_of (Rewrites _) hp' (rewrites_putLink hl fun k hk => .inr ⟨rfl, hk⟩)
    · rw [setLink_foreign (a := a.putLink p .next t) hq]
      exact ⟨_, _, rfl, faultless_error rfl, hp', nofun⟩
  · rw [Act.bind_error (setLink_foreign hp)]
    exact ⟨_, _, rfl, faultless_error rfl, refl_of (Rewrites _) a, nofun⟩

/-! ### Linking in and out -/

/-- **Linking in on any arena**: all blocks are in use, or one is taken, and of the others no more is
changed than one link of `p` and one of `q`. -/
theorem linkIn_cases (hs : a.Sound) (hw : nodeSize α ≤ a.blockSize) :
    (∃ e log, linkIn p q v a = ⟨.error e, a, log⟩ ∧ e.isFault = false) ∨
    ∃ r i rest b log, linkIn p q v a = ⟨r, b, log⟩ ∧ Faultless r ∧
      a.freeList.next? = some (i, rest) ∧
      Rewrites (fun j k => j = i ∨ Joint p q j k) (a.handOut i rest) b := by
  match hn : a.freeList.next? with
  | none => exact .inl ⟨_, _, linkIn_full hn, rfl⟩
  | some (i, rest) =>
    have hl : linkBytes ≤ a.blockSize := linkBytes_le hw
    obtain ⟨hlt, -⟩ := hs.of_next? hn
    have hu : (a.handOut i rest).InUse i := (BlockArena.inUse_handOut hlt).2 (.inl rfl)
    have hv : setValue i v (((a.handOut i rest).putLink i .next q).putLink i .prev p) =
        ⟨.ok (), withNode a i rest p q v, []⟩ := setValue_ok hu hw
    have hnode : Rewrites (fun j k => j = i ∨ Joint p q j k) (a.handOut i rest)
        (withNode a i rest p q v) := by
      let b := (a.handOut i rest).putLink i .next q
      let c := b.putLink i .prev p
      have hnext : Rewrites (fun j _ => j = i) (a.handOut i rest) b :=
        rewrites_putLink hl fun _ _ => rfl
      have hprev : Rewrites (fun j _ => j = i) b c := rewrites_putLink hl fun _ _ => rfl
      have hval : Rewrites (fun j _ => j = i) c (c.putValue i v) :=
        rewrites_putValue hw fun _ _ _ => rfl
      exact (trans_of (Rewrites _) (trans_of (Rewrites _) hnext hprev) hval).mono
        fun _ _ h => .inl h
    obtain ⟨r, b, hlinks, hr, hb, -⟩ :=
      setLinks_cases (a := withNode a i rest p q v) (p := p) (q := q) (t := i) (u := i) hl
    refine .inr ⟨r, i, rest, b, a.peakLog, ?_, hr, rfl,
      trans_of (Rewrites _) hnode (hb.mono fun _ _ h => .inr h)⟩
    unfold linkIn
    rw [Act.bind_ok (newNode_ok hs hn hl), Act.bind_ok hv, hlinks]
    simp

/-- The nodes that the neighbour of `head` on a side names as the one before it and the one behind. -/
def around (a : BlockArena) (head : UInt32) (link : Link) : Except Error (UInt32 × UInt32) := do
  let victim ← linkOf a head link
  let next ← linkOf a victim .next
  let prev ← linkOf a victim .prev
  return (prev, next)

/-- **Linking out on any arena**: one block is given back, or none, and of all blocks no more is changed
than one link of the node named as the one before, and one of the node named as the one behind. -/
theorem linkOut_cases (head : UInt32) (link : Link) (hw : nodeSize α ≤ a.blockSize) : ∃ b,
    Rewrites (fun j k => ∃ p q, around a head link = .ok (p, q) ∧ Joint p q j k) a b ∧
    ((∃ (v : α) (i : UInt32), linkOut head link a = ⟨.ok v, b.takeBack i, []⟩ ∧ a.InUse i) ∨
      ∃ e, (linkOut head link a : Outcome Error BlockArena α) = ⟨.error e, b, []⟩ ∧
        e.isFault = false) := by
  have hl : linkBytes ≤ a.blockSize := linkBytes_le hw
  have hrefl := refl_of (Rewrites fun j k => ∃ p q, around a head link = .ok (p, q) ∧ Joint p q j k) a
  -- each of the four readings may find a block that is not in use
  cases hi : linkOf a head link with
  | error e => exact ⟨a, hrefl, .inr ⟨e, Act.read_bind_error hi, faultless_linkOf hl e hi⟩⟩
  | ok i =>
  cases hv : (valueOf a i : Except Error α) with
  | error e =>
    refine ⟨a, hrefl, .inr ⟨e, ?_, faultless_valueOf hw e hv⟩⟩
    simp only [linkOut, Act.read_bind, hi, hv]
  | ok v =>
  cases hq : linkOf a i .next with
  | error e =>
    refine ⟨a, hrefl, .inr ⟨e, ?_, faultless_linkOf hl e hq⟩⟩
    simp only [linkOut, Act.read_bind, hi, hv, hq]
  | ok q =>
  cases hp : linkOf a i .prev with
  | error e =>
    refine ⟨a, hrefl, .inr ⟨e, ?_, faultless_linkOf hl e hp⟩⟩
    simp only [linkOut, Act.read_bind, hi, hv, hq, hp]
  | ok p =>
  have haround : around a head link = .ok (p, q) := by
    simp only [around, hi, hq, hp, bind, Except.bind, pure, Except.pure]
  obtain ⟨r, b, hlinks, hr, hb, hok⟩ :=
    setLinks_cases (a := a) (p := p) (q := q) (t := q) (u := p) hl
  have hu := inUse_of_linkOf hq
  refine ⟨b, hb.mono fun _ _ h => ⟨p, q, haround, h⟩, ?_⟩
  cases r with
  | ok _ =>
    obtain ⟨hup, huq, rfl⟩ := hok rfl
    exact .inl ⟨v, i, linkOut_ok hl hu hup huq hi hv hq hp, hu⟩
  | error e =>
    refine .inr ⟨e, ?_, hr e rfl⟩
    simp only [linkOut, Act.read_bind, hi, hv, hq, hp]
    rw [← Act.bind_bind, Act.bind_error hlinks]

/-! ### Pushing, popping and setting -/

/-- From one site to another, the head and the holds stayed, the arena is sound still and its blocks as
wide, and of the blocks in use before no bytes changed but at some spots. -/
structure Site.Spares (s : Site α) (spots : UInt32 → Nat → Prop) (t : Site α) : Prop where
  head : t.ring.head = s.ring.head
  hold : t.nodes.hold = s.nodes.hold
  sound : t.nodes.value.Sound
  blockSize : t.nodes.value.blockSize = s.nodes.value.blockSize
  byte?_eq : ∀ j k, s.nodes.value.InUse j → ¬spots j k →
    t.nodes.value.byte? j k = s.nodes.value.byte? j k

omit [Element α] in
theorem Site.Spares.refl (hs : s.nodes.value.Sound) (spots : UInt32 → Nat → Prop) :
    s.Spares spots s :=
  ⟨rfl, rfl, hs, rfl, fun _ _ _ _ => rfl⟩

omit [Element α] in
theorem Site.spares_turned {spots : UInt32 → Nat → Prop} (hs : s.nodes.value.Sound)
    (hb : Rewrites spots s.nodes.value b) (len : Nat) : s.Spares spots (s.turned len b) :=
  ⟨rfl, rfl, hb.sound hs, hb.blockSize, fun j k _ hk => hb.byte?_eq j k hk⟩

/-- The nodes between which a push at an end links its node in. -/
def Site.gap (s : Site α) : Side → Except Error (UInt32 × UInt32)
  | .front => (linkOf s.nodes.value s.ring.head.index .next).map ((s.ring.head.index, ·))
  | .back => (linkOf s.nodes.value s.ring.head.index .prev).map ((·, s.ring.head.index))

/-- The bytes of two links, if the two nodes are known. -/
def JointOf (nodes : Except Error (UInt32 × UInt32)) (j : UInt32) (k : Nat) : Prop :=
  ∃ p q, nodes = .ok (p, q) ∧ Joint p q j k

/-- **What a push comes to**: it succeeds, the ring is longer by one and one more block is in use; or it
is refused and the ring is as long as it was. -/
structure Site.Pushed (s : Site α) (side : Side) (out : Outcome Error (Site α) Unit) : Prop where
  counts : (out.result = .ok () ∧ out.state.ring.len = s.ring.len + 1 ∧
      s.nodes.value.TakesOne out.state.nodes.value) ∨
    ∃ e, out.result = .error e ∧ e.isFault = false ∧ out.state.ring.len = s.ring.len ∧
      (s.nodes.value.KeepsUse out.state.nodes.value ∨ s.nodes.value.TakesOne out.state.nodes.value)
  spares : s.Spares (JointOf (s.gap side)) out.state

/-- **What a pop comes to**: it brings a value, the ring is shorter by one and one block less is in use;
or it brings none and the ring is as long as it was, and so are the blocks in use. -/
structure Site.Popped (s : Site α) (side : Side) (out : Outcome Error (Site α) (Option α)) :
    Prop where
  counts : (∃ v, out.result = .ok (some v) ∧ out.state.ring.len + 1 = s.ring.len ∧
      s.nodes.value.GivesOne out.state.nodes.value) ∨
    out.result = .ok none ∧ out.state.ring.len = s.ring.len ∧
      s.nodes.value.KeepsUse out.state.nodes.value
  spares : s.Spares (JointOf (around s.nodes.value s.ring.head.index side.link)) out.state

/-- A push links its node in between the two nodes of its gap. -/
theorem linkIn_gap (s : Site α) (side : Side) (v : α) :
    (Act.read (linkOf · s.ring.head.index side.link) >>= fun neighbour =>
      match side with
      | .front => linkIn s.ring.head.index neighbour v
      | .back => linkIn neighbour s.ring.head.index v) s.nodes.value =
    match s.gap side with
    | .ok (p, q) => linkIn p q v s.nodes.value
    | .error e => ⟨.error e, s.nodes.value, []⟩ := by
  cases side with
  | front =>
    cases hn : linkOf s.nodes.value s.ring.head.index .next <;>
      simp only [Site.gap, Side.link, Act.read_bind, hn, Except.map]
  | back =>
    cases hn : linkOf s.nodes.value s.ring.head.index .prev <;>
      simp only [Site.gap, Side.link, Act.read_bind, hn, Except.map]

omit [Element α] in
theorem faultless_gap (hl : linkBytes ≤ s.nodes.value.blockSize) (side : Side) :
    Faultless (s.gap side) := by
  cases side with
  | front => exact (faultless_linkOf hl).map _
  | back => exact (faultless_linkOf hl).map _

omit [Element α] in
theorem faultless_nodeAt (hl : linkBytes ≤ s.nodes.value.blockSize) (index : Nat) :
    Faultless (s.ring.nodeAt s.nodes.value index) := by
  have hfollow : ∀ n i, Faultless (follow s.nodes.value n i) := by
    intro n
    induction n with
    | zero => exact faultless_ok
    | succ n ih => exact fun i => (faultless_linkOf hl).bind ih
  unfold nodeAt
  split
  · exact faultless_error rfl
  · exact (faultless_linkOf hl).bind fun first => hfollow index first

/-- The bytes of the value of the node at a position, if there is one. -/
def Site.ValueSpots (s : Site α) (index : Nat) (j : UInt32) (k : Nat) : Prop :=
  s.ring.nodeAt s.nodes.value index = .ok j ∧ linkBytes ≤ k ∧ k < nodeSize α

/-- **What setting a position comes to**: the counts stay, and no more is changed than the value of one
node. -/
structure Site.Overwritten (s : Site α) (index : Nat) (out : Outcome Error (Site α) Unit) :
    Prop where
  faultless : Faultless out.result
  len : out.state.ring.len = s.ring.len
  keepsUse : s.nodes.value.KeepsUse out.state.nodes.value
  spares : s.Spares (s.ValueSpots index) out.state

section Wide

variable (hs : s.nodes.value.Sound) (hw : nodeSize α ≤ s.nodes.value.blockSize)

include hs hw

omit hw in
/-- A push that is refused before it takes a block changes nothing. -/
theorem pushed_refused {e : Error} {log : List Event}
    (hpush : push side v s = ⟨.error e, s, log⟩) (he : e.isFault = false) :
    s.Pushed side (push side v s) := by
  rw [hpush]
  exact ⟨.inr ⟨e, rfl, he, rfl, .inl ⟨fun _ => Iff.rfl, rfl⟩⟩, .refl hs _⟩

/-- **A push on any arena.** -/
theorem pushed (side : Side) (v : α) : s.Pushed side (push side v s) := by
  by_cases hf : s.nodes.hold = .free
  · have hx := linkIn_gap s side v
    match hgap : s.gap side with
    | .error e =>
      rw [hgap] at hx
      exact pushed_refused hs (Act.bind_error (writing_free hf hx))
        (faultless_gap (linkBytes_le hw) side e hgap)
    | .ok (p, q) =>
    rw [hgap] at hx
    rcases linkIn_cases (p := p) (q := q) (v := v) hs hw with
      ⟨e, log, hlink, he⟩ | ⟨r, i, rest, b, log, hlink, hr, hn, hb⟩
    · exact pushed_refused hs (Act.bind_error (writing_free hf (hx.trans hlink))) he
    · have hb' := hb.sound (hs.handOut hn)
      obtain ⟨-, hfree⟩ := hs.of_next? hn
      have htakes := BlockArena.takesOne_handOut hs hn hb
      have hbytes : ∀ j k, s.nodes.value.InUse j → ¬JointOf (s.gap side) j k →
          b.byte? j k = s.nodes.value.byte? j k := by
        intro j k hj hk
        have hne : j ≠ i := fun h => hfree (h ▸ hj)
        rw [hb.byte?_eq j k, BlockArena.byte?_handOut hne]
        rintro (h | h)
        · exact hne h
        · exact hk ⟨p, q, hgap, h⟩
      cases r with
      | ok _ =>
        have hpush : push side v s = ⟨.ok (), s.turned (s.ring.len + 1) b, log⟩ := by
          unfold push
          apply (Act.bind_ok (writing_free hf (hx.trans hlink))).trans
          simp [setLen, Site.turned]
        rw [hpush]
        exact ⟨.inl ⟨rfl, rfl, htakes⟩, ⟨rfl, rfl, hb', hb.blockSize, hbytes⟩⟩
      | error e =>
        have hpush : push side v s = ⟨.error e, s.turned s.ring.len b, log⟩ :=
          Act.bind_error (writing_free hf (hx.trans hlink))
        rw [hpush]
        exact ⟨.inr ⟨e, rfl, hr e rfl, rfl, .inr htakes⟩, ⟨rfl, rfl, hb', hb.blockSize, hbytes⟩⟩
  · exact pushed_refused hs (push_busy side v hf) rfl

/-- **A pop on any arena.** -/
theorem popped (side : Side) : s.Popped side (pop side s) := by
  have hsame : ∀ log, s.Popped side (⟨.ok none, s, log⟩ : Outcome Error (Site α) (Option α)) :=
    fun log => ⟨.inr ⟨rfl, rfl, fun _ => Iff.rfl, rfl⟩, .refl hs _⟩
  by_cases h0 : s.ring.len = 0
  · rw [pop_empty side h0]
    exact hsame _
  by_cases hf : s.nodes.hold = .free
  · obtain ⟨b, hb, hout⟩ := linkOut_cases s.ring.head.index side.link hw
    rcases hout with ⟨v, i, hout, hi⟩ | ⟨e, hout, he⟩
    · have hpop : pop side s = ⟨.ok (some v), s.turned (s.ring.len - 1) (b.takeBack i), []⟩ := by
        have hx := Act.attempt_of_ok (writing_free
          (x := fun r : Ring α => linkOut r.head.index side.link) hf hout)
        unfold pop
        rw [Act.get_bind, if_neg (by simpa [isEmpty] using h0), Act.bind_ok hx]
        rfl
      have hlen : s.ring.len - 1 + 1 = s.ring.len := by omega
      rw [hpop]
      refine ⟨.inl ⟨v, rfl, hlen, BlockArena.givesOne_takeBack hs hi hb⟩,
        ⟨rfl, rfl, (hb.sound hs).takeBack (hb.inUse_iff.2 hi), hb.blockSize, fun j k _ hk => ?_⟩⟩
      exact hb.byte?_eq j k hk
    · have hpop : pop side s = ⟨.ok none, s.turned s.ring.len b, [.popFailed e]⟩ := by
        have hx := Act.attempt_of_error (writing_free
          (x := fun r : Ring α => (linkOut r.head.index side.link : Act Error BlockArena α)) hf hout)
          he
        unfold pop
        rw [Act.get_bind, if_neg (by simpa [isEmpty] using h0), Act.bind_ok hx]
        rfl
      rw [hpop]
      exact ⟨.inr ⟨rfl, rfl, hb.keepsUse⟩, Site.spares_turned hs hb _⟩
  · rw [pop_busy side h0 hf]
    exact hsame _

/-- **Setting a position on any arena.** -/
theorem overwritten (index : Nat) (v : α) : s.Overwritten index (set index v s) := by
  have hsame : ∀ e, e.isFault = false →
      s.Overwritten index (⟨.error e, s, []⟩ : Outcome Error (Site α) Unit) :=
    fun e he => ⟨faultless_error he, rfl, ⟨fun _ => Iff.rfl, rfl⟩, .refl hs _⟩
  by_cases hf : s.nodes.hold = .free
  · cases hi : s.ring.nodeAt s.nodes.value index with
    | error e =>
      have hset : set index v s = ⟨.error e, s, []⟩ := by
        apply writing_free hf
        simp only [Act.read_bind, hi]
      rw [hset]
      exact hsame e (faultless_nodeAt (linkBytes_le hw) index e hi)
    | ok i =>
    by_cases hu : s.nodes.value.InUse i
    · have hset : set index v s = ⟨.ok (), s.turned s.ring.len (s.nodes.value.putValue i v), []⟩ := by
        apply writing_free hf
        simp only [Act.read_bind, hi]
        exact setValue_ok hu hw
      have hb : Rewrites (s.ValueSpots index) s.nodes.value (s.nodes.value.putValue i v) :=
        rewrites_putValue hw fun k hk hk' => ⟨hi, hk, hk'⟩
      rw [hset]
      exact ⟨faultless_ok _, rfl, hb.keepsUse, Site.spares_turned hs hb _⟩
    · have hset : set index v s = ⟨.error (.foreign i), s, []⟩ := by
        apply writing_free hf
        simp only [Act.read_bind, hi]
        exact Act.read_bind_error (BlockArena.currentHandle_of_not_inUse hu)
      rw [hset]
      exact hsame _ rfl
  · rw [set_busy index v hf]
    exact hsame _ rfl

end Wide

end Ring

end FixedArena
