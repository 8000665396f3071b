import FixedArena.Proofs.Ring.Circle

/-!
Linking nodes in and out. Linking in hands out one block and sets five fields; linking out sets two
links and takes one block back. Either is one explicit change of the arena.

Main facts:
* `linkIn_ok`, `linkIn_full`, `linkOut_ok`: what the two operations answer and leave behind;
* `linkOf_linkedIn`, `valueOf_linkedIn`, `linkOf_linkedOut`, `valueOf_linkedOut`: the fields
  afterwards;
* `turns_linkedIn`, `turns_linkedOut`: the blocks afterwards.
-/

namespace FixedArena

/-- What is logged when a block is handed out. -/
def BlockArena.peakLog (a : BlockArena) : List Event :=
  if a.peak < a.live + 1 then [.blocksPeak (a.live + 1)] else []

namespace Ring

variable {α : Type} [Element α] {a : BlockArena} {head i p q x : UInt32} {rest : FreeList}
  {l : List UInt32} {v : α} {link : Link}

/-! ### Linking in -/

/-- The arena with a block handed out as a node with both links and a value. -/
def withNode (a : BlockArena) (i : UInt32) (rest : FreeList) (p q : UInt32) (v : α) : BlockArena :=
  (((a.handOut i rest).putLink i .next q).putLink i .prev p).putValue i v

/-- The arena with a new node linked in between `p` and `q`. -/
def linkedIn (a : BlockArena) (i : UInt32) (rest : FreeList) (p q : UInt32) (v : α) : BlockArena :=
  ((withNode a i rest p q v).putLink p .next i).putLink q .prev i

theorem linkIn_full (hn : a.freeList.next? = none) :
    linkIn p q v a = ⟨.error (.full BlockArena.kind a.capacity), a,
      [.blocksExhausted a.capacity]⟩ := by
  unfold linkIn newNode
  rw [Act.bind_error (Act.bind_error (BlockArena.allocate_full a hn))]

section LinkIn

variable (hs : a.Sound) (hn : a.freeList.next? = some (i, rest)) (hw : nodeSize α ≤ a.blockSize)

/-- The handle of the block that is handed out. -/
theorem accepts_handOut (hlt : i.toNat < a.capacity) :
    (a.handOut i rest).Accepts ⟨a.id, i, a.generation i⟩ :=
  ⟨rfl, (BlockArena.inUse_handOut hlt).2 (.inl rfl), BlockArena.generation_handOut⟩

include hs hn in
theorem newNode_ok (hw : linkBytes ≤ a.blockSize) :
    newNode p q a =
      ⟨.ok i, ((a.handOut i rest).putLink i .next q).putLink i .prev p, a.peakLog⟩ := by
  obtain ⟨hlt, -⟩ := hs.of_next? hn
  have ha : (a.handOut i rest).Accepts ⟨a.id, i, a.generation i⟩ := accepts_handOut hlt
  unfold newNode
  rw [Act.bind_ok (BlockArena.allocate_ok a hn),
    Act.bind_ok (BlockArena.write_ok ha (link_fits hw .next q)),
    Act.bind_ok (BlockArena.write_ok ha.put (link_fits hw .prev p))]
  simp [BlockArena.peakLog, BlockArena.putLink]

include hs hn hw

/-- **Linking in succeeds while a block is free.** -/
theorem linkIn_ok (hp : a.InUse p) (hq : a.InUse q) :
    linkIn p q v a = ⟨.ok (), linkedIn a i rest p q v, a.peakLog⟩ := by
  obtain ⟨hlt, -⟩ := hs.of_next? hn
  have hl : linkBytes ≤ a.blockSize := linkBytes_le hw
  have hu : ∀ {j}, j = i ∨ a.InUse j → (a.handOut i rest).InUse j :=
    fun h => (BlockArena.inUse_handOut hlt).2 h
  have hv : setValue i v (((a.handOut i rest).putLink i .next q).putLink i .prev p) =
      ⟨.ok (), withNode a i rest p q v, []⟩ := setValue_ok (hu (.inl rfl)) hw
  have hnext : setLink p .next i (withNode a i rest p q v) =
      ⟨.ok (), (withNode a i rest p q v).putLink p .next i, []⟩ := setLink_ok (hu (.inr hp)) hl
  have hprev : setLink q .prev i ((withNode a i rest p q v).putLink p .next i) =
      ⟨.ok (), linkedIn a i rest p q v, []⟩ := setLink_ok (hu (.inr hq)) hl
  unfold linkIn
  rw [Act.bind_ok (newNode_ok hs hn hl), Act.bind_ok hv, Act.bind_ok hnext, hprev]
  simp

theorem turns_withNode : a.Turns l (withNode a i rest p q v) (i :: l) := by
  have hl : linkBytes ≤ a.blockSize := linkBytes_le hw
  have hm : i ∈ i :: l := List.mem_cons_self
  have ht : a.Turns l (a.handOut i rest) (i :: l) := BlockArena.turns_handOut hs hn
  exact ((ht.putLink hl hm .next).putLink hl hm .prev).putValue hw hm v

theorem turns_linkedIn (hp : p ∈ l) (hq : q ∈ l) :
    a.Turns l (linkedIn a i rest p q v) (i :: l) := by
  have hl : linkBytes ≤ a.blockSize := linkBytes_le hw
  exact ((turns_withNode hs hn hw).putLink hl (List.mem_cons_of_mem i hp) .next).putLink hl
    (List.mem_cons_of_mem i hq) .prev

theorem linkOf_withNode : linkOf (withNode a i rest p q v) x link =
    if x = i then .ok (match link with | .next => q | .prev => p) else linkOf a x link := by
  obtain ⟨hlt, -⟩ := hs.of_next? hn
  have hl : linkBytes ≤ a.blockSize := linkBytes_le hw
  have hu : (a.handOut i rest).InUse i := (BlockArena.inUse_handOut hlt).2 (.inl rfl)
  rw [withNode,
    linkOf_putValue (a := ((a.handOut i rest).putLink i .next q).putLink i .prev p) hu hw,
    linkOf_putLink (a := (a.handOut i rest).putLink i .next q) hu hl, linkOf_putLink hu hl]
  by_cases hx : x = i
  · cases link <;> simp [hx]
  · have hsame : a.SameBlocks (a.handOut i rest) [x] :=
      BlockArena.sameBlocks_handOut (by simpa using Ne.symm hx)
    simp [hx, hsame.linkOf (List.mem_singleton_self x)]

theorem valueOf_withNode : valueOf (withNode a i rest p q v) x =
    if x = i then .ok v else valueOf a x := by
  obtain ⟨hlt, -⟩ := hs.of_next? hn
  have hu : (a.handOut i rest).InUse i := (BlockArena.inUse_handOut hlt).2 (.inl rfl)
  rw [withNode,
    valueOf_putValue (a := ((a.handOut i rest).putLink i .next q).putLink i .prev p) hu hw]
  by_cases hx : x = i
  · rw [if_pos hx, if_pos hx]
  · have hsame : a.SameBlocks (a.handOut i rest) [x] :=
      BlockArena.sameBlocks_handOut (by simpa using Ne.symm hx)
    rw [if_neg hx, if_neg hx, valueOf_putLink (a := (a.handOut i rest).putLink i .next q) hu hw,
      valueOf_putLink hu hw, hsame.valueOf (List.mem_singleton_self x)]

/-- **The links after linking in.** -/
theorem linkOf_linkedIn (hp : a.InUse p) (hq : a.InUse q) :
    linkOf (linkedIn a i rest p q v) x link =
      if x = q ∧ link = .prev ∨ x = p ∧ link = .next then .ok i
      else if x = i then .ok (match link with | .next => q | .prev => p)
      else linkOf a x link := by
  obtain ⟨hlt, -⟩ := hs.of_next? hn
  have hl : linkBytes ≤ a.blockSize := linkBytes_le hw
  have hu : ∀ {j}, a.InUse j → (a.handOut i rest).InUse j :=
    fun h => (BlockArena.inUse_handOut hlt).2 (.inr h)
  rw [linkedIn, linkOf_putLink (a := (withNode a i rest p q v).putLink p .next i) (hu hq) hl,
    linkOf_putLink (a := withNode a i rest p q v) (hu hp) hl, linkOf_withNode hs hn hw]
  by_cases h₁ : x = q ∧ link = .prev
  · simp [h₁]
  · by_cases h₂ : x = p ∧ link = .next
    · simp [h₂]
    · simp [h₁, h₂]

/-- **The values after linking in.** -/
theorem valueOf_linkedIn (hp : a.InUse p) (hq : a.InUse q) :
    valueOf (linkedIn a i rest p q v) x = if x = i then .ok v else valueOf a x := by
  obtain ⟨hlt, -⟩ := hs.of_next? hn
  have hu : ∀ {j}, a.InUse j → (a.handOut i rest).InUse j :=
    fun h => (BlockArena.inUse_handOut hlt).2 (.inr h)
  rw [linkedIn, valueOf_putLink (a := (withNode a i rest p q v).putLink p .next i) (hu hq) hw,
    valueOf_putLink (a := withNode a i rest p q v) (hu hp) hw, valueOf_withNode hs hn hw]

omit hw in
theorem inUse_linkedIn : (linkedIn a i rest p q v).InUse x ↔ x = i ∨ a.InUse x := by
  change (a.handOut i rest).InUse x ↔ _
  exact BlockArena.inUse_handOut (hs.of_next? hn).1

omit hw in
theorem accepts_linkedIn {h : BlockHandle} (ha : a.Accepts h) :
    (linkedIn a i rest p q v).Accepts h where
  arena := ha.arena
  inUse := (inUse_linkedIn hs hn).2 (.inr ha.inUse)
  generation := by
    change (a.handOut i rest).generation h.index = _
    rw [BlockArena.generation_handOut, ha.generation]

/-- **A circle with a node linked in at an end.** -/
theorem circle_linkedIn {ns : List UInt32} {side : Side} (hc : Circle a head ns)
    (hu : ∀ j ∈ head :: ns, a.InUse j) (hnd : (head :: side.add i ns).Nodup) :
    Circle (linkedIn a i rest (side.before head ns) (side.behind head ns) v) head
      (side.add i ns) := by
  have hp := side.before_mem head ns
  have hq := side.behind_mem head ns
  have hne : ∀ x ∈ head :: ns, x ≠ i := fun x hx hxi => (hs.of_next? hn).2 (hxi ▸ hu x hx)
  have hlink : ∀ x link, linkOf (linkedIn a i rest (side.before head ns) (side.behind head ns) v)
      x link = _ := fun x link => linkOf_linkedIn hs hn hw (hu _ hp) (hu _ hq)
  refine circle_add hnd (fun x hx hxi => ?_) (fun y hy hyi => ?_) hc ⟨?_, ?_⟩ ⟨?_, ?_⟩
  · simp [hlink, hx, hxi]
  · simp [hlink, hy, hyi]
  · simp [hlink]
  · simp [hlink, (hne _ hq).symm]
  · simp [hlink, (hne _ hp).symm]
  · simp [hlink]

end LinkIn

/-! ### Linking out -/

/-- The arena with the node `i` linked out from between `p` and `q`. -/
def linkedOut (a : BlockArena) (i p q : UInt32) : BlockArena :=
  ((a.putLink p .next q).putLink q .prev p).takeBack i

section LinkOut

variable (hl : linkBytes ≤ a.blockSize)

include hl

/-- **Linking out succeeds if the node can be read.** -/
theorem linkOut_ok (hi : a.InUse i) (hp : a.InUse p) (hq : a.InUse q)
    (hlink : linkOf a head link = .ok i) (hv : valueOf a i = .ok v)
    (hnext : linkOf a i .next = .ok q) (hprev : linkOf a i .prev = .ok p) :
    linkOut head link a = ⟨.ok v, linkedOut a i p q, []⟩ := by
  let b := (a.putLink p .next q).putLink q .prev p
  have hb : b.InUse i := hi
  have hnext' : setLink p .next q a = ⟨.ok (), a.putLink p .next q, []⟩ := setLink_ok hp hl
  have hprev' : setLink q .prev p (a.putLink p .next q) = ⟨.ok (), b, []⟩ := setLink_ok hq hl
  have hfree : BlockArena.free (b.handleAt i) b = ⟨.ok (), b.takeBack i, []⟩ :=
    BlockArena.free_ok b (b.handleAt i) (BlockArena.accepts_handleAt hb).locate
  simp only [linkOut, Act.read_bind, hlink, hv, hnext, hprev]
  rw [Act.bind_ok hnext', Act.bind_ok hprev']
  simp only [Act.read_bind, BlockArena.currentHandle_ok hb]
  rw [Act.bind_ok hfree]
  rfl

theorem turns_linkedOut (hi : a.InUse i) (hp : p ∈ l) (hq : q ∈ l) :
    a.Turns (i :: l) (linkedOut a i p q) l :=
  (((BlockArena.Turns.refl a (i :: l)).putLink hl (List.mem_cons_of_mem i hp) .next).putLink hl
    (List.mem_cons_of_mem i hq) .prev).trans (BlockArena.turns_takeBack hi)

/-- **The links after linking out.** -/
theorem linkOf_linkedOut (hp : a.InUse p) (hq : a.InUse q) (hx : x ≠ i) :
    linkOf (linkedOut a i p q) x link =
      if x = q ∧ link = .prev then .ok p else if x = p ∧ link = .next then .ok q
      else linkOf a x link := by
  have hsame : ∀ b : BlockArena, b.SameBlocks (b.takeBack i) [x] := fun b =>
    BlockArena.sameBlocks_takeBack (by simpa using hx.symm)
  unfold linkedOut
  rw [(hsame _).linkOf (List.mem_singleton_self x),
    linkOf_putLink (a := a.putLink p .next q) hq hl, linkOf_putLink hp hl]

omit hl in
theorem inUse_linkedOut : (linkedOut a i p q).InUse x ↔ x ≠ i ∧ a.InUse x := by
  change (((a.putLink p .next q).putLink q .prev p).takeBack i).InUse x ↔ _
  exact BlockArena.inUse_takeBack

omit hl in
theorem accepts_linkedOut {h : BlockHandle} (ha : a.Accepts h) (hi : h.index ≠ i) :
    (linkedOut a i p q).Accepts h where
  arena := ha.arena
  inUse := inUse_linkedOut.2 ⟨hi, ha.inUse⟩
  generation := by
    change (((a.putLink p .next q).putLink q .prev p).takeBack i).generation h.index = _
    rw [BlockArena.generation_takeBack, if_neg hi]
    exact ha.generation

/-- **A circle with the node at an end linked out.** -/
theorem circle_linkedOut {ns : List UInt32} {side : Side} (hc : Circle a head (side.add i ns))
    (hu : ∀ j ∈ head :: ns, a.InUse j) (hnd : (head :: side.add i ns).Nodup) :
    Circle (linkedOut a i (side.before head ns) (side.behind head ns)) head ns := by
  have hp := side.before_mem head ns
  have hq := side.behind_mem head ns
  have hi : i ∉ head :: ns := by
    rw [List.nodup_cons, side.mem_add] at hnd
    have hni : i ∉ ns := (List.nodup_cons.1 ((side.perm_add).nodup_iff.2 hnd.2)).1
    simp only [List.mem_cons, not_or]
    exact ⟨fun h => hnd.1 (.inl h.symm), hni⟩
  have hne : ∀ x ∈ head :: ns, x ≠ i := fun x hx hxi => hi (hxi ▸ hx)
  have hlink : ∀ x link, x ≠ i →
      linkOf (linkedOut a i (side.before head ns) (side.behind head ns)) x link = _ :=
    fun x link hx => linkOf_linkedOut hl (hu _ hp) (hu _ hq) hx
  refine circle_remove hnd (fun x hx hxi => ?_) (fun y hy hyi => ?_) hc ⟨?_, ?_⟩
  · simp [hlink x .next hxi, hx]
  · simp [hlink y .prev hyi, hy]
  · simp [hlink _ .next (hne _ hp)]
  · simp [hlink _ .prev (hne _ hq)]

end LinkOut

/-- **The values after linking out.** -/
theorem valueOf_linkedOut (hw : nodeSize α ≤ a.blockSize) (hp : a.InUse p) (hq : a.InUse q)
    (hx : x ≠ i) : (valueOf (linkedOut a i p q) x : Except Error α) = valueOf a x := by
  have hsame : ∀ b : BlockArena, b.SameBlocks (b.takeBack i) [x] := fun b =>
    BlockArena.sameBlocks_takeBack (by simpa using hx.symm)
  unfold linkedOut
  rw [(hsame _).valueOf (List.mem_singleton_self x),
    valueOf_putLink (a := a.putLink p .next q) hq hw, valueOf_putLink hp hw]

end Ring

end FixedArena
