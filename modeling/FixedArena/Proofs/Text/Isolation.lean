import FixedArena.Proofs.Text.Alike

/-!
Pools are told apart by the identity that their handles carry. Whatever is asked of a pool with a handle of
another identity, or with an index past its slots, comes to nothing. Texts and text rings ask for the slots
of their own handles only; so they leave a pool that has none of these, but for a slot that they take.

Main facts:
* `TextPool.Alien`, `TextPool.Alien.refuses`: handles that are not the pool's, and what is asked with them;
* `TextPool.Confined`: only the slots of some handles changed;
* `OwnedText.make_confined`: a text is made in a slot that was free;
* `Ring.Site.Gives`, `Ring.gives_iff`: what pops bring, one after the other;
* `TextRing.reclaims_pop`, `TextRing.reclaims_clear`: what is removed from a ring is given back, and no more;
* `TextRing.confined_push`, `TextRing.pool_push_refused`, `TextRing.pushText_confined`: what adding changes.
-/

namespace FixedArena

open Act

/-! ### Handles that are not the pool's -/

namespace TextPool

variable {α : Type} {p p' p'' : TextPool} {h g : TextHandle} {i offset : Nat} {t : String}
  {R R' : TextHandle → Prop}

/-- The handle carries another identity than the pool, or an index past its slots. -/
def Alien (p : TextPool) (h : TextHandle) : Prop := h.pool ≠ p.id ∨ p.capacity ≤ h.index.toNat

instance (p : TextPool) (h : TextHandle) : Decidable (p.Alien h) :=
  inferInstanceAs (Decidable (_ ∨ _))

theorem Alien.locate_eq (ha : p.Alien h) : p.locate h = .error (.notAllocated h.index) := by
  unfold locate
  rcases ha with hid | hindex
  · rw [if_pos hid]
  · have hnone : p.slots[h.index.toNat]? = none := Array.getElem?_eq_none hindex
    rw [hnone, ite_self]

/-- **Whatever is asked of a pool with the handle fails or does nothing**, and leaves the pool. -/
structure Refuses (p : TextPool) (h : TextHandle) : Prop where
  assign : ∀ t, TextPool.assign h t p = ⟨.error (.notAllocated h.index), p, []⟩
  append : ∀ t, TextPool.append h t p = ⟨.error (.notAllocated h.index), p, []⟩
  target : ∀ source, TextPool.copy h source p = ⟨.error (.notAllocated h.index), p, []⟩
  /-- If the target is not refused, the source is. -/
  source : ∀ target, ∃ g ∈ [target, h],
    TextPool.copy target h p = ⟨.error (.notAllocated g.index), p, []⟩
  text : p.text h = .error (.notAllocated h.index)
  textLen : p.textLen h = .error (.notAllocated h.index)
  compare : ∀ t, p.compare h t = .error (.notAllocated h.index)
  free : TextPool.free h p = ⟨.ok false, p, [.slotNotAllocated h]⟩
  own : TextPool.own h p = ⟨.error (.notAllocated h.index), p, []⟩
  disown : TextPool.disown h p = ⟨.ok (), p, []⟩
  reclaim : TextPool.reclaim h p = ⟨.ok false, p, [.slotLost h]⟩

theorem Alien.find_eq (ha : p.Alien h) : p.catalog.find h = none := by
  have hloc := ha.locate_eq
  cases hf : p.catalog.find h with
  | none => rfl
  | some e =>
    rw [TextPool.locate_eq, hf] at hloc
    cases hloc

/-- **A handle that is not the pool's is refused**, forged or not. -/
theorem Alien.refuses (ha : p.Alien h) : p.Refuses h := by
  have hloc := ha.locate_eq
  have hfind := ha.find_eq
  have htext : p.text h = .error (.notAllocated h.index) := by
    rw [TextPool.text, hloc]
    rfl
  refine ⟨fun t => ?_, fun t => ?_, fun source => ?_, fun target => ?_, htext, ?_, fun t => ?_, ?_, ?_,
    ?_, ?_⟩
  · exact (get_bind _ p).trans (locate_bind_none hfind _)
  · exact (get_bind _ p).trans (locate_bind_none hfind _)
  · exact (get_bind _ p).trans (locate_bind_none hfind _)
  · cases hf : p.catalog.find target with
    | none =>
      exact ⟨target, List.mem_cons_self, (get_bind _ p).trans (locate_bind_none hf _)⟩
    | some e =>
      refine ⟨h, List.mem_cons_of_mem _ List.mem_cons_self, (get_bind _ p).trans ?_⟩
      exact (locate_bind_some hf _).trans (locate_bind_none hfind _)
  · rw [TextPool.textLen, hloc]
    rfl
  · rw [TextPool.compare, htext]
    rfl
  · rw [TextPool.free, hloc]
  · rw [TextPool.own, hloc]
  · rw [TextPool.disown, hloc]
  · rw [TextPool.reclaim, hloc]

/-! ### Changes of a few slots -/

/-- **Only the slots of some handles changed**, their states or their bytes, and nothing at all if none of
the handles is the pool's. -/
structure Confined (R : TextHandle → Prop) (p p' : TextPool) : Prop where
  id : p'.id = p.id
  capacity : p'.capacity = p.capacity
  width : p'.slab.width = p.slab.width
  slots : ∀ i < p.capacity, (∀ h, R h → h.pool = p.id → h.index.toNat ≠ i) → p'.slots[i]? = p.slots[i]?
  cells : ∀ i < p.capacity, (∀ h, R h → h.pool = p.id → h.index.toNat ≠ i) →
    p'.slab.cell i = p.slab.cell i
  same : (∀ h, R h → p.Alien h) → p' = p

instance : IsPreorder TextPool (Confined R) where
  refl _ := ⟨rfl, rfl, rfl, fun _ _ _ => rfl, fun _ _ _ => rfl, fun _ => rfl⟩
  trans p p' p'' h₁ h₂ := by
    have hsame : ∀ i, (∀ h, R h → h.pool = p.id → h.index.toNat ≠ i) →
        ∀ h, R h → h.pool = p'.id → h.index.toNat ≠ i :=
      fun i hi h hR hid => hi h hR (hid.trans h₁.id)
    refine ⟨h₂.id.trans h₁.id, h₂.capacity.trans h₁.capacity, h₂.width.trans h₁.width,
      fun i hlt hi => ?_, fun i hlt hi => ?_, fun hall => ?_⟩
    · exact (h₂.slots i (h₁.capacity.symm ▸ hlt) (hsame i hi)).trans (h₁.slots i hlt hi)
    · exact (h₂.cells i (h₁.capacity.symm ▸ hlt) (hsame i hi)).trans (h₁.cells i hlt hi)
    · obtain rfl := h₁.same hall
      exact h₂.same hall

/-- Handles that are not the pool's do not matter. -/
theorem Confined.imp (hc : Confined R p p') (hR : ∀ g, R g → p.Alien g ∨ R' g) : Confined R' p p' := by
  have hslot : ∀ i < p.capacity, (∀ h, R' h → h.pool = p.id → h.index.toNat ≠ i) →
      ∀ h, R h → h.pool = p.id → h.index.toNat ≠ i := by
    intro i hlt hi h hh hid
    rcases hR h hh with (hother | hpast) | hh'
    · exact absurd hid hother
    · exact (Nat.lt_of_lt_of_le hlt hpast).ne'
    · exact hi h hh' hid
  exact ⟨hc.id, hc.capacity, hc.width, fun i hlt hi => hc.slots i hlt (hslot i hlt hi),
    fun i hlt hi => hc.cells i hlt (hslot i hlt hi),
    fun hall => hc.same fun h hh => (hR h hh).elim (fun ha => ha) (hall h)⟩

theorem Confined.alien_iff (hc : Confined R p p') : p'.Alien h ↔ p.Alien h := by
  rw [Alien, Alien, hc.id, hc.capacity]

theorem pool_eq_of_not_alien (ha : ¬p.Alien h) : h.pool = p.id := by
  by_contra hid
  exact ha (.inl hid)

theorem not_alien_of_slot {state : SlotState} (hid : h.pool = p.id)
    (hs : p.slots[h.index.toNat]? = some state) : ¬p.Alien h := by
  rintro (hother | hpast)
  · exact hother hid
  · exact Nat.not_le_of_lt (Array.getElem?_eq_some_iff.1 hs).1 hpast

theorem of_locate (hl : p.locate h = .ok i) : ¬p.Alien h ∧ i = h.index.toNat := by
  obtain ⟨hid, rfl, state, hs, -⟩ := (locate_eq_ok_iff ..).1 hl
  exact ⟨not_alien_of_slot hid hs, rfl⟩

section Slot

variable (hR : R h)

include hR

theorem Changes.confined {old state : SlotState} (hid : h.pool = p.id)
    (hc : Changes p h.index.toNat old state t p') : Confined R p p' where
  id := hc.id
  capacity := hc.capacity_eq
  width := hc.width
  slots i _ hi := (hc.slots_at i).trans (if_neg (hi h hR hid).symm)
  cells i _ hi := hc.cells i (hi h hR hid).symm
  same hall := absurd (hall h hR) (not_alien_of_slot hid hc.before)

variable (ha : ¬p.Alien h)

include ha

/-- The states of all other slots stay, and so do all bytes. -/
theorem confined_setState (state : SlotState) : Confined R p (p.setState h.index.toNat state) where
  id := rfl
  capacity := Array.size_setIfInBounds ..
  width := rfl
  slots _ _ hi := Array.getElem?_setIfInBounds_ne (hi h hR (pool_eq_of_not_alien ha))
  cells _ _ _ := rfl
  same hall := absurd (hall h hR) ha

theorem confined_takeBack : Confined R p (p.takeBack h.index.toNat) :=
  have hc := confined_setState hR ha .free
  ⟨hc.id, hc.capacity, hc.width, hc.slots, hc.cells, fun hall => absurd (hall h hR) ha⟩

theorem confined_writeBytes (offset : Nat) (bs : List UInt8) :
    Confined R p (writeBytes h.index.toNat offset bs p).state := by
  unfold writeBytes
  split
  · exact refl_of (Confined R) p
  · next slab hw =>
    obtain ⟨hinside, rfl⟩ := (Slab.write_eq_ok_iff ..).1 hw
    refine ⟨rfl, rfl, rfl, fun _ _ _ => rfl, fun i _ hi => ?_, fun hall => absurd (hall h hR) ha⟩
    have hne := hi h hR (pool_eq_of_not_alien ha)
    exact (Slab.cell_overwriteCell hinside.2).trans (if_neg hne.symm)

end Slot

/-- What starts with its handle, starts in the slot of the handle. -/
theorem confined_locate {x : Nat → Act Error TextPool α}
    (hx : ∀ p, ¬p.Alien h → Confined R p (x h.index.toNat p).state) :
    Within (Confined R) (read (fun p : TextPool => p.locate h) >>= x) := by
  intro p
  rw [read_bind]
  split
  · next hl =>
    obtain ⟨ha, rfl⟩ := of_locate hl
    exact hx p ha
  · exact refl_of (Confined R) p

section Calls

variable (hR : R h)

include hR

theorem confined_own : Within (Confined R) (own h) := by
  intro p
  unfold own
  split
  · exact refl_of (Confined R) p
  · next hl =>
    obtain ⟨ha, rfl⟩ := of_locate hl
    split
    · exact refl_of (Confined R) p
    · exact confined_setState hR ha .owned

theorem confined_disown : Within (Confined R) (disown h) := by
  intro p
  unfold disown
  split
  · exact refl_of (Confined R) p
  · next hl =>
    obtain ⟨ha, rfl⟩ := of_locate hl
    exact confined_setState hR ha .lent

theorem confined_free : Within (Confined R) (free h) := by
  intro p
  unfold free
  split
  · exact refl_of (Confined R) p
  · next hl =>
    obtain ⟨ha, rfl⟩ := of_locate hl
    split
    · exact refl_of (Confined R) p
    · exact confined_takeBack hR ha

theorem confined_reclaim : Within (Confined R) (reclaim h) := by
  intro p
  unfold reclaim
  split
  · exact refl_of (Confined R) p
  · next hl =>
    obtain ⟨ha, rfl⟩ := of_locate hl
    exact confined_takeBack hR ha

theorem confined_assign (t : String) : Within (Confined R) (assign h t) := by
  intro p
  unfold assign
  rw [get_bind]
  refine confined_locate (fun q ha => ?_) p
  rw [state_bind fun _ _ => rfl]
  exact confined_writeBytes hR ha 0 _

theorem confined_append (t : String) : Within (Confined R) (append h t) := by
  intro p
  unfold append
  rw [get_bind]
  refine confined_locate (fun q ha => ?_) p
  rw [state_bind fun _ _ => rfl]
  exact confined_writeBytes hR ha _ _

/-- The source is only read. -/
theorem confined_copy (source : TextHandle) : Within (Confined R) (copy h source) := by
  intro p
  unfold copy
  rw [get_bind]
  refine confined_locate (fun q ha => ?_) p
  rw [read_bind]
  split
  · next j _ =>
    change Confined R q ((read (fun q : TextPool => q.slab.read j 0 _) >>= _) q).state
    rw [read_bind]
    split
    · next bs _ =>
      rw [state_bind fun _ _ => rfl]
      exact confined_writeBytes hR ha 0 bs
    · exact refl_of (Confined R) q
  · exact refl_of (Confined R) q

end Calls

/-- Handles that are given back change their own slots. -/
theorem reclaimAll_confined {l : List TextHandle} (hl : ∀ h ∈ l, R h) (p : TextPool) :
    Confined R p (reclaimAll l p) := by
  induction l generalizing p with
  | nil => exact refl_of (Confined R) p
  | cons h l ih =>
    have hfirst := confined_reclaim (hl h List.mem_cons_self) p
    exact trans_of (Confined R) hfirst (ih (fun g hg => hl g (List.mem_cons_of_mem h hg)) _)

/-- The handle names a free slot of the pool. -/
def IsFree (p : TextPool) (h : TextHandle) : Prop :=
  h.pool = p.id ∧ p.slots[h.index.toNat]? = some .free

end TextPool

/-! ### Owned texts -/

namespace OwnedText

open TextPool (Confined GuardedAct Tidy writing)

variable {α : Type} {h : TextHandle} {g : Guarded TextPool} {R : TextHandle → Prop}

theorem confined_writing {x : Act Error TextPool α} (hx : Within (Confined R) x) :
    Within (Order.Preimage Guarded.value (Confined R)) (writing x) :=
  fun g => (Guarded.within_writing hx TextPool.busy g).1

theorem confined_edit {x : Act Error TextPool Nat} (hx : Within (Confined R) x) :
    Within (Order.Preimage Guarded.value (Confined R))
      (reporting h (writing x) >>= fun _ => pure () : GuardedAct Unit) :=
  (within_reporting h (confined_writing hx)).bind fun _ => within_pure _

section Edits

variable (hR : R h)

include hR

theorem confined_assign (t : String) :
    Within (Order.Preimage Guarded.value (Confined R)) (assign h t) :=
  confined_edit (TextPool.confined_assign hR t)

theorem confined_append (t : String) :
    Within (Order.Preimage Guarded.value (Confined R)) (append h t) :=
  confined_edit (TextPool.confined_append hR t)

theorem confined_copy (source : TextHandle) :
    Within (Order.Preimage Guarded.value (Confined R)) (copy h source) :=
  confined_edit (TextPool.confined_copy hR source)

theorem confined_drop : Within (Order.Preimage Guarded.value (Confined R)) (drop h) := fun g => by
  rw [state_drop]
  exact confined_writing (TextPool.confined_reclaim hR) g

end Edits

/-- **A text is made in a slot that was free**, and no other slot changes. -/
theorem make_confined (hg : g.value.Tidy) {y : TextHandle → GuardedAct Unit}
    (hy : ∀ h, Within (Order.Preimage Guarded.value (Confined (· = h))) (y h)) :
    (make y g).state = g ∨
      ∃ h, g.value.IsFree h ∧ Confined (· = h) g.value (make y g).state.value ∧
        ∀ h', (make y g).result = .ok h' → h' = h := by
  by_cases hf : g.hold = .free
  · have hcreate : create g = _ := Guarded.writing_free TextPool.busy take g hf
    obtain ⟨h, log, htake, hfree, -, hputs⟩ | ⟨-, htake⟩ := take_eq hg
    · let p := g.value.lend h.index.toNat
      let q := p.setState h.index.toNat .owned
      have hmade : create g = ⟨.ok h, { g with value := q }, log⟩ := by
        rw [hcreate, htake]
      have hlent : Confined (· = h) g.value p :=
        (TextPool.changes_lend hg hfree).confined (R := (· = h)) rfl hputs.pool
      have ha : ¬p.Alien h := hlent.alien_iff.not.2 (TextPool.not_alien_of_slot hputs.pool hfree)
      have howned : Confined (· = h) p q := TextPool.confined_setState (R := (· = h)) rfl ha .owned
      have hedited : Confined (· = h) q (y h { g with value := q }).state.value :=
        hy h { g with value := q }
      unfold make
      rw [bind_ok hmade, map_apply]
      refine .inr ⟨h, ⟨hputs.pool, hfree⟩, ?_, fun h' hok => ?_⟩
      · exact trans_of (Confined (· = h)) (trans_of (Confined (· = h)) hlent howned) hedited
      · dsimp only at hok
        cases hr : (y h { g with value := q }).result with
        | error e =>
          rw [hr] at hok
          cases hok
        | ok _ =>
          rw [hr] at hok
          exact (Except.ok.inj hok).symm
    · rw [htake] at hcreate
      exact .inl (congrArg Outcome.state (bind_error hcreate))
  · have hcreate : create g = _ := Guarded.writing_busy TextPool.busy take g hf
    exact .inl (congrArg Outcome.state (bind_error hcreate))

end OwnedText

/-! ### What a ring gives -/

namespace Ring

variable {α : Type} [Element α] {s : Site α} {ns : List UInt32} {vs : List α} {v : α}

/-- **Some pops, one after the other, bring the value.** -/
inductive Site.Gives : Site α → α → Prop
  | now {s : Site α} {v : α} (side : Side) (h : (pop side s).result = .ok (some v)) : Gives s v
  | later {s : Site α} {v : α} (side : Side) (h : Gives (pop side s).state v) : Gives s v

/-- What a ring gives after a pop, it gave before, held or not. -/
theorem Site.Gives.of_pop {side : Side} (h : (pop side s).state.unheld.Gives v) :
    s.unheld.Gives v := by
  obtain halike | ⟨-, hstate⟩ := yields_pop side s
  · exact .later side (halike.state ▸ h)
  · rwa [hstate] at h

/-- What a pop brings, the ring gives, and gives if nobody holds its arena. -/
theorem gives_of_pop {side : Side} (h : (pop side s).result = .ok (some v)) : s.unheld.Gives v := by
  obtain halike | ⟨hnone, -⟩ := yields_pop side s
  · exact .now side (halike.result.symm.trans h)
  · rw [h] at hnone
    cases hnone

/-- **A ring gives the values of its list.** -/
theorem gives_iff (hh : s.Holds ns vs) (hf : s.nodes.hold = .free) : s.Gives v ↔ v ∈ vs := by
  constructor
  · intro hg
    induction hg generalizing ns vs with
    | now side h =>
      obtain ⟨i, ns', w, vs', t, rfl, rfl, hpop, -, -⟩ | ⟨log, hpop⟩ := pop_cases hh side
      · rw [hpop] at h
        cases h
        exact side.perm_add.mem_iff.1 List.mem_cons_self
      · rw [hpop] at h
        cases h
    | later side _ ih =>
      obtain ⟨i, ns', w, vs', t, rfl, rfl, hpop, ht, hm⟩ | ⟨log, hpop⟩ := pop_cases hh side
      · rw [hpop] at ih
        exact side.perm_add.mem_iff.1 (List.mem_cons_of_mem w (ih ht (hm.hold.trans hf)))
      · rw [hpop] at ih
        exact ih hh hf
  · intro hv
    induction vs generalizing s ns with
    | nil => cases hv
    | cons w vs ih =>
      obtain ⟨i, ns', w', vs', rfl, hvs⟩ := hh.exists_entry .front (List.cons_ne_nil w vs)
      obtain ⟨rfl, rfl⟩ := (Side.add_inj .front).1 (show Side.front.add w vs = _ from hvs)
      obtain ⟨t, hpop, ht, hm⟩ := pop_ok hh hf
      rcases List.mem_cons.1 hv with rfl | hv
      · exact .now .front (congrArg Outcome.result hpop)
      · refine .later .front ?_
        rw [hpop]
        exact ih ht (hm.hold.trans hf) hv

end Ring

/-! ### Text rings -/

namespace TextRing

open TextPool (Confined Tidy)

variable {α : Type} {s t u : Site} {h : TextHandle} {R : TextHandle → Prop} {side : Ring.Side}

/-- The handles that a text ring gives if nobody holds its arena. -/
def Site.Gives (s : Site) (h : TextHandle) : Prop := s.handles.unheld.Gives h

/-- **From one site to another, handles that the ring gave were given back to the pool**, and nothing
else was done to the pool. -/
structure Site.Reclaims (s t : Site) : Prop where
  gives : ∀ h, t.Gives h → s.Gives h
  pool : ∃ l, (∀ h ∈ l, s.Gives h) ∧ t.pool.value = TextPool.reclaimAll l s.pool.value

namespace Site.Reclaims

/-- Nothing was given back. -/
theorem of_pool (hgives : ∀ h, t.Gives h → s.Gives h) (hpool : t.pool = s.pool) : s.Reclaims t where
  gives := hgives
  pool := ⟨[], nofun, congrArg Guarded.value hpool⟩

theorem refl (s : Site) : s.Reclaims s := of_pool (fun _ => id) rfl

theorem trans (h₁ : s.Reclaims t) (h₂ : t.Reclaims u) : s.Reclaims u where
  gives h hu := h₁.gives h (h₂.gives h hu)
  pool := by
    obtain ⟨l, hl, ht⟩ := h₁.pool
    obtain ⟨l', hl', hu⟩ := h₂.pool
    refine ⟨l ++ l', fun h hh => ?_, ?_⟩
    · rcases List.mem_append.1 hh with hh | hh
      · exact hl h hh
      · exact h₁.gives h (hl' h hh)
    · rw [hu, ht, TextPool.reclaimAll, TextPool.reclaimAll, TextPool.reclaimAll, List.foldl_append]

/-- Only the slots of handles changed that the ring gave. -/
theorem confined (h : s.Reclaims t) : Confined s.Gives s.pool.value t.pool.value := by
  obtain ⟨l, hl, ht⟩ := h.pool
  exact ht ▸ TextPool.reclaimAll_confined hl s.pool.value

end Site.Reclaims

instance : IsPreorder Site Site.Reclaims where
  refl := .refl
  trans _ _ _ := .trans

/-- **What a pop takes off, it gives back.** -/
theorem reclaims_pop (side : Ring.Side) : Within Site.Reclaims (pop side) := by
  intro s
  unfold pop
  rw [get_bind]
  split
  · next hadmits =>
    rcases hout : Ring.pop side s.handles with ⟨result, t, log⟩
    have hfirst := onHandles_eq hout
    have hgives : ∀ h, (s.withHandles t).Gives h → s.Gives h := by
      intro h hg
      have hpopped : (Ring.pop side s.handles).state.unheld.Gives h := by
        rw [hout]
        exact hg
      exact hpopped.of_pop
    cases result with
    | error e =>
      rw [bind_error hfirst]
      exact .of_pool hgives rfl
    | ok v? =>
      rw [bind_ok hfirst]
      cases v? with
      | none => exact .of_pool hgives rfl
      | some v =>
        have hv : s.Gives v := Ring.gives_of_pop (congrArg Outcome.result hout)
        have hfree : (s.withHandles t).pool.hold = .free := Guarded.hold_of_admits hadmits
        dsimp only
        rw [state_bind fun _ _ => rfl]
        refine ⟨hgives, [v], fun g hg => List.mem_singleton.1 hg ▸ hv, ?_⟩
        rw [onPool_eq (s := s.withHandles t) hfree rfl]
        rfl
  · exact .of_pool (fun _ => id) rfl

theorem reclaims_clear : Within Site.Reclaims clear := within_clear (reclaims_pop .front)

theorem pool_drop (s : Site) : (drop s).state.pool = (clear s).state.pool := by
  unfold drop
  cases hr : (clear s).result with
  | error e => rw [bind_of_error hr]
  | ok _ =>
    rw [bind_of_ok hr]
    rfl

/-! #### Adding -/

theorem confined_onPool {x : Act Error TextPool α} (hx : Within (Confined R) x) :
    Within (Order.Preimage (fun s : Site => s.pool.value) (Confined R))
      (onPool (TextPool.writing x)) :=
  fun s => OwnedText.confined_writing hx s.pool

theorem confined_onHandles (x : Act Error (Ring.Site TextHandle) α) :
    Within (Order.Preimage (fun s : Site => s.pool.value) (Confined R)) (onHandles x) :=
  fun s => refl_of (Confined R) s.pool.value

/-- A push changes the slot of its handle alone, however it ends. -/
theorem confined_push (hR : R h) (side : Ring.Side) :
    Within (Order.Preimage (fun s : Site => s.pool.value) (Confined R)) (push side h) := by
  refine (confined_onPool (TextPool.confined_own hR)).bind fun _ =>
    (confined_onHandles _).attempt.bind fun out => ?_
  match out with
  | .ok () => exact within_pure _
  | .error e =>
    exact (confined_onPool (TextPool.confined_disown hR)).attempt.bind fun _ => within_fail e

/-- **A handle that is refused leaves the pool as it was**, whatever became of the blocks. -/
theorem pool_push_refused {e : Error} (he : (push side h s).result = .error e)
    (hfault : e.isFault = false) : (push side h s).state.pool = s.pool := by
  by_cases hpool : s.pool.hold = .free
  · by_cases hlent : ∃ text, s.pool.value.catalog.find h = some ⟨text, false⟩
    · obtain ⟨text, hlent⟩ := hlent
      obtain ⟨hown, hdisown⟩ := TextPool.own_disown hlent
      let u := s.withPool (s.pool.value.setState h.index.toNat .owned)
      rcases hout : Ring.push side h u.handles with ⟨result, t, log⟩
      have hlink : onHandles (Ring.push side h) u = ⟨result, u.withHandles t, log⟩ :=
        onHandles_eq hout
      unfold push at he ⊢
      rw [bind_ok (onPool_eq hpool hown)] at he ⊢
      cases result with
      | ok _ =>
        rw [bind_ok (attempt_of_ok hlink)] at he
        cases he
      | error e' =>
        cases hf : e'.isFault with
        | true =>
          rw [bind_error (attempt_fault (congrArg Outcome.result hlink) hf)] at he
          obtain rfl := Except.error.inj he
          rw [hf] at hfault
          cases hfault
        | false =>
          have hback : onPool (TextPool.writing (TextPool.disown h)) (u.withHandles t) =
              ⟨.ok (), (u.withHandles t).withPool s.pool.value, []⟩ :=
            onPool_eq (s := u.withHandles t) hpool hdisown
          rw [bind_ok (attempt_of_error hlink hf)]
          dsimp only
          rw [bind_ok (attempt_of_ok hback)]
          rfl
    · obtain ⟨e', -, hpush, -⟩ := push_notLent hpool (fun text hf => hlent ⟨text, hf⟩) side
      rw [hpush]
  · have hpush : push side h s = _ := bind_error (onPool_held hpool)
    rw [hpush]

/-- A handle that is taken was a caller's. -/
theorem lent_of_push (hok : (push side h s).result = .ok ()) :
    ∃ text, s.pool.value.catalog.find h = some ⟨text, false⟩ := by
  by_contra hlent
  by_cases hpool : s.pool.hold = .free
  · obtain ⟨e, -, hpush, -⟩ := push_notLent hpool (fun text hf => hlent ⟨text, hf⟩) side
    rw [hpush] at hok
    cases hok
  · have hpush : push side h s = _ := bind_error (onPool_held hpool)
    rw [hpush] at hok
    cases hok

/-- Adding a handle that was taken for a text. If it is refused, its slot goes back to the pool. -/
def link (h : TextHandle) : Act Error Site TextHandle := do
  match ← attempt (push .back h) with
  | .ok () => return h
  | .error e =>
    let _ ← attempt (onPool (TextPool.writing (TextPool.free h)))
    fail e

theorem pushText_eq (text : String) :
    pushText text = onPool (TextPool.writing (store text)) >>= link := rfl

theorem confined_link (h : TextHandle) :
    Within (Order.Preimage (fun s : Site => s.pool.value) (Confined (· = h))) (link h) := by
  refine (confined_push (R := (· = h)) rfl .back).attempt.bind fun out => ?_
  match out with
  | .ok () => exact within_pure _
  | .error e =>
    have hfree := TextPool.confined_free (R := (· = h)) rfl
    exact (confined_onPool hfree).attempt.bind fun _ => within_fail e

theorem result_link {g : TextHandle} (hok : (link h s).result = .ok g) : g = h := by
  unfold link at hok
  cases hpush : (attempt (push .back h) s).result with
  | error e =>
    rw [bind_of_error hpush] at hok
    cases hok
  | ok out =>
    rw [bind_of_ok hpush] at hok
    cases out with
    | ok _ => exact (Except.ok.inj hok).symm
    | error e =>
      dsimp only at hok
      cases hback : (attempt (onPool (TextPool.writing (TextPool.free h)))
          (attempt (push .back h) s).state).result with
      | error e' =>
        rw [bind_of_error hback] at hok
        cases hok
      | ok b =>
        rw [bind_of_ok hback] at hok
        cases hok

/-- **A text is added in a slot that was free**, and no other slot changes, however it ends. -/
theorem pushText_confined (hp : s.pool.value.Tidy) (text : String) :
    (pushText text s).state.pool = s.pool ∨
    ∃ h, s.pool.value.IsFree h ∧
      Confined (· = h) s.pool.value (pushText text s).state.pool.value ∧
      ∀ g, (pushText text s).result = .ok g → g = h := by
  rw [pushText_eq]
  by_cases hpool : s.pool.hold = .free
  · obtain ⟨i, p, log, -, hstore, hnum, hc⟩ | ⟨-, e, log, hstore⟩ := store_cases hp text
    · let h : TextHandle := ⟨s.pool.value.id, UInt16.ofNat i⟩
      replace hnum : h.index.toNat = i := hnum
      rw [← hnum] at hc
      have hstored := hc.confined (R := (· = h)) rfl rfl
      rw [bind_ok (onPool_eq hpool hstore)]
      refine .inr ⟨h, ⟨rfl, hc.before⟩, trans_of (Confined (· = h)) hstored ?_, fun g => result_link⟩
      exact confined_link h (s.withPool p)
    · rw [bind_error (onPool_eq hpool hstore)]
      exact .inl rfl
  · rw [bind_error (onPool_held hpool)]
    exact .inl rfl

/-! #### What a ring holds -/

section Holds

variable {ns : List UInt32} {vs : List TextHandle} {v : TextHandle} (hh : s.handles.Holds ns vs)

include hh

theorem Site.gives_iff : s.Gives v ↔ v ∈ vs := Ring.gives_iff (s := s.handles.unheld) hh rfl

variable (hs : s.nodes.value.Sound) (hp : s.pool.value.Tidy)

include hs hp

/-- After a push the ring gives what it gave, and the handle if it was taken. -/
theorem gives_push (hv : (push side h s).state.Gives v) :
    s.Gives v ∨ (push side h s).result = .ok () ∧ v = h := by
  by_cases ht : ∃ text, s.Takes h text
  · obtain ⟨text, ht⟩ := ht
    obtain ⟨i, t, log, hpush, hb, -⟩ := push_ok hh hs hp ht side
    rw [hpush] at hv ⊢
    rcases side.mem_add.1 ((Site.gives_iff hb.holds).1 hv) with rfl | hv
    · exact .inr ⟨rfl, rfl⟩
    · exact .inl ((Site.gives_iff hh).2 hv)
  · obtain ⟨e, log, hpush, -⟩ := push_refused hh (fun text htext => ht ⟨text, htext⟩) side
    rw [hpush] at hv
    exact .inl hv

/-- After a text was added the ring gives what it gave, and the handle that it answered with. -/
theorem gives_pushText {text : String} (hv : (pushText text s).state.Gives v) :
    s.Gives v ∨ (pushText text s).result = .ok v := by
  by_cases ho : s.Open ∧ s.nodes.value.freeList.next? ≠ none ∧ s.pool.value.catalog.firstFree ≠ none
  · obtain ⟨hopen, hroom, hfree⟩ := ho
    obtain ⟨j, hj⟩ := Option.ne_none_iff_exists'.1 hfree
    obtain ⟨i, t, g, log, hpush, hb, -⟩ := pushText_ok hp hh hs hopen hroom hj text
    rw [hpush] at hv ⊢
    rcases List.mem_append.1 ((Site.gives_iff hb.holds).1 hv) with hv | hv
    · exact .inl ((Site.gives_iff hh).2 hv)
    · exact .inr (congrArg Except.ok (List.mem_singleton.1 hv).symm)
  · obtain ⟨e, p, log, hpush, -, -⟩ := pushText_refused hp hh ho text
    rw [hpush] at hv
    exact .inl hv

end Holds

end TextRing

end FixedArena
