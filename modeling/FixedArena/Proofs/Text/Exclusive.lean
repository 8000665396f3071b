import FixedArena.Proofs.Acts
import FixedArena.Text.Owned
import Mathlib.Data.List.Nodup
import Mathlib.Data.List.Perm.Basic

/-!
Exclusive ownership of text slots. Containers hold handles; a handle that is held names a slot that
its pool marks as owned, and no handle is held twice. The operations of a pool take a handle into
this account, or out of it, or leave the account alone, whatever handles they are given.

Main facts:
* `Exclusive`: the account, over all pools at once;
* `Trades`: what an operation on one pool does to the handles of one holder, all others kept;
* `trades_own`, `trades_release`, `trades_other`: the three ways to change the state of a slot;
* `Exclusive.free_eq`, `Exclusive.own_eq`, `Exclusive.allocate_ne`: a held handle is safe from
  everybody else.
-/

namespace FixedArena

namespace TextPool

variable {p p' p'' q : TextPool} {h h' : TextHandle} {i : Nat} {state : SlotState}
  {hs hs' hs'' H : List TextHandle} {ps O : List TextPool}

theorem isOwned_iff : p.isOwned h = true ↔ h.pool = p.id ∧
    p.slots[h.index.toNat]? = some .owned := by
  unfold isOwned
  cases hl : p.locate h with
  | ok i =>
    obtain ⟨hp, rfl, -⟩ := (locate_eq_ok_iff p h i).1 hl
    simp [hp]
  | error e =>
    simp only [Bool.false_eq_true, false_iff, not_and]
    intro hp ho
    have hok : p.locate h = .ok h.index.toNat :=
      (locate_eq_ok_iff ..).2 ⟨hp, rfl, .owned, ho, by decide⟩
    rw [hl] at hok
    cases hok

theorem inUse_of_isOwned (ho : p.isOwned h = true) : p.inUse h = true := by
  unfold isOwned at ho
  unfold inUse
  cases hl : p.locate h with
  | ok i => rfl
  | error e =>
    rw [hl] at ho
    cases ho

/-! ### The account -/

/-- Every handle that is held is owned in its pool, and no handle is held twice; no two pools have
one identity, and none has more slots than indices. -/
structure Exclusive (hs : List TextHandle) (ps : List TextPool) : Prop where
  nodup : hs.Nodup
  owned : ∀ h ∈ hs, ∃ p ∈ ps, p.isOwned h = true
  ids : (ps.map TextPool.id).Nodup
  small : ∀ p ∈ ps, p.capacity < 65535

namespace Exclusive

theorem perm (he : Exclusive hs ps) (hp : hs.Perm hs') : Exclusive hs' ps :=
  ⟨hp.nodup_iff.1 he.nodup, fun h hh => he.owned h (hp.mem_iff.2 hh), he.ids, he.small⟩

theorem perm_pools {ps' : List TextPool} (he : Exclusive hs ps) (hp : ps.Perm ps') :
    Exclusive hs ps' where
  nodup := he.nodup
  owned h hh := by
    obtain ⟨p, hp', ho⟩ := he.owned h hh
    exact ⟨p, hp.mem_iff.1 hp', ho⟩
  ids := (hp.map _).nodup_iff.1 he.ids
  small p hp' := he.small p (hp.mem_iff.2 hp')

theorem of_subperm (he : Exclusive hs ps) (hsub : hs'.Subperm hs) : Exclusive hs' ps := by
  obtain ⟨l, hperm, hl⟩ := hsub
  have he' : Exclusive l ps :=
    ⟨he.nodup.sublist hl, fun h hh => he.owned h (hl.subset hh), he.ids, he.small⟩
  exact he'.perm hperm

/-- A held handle of a pool's identity is owned in that pool. -/
theorem isOwned (he : Exclusive hs ps) (hh : h ∈ hs) (hp : p ∈ ps) (hid : h.pool = p.id) :
    p.isOwned h = true := by
  obtain ⟨q, hq, ho⟩ := he.owned h hh
  have hqid : q.id = p.id := (isOwned_iff.1 ho).1.symm.trans hid
  rwa [← List.inj_on_of_nodup_map he.ids hq hp hqid]

/-- The account after a pool changed and the handles of one holder with it. -/
theorem replace (he : Exclusive (hs ++ H) (p :: O)) (hid : p'.id = p.id)
    (hcap : p'.capacity = p.capacity) (hnd : (hs' ++ H).Nodup)
    (hmine : ∀ h ∈ hs', h ∈ hs ∨ p'.isOwned h = true)
    (hkeep : ∀ h ∈ hs' ++ H, p.isOwned h = true → p'.isOwned h = true) :
    Exclusive (hs' ++ H) (p' :: O) where
  nodup := hnd
  owned h hh := by
    have hold : h ∈ hs ++ H ∨ p'.isOwned h = true := by
      rcases List.mem_append.1 hh with hm | hm
      · exact (hmine h hm).imp_left (List.mem_append_left H)
      · exact .inl (List.mem_append_right hs hm)
    rcases hold with hm | ho
    · obtain ⟨q, hq, ho⟩ := he.owned h hm
      rcases List.mem_cons.1 hq with rfl | hq
      · exact ⟨p', List.mem_cons_self, hkeep h hh ho⟩
      · exact ⟨q, List.mem_cons_of_mem _ hq, ho⟩
    · exact ⟨p', List.mem_cons_self, ho⟩
  ids := by simpa [hid] using he.ids
  small q hq := by
    rcases List.mem_cons.1 hq with rfl | hq
    · exact hcap ▸ he.small p List.mem_cons_self
    · exact he.small q (List.mem_cons_of_mem _ hq)

end Exclusive

/-- **An operation on one pool**, before which a holder has the handles of one list and after which
he has those of another: the account stays in order with the handles of all others. -/
structure Trades (hs : List TextHandle) (p : TextPool) (hs' : List TextHandle) (p' : TextPool) :
    Prop where
  id : p'.id = p.id
  exclusive : ∀ H O, Exclusive (hs ++ H) (p :: O) → Exclusive (hs' ++ H) (p' :: O)

namespace Trades

theorem refl (hs : List TextHandle) (p : TextPool) : Trades hs p hs p := ⟨rfl, fun _ _ he => he⟩

theorem trans (h₁ : Trades hs p hs' p') (h₂ : Trades hs' p' hs'' p'') : Trades hs p hs'' p'' :=
  ⟨h₂.id.trans h₁.id, fun H O he => h₂.exclusive H O (h₁.exclusive H O he)⟩

/-- A holder may forget handles, and reorder them. -/
theorem of_subperm (p : TextPool) (hsub : hs'.Subperm hs) : Trades hs p hs' p where
  id := rfl
  exclusive H _ he := he.of_subperm ((List.subperm_append_right H).2 hsub)

end Trades

/-! ### Changing the state of a slot -/

section Change

variable (hid : p'.id = p.id) (hslots : p'.slots = p.slots.setIfInBounds i state)

include hid hslots

theorem isOwned_set (hne : h.index.toNat ≠ i) (ho : p.isOwned h = true) : p'.isOwned h = true := by
  rw [isOwned_iff] at ho ⊢
  rw [hid, hslots, Array.getElem?_setIfInBounds_ne hne.symm]
  exact ho

omit hid in
theorem capacity_set : p'.capacity = p.capacity := by
  unfold capacity
  rw [hslots, Array.size_setIfInBounds]

/-- **A slot that nobody owned may change.** -/
theorem trades_other (hn : p.slots[i]? ≠ some .owned) : Trades hs p hs p' where
  id := hid
  exclusive H O he := by
    apply he.replace hid (capacity_set hslots) he.nodup (fun h hh => .inl hh)
    intro h _ ho
    refine isOwned_set hid hslots (fun hi => hn ?_) ho
    rw [← hi]
    exact (isOwned_iff.1 ho).2

/-- **A slot that nobody owned goes to a holder.** -/
theorem trades_own (hl : p.locate h = .ok i) (hn : p.slots[i]? ≠ some .owned)
    (hstate : state = .owned) : Trades hs p (h :: hs) p' where
  id := hid
  exclusive H O he := by
    obtain ⟨hp, hi, s, hs', -⟩ := (locate_eq_ok_iff ..).1 hl
    have hnot : h ∉ hs ++ H := fun hm => hn (by
      have ho := isOwned_iff.1 (he.isOwned hm List.mem_cons_self hp)
      rw [hi]
      exact ho.2)
    have hnew : p'.isOwned h = true := by
      rw [isOwned_iff, hid, hslots, ← hi, hstate]
      have hlt : i < p.slots.size := (Array.getElem?_eq_some_iff.1 hs').1
      exact ⟨hp, Array.getElem?_setIfInBounds_self_of_lt hlt⟩
    have hnd : (h :: hs ++ H).Nodup := List.nodup_cons.2 ⟨hnot, he.nodup⟩
    refine he.replace hid (capacity_set hslots) hnd (fun h' hh => ?_) fun h' hh ho => ?_
    · rcases List.mem_cons.1 hh with rfl | hh
      · exact .inr hnew
      · exact .inl hh
    · refine isOwned_set hid hslots (fun hi' => hn ?_) ho
      rw [← hi']
      exact (isOwned_iff.1 ho).2

/-- **A holder gives a slot up.** -/
theorem trades_release (hl : p.locate h = .ok i) : Trades (h :: hs) p hs p' where
  id := hid
  exclusive H O he := by
    obtain ⟨hp, hi, -⟩ := (locate_eq_ok_iff ..).1 hl
    obtain ⟨hnot, hnd⟩ := List.nodup_cons.1 he.nodup
    refine he.replace hid (capacity_set hslots) hnd
      (fun h' hh => .inl (List.mem_cons_of_mem _ hh)) fun h' hh ho => ?_
    refine isOwned_set hid hslots (fun hi' => hnot ?_) ho
    -- the same pool and the same slot make the same handle
    have hpool : h'.pool = h.pool := (isOwned_iff.1 ho).1.trans hp.symm
    have hindex : h'.index = h.index := UInt16.toNat_inj.1 (hi'.trans hi)
    obtain rfl : h' = h := by
      cases h'
      cases h
      simp_all
    exact hh

end Change

/-! ### What the operations trade -/

/-- The account stays as it is, whoever holds what. -/
def Keeps (p p' : TextPool) : Prop := ∀ hs, Trades hs p hs p'

instance : IsPreorder TextPool Keeps where
  refl p hs := .refl hs p
  trans _ _ _ h₁ h₂ hs := (h₁ hs).trans (h₂ hs)

/-- What becomes of the bytes of the slots is of no account. -/
theorem keeps_of_slots (hid : p'.id = p.id) (hslots : p'.slots = p.slots) : Keeps p p' := by
  refine fun hs => ⟨hid, fun H O he => ?_⟩
  have hcap : p'.capacity = p.capacity := by rw [capacity, hslots, capacity]
  apply he.replace hid hcap he.nodup (fun h hh => .inl hh)
  intro h _ ho
  rw [isOwned_iff] at ho ⊢
  rwa [hid, hslots]

theorem keeps_allocate : Act.Within Keeps allocate := by
  intro p hs
  cases hf : p.slots.findIdx? (· = .free) with
  | none => exact allocate_full p hf ▸ .refl hs p
  | some i =>
    rw [allocate_ok p hf]
    refine trades_other (i := i) rfl rfl ?_
    rw [free_of_findIdx? hf]
    decide

theorem keeps_free (h : TextHandle) : Act.Within Keeps (free h) := by
  intro p hs
  unfold free
  match p.locate h with
  | .error e => exact .refl hs p
  | .ok i =>
    by_cases ho : p.slots[i]? = some .owned
    · simp only [if_pos ho]
      exact .refl hs p
    · simp only [if_neg ho]
      exact trades_other (i := i) rfl rfl ho

theorem keeps_writeBytes (i offset : Nat) (bs : List UInt8) :
    Act.Within Keeps (writeBytes i offset bs) := by
  intro p
  unfold writeBytes
  split
  · exact refl_of Keeps p
  · exact keeps_of_slots rfl rfl

theorem keeps_assign (h : TextHandle) (t : String) : Act.Within Keeps (assign h t) :=
  Act.within_get.bind fun _ => (Act.within_read _).bind fun _ =>
    (keeps_writeBytes _ _ _).bind fun _ => Act.within_pure _

theorem keeps_append (h : TextHandle) (t : String) : Act.Within Keeps (append h t) :=
  Act.within_get.bind fun _ => (Act.within_read _).bind fun _ =>
    (keeps_writeBytes _ _ _).bind fun _ => Act.within_pure _

theorem keeps_copy (target source : TextHandle) : Act.Within Keeps (copy target source) :=
  Act.within_get.bind fun _ => (Act.within_read _).bind fun _ => (Act.within_read _).bind fun _ =>
    (Act.within_read _).bind fun _ => (keeps_writeBytes _ _ _).bind fun _ => Act.within_pure _

/-- Becoming the owner of a slot succeeds for a slot that nobody owns, or changes nothing. -/
theorem own_cases (h : TextHandle) (p : TextPool) :
    (∃ p', own h p = ⟨.ok (), p', []⟩ ∧ ∀ hs, Trades hs p (h :: hs) p') ∨
    ∃ e, own h p = ⟨.error e, p, []⟩ := by
  cases hl : p.locate h with
  | error e => exact .inr ⟨e, by simp [own, hl]⟩
  | ok i =>
    by_cases ho : p.slots[i]? = some .owned
    · exact .inr ⟨.alreadyOwned h.index, by simp [own, hl, ho]⟩
    · refine .inl ⟨p.setState i .owned, by simp [own, hl, ho], fun hs => ?_⟩
      exact trades_own (i := i) rfl rfl hl ho rfl

theorem trades_disown (h : TextHandle) (hs : List TextHandle) (p : TextPool) :
    Trades (h :: hs) p hs (disown h p).state := by
  unfold disown
  cases hl : p.locate h with
  | error e => exact .of_subperm p (List.sublist_cons_self h hs).subperm
  | ok i => exact trades_release (i := i) rfl rfl hl

theorem trades_reclaim (h : TextHandle) (hs : List TextHandle) (p : TextPool) :
    Trades (h :: hs) p hs (reclaim h p).state := by
  unfold reclaim
  cases hl : p.locate h with
  | error e => exact .of_subperm p (List.sublist_cons_self h hs).subperm
  | ok i => exact trades_release (i := i) rfl rfl hl

/-! ### Held handles are safe -/

namespace Exclusive

/-- **A held handle is not freed.** -/
theorem free_eq (he : Exclusive hs ps) (hh : h ∈ hs) (hp : p ∈ ps) :
    (free h p).result = .ok false ∧ (free h p).state = p := by
  unfold free
  cases hl : p.locate h with
  | error e => exact ⟨rfl, rfl⟩
  | ok i =>
    obtain ⟨hid, rfl, -⟩ := (locate_eq_ok_iff ..).1 hl
    have ho := (isOwned_iff.1 (he.isOwned hh hp hid)).2
    simp [ho]

/-- **A held handle gets no second owner.** -/
theorem own_eq (he : Exclusive hs ps) (hh : h ∈ hs) (hp : p ∈ ps) :
    ∃ e, own h p = ⟨.error e, p, []⟩ := by
  unfold own
  cases hl : p.locate h with
  | error e => exact ⟨e, rfl⟩
  | ok i =>
    obtain ⟨hid, rfl, -⟩ := (locate_eq_ok_iff ..).1 hl
    have ho := (isOwned_iff.1 (he.isOwned hh hp hid)).2
    exact ⟨.alreadyOwned h.index, by simp [ho]⟩

/-- **A held handle is not handed out again.** -/
theorem allocate_ne (he : Exclusive hs ps) (hp : p ∈ ps)
    (ha : (allocate p).result = .ok h) : h ∉ hs := by
  intro hh
  cases hf : p.slots.findIdx? (· = .free) with
  | none =>
    rw [allocate_full p hf] at ha
    cases ha
  | some i =>
    rw [allocate_ok p hf] at ha
    obtain rfl := Except.ok.inj ha
    obtain ⟨hlt, hfree, -⟩ := Array.findIdx?_eq_some_iff_getElem.1 hf
    have ho := (isOwned_iff.1 (he.isOwned hh hp rfl)).2
    have hi : (UInt16.ofNat i).toNat = i := by
      have hsmall := he.small p hp
      rw [capacity] at hsmall
      exact UInt16.toNat_ofNat_of_lt' (Nat.lt_trans (Nat.lt_trans hlt hsmall) (by decide))
    simp only [hi, Array.getElem?_eq_getElem hlt, of_decide_eq_true hfree] at ho
    cases ho

end Exclusive

end TextPool

end FixedArena
