import FixedArena.Proofs.Text.Calls
import FixedArena.Proofs.Text.Exclusive
import Mathlib.Data.List.Nodup
import Mathlib.Data.List.Perm.Basic

/-!
The ledger of a text pool: the handles that containers own, and those that callers have, each listed
once. They account for every slot in use. An operation takes handles from one holder and gives him
others; the entries of all others stay where they are, and so do their texts.

Main facts:
* `Ledger`: the two lists of a pool;
* `Ledger.owned_eq`, `Ledger.lent_eq`, `Ledger.owned_add_available`: slots are owned, lent, or free;
* `Posts`: what an operation of one holder does to the ledger, whatever the others have;
* `Posts.lend`, `Posts.claim`, `Posts.take`, `Posts.release`, `Posts.retire`, `Posts.rewrite`: the
  ways in which one slot can change.
-/

namespace FixedArena

namespace TextPool

variable {p p' p'' : TextPool} {h g : TextHandle} {i : Nat} {e : Option Entry} {m : Catalog}
  {t : String} {b : Bool} {state : SlotState} {W F F' F'' H L os os' ls ls' : List TextHandle}

/-! ### Entries after a change -/

/-- Of one pool, a handle is known by its slot. -/
theorem handle_eq (hp : g.pool = h.pool) (hi : g.index.toNat = h.index.toNat) : g = h := by
  have hindex := UInt16.toNat_inj.1 hi
  cases g
  cases h
  simp_all

namespace Catalog

theorem find_put_self (hid : h.pool = m.id) : (m.put h.index.toNat e).find h = e := by
  unfold find
  rw [if_pos (show h.pool = (m.put h.index.toNat e).id from hid), entries_put_self]

theorem find_put_of_ne (hid : h.pool = m.id) (hne : g ≠ h) :
    (m.put h.index.toNat e).find g = m.find g := by
  unfold find
  change (if g.pool = m.id then _ else _) = _
  split
  · next hg =>
    exact entries_put_of_ne _ _ fun hi => hne (handle_eq (hg.trans hid.symm) hi)
  · rfl

theorem put_put (m : Catalog) (i : Nat) (e e' : Option Entry) :
    (m.put i e).put i e' = m.put i e' := by
  simp [put, Function.update_idem]

/-- An entry that is put where it stands. -/
theorem put_self (he : m.entries i = e) : m.put i e = m := by
  subst he
  simp [put, Function.update_eq_self]

theorem pool_of_find {e : Entry} (hf : m.find h = some e) : h.pool = m.id := by
  unfold find at hf
  split at hf
  · next hid => exact hid
  · cases hf

end Catalog

/-! ### Ledgers -/

/-- **The ledger of a pool**: the slots in use are those of the handles that containers own and of
those that callers have, each listed once. -/
structure Ledger (owned lent : List TextHandle) (p : TextPool) : Prop where
  tidy : p.Tidy
  nodup_owned : owned.Nodup
  nodup_lent : lent.Nodup
  mem_owned_iff : ∀ h, h ∈ owned ↔ ∃ t, p.catalog.find h = some ⟨t, true⟩
  mem_lent_iff : ∀ h, h ∈ lent ↔ ∃ t, p.catalog.find h = some ⟨t, false⟩

namespace Ledger

theorem perm (hl : Ledger os ls p) (ho : os.Perm os') : Ledger os' ls p :=
  ⟨hl.tidy, ho.nodup_iff.1 hl.nodup_owned, hl.nodup_lent,
    fun h => ho.mem_iff.symm.trans (hl.mem_owned_iff h), hl.mem_lent_iff⟩

/-- Nothing is owned or lent in a new pool. -/
theorem fresh (id : UInt16) {slots maxLen : Nat} (hs : slots < 65535) :
    Ledger [] [] (fresh id slots maxLen) := by
  have hnone : ∀ h, (TextPool.fresh id slots maxLen).catalog.find h = none := by
    intro h
    rw [catalog_fresh]
    unfold Catalog.find
    split <;> rfl
  refine ⟨tidy_fresh id hs, List.nodup_nil, List.nodup_nil, fun h => ?_, fun h => ?_⟩
  · simp [hnone]
  · simp [hnone]

/-- What nobody owns is in no list of owned handles. -/
theorem notMem_owned (hl : Ledger os ls p) (hf : ∀ t, p.catalog.find h ≠ some ⟨t, true⟩) :
    h ∉ os := by
  rw [hl.mem_owned_iff]
  rintro ⟨t, ht⟩
  exact hf t ht

theorem notMem_lent (hl : Ledger os ls p) (hf : ∀ t, p.catalog.find h ≠ some ⟨t, false⟩) :
    h ∉ ls := by
  rw [hl.mem_lent_iff]
  rintro ⟨t, ht⟩
  exact hf t ht

/-! ### Counting -/

/-- The slots, by their numbers. -/
theorem toList_slots (p : TextPool) :
    p.slots.toList = (List.range p.capacity).map (p.slots[·]?.getD .free) := by
  refine List.ext_getElem (by simp [capacity]) fun j hj hj' => ?_
  simp at hj
  simp [hj]

/-- The slots in a state, counted by their handles. -/
theorem count_eq_length {l : List TextHandle} (hsmall : p.capacity < 65535) (hnd : l.Nodup)
    (hl : ∀ h, h ∈ l ↔ h.pool = p.id ∧ p.slots[h.index.toNat]? = some state) :
    p.slots.count state = l.length := by
  let numbers := (List.range p.capacity).filter fun j => p.slots[j]?.getD .free == state
  have hcount : p.slots.count state = numbers.length := by
    rw [← Array.count_toList, toList_slots, List.count, List.countP_map, List.countP_eq_length_filter]
    rfl
  have hperm : (l.map fun h => h.index.toNat).Perm numbers := by
    refine (List.perm_ext_iff_of_nodup ?_ (List.nodup_range.filter _)).2 fun j => ?_
    · refine hnd.map_on fun x hx y hy hxy => ?_
      exact handle_eq (((hl x).1 hx).1.trans ((hl y).1 hy).1.symm) hxy
    · rw [List.mem_map, List.mem_filter, List.mem_range, beq_iff_eq]
      constructor
      · rintro ⟨h, hh, rfl⟩
        obtain ⟨-, hs⟩ := (hl h).1 hh
        exact ⟨(Array.getElem?_eq_some_iff.1 hs).1, by rw [hs, Option.getD_some]⟩
      · rintro ⟨hj, hs⟩
        have hi : (UInt16.ofNat j).toNat = j := by
          apply UInt16.toNat_ofNat_of_lt'
          exact Nat.lt_trans (Nat.lt_trans hj hsmall) (by decide)
        refine ⟨⟨p.id, UInt16.ofNat j⟩, (hl _).2 ⟨rfl, ?_⟩, hi⟩
        rw [Array.getElem?_eq_getElem hj, Option.getD_some] at hs
        rw [hi, Array.getElem?_eq_getElem hj, hs]
  rw [hcount, ← hperm.length_eq, List.length_map]

theorem slot_iff : (∃ t, p.catalog.find h = some ⟨t, b⟩) ↔
    h.pool = p.id ∧ p.slots[h.index.toNat]? = some (if b then .owned else .lent) := by
  constructor
  · rintro ⟨t, hf⟩
    exact ⟨Catalog.pool_of_find hf, slot_of_find hf⟩
  · rintro ⟨hid, hs⟩
    refine ⟨p.spelled h.index.toNat, ?_⟩
    unfold Catalog.find
    rw [if_pos (show h.pool = p.catalog.id from hid)]
    exact entries_eq_some_iff.2 ⟨hs, rfl⟩

theorem inUse_eq (p : TextPool) (h : TextHandle) : p.inUse h = (p.catalog.find h).isSome := by
  unfold inUse
  rw [locate_eq]
  cases p.catalog.find h <;> rfl

theorem isOwned_iff_find : p.isOwned h = true ↔ ∃ t, p.catalog.find h = some ⟨t, true⟩ :=
  isOwned_iff.trans (slot_iff (b := true)).symm

theorem mem_owned_iff_isOwned (hl : Ledger os ls p) : h ∈ os ↔ p.isOwned h = true :=
  (hl.mem_owned_iff h).trans isOwned_iff_find.symm

/-- A slot that is in use and not owned is a caller's. -/
theorem lent_iff : (p.inUse h = true ∧ p.isOwned h = false) ↔
    ∃ t, p.catalog.find h = some ⟨t, false⟩ := by
  rw [← Bool.not_eq_true, isOwned_iff_find, inUse_eq]
  cases p.catalog.find h with
  | none => simp
  | some e =>
    obtain ⟨t, owned⟩ := e
    cases owned <;> simp

theorem mem_lent_iff_inUse (hl : Ledger os ls p) :
    h ∈ ls ↔ p.inUse h = true ∧ p.isOwned h = false :=
  (hl.mem_lent_iff h).trans lent_iff.symm

theorem owned_eq (hl : Ledger os ls p) : p.owned = os.length :=
  count_eq_length hl.tidy.small hl.nodup_owned fun h =>
    (hl.mem_owned_iff h).trans slot_iff

theorem lent_eq (hl : Ledger os ls p) : p.slots.count .lent = ls.length :=
  count_eq_length hl.tidy.small hl.nodup_lent fun h =>
    (hl.mem_lent_iff h).trans slot_iff

/-- **Every slot is owned, lent, or free.** -/
theorem owned_add_available (hl : Ledger os ls p) :
    p.owned + p.available + p.slots.count .lent = p.capacity := by
  have hle := hl.tidy.live_le
  have hlive : p.live = p.slots.count .owned + p.slots.count .lent := by
    have hcount : ∀ l : List SlotState,
        l.countP (· ≠ .free) = l.count .owned + l.count .lent := by
      intro l
      induction l with
      | nil => rfl
      | cons state l ih =>
        rw [List.countP_cons, List.count_cons, List.count_cons, ih]
        cases state <;> simp <;> omega
    rw [hl.tidy.live, ← Array.countP_toList, ← Array.count_toList, ← Array.count_toList, hcount]
  rw [owned, available]
  omega

/-! ### Changes of one slot -/

section Change

variable (hid : h.pool = p.id) (hp' : p'.Tidy)
  (hcat : p'.catalog = p.catalog.put h.index.toNat e)

include hid hp' hcat

/-- The lists of a pool in which one slot changed. -/
theorem put (hl : Ledger os ls p) (hos : os'.Nodup) (hls : ls'.Nodup)
    (ho : ∀ g, g ∈ os' ↔ if g = h then ∃ t, e = some ⟨t, true⟩ else g ∈ os)
    (hn : ∀ g, g ∈ ls' ↔ if g = h then ∃ t, e = some ⟨t, false⟩ else g ∈ ls) :
    Ledger os' ls' p' := by
  refine ⟨hp', hos, hls, fun g => ?_, fun g => ?_⟩
  · rw [ho, hcat]
    split
    · next hg => rw [hg, Catalog.find_put_self hid]
    · next hg => rw [Catalog.find_put_of_ne hid hg, hl.mem_owned_iff]
  · rw [hn, hcat]
    split
    · next hg => rw [hg, Catalog.find_put_self hid]
    · next hg => rw [Catalog.find_put_of_ne hid hg, hl.mem_lent_iff]

/-- A free slot is handed to a caller. -/
theorem lend (hl : Ledger os ls p) (hf : p.catalog.find h = none) (he : e = some ⟨t, false⟩) :
    Ledger os (h :: ls) p' := by
  have hos : h ∉ os := hl.notMem_owned (by simp [hf])
  have hls : h ∉ ls := hl.notMem_lent (by simp [hf])
  subst he
  refine hl.put hid hp' hcat hl.nodup_owned (List.nodup_cons.2 ⟨hls, hl.nodup_lent⟩)
    (fun g => ?_) fun g => ?_
  · split <;> simp_all
  · split <;> simp_all

/-- A free slot goes to a container. -/
theorem take (hl : Ledger os ls p) (hf : p.catalog.find h = none) (he : e = some ⟨t, true⟩) :
    Ledger (h :: os) ls p' := by
  have hos : h ∉ os := hl.notMem_owned (by simp [hf])
  have hls : h ∉ ls := hl.notMem_lent (by simp [hf])
  subst he
  refine hl.put hid hp' hcat (List.nodup_cons.2 ⟨hos, hl.nodup_owned⟩) hl.nodup_lent
    (fun g => ?_) fun g => ?_
  · split <;> simp_all
  · split <;> simp_all

/-- A caller's slot goes to a container. -/
theorem claim (hl : Ledger os ls p) {t' : String} (hf : p.catalog.find h = some ⟨t', false⟩)
    (he : e = some ⟨t, true⟩) : Ledger (h :: os) (ls.erase h) p' := by
  have hos : h ∉ os := hl.notMem_owned (by simp [hf])
  subst he
  refine hl.put hid hp' hcat (List.nodup_cons.2 ⟨hos, hl.nodup_owned⟩) (hl.nodup_lent.erase h)
    (fun g => ?_) fun g => ?_
  · split <;> simp_all
  · rw [hl.nodup_lent.mem_erase_iff]
    split <;> simp_all

/-- A container's slot becomes free. -/
theorem release (hl : Ledger (h :: os) ls p) (he : e = none) : Ledger os ls p' := by
  obtain ⟨hos, hnd⟩ := List.nodup_cons.1 hl.nodup_owned
  obtain ⟨t, hf⟩ := (hl.mem_owned_iff h).1 List.mem_cons_self
  have hls : h ∉ ls := hl.notMem_lent (by simp [hf])
  subst he
  refine hl.put hid hp' hcat hnd hl.nodup_lent (fun g => ?_) fun g => ?_
  · split <;> simp_all
  · split <;> simp_all

/-- A caller's slot becomes free. -/
theorem retire (hl : Ledger os ls p) (hf : p.catalog.find h = some ⟨t, false⟩) (he : e = none) :
    Ledger os (ls.erase h) p' := by
  have hos : h ∉ os := hl.notMem_owned (by simp [hf])
  subst he
  refine hl.put hid hp' hcat hl.nodup_owned (hl.nodup_lent.erase h) (fun g => ?_) fun g => ?_
  · split <;> simp_all
  · rw [hl.nodup_lent.mem_erase_iff]
    split <;> simp_all

/-- A slot in use gets another text. -/
theorem rewrite (hl : Ledger os ls p) {t' : String} (hf : p.catalog.find h = some ⟨t', b⟩)
    (he : e = some ⟨t, b⟩) : Ledger os ls p' := by
  have hos := hl.mem_owned_iff h
  have hls := hl.mem_lent_iff h
  rw [hf] at hos hls
  subst he
  refine hl.put hid hp' hcat hl.nodup_owned hl.nodup_lent (fun g => ?_) fun g => ?_
  · split
    · next hg => simpa [hg] using hos
    · rfl
  · split
    · next hg => simpa [hg] using hls
    · rfl

end Change

end Ledger

/-! ### Postings -/

/-- **An operation of one holder**, who owns the handles `F` before it and `F'` after it, and which
does `f` to the handles of callers. Whatever the others own stays theirs; and what is owned before
and after keeps its text, but for the handles `W` that are written to. -/
structure Posts (W F : List TextHandle) (p : TextPool) (f : List TextHandle → List TextHandle)
    (F' : List TextHandle) (p' : TextPool) : Prop where
  ledger : ∀ H L, Ledger (F ++ H) L p → Ledger (F' ++ H) (f L) p'
  kept : ∀ H L, Ledger (F ++ H) L p → ∀ g ∈ F ++ H, g ∈ F' ++ H → g ∉ W →
    p'.catalog.find g = p.catalog.find g

namespace Posts

variable {f f' : List TextHandle → List TextHandle}

theorem refl (W F : List TextHandle) (p : TextPool) : Posts W F p (fun L => L) F p :=
  ⟨fun _ _ hl => hl, fun _ _ _ _ _ _ _ => rfl⟩

/-- Two operations, the first of which takes nothing away that the second gives back. -/
theorem trans (h₁ : Posts W F p f F' p') (h₂ : Posts W F' p' f' F'' p'')
    (hsub : F ⊆ F' ∨ F'' ⊆ F') : Posts W F p (f' ∘ f) F'' p'' where
  ledger H L hl := h₂.ledger H (f L) (h₁.ledger H L hl)
  kept H L hl g hg hg'' hW := by
    have hg' : g ∈ F' ++ H := by
      rw [List.mem_append] at hg hg'' ⊢
      rcases hsub with hsub | hsub
      · exact hg.imp_left fun hm => hsub hm
      · exact hg''.imp_left fun hm => hsub hm
    rw [h₂.kept H (f L) (h₁.ledger H L hl) g hg' hg'' hW, h₁.kept H L hl g hg hg' hW]

theorem perm_left (hp : Posts W F p f F' p') (hF : F.Perm F'') : Posts W F'' p f F' p' where
  ledger H L hl := hp.ledger H L (hl.perm (hF.append_right H).symm)
  kept H L hl g hg := hp.kept H L (hl.perm (hF.append_right H).symm) g
    ((hF.append_right H).mem_iff.2 hg)

theorem perm_right (hp : Posts W F p f F' p') (hF : F'.Perm F'') : Posts W F p f F'' p' where
  ledger H L hl := (hp.ledger H L hl).perm (hF.append_right H)
  kept H L hl g hg hg' := hp.kept H L hl g hg ((hF.append_right H).mem_iff.2 hg')

theorem of_tidy (h : p.Tidy → Posts W F p f F' p') : Posts W F p f F' p' :=
  ⟨fun H L hl => (h hl.tidy).ledger H L hl, fun H L hl => (h hl.tidy).kept H L hl⟩

/-- A pool that comes to the same map has the same ledger. -/
theorem of_catalog (hp' : p'.Tidy) (hcat : p'.catalog = p.catalog) :
    Posts W F p (fun L => L) F p' where
  ledger H L hl := ⟨hp', hl.nodup_owned, hl.nodup_lent, by rw [hcat]; exact hl.mem_owned_iff,
    by rw [hcat]; exact hl.mem_lent_iff⟩
  kept _ _ _ _ _ _ _ := by rw [hcat]

/-! ### Postings of one slot -/

section Change

variable (hid : h.pool = p.id) (hp' : p'.Tidy)
  (hcat : p'.catalog = p.catalog.put h.index.toNat e)

include hid hcat

/-- All entries but one stay. -/
theorem of_put (hledger : ∀ H L, Ledger (F ++ H) L p → Ledger (F' ++ H) (f L) p')
    (hkept : ∀ H L, Ledger (F ++ H) L p → h ∈ F ++ H → h ∈ F' ++ H → h ∈ W) :
    Posts W F p f F' p' where
  ledger := hledger
  kept H L hl g hg hg' hW := by
    rw [hcat]
    apply Catalog.find_put_of_ne hid
    rintro rfl
    exact hW (hkept H L hl hg hg')

include hp'

theorem lend (hf : p.catalog.find h = none) (he : e = some ⟨t, false⟩) :
    Posts W F p (h :: ·) F p' :=
  of_put hid hcat (fun _ _ hl => hl.lend hid hp' hcat hf he)
    fun _ _ hl hm => absurd hm (hl.notMem_owned (by simp [hf]))

theorem take (hf : p.catalog.find h = none) (he : e = some ⟨t, true⟩) :
    Posts W F p (fun L => L) (h :: F) p' :=
  of_put hid hcat (fun _ _ hl => hl.take hid hp' hcat hf he)
    fun _ _ hl hm => absurd hm (hl.notMem_owned (by simp [hf]))

theorem claim {t' : String} (hf : p.catalog.find h = some ⟨t', false⟩) (he : e = some ⟨t, true⟩) :
    Posts W F p (·.erase h) (h :: F) p' :=
  of_put hid hcat (fun _ _ hl => hl.claim hid hp' hcat hf he)
    fun _ _ hl hm => absurd hm (hl.notMem_owned (by simp [hf]))

theorem release (he : e = none) : Posts W (h :: F) p (fun L => L) F p' :=
  of_put hid hcat (fun _ _ hl => hl.release hid hp' hcat he)
    fun _ _ hl _ hm => absurd hm (List.nodup_cons.1 hl.nodup_owned).1

theorem retire (hf : p.catalog.find h = some ⟨t, false⟩) (he : e = none) :
    Posts W F p (·.erase h) F p' :=
  of_put hid hcat (fun _ _ hl => hl.retire hid hp' hcat hf he)
    fun _ _ hl hm => absurd hm (hl.notMem_owned (by simp [hf]))

theorem rewrite {t' : String} (hf : p.catalog.find h = some ⟨t', b⟩) (he : e = some ⟨t, b⟩)
    (hW : h ∈ W) : Posts W F p (fun L => L) F p' :=
  of_put hid hcat (fun _ _ hl => hl.rewrite hid hp' hcat hf he) fun _ _ _ _ _ => hW

end Change

end Posts

end TextPool

end FixedArena
