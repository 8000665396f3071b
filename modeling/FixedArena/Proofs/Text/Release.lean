import FixedArena.Proofs.Text.Queue

/-!
What is given back when a text ring or a text is given up. A text ring is given up in two parts, its
handles first and its blocks then; either part is done to the end or not at all, and which of them are
done depends on who holds the arena and the pool.

Main facts:
* `TextPool.Loses`: the slots of some handles become free, and no other slot changes;
* `TextRing.drop_cases`: what is left of a text ring, for all holds;
* `OwnedText.drop_cases`: what is left of a text.
-/

namespace FixedArena

namespace TextPool

variable {p p' p'' : TextPool} {h : TextHandle} {l l' : List TextHandle}

/-- **The slots of some handles become free**, and no other slot changes its state or its text. -/
structure Loses (l : List TextHandle) (p p' : TextPool) : Prop where
  tidy : p'.Tidy
  id : p'.id = p.id
  capacity : p'.capacity = p.capacity
  maxLen : p'.maxLen = p.maxLen
  find : ∀ h, p'.catalog.find h = if h ∈ l then none else p.catalog.find h

namespace Loses

theorem refl (hp : p.Tidy) : Loses [] p p := ⟨hp, rfl, rfl, rfl, fun _ => rfl⟩

theorem trans (h₁ : Loses l p p') (h₂ : Loses l' p' p'') : Loses (l ++ l') p p'' where
  tidy := h₂.tidy
  id := h₂.id.trans h₁.id
  capacity := h₂.capacity.trans h₁.capacity
  maxLen := h₂.maxLen.trans h₁.maxLen
  find h := by
    rw [h₂.find, h₁.find]
    by_cases hl : h ∈ l <;> by_cases hl' : h ∈ l' <;> simp [hl, hl']

theorem of_catalog (hp' : p'.Tidy) (hcat : p'.catalog = p.catalog.put h.index.toNat none)
    (hid : h.pool = p.id) : Loses [h] p p' where
  tidy := hp'
  id := congrArg Catalog.id hcat
  capacity := congrArg Catalog.capacity hcat
  maxLen := congrArg Catalog.maxLen hcat
  find g := by
    rw [hcat]
    by_cases hg : g = h
    · subst hg
      rw [Catalog.find_put_self hid, if_pos (List.mem_singleton_self g)]
    · rw [Catalog.find_put_of_ne hid hg, if_neg (fun hm => hg (List.mem_singleton.1 hm))]

end Loses

theorem reclaim_loses (hp : p.Tidy) (h : TextHandle) : Loses [h] p (reclaim h p).state := by
  unfold reclaim
  rw [locate_eq]
  cases hf : p.catalog.find h with
  | none =>
    refine ⟨hp, rfl, rfl, rfl, fun g => ?_⟩
    by_cases hg : g = h
    · rw [hg, hf, ite_self]
    · rw [if_neg (fun hm => hg (List.mem_singleton.1 hm))]
  | some e =>
    have hc := (takeBack_found hp hf).2
    exact .of_catalog (hc.tidy hp) (hc.catalog_eq hp) (Catalog.pool_of_find hf)

theorem reclaimAll_loses (hp : p.Tidy) (l : List TextHandle) : Loses l p (reclaimAll l p) := by
  induction l generalizing p with
  | nil => exact .refl hp
  | cons h l ih =>
    have hfirst := reclaim_loses hp h
    exact hfirst.trans (ih hfirst.tidy)

end TextPool

namespace TextRing

open TextPool (Loses)

variable {s : Site} {ns : List UInt32} {vs : List TextHandle}

/-- A ring that cannot give its handles back keeps them, and the pool stays. -/
theorem drop_pool_closed (ho : ¬s.Open) : (drop s).state.pool = s.pool := by
  obtain ⟨log, hclear⟩ := clear_closed ho
  unfold drop
  rw [Act.bind_ok hclear]
  rfl

/-- **What is left of a text ring that is given up.** If nobody holds the arena or the pool, all of its
slots become free and all of its blocks go back. If the pool alone is held, the blocks go back and the
slots stay as they were. If the arena is held, both stay. -/
theorem drop_cases (hs : s.nodes.value.Sound) (hp : s.pool.value.Tidy) (hh : s.handles.Holds ns vs) :
    let t := (drop s).state
    (s.Open → t.pool.hold = s.pool.hold ∧ Loses vs s.pool.value t.pool.value) ∧
    (¬s.Open → t.pool = s.pool) ∧
    (s.nodes.hold = .free → t.nodes.hold = s.nodes.hold ∧
      s.nodes.value.Turns (s.handles.ring.head.index :: ns) t.nodes.value []) ∧
    (s.nodes.hold ≠ .free → t.nodes = s.nodes) := by
  obtain ⟨hnodes, hpool, -, hturns, hkept⟩ := drop_trades hs hh
  refine ⟨fun ho => ⟨hpool, ?_⟩, drop_pool_closed, fun hf => ⟨hnodes, hturns hf⟩, hkept⟩
  rw [drop_pool hh hp ho]
  exact TextPool.reclaimAll_loses hp vs

end TextRing

namespace OwnedText

open TextPool (Loses)

variable {g : Guarded TextPool}

/-- **What is left of a text that is given up**: its slot becomes free, unless the pool is held. -/
theorem drop_cases (hp : g.value.Tidy) (h : TextHandle) :
    (g.hold = .free → (drop h g).state.hold = g.hold ∧ Loses [h] g.value (drop h g).state.value) ∧
    (g.hold ≠ .free → (drop h g).state = g) := by
  rw [state_drop]
  unfold TextPool.writing
  refine ⟨fun hf => ?_, fun hf => ?_⟩
  · rw [Guarded.writing_free _ _ g hf]
    exact ⟨rfl, TextPool.reclaim_loses hp h⟩
  · rw [Guarded.writing_busy _ _ g hf]

end OwnedText

end FixedArena
