import FixedArena.Proofs.Store.Kept
import FixedArena.Proofs.Text.Alike

/-!
Access to a store under holds. A hold is in the way of an access to the arena or the pool that is held,
and of nothing else: what goes alike there with the hold and without, goes alike on the store.

Main facts:
* `Store.unheld`: the store, with nothing held;
* `Store.alike_onRing`, `Store.alike_onTextRing`, `Store.alike_onText`: what goes alike on its arena
  and its pool, goes alike on the store;
* `Store.yields_onRing`, `Store.yields_onTextRing`, `Store.yields_onText`: what has an answer for the
  hold in its way, has it on the store;
* `Store.yields_make`: the making of a container.
-/

namespace FixedArena

namespace Store

open Act

variable {α β : Type} {s : Store} {k r n pool : Nat} {tr : TextRing}

/-- **The store, with nothing held.** -/
def unheld (s : Store) : Store :=
  { s with arenas := s.arenas.map Guarded.unheld, pools := s.pools.map Guarded.unheld }

theorem unheld_setArena (s : Store) (k : Nat) (g : Guarded BlockArena) :
    unheld { s with arenas := s.arenas.setIfInBounds k g } =
      { s.unheld with arenas := s.unheld.arenas.setIfInBounds k g.unheld } := by
  simp only [unheld, Array.map_setIfInBounds]

theorem arenas_unheld {g : Guarded BlockArena} (hg : s.arenas[k]? = some g) :
    s.unheld.arenas[k]? = some g.unheld := by
  rw [unheld, Array.getElem?_map, hg]
  rfl

theorem arenas_unheld_none (hg : s.arenas[k]? = none) : s.unheld.arenas[k]? = none := by
  rw [unheld, Array.getElem?_map, hg]
  rfl

theorem pools_unheld {g : Guarded TextPool} (hg : s.pools[k]? = some g) :
    s.unheld.pools[k]? = some g.unheld := by
  rw [unheld, Array.getElem?_map, hg]
  rfl

theorem pools_unheld_none (hg : s.pools[k]? = none) : s.unheld.pools[k]? = none := by
  rw [unheld, Array.getElem?_map, hg]
  rfl

/-! ### Access to the parts -/

theorem alike_onArena {x : Act Failure (Guarded BlockArena) α}
    (hx : ∀ g, s.arenas[k]? = some g → Alike Guarded.unheld x g) :
    Alike unheld (onArena k x) s := by
  cases hg : s.arenas[k]? with
  | none => exact alike_of_eq (onArena_none hg x) (onArena_none (arenas_unheld_none hg) x)
  | some g =>
    obtain ⟨hresult, hevents, hstate⟩ := hx g hg
    refine ⟨?_, ?_, ?_⟩ <;> rw [onArena_some hg, onArena_some (arenas_unheld hg)]
    · exact hresult
    · exact hevents
    · rw [unheld_setArena, hstate]

theorem alike_onPool {x : Act Failure (Guarded TextPool) α}
    (hx : ∀ g, s.pools[k]? = some g → Alike Guarded.unheld x g) :
    Alike unheld (onPool k x) s := by
  cases hg : s.pools[k]? with
  | none => exact alike_of_eq (onPool_none hg x) (onPool_none (pools_unheld_none hg) x)
  | some g =>
    obtain ⟨hresult, hevents, hstate⟩ := hx g hg
    refine ⟨?_, ?_, ?_⟩ <;> rw [onPool_some hg, onPool_some (pools_unheld hg)]
    · exact hresult
    · exact hevents
    · simp only [unheld, Array.map_setIfInBounds, hstate]

/-- What is there goes alike, or is in the way. -/
theorem forall_or_exists {γ : Type} {o : Option γ} {A B : γ → Prop}
    (h : ∀ g, o = some g → A g ∨ B g) : (∀ g, o = some g → A g) ∨ ∃ g, o = some g ∧ B g := by
  cases o with
  | none => exact .inl nofun
  | some g =>
    refine (h g rfl).imp (fun ha g' hg' => ?_) fun hb => ⟨g, rfl, hb⟩
    exact Option.some.inj hg' ▸ ha

theorem yields_onArena {busy : Except Failure α → Prop} {x : Act Failure (Guarded BlockArena) α}
    (hx : ∀ g, s.arenas[k]? = some g → Yields Guarded.unheld busy x g) :
    Yields unheld busy (onArena k x) s := by
  obtain hall | ⟨g, hg, hbusy, hstate⟩ := forall_or_exists hx
  · exact .inl (alike_onArena hall)
  · refine .inr ⟨?_, ?_⟩ <;> rw [onArena_some hg]
    · exact hbusy
    · simp only [hstate, set_back hg]

theorem yields_onPool {busy : Except Failure α → Prop} {x : Act Failure (Guarded TextPool) α}
    (hx : ∀ g, s.pools[k]? = some g → Yields Guarded.unheld busy x g) :
    Yields unheld busy (onPool k x) s := by
  obtain hall | ⟨g, hg, hbusy, hstate⟩ := forall_or_exists hx
  · exact .inl (alike_onPool hall)
  · refine .inr ⟨?_, ?_⟩ <;> rw [onPool_some hg]
    · exact hbusy
    · simp only [hstate, set_back hg]

/-- The refusals of a part, as those of its command. -/
def Refusing (busy : Except Error α → Prop) (out : Except Failure α) : Prop :=
  ∃ res, busy res ∧ out = res.mapError .refused

theorem refusing_map {busy : Except Error α → Prop} {busy' : Except Failure β → Prop} {f : α → β}
    (h : ∀ res, busy res → busy' ((res.mapError .refused).map f)) (out : Except Failure α)
    (hout : Refusing busy out) : busy' (out.map f) := by
  obtain ⟨res, hres, rfl⟩ := hout
  exact h res hres

section Rings

variable {type : ElementType} {ring : Ring type.Value} {x : Act Error (Ring.Site type.Value) α}

theorem alike_onRing (hx : ∀ g, s.arenas[n]? = some g → Alike Ring.Site.unheld x ⟨ring, g⟩) :
    Alike unheld (onRing r ring n x) s := by
  cases hg : s.arenas[n]? with
  | none =>
    exact alike_of_eq (onRing_none r ring hg x) (onRing_none r ring (arenas_unheld_none hg) x)
  | some g =>
    obtain ⟨hresult, hevents, hstate⟩ := hx g hg
    have hsite : x ⟨ring, g.unheld⟩ = x (Ring.Site.unheld ⟨ring, g⟩) := rfl
    refine ⟨?_, ?_, ?_⟩ <;> rw [onRing_some r ring hg, onRing_some r ring (arenas_unheld hg), hsite]
    · exact congrArg (Except.mapError Failure.refused) hresult
    · exact hevents
    · rw [← hstate]
      simp only [unheld, Array.map_setIfInBounds, Ring.Site.unheld]

theorem yields_onRing (hc : s.containerAt r = some (.ring type ring n))
    {busy : Except Error α → Prop}
    (hx : ∀ g, s.arenas[n]? = some g → Yields Ring.Site.unheld busy x ⟨ring, g⟩) :
    Yields unheld (Refusing busy) (onRing r ring n x) s := by
  obtain hall | ⟨g, hg, hbusy, hstate⟩ := forall_or_exists hx
  · exact .inl (alike_onRing hall)
  · have hc' : s.containers[r]? = some (some (.ring type ring n)) := Option.join_eq_some_iff.1 hc
    refine .inr ⟨⟨_, hbusy, ?_⟩, ?_⟩ <;> rw [onRing_some r ring hg]
    simp only [hstate, set_back hg, set_back hc']

end Rings

section TextRings

variable {x : Act Error TextRing.Site α}

theorem onTextRing_none (h : s.arenas[n]? = none ∨ s.pools[pool]? = none)
    (x : Act Error TextRing.Site α) : onTextRing r tr n pool x s = ⟨.error .unknown, s, []⟩ := by
  obtain ⟨-, hon⟩ | ⟨g, p, hg, hp, -⟩ := onTextRing_cases r tr pool n x s
  · exact hon
  · rcases h with h | h
    · cases h.symm.trans hg
    · cases h.symm.trans hp

theorem alike_onTextRing (hx : ∀ g p, s.arenas[n]? = some g → s.pools[pool]? = some p →
    Alike TextRing.Site.unheld x ⟨tr, g, p⟩) : Alike unheld (onTextRing r tr n pool x) s := by
  cases hg : s.arenas[n]? with
  | none =>
    exact alike_of_eq (onTextRing_none (.inl hg) x) (onTextRing_none (.inl (arenas_unheld_none hg)) x)
  | some g =>
    cases hp : s.pools[pool]? with
    | none =>
      exact alike_of_eq (onTextRing_none (.inr hp) x) (onTextRing_none (.inr (pools_unheld_none hp)) x)
    | some p =>
      obtain ⟨hresult, hevents, hstate⟩ := hx g p hg hp
      have hsite : x ⟨tr, g.unheld, p.unheld⟩ = x (TextRing.Site.unheld ⟨tr, g, p⟩) := rfl
      refine ⟨?_, ?_, ?_⟩ <;> rw [onTextRing_some r tr hg hp,
        onTextRing_some r tr (arenas_unheld hg) (pools_unheld hp), hsite]
      · exact congrArg (Except.mapError Failure.refused) hresult
      · exact hevents
      · rw [← hstate]
        simp only [unheld, Array.map_setIfInBounds, TextRing.Site.unheld]

theorem yields_onTextRing (hc : s.containerAt r = some (.textRing tr n pool))
    {busy : Except Error α → Prop} (hx : ∀ g p, s.arenas[n]? = some g → s.pools[pool]? = some p →
      Yields TextRing.Site.unheld busy x ⟨tr, g, p⟩) :
    Yields unheld (Refusing busy) (onTextRing r tr n pool x) s := by
  by_cases hall : ∀ g p, s.arenas[n]? = some g → s.pools[pool]? = some p →
      Alike TextRing.Site.unheld x ⟨tr, g, p⟩
  · exact .inl (alike_onTextRing hall)
  · push Not at hall
    obtain ⟨g, p, hg, hp, hnot⟩ := hall
    obtain ⟨hbusy, hstate⟩ := (hx g p hg hp).resolve_left hnot
    have hc' : s.containers[r]? = some (some (.textRing tr n pool)) := Option.join_eq_some_iff.1 hc
    refine .inr ⟨⟨_, hbusy, ?_⟩, ?_⟩ <;> rw [onTextRing_some r tr hg hp]
    simp only [hstate, set_back hg, set_back hp, set_back hc']

end TextRings

/-! ### Texts -/

theorem alike_onText {x : TextPool.GuardedAct α}
    (hx : ∀ g, s.pools[pool]? = some g → Alike Guarded.unheld x g) :
    Alike unheld (onText pool x) s :=
  alike_onPool fun g hg => (hx g hg).mapError _

theorem yields_onText {busy : Except Error α → Prop} {x : TextPool.GuardedAct α}
    (hx : ∀ g, Yields Guarded.unheld busy x g) : Yields unheld (Refusing busy) (onText pool x) s :=
  yields_onPool fun g _ => (hx g).mapError fun r hr => ⟨r, hr, rfl⟩

/-! ### Containers -/

theorem containerAt_of_ok {c : Container} (h : (container r s).result = .ok c) :
    s.containerAt r = some c := by
  cases hc : s.containerAt r with
  | none =>
    rw [container_unknown hc] at h
    cases h
  | some c' =>
    rw [container_ok hc] at h
    exact congrArg some (Except.ok.inj h)

theorem alike_textAt (r : Nat) : Alike unheld (textAt r) s := by
  refine (alike_read rfl).bind fun c _ => ?_
  cases c with
  | text h pool => exact alike_pure _ _ _
  | ring type ring n => exact alike_fail _ _ _
  | textRing tr n pool => exact alike_fail _ _ _

theorem alike_addContainer (c : Container) (s : Store) : Alike unheld (addContainer c) s :=
  ⟨rfl, rfl, rfl⟩

/-- A container is made as if nothing were held, or refused for a hold. -/
theorem yields_make {e : Error} {x : StoreAct α} {make : α → Container}
    (hx : Yields unheld (Refusing (· = .error e)) x s) :
    Yields unheld (· = .error (.refused e))
      (x >>= fun a => Reply.container <$> addContainer (make a)) s := by
  obtain halike | ⟨⟨res, rfl, hres⟩, hstate⟩ := hx
  · exact .inl (halike.bind fun a _ => (alike_addContainer _ _).map _)
  · refine .inr ?_
    rw [bind_of_error hres]
    exact ⟨rfl, hstate⟩

end Store

end FixedArena
