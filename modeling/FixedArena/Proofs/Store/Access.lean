import FixedArena.Proofs.Text.Catalog
import FixedArena.Store.Step

/-!
How commands reach the parts of a store. Arenas, pools and containers go by number; a number that
names nothing is refused, and nothing happens.

Main facts:
* `onArena_some`, `onPool_some`, `onRing_some`, `onTextRing_cases`: what an operation on a part
  does to the store;
* `ring_cases`, `textRing_cases`, `textAt_cases`, `drop_cases`: which container a command reaches;
* `arenaAt_of_set`, `containerAt_of_set`: one part changed, all others as they were.
-/

namespace FixedArena

namespace Store

variable {α : Type} {s t : Store} {k r n : Nat} {a : BlockArena} {c : Container}

/-! ### Views -/

/-- The arena with a number, whoever holds it. -/
def arenaAt (s : Store) (k : Nat) : Option BlockArena := s.arenas[k]?.map Guarded.value

/-- The container with a number. -/
def containerAt (s : Store) (r : Nat) : Option Container := s.containers[r]?.join

theorem arenaAt_of_get {g : Guarded BlockArena} (hg : s.arenas[k]? = some g) :
    s.arenaAt k = some g.value := by
  rw [arenaAt, hg]
  rfl

theorem lt_size_of_arenaAt (ha : s.arenaAt k = some a) : k < s.arenas.size := by
  obtain ⟨g, hg, -⟩ := Option.map_eq_some_iff.1 ha
  exact (Array.getElem?_eq_some_iff.1 hg).1

theorem lt_size_of_containerAt (h : s.containerAt r = some c) : r < s.containers.size := by
  have hc : s.containers[r]? = some (some c) := Option.join_eq_some_iff.1 h
  exact (Array.getElem?_eq_some_iff.1 hc).1

theorem containerAt_of_size_le (h : s.containers.size ≤ r) : s.containerAt r = none := by
  simp [containerAt, Array.getElem?_eq_none h]

/-! ### One part changed -/

theorem arenaAt_of_set {g g' : Guarded BlockArena} (hg : s.arenas[n]? = some g)
    (ht : t.arenas = s.arenas.setIfInBounds n g') (k : Nat) :
    t.arenaAt k = if k = n then some g'.value else s.arenaAt k := by
  obtain ⟨hn, -⟩ := Array.getElem?_eq_some_iff.1 hg
  unfold arenaAt
  rw [ht, Array.getElem?_setIfInBounds]
  by_cases hk : k = n
  · simp [hk, hn]
  · simp [hk, Ne.symm hk]

theorem arenaAt_of_push {g : Guarded BlockArena} (ht : t.arenas = s.arenas.push g) (k : Nat) :
    t.arenaAt k = if k = s.arenas.size then some g.value else s.arenaAt k := by
  unfold arenaAt
  rw [ht, Array.getElem?_push]
  split <;> rfl

theorem containerAt_of_set {x : Option Container} (hr : r < s.containers.size)
    (ht : t.containers = s.containers.setIfInBounds r x) (r' : Nat) :
    t.containerAt r' = if r' = r then x else s.containerAt r' := by
  unfold containerAt
  rw [ht, Array.getElem?_setIfInBounds]
  by_cases h : r' = r
  · simp [h, hr]
  · simp [h, Ne.symm h]

theorem containerAt_of_push (ht : t.containers = s.containers.push (some c)) (r' : Nat) :
    t.containerAt r' = if r' = s.containers.size then some c else s.containerAt r' := by
  unfold containerAt
  rw [ht, Array.getElem?_push]
  by_cases h : r' = s.containers.size <;> simp [h]

/-- A container that is taken out is gone. -/
theorem containerAt_without (r : Nat) (s : Store) : (without r s).containerAt r = none := by
  unfold without containerAt
  dsimp only
  rw [Array.getElem?_setIfInBounds, if_pos rfl]
  split <;> rfl

/-! ### Operations on a part -/

/-- The lines of a report are logged, and no more. -/
theorem within_logLines {Q : Store → Store → Prop} [IsPreorder Store Q] (ls : List String) :
    Act.Within Q (logLines ls) := by
  unfold logLines
  induction ls with
  | nil => exact Act.within_pure _
  | cons l ls ih => exact (Act.within_log _).bind fun _ => ih

theorem onArena_some {g : Guarded BlockArena} (hg : s.arenas[k]? = some g)
    (x : Act Failure (Guarded BlockArena) α) :
    onArena k x s = ⟨(x g).result, { s with arenas := s.arenas.setIfInBounds k (x g).state },
      (x g).events⟩ := by
  unfold onArena
  rw [hg]
  rfl

theorem onArena_none (hg : s.arenas[k]? = none) (x : Act Failure (Guarded BlockArena) α) :
    onArena k x s = ⟨.error .unknown, s, []⟩ := by
  unfold onArena
  rw [hg]
  rfl

theorem onPool_some {g : Guarded TextPool} (hg : s.pools[k]? = some g)
    (x : Act Failure (Guarded TextPool) α) :
    onPool k x s = ⟨(x g).result, { s with pools := s.pools.setIfInBounds k (x g).state },
      (x g).events⟩ := by
  unfold onPool
  rw [hg]
  rfl

theorem onPool_none (hg : s.pools[k]? = none) (x : Act Failure (Guarded TextPool) α) :
    onPool k x s = ⟨.error .unknown, s, []⟩ := by
  unfold onPool
  rw [hg]
  rfl

/-- Two operations on one pool are one. -/
theorem onPool_bind {β : Type} (k : Nat) (x : Act Failure (Guarded TextPool) α)
    (y : α → Act Failure (Guarded TextPool) β) :
    (onPool k x >>= fun a => onPool k (y a)) = onPool k (x >>= y) := by
  funext s
  cases hg : s.pools[k]? with
  | none => rw [onPool_none hg, Act.bind_error (onPool_none hg x)]
  | some g =>
    rw [onPool_some hg]
    have hx := onPool_some hg x
    cases hr : (x g).result with
    | error e =>
      rw [hr] at hx
      rw [Act.bind_error hx, Act.bind_of_error hr]
    | ok a =>
      rw [hr] at hx
      have hlt := (Array.getElem?_eq_some_iff.1 hg).1
      have hg' : (s.pools.setIfInBounds k (x g).state)[k]? = some (x g).state :=
        Array.getElem?_setIfInBounds_self_of_lt hlt
      rw [Act.bind_ok hx, Act.bind_of_ok hr,
        onPool_some (s := { s with pools := s.pools.setIfInBounds k (x g).state }) hg']
      simp only [Array.setIfInBounds_setIfInBounds]

theorem onPool_map {β : Type} (k : Nat) (x : Act Failure (Guarded TextPool) α) (f : α → β) :
    onPool k (f <$> x) = f <$> onPool k x := by
  funext s
  cases hg : s.pools[k]? with
  | none => rw [Act.map_apply, onPool_none hg, onPool_none hg]; rfl
  | some g => rw [Act.map_apply, onPool_some hg, onPool_some hg, Act.map_apply]

section Rings

variable {type : ElementType} (r : Nat) (ring : Ring type.Value) (tr : TextRing) (pool : Nat)

theorem onRing_some {g : Guarded BlockArena} (hg : s.arenas[n]? = some g)
    (x : Act Error (Ring.Site type.Value) α) :
    onRing r ring n x s = ⟨(x ⟨ring, g⟩).result.mapError .refused,
      { s with
        arenas := s.arenas.setIfInBounds n (x ⟨ring, g⟩).state.nodes
        containers := s.containers.setIfInBounds r
          (some (.ring type (x ⟨ring, g⟩).state.ring n)) },
      (x ⟨ring, g⟩).events⟩ := by
  unfold onRing
  rw [hg]
  rfl

theorem onRing_none (hg : s.arenas[n]? = none) (x : Act Error (Ring.Site type.Value) α) :
    onRing r ring n x s = ⟨.error .unknown, s, []⟩ := by
  unfold onRing
  rw [hg]
  rfl

/-- An operation of a text ring needs its arena and its pool. -/
theorem onTextRing_cases (n : Nat) (x : Act Error TextRing.Site α) (s : Store) :
    ((s.arenas[n]? = none ∨ s.pools[pool]? = none) ∧
      onTextRing r tr n pool x s = ⟨.error .unknown, s, []⟩) ∨
    ∃ g p, s.arenas[n]? = some g ∧ s.pools[pool]? = some p ∧
      onTextRing r tr n pool x s = ⟨(x ⟨tr, g, p⟩).result.mapError .refused,
        { s with
          arenas := s.arenas.setIfInBounds n (x ⟨tr, g, p⟩).state.nodes
          pools := s.pools.setIfInBounds pool (x ⟨tr, g, p⟩).state.pool
          containers := s.containers.setIfInBounds r
            (some (.textRing (x ⟨tr, g, p⟩).state.ring n pool)) },
        (x ⟨tr, g, p⟩).events⟩ := by
  unfold onTextRing
  cases hg : s.arenas[n]? with
  | none => exact .inl ⟨.inl rfl, rfl⟩
  | some g =>
    cases hp : s.pools[pool]? with
    | none => exact .inl ⟨.inr rfl, rfl⟩
    | some p => exact .inr ⟨g, p, rfl, rfl, rfl⟩

end Rings

/-! ### Commands to a container -/

theorem container_ok (h : s.containerAt r = some c) : container r s = ⟨.ok c, s, []⟩ := by
  have hc : s.containers[r]? = some (some c) := Option.join_eq_some_iff.1 h
  simp [container, hc]

theorem container_unknown (h : s.containerAt r = none) :
    container r s = ⟨.error .unknown, s, []⟩ := by
  unfold containerAt at h
  unfold container
  rcases hc : s.containers[r]? with _ | _ | c
  · simp [hc]
  · simp [hc]
  · simp [hc] at h

/-- A command to a ring reaches a ring of its type, or is refused. -/
theorem ring_cases (r : Nat) (c : RingCommand Datum) (s : Store) :
    step (.ring r c) s = ⟨.error .unknown, s, []⟩ ∨
    ∃ type ring n d, s.containerAt r = some (.ring type ring n) ∧ c.as? type = some d ∧
      step (.ring r c) s = ringStep r ring n d s := by
  rw [step]
  rcases hc : s.containerAt r with _ | ⟨type, ring, n⟩ | _ | _
  · exact .inl (Act.bind_error (container_unknown hc))
  · rw [Act.bind_ok (container_ok hc)]
    cases hd : c.as? type with
    | none =>
      left
      simp only [hd]
      rfl
    | some d =>
      refine .inr ⟨type, ring, n, d, rfl, hd, ?_⟩
      simp only [hd]
      rfl
  · exact .inl (Act.bind_ok (container_ok hc))
  · exact .inl (Act.bind_ok (container_ok hc))

/-- A command to a text ring reaches a text ring, or is refused. -/
theorem textRing_cases (r : Nat) (c : TextRingCommand) (s : Store) :
    ((∀ tr n pool, s.containerAt r ≠ some (.textRing tr n pool)) ∧
      step (.textRing r c) s = ⟨.error .unknown, s, []⟩) ∨
    ∃ tr n pool, s.containerAt r = some (.textRing tr n pool) ∧
      step (.textRing r c) s = textRingStep r tr n pool c s := by
  rw [step]
  rcases hc : s.containerAt r with _ | _ | ⟨tr, n, pool⟩ | _
  · exact .inl ⟨nofun, Act.bind_error (container_unknown hc)⟩
  · exact .inl ⟨nofun, Act.bind_ok (container_ok hc)⟩
  · exact .inr ⟨tr, n, pool, rfl, Act.bind_ok (container_ok hc)⟩
  · exact .inl ⟨nofun, Act.bind_ok (container_ok hc)⟩

theorem textAt_ok {h : TextHandle} {pool : Nat} (hc : s.containerAt r = some (.text h pool)) :
    textAt r s = ⟨.ok (h, pool), s, []⟩ :=
  Act.bind_ok (container_ok hc)

/-- A container is a text, or is refused as one. -/
theorem textAt_cases (r : Nat) (s : Store) : textAt r s = ⟨.error .unknown, s, []⟩ ∨
    ∃ h pool, s.containerAt r = some (.text h pool) := by
  cases hc : s.containerAt r with
  | none => exact .inl (Act.bind_error (container_unknown hc))
  | some x =>
    cases x with
    | text h pool => exact .inr ⟨h, pool, rfl⟩
    | ring type ring n => exact .inl (Act.bind_ok (container_ok hc))
    | textRing tr n pool => exact .inl (Act.bind_ok (container_ok hc))

theorem step_text {h : TextHandle} {pool : Nat} (hc : s.containerAt r = some (.text h pool))
    (d : TextCommand) : step (.text r d) s = textStep h pool d s :=
  Act.bind_ok (textAt_ok hc)

/-- A container is dropped if it is there. -/
theorem drop_cases (r : Nat) (s : Store) :
    (s.containerAt r = none ∧ step (.drop r) s = ⟨.error .unknown, s, []⟩) ∨
    ∃ c, s.containerAt r = some c ∧ (step (.drop r) s).state = (dropContainer r c s).state := by
  rw [step]
  cases hc : s.containerAt r with
  | none => exact .inl ⟨rfl, Act.bind_error (container_unknown hc)⟩
  | some c =>
    refine .inr ⟨c, rfl, ?_⟩
    rw [Act.bind_ok (container_ok hc)]
    exact Act.state_bind (fun _ _ => rfl) s

end Store

end FixedArena
