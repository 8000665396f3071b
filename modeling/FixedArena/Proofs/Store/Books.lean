import FixedArena.Proofs.Store.Held
import FixedArena.Proofs.Text.Queue

/-!
The ledgers of all pools of a store. The handles of one container are its own, those that callers
were handed are theirs; an operation of one holder changes his list, or that of the callers, and
leaves everybody else's slots and texts alone.

Main facts:
* `Books`: the ledger of one pool, if it is there;
* `heldOn`: the handles of a pool that one container holds;
* `PostsTo`: what an operation of one holder does to the ledger of a pool;
* `Tends`: the operations that keep all containers and what these own.
-/

namespace FixedArena

/-- The pool where a container's texts live. -/
def Container.pool? : Container → Option Nat
  | .ring .. => none
  | .textRing _ _ pool | .text _ pool => some pool

/-- The command leaves every pool in its place. -/
def Command.KeepsPools (c : Command) : Prop := ∀ i j, c ≠ .swapPools i j

namespace TextPool

variable {W F : List TextHandle}

/-- A holder keeps the handles that he has, and writes to the handles `W` at most. -/
def Stays (W F : List TextHandle) (g g' : Guarded TextPool) : Prop :=
  Posts W F g.value (fun L => L) F g'.value

instance : IsPreorder (Guarded TextPool) (Stays W F) where
  refl g := .refl W F g.value
  trans _ _ _ h₁ h₂ := h₁.trans h₂ (.inl (List.Subset.refl F))

end TextPool

namespace OwnedText

open TextPool (GuardedAct Stays)

variable {W F : List TextHandle}

theorem stays_of_edits {h : TextHandle} {x : GuardedAct Unit} (hx : Edits h x) (hW : h ∈ W) :
    Act.Within (Stays W F) x := by
  refine fun g => .of_tidy fun hg => ?_
  obtain ⟨g', log, hedit, -, hr⟩ := hx g hg
  rw [hedit]
  exact hr.posts hW

end OwnedText

namespace Store

open TextPool (Ledger Posts Stays)

variable {α : Type} {s t u : Store} {k r n : Nat} {g g' : Guarded TextPool} {p p' : TextPool}
  {W F F' F'' : List TextHandle} {f f' : List TextHandle → List TextHandle}

/-! ### Views -/

/-- The pool with a number, whoever holds it. -/
def poolAt (s : Store) (k : Nat) : Option TextPool := s.pools[k]?.map Guarded.value

/-- The pool where the texts of the container with a number live. -/
def poolOf (s : Store) (r : Nat) : Option Nat := (s.containerAt r).bind Container.pool?

/-- The handles of a pool that the container with a number holds. -/
def heldOn (s : Store) (k r : Nat) : List TextHandle :=
  if s.poolOf r = some k then s.heldAt r else []

/-- The entry that a handle names in a pool. -/
def entryAt (s : Store) (k : Nat) (h : TextHandle) : Option TextPool.Entry :=
  (s.poolAt k).bind (·.catalog.find h)

theorem poolAt_of_get (hg : s.pools[k]? = some g) : s.poolAt k = some g.value := by
  rw [poolAt, hg]
  rfl

theorem poolAt_of_set (hg : s.pools[n]? = some g) (ht : t.pools = s.pools.setIfInBounds n g')
    (k : Nat) : t.poolAt k = if k = n then some g'.value else s.poolAt k := by
  obtain ⟨hn, -⟩ := Array.getElem?_eq_some_iff.1 hg
  unfold poolAt
  rw [ht, Array.getElem?_setIfInBounds]
  by_cases hk : k = n
  · simp [hk, hn]
  · simp [hk, Ne.symm hk]

theorem poolAt_of_push (ht : t.pools = s.pools.push g) (k : Nat) :
    t.poolAt k = if k = s.pools.size then some g.value else s.poolAt k := by
  unfold poolAt
  rw [ht, Array.getElem?_push]
  split <;> rfl

theorem poolAt_of_eq (ht : t.pools = s.pools) (k : Nat) : t.poolAt k = s.poolAt k := by
  rw [poolAt, ht, poolAt]

/-- An operation on another pool. -/
theorem poolAt_onPool_of_ne (hk : n ≠ k) (x : Act Failure (Guarded TextPool) α) (s : Store) :
    (onPool n x s).state.poolAt k = s.poolAt k := by
  cases hg : s.pools[n]? with
  | none => rw [onPool_none hg]
  | some g =>
    rw [onPool_some hg]
    exact (poolAt_of_set hg rfl k).trans (if_neg (Ne.symm hk))

theorem heldOn_of_containerAt {x : Container} (hc : s.containerAt r = some x) :
    s.heldOn k r = if x.pool? = some k then s.heldBy x else [] := by
  rw [heldOn, poolOf, hc, Option.bind_some, heldAt_of_containerAt hc]
  rfl

/-- A container whose texts live elsewhere holds nothing here. -/
theorem heldOn_of_elsewhere (h : s.poolOf r ≠ some k) : s.heldOn k r = [] := if_neg h

theorem poolOf_of_containerAt {x : Option Container} (hc : s.containerAt r = x) :
    s.poolOf r = x.bind Container.pool? := by
  rw [poolOf, hc]

theorem heldOn_of_absent (hc : s.containerAt r = none) : s.heldOn k r = [] := by
  rw [heldOn, heldAt_of_containerAt hc]
  split <;> rfl

theorem heldOn_of_size_le (h : s.containers.size ≤ r) : s.heldOn k r = [] :=
  heldOn_of_absent (containerAt_of_size_le h)

theorem heldOn_of_textRing {tr : TextRing} {a : BlockArena} {ns : List UInt32}
    {vs : List TextHandle} (hc : s.containerAt r = some (.textRing tr n k)) (ha : s.arenaAt n = some a)
    (hh : tr.handles.Holds a ns vs) : s.heldOn k r = vs := by
  rw [heldOn, poolOf, hc]
  exact (if_pos rfl).trans (heldAt_of_textRing hc ha hh)

theorem heldOn_of_ring {type : ElementType} {ring : Ring type.Value}
    (hc : s.containerAt r = some (.ring type ring n)) : s.heldOn k r = [] := by
  apply heldOn_of_elsewhere
  rw [poolOf_of_containerAt hc]
  exact nofun

theorem heldOn_of_text {h : TextHandle} (hc : s.containerAt r = some (.text h n)) :
    s.heldOn k r = if n = k then [h] else [] := by
  rw [heldOn_of_containerAt hc]
  simp [Container.pool?, heldBy]

/-! ### Books -/

/-- **The ledger of a pool**, which is empty while there is none. -/
def Books (s : Store) (k : Nat) (owned lent : List TextHandle) : Prop :=
  match s.poolAt k with
  | some p => Ledger owned lent p
  | none => owned = [] ∧ lent = []

theorem books_iff (hp : s.poolAt k = some p) {os ls : List TextHandle} :
    s.Books k os ls ↔ Ledger os ls p := by
  rw [Books, hp]

theorem books_congr (hk : t.poolAt k = s.poolAt k) {os ls : List TextHandle} :
    t.Books k os ls ↔ s.Books k os ls := by
  rw [Books, hk, Books]

theorem Books.perm {os os' ls : List TextHandle} (hb : s.Books k os ls) (ho : os.Perm os') :
    s.Books k os' ls := by
  unfold Books at *
  split
  · next p hp =>
    rw [hp] at hb
    exact Ledger.perm hb ho
  · next hp =>
    rw [hp] at hb
    obtain ⟨rfl, rfl⟩ := hb
    exact ⟨List.nil_perm.1 ho, rfl⟩

/-- **An operation of one holder** on a store, as its pool sees it: see `TextPool.Posts`. -/
structure PostsTo (k : Nat) (W F : List TextHandle) (s : Store)
    (f : List TextHandle → List TextHandle) (F' : List TextHandle) (t : Store) : Prop where
  books : ∀ H L, s.Books k (F ++ H) L → t.Books k (F' ++ H) (f L)
  kept : ∀ H L, s.Books k (F ++ H) L → ∀ g ∈ F ++ H, g ∈ F' ++ H → g ∉ W →
    t.entryAt k g = s.entryAt k g

namespace PostsTo

/-- A pool that is as it was. -/
theorem of_same (hk : t.poolAt k = s.poolAt k) : PostsTo k W F s (fun L => L) F t where
  books _ _ hb := (books_congr hk).2 hb
  kept _ _ _ _ _ _ _ := by rw [entryAt, hk, entryAt]

/-- A container that holds nothing on the pool, before and after. -/
theorem of_empty (hk : t.poolAt k = s.poolAt k) (hs : s.heldOn k r = []) (ht : t.heldOn k r = []) :
    PostsTo k W (s.heldOn k r) s (fun L => L) (t.heldOn k r) t := by
  rw [hs, ht]
  exact .of_same hk

theorem of_posts (hs : s.poolAt k = some p) (ht : t.poolAt k = some p') (h : Posts W F p f F' p') :
    PostsTo k W F s f F' t where
  books H L hb := (books_iff ht).2 (h.ledger H L ((books_iff hs).1 hb))
  kept H L hb g hg hg' hW := by
    rw [entryAt, entryAt, hs, ht]
    exact h.kept H L ((books_iff hs).1 hb) g hg hg' hW

/-- A holder on a pool that is not there. -/
theorem of_missing (hs : s.poolAt k = none) (ht : t.poolAt k = none) :
    PostsTo k W F s (fun L => L) [] t where
  books H L hb := by
    rw [Books, hs] at hb
    rw [Books, ht]
    exact ⟨(List.append_eq_nil_iff.1 hb.1).2, hb.2⟩
  kept H L hb g hg := by
    rw [Books, hs] at hb
    rw [hb.1] at hg
    cases hg

theorem congr (h : PostsTo k W F s f F' t) (hk : u.poolAt k = t.poolAt k) :
    PostsTo k W F s f F' u where
  books H L hb := (books_congr hk).2 (h.books H L hb)
  kept H L hb g hg hg' hW := by
    rw [entryAt, hk]
    exact h.kept H L hb g hg hg' hW

theorem of_tidy (h : (∀ p, s.poolAt k = some p → p.Tidy) → PostsTo k W F s f F' t) :
    PostsTo k W F s f F' t := by
  have htidy : ∀ H L, s.Books k (F ++ H) L → ∀ p, s.poolAt k = some p → p.Tidy :=
    fun H L hb p hp => ((books_iff hp).1 hb).tidy
  exact ⟨fun H L hb => (h (htidy H L hb)).books H L hb,
    fun H L hb => (h (htidy H L hb)).kept H L hb⟩

theorem trans (h₁ : PostsTo k W F s f F t) (h₂ : PostsTo k W F t f' F u) :
    PostsTo k W F s (f' ∘ f) F u where
  books H L hb := h₂.books H (f L) (h₁.books H L hb)
  kept H L hb g hg hg' hW :=
    (h₂.kept H (f L) (h₁.books H L hb) g hg hg' hW).trans (h₁.kept H L hb g hg hg' hW)

end PostsTo

/-- A new pool has an empty ledger. -/
theorem posts_of_push {slots maxLen : Nat} {id : UInt16} (hslots : slots < 65535)
    (ht : t.pools = s.pools.push { value := .fresh id slots maxLen }) :
    PostsTo k W F s (fun L => L) F t := by
  have hpush := poolAt_of_push ht k
  by_cases hk : k = s.pools.size
  · rw [if_pos hk] at hpush
    have hnone : s.poolAt k = none := by
      rw [poolAt, Array.getElem?_eq_none hk.ge]
      rfl
    refine ⟨fun H L hb => ?_, fun H L hb g hg => ?_⟩
    · rw [Books, hnone] at hb
      rw [hb.1, hb.2]
      exact (books_iff hpush).2 (.fresh id hslots)
    · rw [Books, hnone] at hb
      rw [hb.1] at hg
      cases hg
  · rw [if_neg hk] at hpush
    exact .of_same hpush

/-! ### Commands that keep every container -/

/-- The containers stay, and so does what they own; the handles `W` may be written to. -/
structure Tends (k : Nat) (W F : List TextHandle) (s t : Store) : Prop where
  containers : t.containers = s.containers
  posts : PostsTo k W F s (fun L => L) F t

instance : IsPreorder Store (Tends k W F) where
  refl _ := ⟨rfl, .of_same rfl⟩
  trans _ _ _ h₁ h₂ := ⟨h₂.containers.trans h₁.containers, h₁.posts.trans h₂.posts⟩

theorem tends_of_same (hk : t.poolAt k = s.poolAt k) (hc : t.containers = s.containers) :
    s.Tends k W F t :=
  ⟨hc, .of_same hk⟩

theorem tends_onPool {n : Nat} {x : Act Failure (Guarded TextPool) α}
    (hx : n = k → Act.Within (Stays W F) x) : Act.Within (Tends k W F) (onPool n x) := by
  intro s
  by_cases hk : n = k
  · subst hk
    cases hg : s.pools[n]? with
    | none =>
      rw [onPool_none hg]
      exact refl_of (Tends n W F) s
    | some g =>
      rw [onPool_some hg]
      refine ⟨rfl, .of_posts (poolAt_of_get hg) ((poolAt_of_set hg rfl n).trans (if_pos rfl)) ?_⟩
      exact hx rfl g
  · exact tends_of_same (poolAt_onPool_of_ne hk x s) (containers_onPool n x s)

theorem tends_onArena (n : Nat) (x : Act Failure (Guarded BlockArena) α) :
    Act.Within (Tends k W F) (onArena n x) := by
  intro s
  cases hg : s.arenas[n]? with
  | none =>
    rw [onArena_none hg]
    exact refl_of (Tends k W F) s
  | some g =>
    rw [onArena_some hg]
    exact tends_of_same rfl rfl

theorem tends_readPool (n : Nat) (h : TextPool → Except Error α) :
    Act.Within (Tends k W F) (readPool n h) :=
  tends_onPool fun _ g => .refl W F g.value

theorem tends_takeHold (target : Target) (mode : Mode) :
    Act.Within (Tends k W F) (takeHold target mode) := by
  cases target with
  | arena n => exact tends_onArena n _
  | pool n =>
    refine tends_onPool fun _ g => ?_
    unfold Stays
    rw [value_hold]
    exact .refl W F g.value

/-- A hold that ends leaves the pools. -/
theorem poolAt_released (target : Target) (mode : Mode) (s : Store) (k : Nat) :
    (released target mode s).poolAt k = s.poolAt k := by
  cases target with
  | arena n => rfl
  | pool n =>
    simp only [released, poolAt, Array.getElem?_modify]
    split
    · cases s.pools[k]? <;> rfl
    · rfl

theorem tends_released (target : Target) (mode : Mode) (s : Store) :
    s.Tends k W F (released target mode s) := by
  refine tends_of_same (poolAt_released target mode s k) ?_
  cases target <;> rfl

theorem tends_whileReading (pool : Nat) {x : StoreAct α} (hx : Act.Within (Tends k W F) x) :
    Act.Within (Tends k W F) (whileReading pool x) := by
  apply (tends_takeHold _ _).settled.bind
  intro taken
  match taken with
  | .ok () => exact hx.afterwards (tends_released _ _)
  | .error _ => exact hx

end Store

end FixedArena
