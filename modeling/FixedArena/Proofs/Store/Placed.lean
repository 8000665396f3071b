import FixedArena.Proofs.Store.Access
import FixedArena.Proofs.Text.Ring

/-!
Stores seen from one arena: the rings that live on it, be they plain or the rings of text rings,
and their blocks. An operation on one container is an exchange of blocks in which all other
containers keep their rings.

Main facts:
* `Quiet`: stores with the same arenas and rings, whatever else changed;
* `Exchanges`: what an operation on one container does to an arena and its rings;
* `exchanges_of_change`: a change of one arena and one container, of which `exchanges_of_advances`,
  `exchanges_of_create`, `exchanges_of_drop` and `exchanges_of_arena` are cases.
-/

namespace FixedArena

/-- The arena is as it was reserved. -/
def BlockArena.New (a : BlockArena) : Prop :=
  ∃ id capacity blockSize, a = .fresh id capacity blockSize ∧ capacity < indexLimit

/-- A ring and where it lives. -/
structure Placed where
  type : ElementType
  ring : Ring type.Value
  nodes : Nat
  /-- The pool of a text ring. -/
  pool : Option Nat

/-- The ring of a container. -/
def Container.placed? : Container → Option Placed
  | .ring type r nodes => some ⟨type, r, nodes, none⟩
  | .textRing r nodes pool => some ⟨.handle, r.handles, nodes, some pool⟩
  | .text .. => none

/-- The ring holds a list on the arena. -/
def Placed.Valid (p : Placed) (a : BlockArena) : Prop := ∃ ns vs, p.ring.Holds a ns vs

namespace Store

variable {α : Type} {s t u : Store} {k r : Nat} {a b : BlockArena} {c : Container} {p : Placed}

/-! ### Views -/

/-- The ring of the container with a number. -/
def placedAt (s : Store) (r : Nat) : Option Placed := (s.containerAt r).bind Container.placed?

/-- The blocks that the ring of a container has on an arena. -/
def slotsAt (s : Store) (k r : Nat) : List UInt32 :=
  match s.placedAt r, s.arenaAt k with
  | some p, some a => if p.nodes = k then p.ring.slots a else []
  | _, _ => []

/-- The blocks that all rings have on an arena. -/
def ringSlots (s : Store) (k : Nat) : List UInt32 :=
  (List.range s.containers.size).flatMap (s.slotsAt k)

theorem placedAt_of_containerAt {x : Option Container} (h : s.containerAt r = x) :
    s.placedAt r = x.bind Container.placed? := by
  rw [placedAt, h]

theorem placedAt_congr (h : t.containerAt r = s.containerAt r) : t.placedAt r = s.placedAt r :=
  placedAt_of_containerAt h

theorem placedAt_of_size_le (h : s.containers.size ≤ r) : s.placedAt r = none :=
  placedAt_of_containerAt (containerAt_of_size_le h)

theorem slotsAt_of_placedAt_none (h : s.placedAt r = none) : s.slotsAt k r = [] := by
  simp [slotsAt, h]

theorem slotsAt_eq (hp : s.placedAt r = some p) (ha : s.arenaAt k = some a) :
    s.slotsAt k r = if p.nodes = k then p.ring.slots a else [] := by
  simp [slotsAt, hp, ha]

/-! ### Stores that agree on arenas and rings -/

/-- No arena and no pool is lost. -/
structure Grown (s t : Store) : Prop where
  arenas : s.arenas.size ≤ t.arenas.size
  pools : s.pools.size ≤ t.pools.size

theorem Grown.refl (s : Store) : s.Grown s := ⟨Nat.le_refl _, Nat.le_refl _⟩

theorem Grown.trans (hst : s.Grown t) (htu : t.Grown u) : s.Grown u :=
  ⟨Nat.le_trans hst.arenas htu.arenas, Nat.le_trans hst.pools htu.pools⟩

/-- The arena and the pool of a ring are there. -/
structure Homed (s : Store) (p : Placed) : Prop where
  nodes : p.nodes < s.arenas.size
  pool : ∀ j ∈ p.pool, j < s.pools.size

theorem Homed.grown (hp : s.Homed p) (hg : s.Grown t) : t.Homed p :=
  ⟨Nat.lt_of_lt_of_le hp.nodes hg.arenas, fun j hj => Nat.lt_of_lt_of_le (hp.pool j hj) hg.pools⟩

/-- The same arenas, but for their holds, and the same containers. -/
structure Quiet (s t : Store) : Prop where
  arenaAt : ∀ k, t.arenaAt k = s.arenaAt k
  containers : t.containers = s.containers
  grown : s.Grown t

instance : IsPreorder Store Quiet where
  refl s := ⟨fun _ => rfl, rfl, .refl s⟩
  trans _ _ _ h₁ h₂ :=
    ⟨fun k => (h₂.arenaAt k).trans (h₁.arenaAt k), h₂.containers.trans h₁.containers,
      h₁.grown.trans h₂.grown⟩

theorem Quiet.containerAt (h : s.Quiet t) (r : Nat) : t.containerAt r = s.containerAt r := by
  rw [Store.containerAt, h.containers, Store.containerAt]

theorem Quiet.placedAt (h : s.Quiet t) (r : Nat) : t.placedAt r = s.placedAt r :=
  placedAt_congr (h.containerAt r)

theorem Quiet.slotsAt (h : s.Quiet t) (k r : Nat) : t.slotsAt k r = s.slotsAt k r := by
  unfold Store.slotsAt
  rw [h.placedAt, h.arenaAt]

/-- What does not touch arenas or containers is quiet. -/
theorem quiet_of_eq (ha : t.arenas = s.arenas) (hc : t.containers = s.containers)
    (hp : s.pools.size ≤ t.pools.size) : s.Quiet t := by
  refine ⟨fun k => ?_, hc, ⟨ha ▸ Nat.le_refl _, hp⟩⟩
  rw [arenaAt, ha, arenaAt]

theorem quiet_onPool (k : Nat) (x : Act Failure (Guarded TextPool) α) :
    Act.Within Quiet (onPool k x) := by
  intro s
  cases hg : s.pools[k]? with
  | none =>
    rw [onPool_none hg]
    exact refl_of Quiet s
  | some g =>
    rw [onPool_some hg]
    exact quiet_of_eq rfl rfl (Array.size_setIfInBounds ..).ge

/-! ### Changes of one arena and one container -/

theorem grown_of_set {g' : Guarded BlockArena} {n : Nat}
    (ht : t.arenas = s.arenas.setIfInBounds n g') (hp : s.pools.size ≤ t.pools.size) : s.Grown t :=
  ⟨ht ▸ (Array.size_setIfInBounds ..).ge, hp⟩

theorem absent_of_set {g g' : Guarded BlockArena} {n : Nat} (hg : s.arenas[n]? = some g)
    (ht : t.arenas = s.arenas.setIfInBounds n g') (ha : s.arenaAt k = none) :
    t.arenaAt k = none := by
  rw [arenaAt_of_set hg ht]
  split
  · next hk =>
    rw [hk, arenaAt_of_get hg] at ha
    cases ha
  · exact ha

/-- An access to an arena that leaves its value as it was. -/
theorem quiet_onArena (k : Nat) {x : Act Failure (Guarded BlockArena) α}
    (hx : ∀ g, (x g).state.value = g.value) : Act.Within Quiet (onArena k x) := by
  intro s
  cases hg : s.arenas[k]? with
  | none =>
    rw [onArena_none hg]
    exact refl_of Quiet s
  | some g =>
    rw [onArena_some hg]
    refine ⟨fun j => ?_, rfl, grown_of_set rfl (Nat.le_refl _)⟩
    rw [arenaAt_of_set hg rfl, hx]
    by_cases hj : j = k
    · rw [if_pos hj, hj, arenaAt_of_get hg]
    · rw [if_neg hj]

/-! ### Exchanges of blocks -/

/-- An arena is sound, if it is there, and all rings on it hold lists. All rings are on arenas. -/
structure Settled (s : Store) (k : Nat) : Prop where
  sound : ∀ a, s.arenaAt k = some a → a.Sound
  valid : ∀ a, s.arenaAt k = some a → ∀ r p, s.placedAt r = some p → p.nodes = k → p.Valid a
  homed : ∀ r p, s.placedAt r = some p → s.Homed p

/-- **From one store to another, the container `r` and the callers turned their blocks over** on an
arena: the callers had the blocks `l` and have the blocks `l'`. All other containers stay. An arena
that was not there is new. -/
structure Exchanges (k : Nat) (s : Store) (r : Nat) (l : List UInt32) (t : Store)
    (l' : List UInt32) : Prop where
  others : ∀ r', r' ≠ r → t.containerAt r' = s.containerAt r'
  grown : s.Grown t
  homed : ∀ p, t.placedAt r = some p → t.Homed p
  absent : s.arenaAt k = none →
    t.arenaAt k = none ∨ ∃ b, t.arenaAt k = some b ∧ b.New ∧ t.placedAt r = s.placedAt r
  arena : ∀ a, s.arenaAt k = some a → ∃ b, t.arenaAt k = some b ∧
    (∀ p, t.placedAt r = some p → p.nodes = k → p.Valid b) ∧
    a.Turns (s.slotsAt k r ++ l) b (t.slotsAt k r ++ l')

variable {l l' : List UInt32}

theorem exchanges_of_quiet (h : s.Quiet t) (hs : s.Settled k) (r : Nat) :
    Exchanges k s r [] t [] where
  others r' _ := h.containerAt r'
  grown := h.grown
  homed p hp := (hs.homed r p (h.placedAt r ▸ hp)).grown h.grown
  absent ha := .inl ((h.arenaAt k).trans ha)
  arena a ha := by
    refine ⟨a, (h.arenaAt k).trans ha, fun p hp hk => ?_, ?_⟩
    · rw [h.placedAt] at hp
      exact hs.valid a ha r p hp hk
    · rw [h.slotsAt]
      exact .refl a _

theorem slotsAt_eq_nil (h : ∀ p, s.placedAt r = some p → p.nodes ≠ k) : s.slotsAt k r = [] := by
  unfold slotsAt
  split
  · next p a hp ha => exact if_neg (h p hp)
  · rfl

/-- **A change of one arena and of one container**, for this arena and for all others. -/
theorem exchanges_of_change {n : Nat} {g g' : Guarded BlockArena} (hg : s.arenas[n]? = some g)
    (ht : t.arenas = s.arenas.setIfInBounds n g') (hpools : s.pools.size ≤ t.pools.size)
    (hothers : ∀ r', r' ≠ r → t.containerAt r' = s.containerAt r')
    (hps : ∀ p, s.placedAt r = some p → p.nodes = n)
    (hpt : ∀ p, t.placedAt r = some p → p.nodes = n ∧ t.Homed p)
    (hturns : k = n → (∀ p, t.placedAt r = some p → p.Valid g'.value) ∧
      g.value.Turns (s.slotsAt n r ++ l) g'.value (t.slotsAt n r ++ l')) :
    Exchanges k s r (if k = n then l else []) t (if k = n then l' else []) where
  others := hothers
  grown := grown_of_set ht hpools
  homed p hp := (hpt p hp).2
  absent ha := .inl (absent_of_set hg ht ha)
  arena a ha := by
    have hgn := arenaAt_of_get hg
    have htn := arenaAt_of_set hg ht k
    by_cases hk : k = n
    · subst hk
      obtain rfl : g.value = a := Option.some.inj (hgn.symm.trans ha)
      obtain ⟨hvalid, hturns⟩ := hturns rfl
      rw [if_pos rfl] at htn
      rw [if_pos rfl, if_pos rfl]
      exact ⟨g'.value, htn, fun p hp _ => hvalid p hp, hturns⟩
    · have hs : s.slotsAt k r = [] := slotsAt_eq_nil fun p hp h => hk (h.symm.trans (hps p hp))
      have ht : t.slotsAt k r = [] := slotsAt_eq_nil fun p hp h => hk (h.symm.trans (hpt p hp).1)
      rw [if_neg hk] at htn
      rw [if_neg hk, if_neg hk, hs, ht]
      refine ⟨a, htn.trans ha, fun p hp h => ?_, .refl a _⟩
      exact absurd (h.symm.trans (hpt p hp).1) hk

/-- Where the container has no ring, neither before nor after, nothing is exchanged. -/
theorem exchanges_of_unplaced (harena : ∀ k, t.arenaAt k = s.arenaAt k) (hgrown : s.Grown t)
    (hothers : ∀ r', r' ≠ r → t.containerAt r' = s.containerAt r') (h0 : s.slotsAt k r = [])
    (hpt : t.placedAt r = none) : Exchanges k s r [] t [] where
  others := hothers
  grown := hgrown
  homed p hp := by
    rw [hpt] at hp
    cases hp
  absent ha := .inl ((harena k).trans ha)
  arena a ha := by
    refine ⟨a, (harena k).trans ha, fun p hp => ?_, ?_⟩
    · rw [hpt] at hp
      cases hp
    · rw [h0, slotsAt_of_placedAt_none hpt]
      exact .refl a _

section Site

variable {type : ElementType} {ring ring' : Ring type.Value} {n : Nat} {pool : Option Nat}
  {g g' : Guarded BlockArena} {x : Option Container}

/-- The blocks of a ring are those that its list was said to be in. -/
theorem slotsAt_of_holds {ns : List UInt32} {vs : List type.Value}
    (hp : s.placedAt r = some ⟨type, ring, n, pool⟩) (ha : s.arenaAt n = some a)
    (h : ring.Holds a ns vs) : s.slotsAt n r = ring.head.index :: ns := by
  rw [slotsAt_eq hp ha, if_pos rfl]
  exact h.slots_eq

section Changed

variable (hg : s.arenas[n]? = some g) (ht : t.arenas = s.arenas.setIfInBounds n g')
  (hpools : s.pools.size ≤ t.pools.size)
  (hc : ∀ r', t.containerAt r' = if r' = r then x else s.containerAt r')

include hg ht hpools hc

/-- **An operation of a ring is an exchange.** -/
theorem exchanges_of_advances (hp : s.placedAt r = some ⟨type, ring, n, pool⟩)
    (hx : x.bind Container.placed? = some ⟨type, ring', n, pool⟩)
    (hadv : Ring.Site.Advances ⟨ring, g⟩ ⟨ring', g'⟩) (hs : s.Settled k) :
    Exchanges k s r [] t [] := by
  have hgn := arenaAt_of_get hg
  have hp' : t.placedAt r = some ⟨type, ring', n, pool⟩ := by
    rw [placedAt_of_containerAt (hc r), if_pos rfl, hx]
  have hchange : Exchanges k s r (if k = n then [] else []) t (if k = n then [] else []) := by
    refine exchanges_of_change hg ht hpools ?_ ?_ ?_ ?_
    · intro r' hr'
      rw [hc, if_neg hr']
    · intro p hps
      obtain rfl := Option.some.inj (hp.symm.trans hps)
      rfl
    · intro p hpt
      obtain rfl := Option.some.inj (hp'.symm.trans hpt)
      have hhome := (hs.homed r _ hp).grown (grown_of_set ht hpools)
      exact ⟨rfl, hhome.nodes, hhome.pool⟩
    · rintro rfl
      obtain ⟨ns, vs, hh⟩ := hs.valid g.value hgn r _ hp rfl
      obtain ⟨ns', vs', hh', hm⟩ := hadv (hs.sound g.value hgn) ns vs hh
      have htn := (arenaAt_of_set hg ht k).trans (if_pos rfl)
      refine ⟨fun p hpt => ?_, ?_⟩
      · obtain rfl := Option.some.inj (hp'.symm.trans hpt)
        exact ⟨ns', vs', hh'⟩
      · rw [slotsAt_of_holds hp hgn hh, slotsAt_of_holds hp' htn hh', List.append_nil,
          List.append_nil]
        exact hm.turns
  simpa using hchange

/-- **Making a ring is an exchange.** -/
theorem exchanges_of_create (hp : s.placedAt r = none)
    (hx : x.bind Container.placed? = some ⟨type, ring, n, pool⟩)
    (hh : ring.Holds g'.value [] [])
    (hturns : ∀ l, g.value.Turns l g'.value (ring.head.index :: l))
    (hpool : ∀ j ∈ pool, j < t.pools.size) : Exchanges k s r [] t [] := by
  have hp' : t.placedAt r = some ⟨type, ring, n, pool⟩ := by
    rw [placedAt_of_containerAt (hc r), if_pos rfl, hx]
  have hchange : Exchanges k s r (if k = n then [] else []) t (if k = n then [] else []) := by
    refine exchanges_of_change hg ht hpools ?_ ?_ ?_ ?_
    · intro r' hr'
      rw [hc, if_neg hr']
    · intro p hps
      rw [hp] at hps
      cases hps
    · intro p hpt
      obtain rfl := Option.some.inj (hp'.symm.trans hpt)
      obtain ⟨hn, -⟩ := Array.getElem?_eq_some_iff.1 hg
      exact ⟨rfl, Nat.lt_of_lt_of_le hn (grown_of_set ht hpools).arenas, hpool⟩
    · rintro rfl
      have htn := (arenaAt_of_set hg ht k).trans (if_pos rfl)
      refine ⟨fun p hpt => ?_, ?_⟩
      · obtain rfl := Option.some.inj (hp'.symm.trans hpt)
        exact ⟨[], [], hh⟩
      · rw [slotsAt_of_placedAt_none hp, slotsAt_of_holds hp' htn hh]
        exact hturns []
  simpa using hchange

end Changed

/-- The blocks of a ring that nobody has once it is given up: all, if the arena is held. -/
def leftBy (s : Store) (k r : Nat) : List UInt32 :=
  match s.arenas[k]? with
  | some g => if g.hold = .free then [] else s.slotsAt k r
  | none => []

theorem leftBy_of_slotsAt_nil (h : s.slotsAt k r = []) : s.leftBy k r = [] := by
  unfold leftBy
  rw [h]
  split
  · exact ite_self _
  · rfl

/-- **Giving a ring up is an exchange**: its blocks go back, or to nobody. -/
theorem exchanges_of_drop (hg : s.arenas[n]? = some g)
    (ht : t.arenas = s.arenas.setIfInBounds n g') (hpools : s.pools.size ≤ t.pools.size)
    (hc : ∀ r', t.containerAt r' = if r' = r then none else s.containerAt r')
    (hp : s.placedAt r = some ⟨type, ring, n, pool⟩)
    (hdrop : ∀ ns vs, g.value.Sound → ring.Holds g.value ns vs →
      (g.hold = .free → g.value.Turns (ring.head.index :: ns) g'.value []) ∧
      (g.hold ≠ .free → g'.value = g.value))
    (hs : s.Settled k) : Exchanges k s r [] t (s.leftBy k r) := by
  have hgn := arenaAt_of_get hg
  have hp' : t.placedAt r = none := by
    rw [placedAt_of_containerAt (hc r), if_pos rfl]
    rfl
  have hleft : (if k = n then s.leftBy k r else []) = s.leftBy k r := by
    by_cases hk : k = n
    · exact if_pos hk
    · rw [if_neg hk, leftBy_of_slotsAt_nil]
      refine slotsAt_eq_nil fun p hps h => hk ?_
      obtain rfl := Option.some.inj (hp.symm.trans hps)
      exact h.symm
  have hchange : Exchanges k s r (if k = n then [] else []) t
      (if k = n then s.leftBy k r else []) := by
    refine exchanges_of_change hg ht hpools ?_ ?_ ?_ ?_
    · intro r' hr'
      rw [hc, if_neg hr']
    · intro p hps
      obtain rfl := Option.some.inj (hp.symm.trans hps)
      rfl
    · intro p hpt
      rw [hp'] at hpt
      cases hpt
    · rintro rfl
      refine ⟨fun p hpt => ?_, ?_⟩
      · rw [hp'] at hpt
        cases hpt
      · obtain ⟨ns, vs, hh⟩ := hs.valid g.value hgn r _ hp rfl
        obtain ⟨hfree, hheld⟩ := hdrop ns vs (hs.sound g.value hgn) hh
        rw [slotsAt_of_placedAt_none hp', List.append_nil, List.nil_append, leftBy, hg]
        by_cases hf : g.hold = .free
        · simp only [if_pos hf]
          rw [slotsAt_of_holds hp hgn hh]
          exact hfree hf
        · simp only [if_neg hf]
          rw [hheld hf]
          exact .refl _ _
  rw [hleft] at hchange
  simpa using hchange

end Site

/-- **A change of one arena that its callers make**, for this arena and for all others. -/
theorem exchanges_of_arena {n : Nat} {g g' : Guarded BlockArena} (hg : s.arenas[n]? = some g)
    (ht : t.arenas = s.arenas.setIfInBounds n g') (hpools : s.pools.size ≤ t.pools.size)
    (hc : t.containers = s.containers) (hturns : g.value.Turns l g'.value l') (k : Nat) :
    Exchanges k s s.containers.size (if k = n then l else []) t (if k = n then l' else []) := by
  have hp : s.placedAt s.containers.size = none := placedAt_of_size_le (Nat.le_refl _)
  have hp' : t.placedAt s.containers.size = none := placedAt_of_size_le (hc ▸ Nat.le_refl _)
  refine exchanges_of_change hg ht hpools ?_ ?_ ?_ ?_
  · intro r' _
    rw [containerAt, hc, containerAt]
  · intro p hps
    rw [hp] at hps
    cases hps
  · intro p hpt
    rw [hp'] at hpt
    cases hpt
  · intro _
    refine ⟨fun p hpt => ?_, ?_⟩
    · rw [hp'] at hpt
      cases hpt
    · rw [slotsAt_of_placedAt_none hp, slotsAt_of_placedAt_none hp']
      exact hturns

end Store

end FixedArena
