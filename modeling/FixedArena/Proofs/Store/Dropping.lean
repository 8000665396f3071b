import FixedArena.Proofs.Store.Containers
import FixedArena.Proofs.Store.Holdings
import FixedArena.Proofs.Text.Release

/-!
What dropping a container gives back. A ring gives its blocks back unless its arena is held, a text its
slot unless its pool is held. A text ring gives back its slots and its blocks, its blocks alone, or
nothing.

Main facts:
* `Store.DropsAs`: what dropping a container does to arenas and pools, for all holds;
* `Store.dropsAs`: so does every container that is dropped.
-/

namespace FixedArena

namespace Store

open TextPool (Loses)

variable {s t : Store} {k r n pool : Nat} {x : Container} {L : List TextHandle}

/-! ### What is given back -/

/-- Exactly these blocks of one arena are given back; all holds and all other arenas stay. -/
def FreesBlocks (s : Store) (k : Nat) (l : List UInt32) (t : Store) : Prop :=
  ∃ g b, s.arenas[k]? = some g ∧ t.arenas = s.arenas.setIfInBounds k { g with value := b } ∧
    g.value.Frees l b

/-- Exactly these slots of one pool are given back, which a container owned; all holds and all other
pools stay. -/
def FreesTexts (s : Store) (k : Nat) (l : List TextHandle) (t : Store) : Prop :=
  ∃ g p, s.pools[k]? = some g ∧ t.pools = s.pools.setIfInBounds k { g with value := p } ∧
    l.Nodup ∧ (∀ h ∈ l, g.value.isOwned h = true) ∧ Loses l g.value p

/-- **What dropping a container does to arenas and pools**, told for every hold of them. -/
def DropsAs (s : Store) (r : Nat) (t : Store) : Container → Prop
  | .ring _ ring n =>
    (s.slotsAt n r).length = ring.len + 1 ∧ t.pools = s.pools ∧
    (s.FreeAt n → s.FreesBlocks n (s.slotsAt n r) t) ∧ (¬s.FreeAt n → t.arenas = s.arenas)
  | .text h pool =>
    t.arenas = s.arenas ∧
    (s.PoolFreeAt pool → s.FreesTexts pool [h] t) ∧ (¬s.PoolFreeAt pool → t.pools = s.pools)
  | .textRing tr n pool =>
    (s.slotsAt n r).length = tr.len + 1 ∧ (s.heldAt r).length = tr.len ∧
    (s.FreeAt n → s.FreesBlocks n (s.slotsAt n r) t) ∧
    (¬s.FreeAt n → t.arenas = s.arenas ∧ t.pools = s.pools) ∧
    (s.FreeAt n → s.PoolFreeAt pool → s.FreesTexts pool (s.heldAt r) t) ∧
    (¬s.PoolFreeAt pool → t.pools = s.pools)

/-! ### Dropping -/

theorem freeAt_iff {g : Guarded BlockArena} (hg : s.arenas[k]? = some g) :
    s.FreeAt k ↔ g.hold = .free :=
  ⟨fun h => h g hg, fun h _ hg' => Option.some.inj (hg.symm.trans hg') ▸ h⟩

theorem poolFreeAt_iff {g : Guarded TextPool} (hg : s.pools[k]? = some g) :
    s.PoolFreeAt k ↔ g.hold = .free :=
  ⟨fun h => h g hg, fun h _ hg' => Option.some.inj (hg.symm.trans hg') ▸ h⟩

/-- All blocks in use, with those of one ring first. -/
theorem exists_covered {a : BlockArena} {rest : List UInt32}
    (hr : r < s.containers.size) (hcov : a.Covered (s.ringSlots k ++ rest)) :
    ∃ rest', a.Covered (s.slotsAt k r ++ rest') := by
  have hperm := (perm_ringSlots (k := k) (Nat.le_refl _) hr).append_right rest
  rw [List.append_assoc] at hperm
  exact ⟨_, hcov.perm hperm⟩

/-- What a container holds in a pool, the pool marks as owned. -/
theorem owned_of_books {g : Guarded TextPool} {X : List TextHandle}
    (hb : s.Books k (s.ownedOn k ++ X) L) (hg : s.pools[k]? = some g) (hr : r < s.containers.size) :
    g.value.Tidy ∧ (s.heldOn k r).Nodup ∧ ∀ h ∈ s.heldOn k r, g.value.isOwned h = true := by
  have hledger := (books_iff (poolAt_of_get hg)).1 hb
  have hperm := perm_ownedOn (k := k) (Nat.le_refl _) hr
  have hnd := (List.nodup_append'.1 hledger.nodup_owned).1
  refine ⟨hledger.tidy, (List.nodup_append'.1 (hperm.nodup_iff.1 hnd)).1, fun h hh => ?_⟩
  refine hledger.mem_owned_iff_isOwned.1 (List.mem_append_left X ?_)
  exact hperm.mem_iff.2 (List.mem_append_left _ hh)

/-- What is left of the store when a container is dropped. -/
theorem state_drop (hc : s.containerAt r = some x) :
    (step (.drop r) s).state = (dropContainer r x s).state := by
  obtain ⟨hnone, -⟩ | ⟨x', hx, hstep⟩ := drop_cases r s
  · rw [hnone] at hc
    cases hc
  · obtain rfl := Option.some.inj (hc.symm.trans hx)
    exact hstep

section Drop

variable (hs : ∀ j, s.Settled j)
  (hcov : ∀ k a, s.arenaAt k = some a → ∃ rest, a.Covered (s.ringSlots k ++ rest))

include hs hcov

/-- A ring that gives its blocks back, gives all of them back and no other. -/
theorem freesBlocks_of_turns {type : ElementType} {ring : Ring type.Value} {j : Option Nat}
    {g g' : Guarded BlockArena} {ns : List UInt32} {vs : List type.Value}
    (hp : s.placedAt r = some ⟨type, ring, n, j⟩) (hg : s.arenas[n]? = some g)
    (hh : ring.Holds g.value ns vs) (ht : t.arenas = s.arenas.setIfInBounds n g')
    (hhold : g'.hold = g.hold) (hturns : g.value.Turns (ring.head.index :: ns) g'.value []) :
    s.FreesBlocks n (s.slotsAt n r) t := by
  have ha := arenaAt_of_get hg
  have hslots := slotsAt_of_holds hp ha hh
  have hr : r < s.containers.size := by
    by_contra hle
    rw [placedAt_of_size_le (Nat.le_of_not_lt hle)] at hp
    cases hp
  obtain ⟨rest, hrest⟩ := hcov n g.value ha
  obtain ⟨rest', hrest'⟩ := exists_covered hr hrest
  refine ⟨g, g'.value, hg, ?_, ?_⟩
  · rw [ht, ← hhold]
  · rw [hslots] at hrest' ⊢
    exact hturns.frees ((hs n).sound _ ha) hrest'

theorem dropsAs_ring {type : ElementType} {ring : Ring type.Value}
    (hc : s.containerAt r = some (.ring type ring n)) :
    s.DropsAs r (step (.drop r) s).state (.ring type ring n) := by
  have hp := placedAt_of_container hc
  have hhomed := (hs n).homed r _ hp
  have hg := Array.getElem?_eq_getElem hhomed.nodes
  obtain ⟨ns, vs, hh⟩ := (hs n).valid _ (arenaAt_of_get hg) r _ hp rfl
  have hstate : (step (.drop r) s).state = without r (onRing r ring n Ring.drop s).state :=
    state_drop hc
  rw [hstate, onRing_some r ring hg]
  refine ⟨?_, rfl, fun hfree => ?_, fun hheld => ?_⟩
  · rw [slotsAt_of_holds hp (arenaAt_of_get hg) hh, List.length_cons, hh.len]
  · obtain ⟨u, hdrop, hhold, hturns⟩ := Ring.drop_ok (s := ⟨ring, _⟩) hh (hfree _ hg)
    rw [hdrop]
    exact freesBlocks_of_turns hs hcov hp hg hh rfl (hhold.trans (hfree _ hg).symm) hturns
  · rw [Ring.drop_busy fun hf => hheld ((freeAt_iff hg).2 hf)]
    exact set_back hg

variable (hb : ∀ k, ∃ X L, s.Books k (s.ownedOn k ++ X) L)

include hb

theorem dropsAs_textRing {tr : TextRing} (hc : s.containerAt r = some (.textRing tr n pool)) :
    s.DropsAs r (step (.drop r) s).state (.textRing tr n pool) := by
  have hp := placedAt_of_container hc
  obtain ⟨g, p, ns, vs, hg, hpool, hsound, hh⟩ := exists_site hc (hs n)
  obtain ⟨X, L, hbooks⟩ := hb pool
  have howned := owned_of_books hbooks hpool (lt_size_of_containerAt hc)
  have hheld := heldAt_of_textRing hc (arenaAt_of_get hg) hh
  rw [heldOn_of_textRing hc (arenaAt_of_get hg) hh] at howned
  obtain ⟨htidy, hnd, hown⟩ := howned
  have hstate : (step (.drop r) s).state =
      without r (onTextRing r tr n pool TextRing.drop s).state := state_drop hc
  rw [hstate, onTextRing_some r tr hg hpool]
  obtain ⟨hopen, hclosed, hfree, hkept⟩ :=
    TextRing.drop_cases (s := ⟨tr, g, p⟩) hsound htidy hh
  refine ⟨?_, ?_, fun hf => ?_, fun hf => ⟨?_, ?_⟩, fun hf hpf => ?_, fun hpf => ?_⟩
  · rw [slotsAt_of_holds hp (arenaAt_of_get hg) hh, List.length_cons]
    exact congrArg (· + 1) hh.len.symm
  · rw [hheld]
    exact hh.len_eq.symm
  · obtain ⟨hhold, hturns⟩ := hfree (hf g hg)
    exact freesBlocks_of_turns hs hcov hp hg hh rfl hhold hturns
  · have hnodes := hkept fun h => hf ((freeAt_iff hg).2 h)
    change s.arenas.setIfInBounds n _ = s.arenas
    rw [hnodes]
    exact set_back hg
  · have hstay := hclosed fun ho => hf ((freeAt_iff hg).2 ho.nodes)
    change s.pools.setIfInBounds pool _ = s.pools
    rw [hstay]
    exact set_back hpool
  · obtain ⟨hhold, hloses⟩ := hopen ⟨hf g hg, hpf p hpool⟩
    rw [hheld]
    refine ⟨p, _, hpool, ?_, hnd, hown, hloses⟩
    change s.pools.setIfInBounds pool _ = _
    rw [← hhold]
  · have hstay := hclosed fun ho => hpf ((poolFreeAt_iff hpool).2 ho.pool)
    change s.pools.setIfInBounds pool _ = s.pools
    rw [hstay]
    exact set_back hpool

omit hs hcov in
theorem dropsAs_text {h : TextHandle} (hc : s.containerAt r = some (.text h pool))
    (hlt : pool < s.pools.size) : s.DropsAs r (step (.drop r) s).state (.text h pool) := by
  have hpool := Array.getElem?_eq_getElem hlt
  obtain ⟨X, L, hbooks⟩ := hb pool
  have howned := owned_of_books hbooks hpool (lt_size_of_containerAt hc)
  rw [heldOn_of_text hc, if_pos rfl] at howned
  obtain ⟨htidy, hnd, hown⟩ := howned
  have hstate : (step (.drop r) s).state = without r (onText pool (OwnedText.drop h) s).state :=
    state_drop hc
  unfold onText at hstate
  rw [hstate, onPool_some hpool]
  obtain ⟨hfree, hheld⟩ := OwnedText.drop_cases htidy h
  refine ⟨rfl, fun hf => ?_, fun hf => ?_⟩
  · obtain ⟨hhold, hloses⟩ := hfree (hf _ hpool)
    refine ⟨_, _, hpool, ?_, hnd, hown, hloses⟩
    change s.pools.setIfInBounds pool _ = _
    rw [← hhold]
    rfl
  · have hstay := hheld fun h => hf ((poolFreeAt_iff hpool).2 h)
    change s.pools.setIfInBounds pool ((OwnedText.drop h).mapError Failure.refused _).state = s.pools
    rw [Act.mapError_apply, hstay]
    exact set_back hpool

/-- **Every container that is dropped gives back what it can.** -/
theorem dropsAs (hc : s.containerAt r = some x) (hx : ∀ k ∈ x.pool?, k < s.pools.size) :
    s.DropsAs r (step (.drop r) s).state x := by
  cases x with
  | ring type ring n => exact dropsAs_ring hs hcov hc
  | textRing tr n pool => exact dropsAs_textRing hs hcov hb hc
  | text h pool => exact dropsAs_text hb hc (hx pool rfl)

end Drop

end Store

end FixedArena
