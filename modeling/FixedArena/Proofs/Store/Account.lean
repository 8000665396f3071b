import FixedArena.Proofs.Store.Access
import FixedArena.Proofs.Text.Owned

/-!
The account of text handles over all pools of a store. An operation takes handles from one holder
and gives him others; whoever holds what besides, the account stays in order. Where a pool sits, and
who holds it, is of no account.

Main facts:
* `Deals`: what an operation on a store does to the handles of one holder;
* `deals_onPool`: an operation on one pool is such a deal;
* `Fair`: the operations that leave the account as it was.
-/

namespace FixedArena

namespace Store

open TextPool (Exclusive Trades Keeps)

variable {α : Type} {s t u : Store} {F F' F'' : List TextHandle} {g g' : Guarded TextPool} {k : Nat}

/-- The pools, whoever holds them. -/
def poolList (s : Store) : List TextPool := s.pools.toList.map Guarded.value

/-- The identities of the pools. -/
def poolIds (s : Store) : List UInt16 := s.poolList.map TextPool.id

/-- **From one store to another, a holder turned handles over**: he had the handles `F` and has the
handles `F'`. While no two pools have one identity, the account stays in order. -/
structure Deals (F : List TextHandle) (s : Store) (F' : List TextHandle) (t : Store) : Prop where
  ids : s.poolIds.Subperm t.poolIds
  exclusive : t.poolIds.Nodup →
    ∀ H, Exclusive (F ++ H) s.poolList → Exclusive (F' ++ H) t.poolList

/-- Pools that are apart in the end were apart before. -/
theorem Deals.apart (h : Deals F s F' t) (hnd : t.poolIds.Nodup) : s.poolIds.Nodup := by
  obtain ⟨ids, hperm, hsub⟩ := h.ids
  exact hperm.nodup_iff.1 (hnd.sublist hsub)

theorem Deals.trans (h₁ : Deals F s F' t) (h₂ : Deals F' t F'' u) : Deals F s F'' u where
  ids := h₁.ids.trans h₂.ids
  exclusive hnd H he := h₂.exclusive hnd H (h₁.exclusive (h₂.apart hnd) H he)

/-! ### Stores with the same pools -/

theorem deals_of_perm (hp : s.poolList.Perm t.poolList) (F : List TextHandle) :
    Deals F s F t where
  ids := (hp.map TextPool.id).subperm
  exclusive _ _ he := he.perm_pools hp

theorem deals_of_pools (hp : t.pools = s.pools) (F : List TextHandle) : Deals F s F t := by
  refine deals_of_perm ?_ F
  rw [poolList, poolList, hp]

/-- A holder may forget handles. -/
theorem deals_forget (s : Store) (hsub : F'.Subperm F) : Deals F s F' s where
  ids := List.Subperm.refl _
  exclusive _ H he := he.of_subperm ((List.subperm_append_right H).2 hsub)

/-- Whoever holds what, the account stays in order. -/
def Fair (s t : Store) : Prop := ∀ F, Deals F s F t

instance : IsPreorder Store Fair where
  refl _ F := deals_of_pools rfl F
  trans _ _ _ h₁ h₂ F := (h₁ F).trans (h₂ F)

/-! ### Changes of one pool -/

theorem mem_poolList (hg : s.pools[k]? = some g) : g.value ∈ s.poolList := by
  obtain ⟨hk, rfl⟩ := Array.getElem?_eq_some_iff.1 hg
  exact List.mem_map_of_mem (Array.getElem_mem_toList hk)

/-- The pools, one of them first. -/
theorem perm_poolList (hg : s.pools[k]? = some g) : ∃ O, s.poolList.Perm (g.value :: O) ∧
    ∀ (t : Store) g', t.pools = s.pools.setIfInBounds k g' → t.poolList.Perm (g'.value :: O) := by
  obtain ⟨hk, rfl⟩ := Array.getElem?_eq_some_iff.1 hg
  have hlen : k < s.poolList.length := by simpa [poolList] using hk
  have hat : s.poolList[k] = s.pools[k].value := by simp [poolList]
  refine ⟨s.poolList.take k ++ s.poolList.drop (k + 1), ?_, fun t g' ht => ?_⟩
  · have hsplit : s.poolList.take k ++ s.pools[k].value :: s.poolList.drop (k + 1) =
        s.poolList := by
      rw [← hat, List.getElem_cons_drop, List.take_append_drop]
    exact (List.Perm.of_eq hsplit.symm).trans List.perm_middle
  · have hset : t.poolList = s.poolList.set k g'.value := by
      simp [poolList, ht, List.map_set]
    rw [hset, List.set_eq_take_append_cons_drop, if_pos hlen]
    exact List.perm_middle

/-- **What a holder deals with one pool is his deal with the store.** -/
theorem deals_of_trades (hg : s.pools[k]? = some g) (ht : t.pools = s.pools.setIfInBounds k g')
    (h : Trades F g.value F' g'.value) : Deals F s F' t := by
  obtain ⟨O, hs, hO⟩ := perm_poolList hg
  have ht' := hO t g' ht
  refine ⟨?_, fun _ H he => ?_⟩
  · have hids : (g.value :: O).map TextPool.id = (g'.value :: O).map TextPool.id := by
      rw [List.map_cons, List.map_cons, h.id]
    exact ((hs.map TextPool.id).trans (.trans (.of_eq hids) (ht'.map TextPool.id).symm)).subperm
  · exact (h.exclusive H O (he.perm_pools hs)).perm_pools ht'.symm

theorem deals_onPool (k : Nat) {x : Act Failure (Guarded TextPool) α}
    (hx : ∀ g, Trades F g.value F' (x g).state.value) (hF : F'.Subperm F) (s : Store) :
    Deals F s F' (onPool k x s).state := by
  cases hg : s.pools[k]? with
  | none =>
    rw [onPool_none hg]
    exact deals_forget s hF
  | some g =>
    rw [onPool_some hg]
    exact deals_of_trades hg rfl (hx g)

theorem fair_onPool (k : Nat) {x : Act Failure (Guarded TextPool) α}
    (hx : ∀ g, Keeps g.value (x g).state.value) : Act.Within Fair (onPool k x) :=
  fun s F => deals_onPool k (fun g => hx g F) (List.Subperm.refl F) s

/-! ### New pools -/

/-- A new pool has no owned slot, and takes none away. -/
theorem fair_of_push {slots maxLen : Nat} {id : UInt16} (hslots : slots < 65535)
    (ht : t.pools = s.pools.push { value := .fresh id slots maxLen }) : s.Fair t := by
  have hpools : t.poolList = s.poolList ++ [.fresh id slots maxLen] := by
    simp [poolList, ht]
  refine fun F => ⟨?_, fun hnd H he => ⟨he.nodup, fun h hh => ?_, hnd, fun p hp => ?_⟩⟩
  · rw [poolIds, poolIds, hpools, List.map_append]
    exact (List.sublist_append_left ..).subperm
  · obtain ⟨p, hp, ho⟩ := he.owned h hh
    exact ⟨p, hpools ▸ List.mem_append_left _ hp, ho⟩
  · rw [hpools] at hp
    rcases List.mem_append.1 hp with hp | hp
    · exact he.small p hp
    · obtain rfl := List.mem_singleton.1 hp
      simpa [TextPool.capacity, TextPool.fresh] using hslots

/-! ### Pools that change places -/

theorem perm_of_swap {i j : Nat} (h : swapValues s.pools i j = .ok t.pools) :
    s.poolList.Perm t.poolList := by
  unfold swapValues at h
  split at h
  · next a b ha hb =>
    split at h
    · obtain ⟨hi, rfl⟩ := Array.getElem?_eq_some_iff.1 ha
      obtain ⟨hj, rfl⟩ := Array.getElem?_eq_some_iff.1 hb
      have hi' : i < s.poolList.length := by simpa [poolList] using hi
      have hj' : j < s.poolList.length := by simpa [poolList] using hj
      have hlist : t.poolList = (s.poolList.set i s.poolList[j]).set j s.poolList[i] := by
        simp [poolList, ← Except.ok.inj h, List.map_set]
      rw [hlist]
      exact (List.set_set_perm hi' hj').symm
    · cases h
  · cases h

theorem fair_of_swap {i j : Nat} (h : swapValues s.pools i j = .ok t.pools) : s.Fair t :=
  deals_of_perm (perm_of_swap h)

end Store

end FixedArena
