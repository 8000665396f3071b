import FixedArena.Proofs.Store.Dropping
import FixedArena.Proofs.Store.Kept
import FixedArena.Proofs.Store.Texts

/-!
What is left to nobody. A container that is given up under a hold leaves its blocks, or its slots, or
both, behind. They stay in use for good: no container has them, no caller gets at them, and all others
go on as if they were not there.

Main facts:
* `Store.leftTexts`, `Run.lostTexts`: the slots that were left to nobody, in a step and in a run;
* `Store.step_posts_left`, `Run.books_lost`: the ledgers of all pools, with them;
* `Store.Spares`: what a command leaves of a container that it is not about;
* `Run.drop_leaks`: what a drop gives back, what it leaves behind, and what becomes of that.
-/

namespace FixedArena

namespace Store

variable {s t : Store} {k r : Nat} {c : Command} {x : Container} {L W X : List TextHandle}
  {f : List TextHandle → List TextHandle}

/-! ### Slots that are left to nobody -/

theorem Books.nodup_owned {os : List TextHandle} (hb : s.Books k os L) : os.Nodup := by
  cases hp : s.poolAt k with
  | none =>
    rw [Books, hp] at hb
    rw [hb.1]
    exact List.nodup_nil
  | some p => exact ((books_iff hp).1 hb).nodup_owned

/-- The slots of a pool that a command leaves to nobody. -/
def leftTexts (s : Store) (k : Nat) (c : Command) : List TextHandle :=
  if s.GivesFreely c then [] else s.heldOn k (s.holder c)

/-- Operations that leave a text ring the same way, leave the store the same way. -/
theorem state_onTextRing_congr {α β : Type} {x : Act Error TextRing.Site α}
    {y : Act Error TextRing.Site β} (h : ∀ site, (x site).state = (y site).state) (r : Nat)
    (tr : TextRing) (n pool : Nat) (s : Store) :
    (onTextRing r tr n pool x s).state = (onTextRing r tr n pool y s).state := by
  unfold onTextRing
  split
  · simp only [Act.zoom_apply, Act.mapError_apply, h]
  · rfl

/-- What gives a container up, drops it. -/
theorem givenUp_cases (hx : x ∈ s.givenUp c) : s.containerAt (s.holder c) = some x ∧
    (step c s).state = (dropContainer (s.holder c) x s).state ∧ ∀ k L, s.lentAfter k c L = L := by
  cases c with
  | drop r => exact ⟨hx, state_drop hx, fun _ _ => rfl⟩
  | textRing r d =>
    cases d with
    | intoTexts =>
      rw [givenUp] at hx
      split at hx
      · next tr n pool hc =>
        obtain rfl := Option.some.inj hx
        refine ⟨hc, ?_, fun _ _ => rfl⟩
        rw [step_textRing hc, textRingStep, Act.map_apply, Act.afterwards_apply]
        exact congrArg (without r)
          (state_onTextRing_congr TextRing.state_intoTexts r tr n pool s)
      · cases hx
    | _ => cases hx
  | _ => cases hx

/-- A container that is given up under a hold gives no slot back. -/
theorem pools_dropContainer (hs : ∀ j, s.Settled j) (hc : s.containerAt r = some x)
    (hx : ¬s.Loose x) : (dropContainer r x s).state.pools = s.pools := by
  cases x with
  | ring type ring n => exact (state_onRing ring n Ring.drop r s).1
  | textRing tr n pool =>
    obtain ⟨g, p, ns, vs, hg, hp, -, -⟩ := exists_site hc (hs n)
    have hclosed : (TextRing.drop ⟨tr, g, p⟩).state.pool = p := by
      refine TextRing.drop_pool_closed fun ho => hx ⟨?_, ?_⟩
      · exact (freeAt_iff hg).2 ho.nodes
      · exact (poolFreeAt_iff hp).2 ho.pool
    change (onTextRing r tr n pool TextRing.drop s).state.pools = s.pools
    rw [onTextRing_some r tr hg hp, hclosed]
    exact set_back hp
  | text h pool =>
    change (onPool pool ((OwnedText.drop h).mapError Failure.refused) s).state.pools = s.pools
    cases hg : s.pools[pool]? with
    | none => rw [onPool_none hg]
    | some g =>
      have hheld : (OwnedText.drop h g).state = g := by
        rw [OwnedText.state_drop]
        unfold TextPool.writing
        rw [Guarded.writing_busy _ _ g fun hf => hx ((poolFreeAt_iff hg).2 hf)]
      rw [onPool_some hg, Act.mapError_apply, hheld]
      exact set_back hg

/-- **What every command posts to the ledger of every pool**, with the slots that it leaves to nobody. -/
theorem step_posts_left (ha : c.KeepsArenas) (hp : c.KeepsPools) (hs : ∀ j, s.Settled j) (k : Nat) :
    PostsTo k (s.writtenAt k c) (s.heldOn k (s.holder c)) s (s.lentAfter k c)
      ((step c s).state.heldOn k (s.holder c) ++ s.leftTexts k c) (step c s).state := by
  by_cases hfree : s.GivesFreely c
  · rw [leftTexts, if_pos hfree, List.append_nil]
    exact step_posts ha hp hs hfree k
  · rw [leftTexts, if_neg hfree]
    obtain ⟨x, hx, hloose⟩ : ∃ x ∈ s.givenUp c, ¬s.Loose x := by
      simpa only [GivesFreely, not_forall, exists_prop] using hfree
    obtain ⟨hc, hstate, hlent⟩ := givenUp_cases hx
    have hgone : (step c s).state.containerAt (s.holder c) = none := by
      rw [hstate]
      exact containerAt_without (s.holder c) _
    rw [heldOn_of_absent hgone, List.nil_append, funext (hlent k)]
    refine .of_same (poolAt_of_eq ?_ k)
    rw [hstate]
    exact pools_dropContainer hs hc hloose

/-- Identities that are all different tell pools apart. -/
theorem pools_apart {j : Nat} {p q : TextPool} (hids : s.poolIds.Nodup) (hp : s.poolAt j = some p)
    (hq : s.poolAt k = some q) (hid : p.id = q.id) : j = k := by
  obtain ⟨g, hg, rfl⟩ := Option.map_eq_some_iff.1 hp
  obtain ⟨g', hg', rfl⟩ := Option.map_eq_some_iff.1 hq
  obtain ⟨hj, rfl⟩ := Array.getElem?_eq_some_iff.1 hg
  obtain ⟨hk, rfl⟩ := Array.getElem?_eq_some_iff.1 hg'
  have hj' : j < s.poolIds.length := by simpa [poolIds, poolList] using hj
  have hk' : k < s.poolIds.length := by simpa [poolIds, poolList] using hk
  have hat : s.poolIds[j] = s.poolIds[k] := by simpa [poolIds, poolList] using hid
  exact hids.getElem_inj_iff.1 hat

/-- What a container holds, it holds in its pool. -/
theorem exists_heldOn {h : TextHandle} (hh : h ∈ s.heldAt r) : ∃ j, h ∈ s.heldOn j r := by
  cases hp : s.poolOf r with
  | some j =>
    refine ⟨j, ?_⟩
    rwa [heldOn, if_pos hp]
  | none =>
    rcases hc : s.containerAt r with _ | ⟨type, ring, n⟩ | ⟨tr, n, pool⟩ | ⟨h', pool⟩
    · rw [heldAt_of_containerAt hc] at hh
      cases hh
    · rw [heldAt_of_ring hc] at hh
      cases hh
    · rw [poolOf_of_containerAt hc] at hp
      cases hp
    · rw [poolOf_of_containerAt hc] at hp
      cases hp

/-- A handle that a ledger counts among the owned is owned in its pool. -/
theorem Books.exists_owned {h : TextHandle} {os : List TextHandle} (hb : s.Books k os L)
    (hh : h ∈ os) : ∃ p, s.poolAt k = some p ∧ p.isOwned h = true := by
  cases hat : s.poolAt k with
  | none =>
    rw [Books, hat] at hb
    rw [hb.1] at hh
    cases hh
  | some p => exact ⟨p, rfl, ((books_iff hat).1 hb).mem_owned_iff_isOwned.1 hh⟩

/-! ### What others keep -/

/-- **What a command leaves of a container that it is not about**: the container and its list, the handles
that it holds, and their texts, but for one that the command writes to directly. -/
structure Spares (s : Store) (r : Nat) (c : Command) (t : Store) : Prop where
  container : t.containerAt r = s.containerAt r
  list : ∀ p, s.placedAt r = some p → ∀ a, s.arenaAt p.nodes = some a →
    ∃ b, t.arenaAt p.nodes = some b ∧ ∀ ns vs, p.ring.Holds a ns vs → p.ring.Holds b ns vs
  held : t.heldAt r = s.heldAt r
  texts : ∀ k, ∀ h ∈ s.heldOn k r, c.written? ≠ some (k, h) → t.entryAt k h = s.entryAt k h

end Store

namespace Run

variable {past l : Run} {c : Command} {k r : Nat} {h : TextHandle} {i : UInt32}

/-- The slots of a pool that were left to nobody. -/
def lostTexts (k : Nat) : Run → List TextHandle
  | [] => []
  | c :: past => (store past).leftTexts k c ++ lostTexts k past

section Step

variable (hio : InOrder past) (hc : Ordinary (c :: past)) (hp : c.KeepsPools)
  (hb : (store past).Books k ((store past).ownedOn k ++ lostTexts k past) (lent k past))

include hio hc hp hb

/-- **A step keeps the ledgers**, with what was left to nobody. -/
theorem books_lost_cons : (store (c :: past)).Books k
    ((store (c :: past)).ownedOn k ++ lostTexts k (c :: past)) (lent k (c :: past)) :=
  ((Store.step_posts_left hc.2.1 hp hio.settled k).all_left
    (fun _ hr => heldOn_other hio hc hr) hb).1

theorem entry_kept_lost (hg : h ∈ (store past).ownedOn k ++ lostTexts k past)
    (hg' : h ∈ (store (c :: past)).ownedOn k ++ lostTexts k (c :: past))
    (hW : h ∉ (store past).writtenAt k c) :
    (store (c :: past)).entryAt k h = (store past).entryAt k h :=
  ((Store.step_posts_left hc.2.1 hp hio.settled k).all_left
    (fun _ hr => heldOn_other hio hc hr) hb).2 h hg hg' hW

end Step

/-- **The ledger of every pool at every moment**, with what was left to nobody. -/
theorem books_lost {run : Run} (h : Ordinary run) (hy : Young run)
    (hp : ∀ c ∈ run, c.KeepsPools) (k : Nat) :
    (store run).Books k ((store run).ownedOn k ++ lostTexts k run) (lent k run) := by
  induction run with
  | nil => exact ⟨rfl, rfl⟩
  | cons c past ih =>
    have hpast := ih h.1 hy.tail fun c' hc' => hp c' (List.mem_cons_of_mem c hc')
    exact books_lost_cons (inOrder h.1 hy.tail) h (hp c List.mem_cons_self) hpast

/-- **A command spares every container that it is not about.** -/
theorem spares_cons (hio : InOrder past) (hc : Ordinary (c :: past)) (hp : c.KeepsPools)
    (hb : ∀ k, (store past).Books k ((store past).ownedOn k ++ lostTexts k past) (lent k past))
    (hr : r ≠ (store past).holder c) (hlt : r < (store past).containers.size) :
    (store past).Spares r c (store (c :: past)) := by
  have hsub : r ≠ (store past).subject c := by
    cases c with
    | text r' d => exact Nat.ne_of_lt hlt
    | _ => exact hr
  refine ⟨container_other hio hc hsub, fun p hplaced a ha => ?_, heldAt_other hio hc hsub,
    fun k h hh hw => ?_⟩
  · obtain ⟨b, hb', hother⟩ := holds_other hio hc ha
    exact ⟨b, hb', fun ns vs => hother r p hsub hplaced rfl ns vs⟩
  · have hh' : h ∈ (store (c :: past)).heldOn k r := by rwa [heldOn_other hio hc hr]
    have hmem := List.mem_append_left (lostTexts k past) (Store.mem_ownedOn hh)
    have hmem' := List.mem_append_left (lostTexts k (c :: past)) (Store.mem_ownedOn hh')
    by_cases hwrite : h ∈ (store past).writtenAt k c
    · obtain hdirect | ⟨r', d, rfl, hheld⟩ := Store.writtenAt_cases hwrite
      · exact absurd hdirect hw
      have hnd := (List.nodup_append'.1 (hb k).nodup_owned).1
      obtain rfl := Store.eq_of_heldOn hnd hheld hh
      obtain rfl : d = .clone := by
        cases d with
        | clone => rfl
        | _ => exact absurd rfl hr
      have hposts : Store.PostsTo k [] ((store past).heldOn k (store past).containers.size)
          (store past) (fun L => L)
          ((store (.text r' .clone :: past)).heldOn k (store past).containers.size ++ [])
          (store (.text r' .clone :: past)) := by
        rw [List.append_nil]
        exact Store.posts_clone r' (store past)
      refine (hposts.all_left (fun _ hr' => heldOn_other hio hc hr') (hb k)).2 h hmem ?_
        List.not_mem_nil
      exact List.mem_append_left _ (Store.mem_ownedOn hh')
    · exact entry_kept_lost hio hc hp (hb k) hmem hmem' hwrite

/-! ### What becomes of what is left behind -/

/-- **A block of an arena that is nobody's**: it is in use, no ring has it, no handle that callers were
issued is good for it, and no command hands it out. -/
structure StrayBlock (run : Run) (k : Nat) (i : UInt32) : Prop where
  inUse : (store run).inUse k i = true
  unlinked : i ∉ (store run).ringSlots k
  unissued : ∀ j, ∀ h ∈ issued j run, (store run).accepts k h = true → h.index ≠ i
  unhanded : ∀ c h, (store run).handed k c = some h → h.index ≠ i

/-- **A slot of a pool that is nobody's**: it is in use and marked as owned, no container has it, and
nobody frees it, puts it into a ring, or is handed it. -/
structure StrayText (run : Run) (k : Nat) (h : TextHandle) : Prop where
  owned : ∃ p, (store run).poolAt k = some p ∧ p.inUse h = true ∧ p.isOwned h = true
  unheld : ∀ r, h ∉ (store run).heldAt r
  safe : (store run).Safe h

/-- What was left to nobody stays on record. -/
theorem mem_lost_append {run : Run} (hi : i ∈ lost k run) : i ∈ lost k (l ++ run) := by
  induction l with
  | nil => exact hi
  | cons c l ih => exact List.mem_append_right _ ih

theorem mem_lostTexts_append {run : Run} (hh : h ∈ lostTexts k run) :
    h ∈ lostTexts k (l ++ run) := by
  induction l with
  | nil => exact hh
  | cons c l ih => exact List.mem_append_right _ ih

section Stray

variable {run : Run} {a : BlockArena}

/-- A block that is handed out was not in use before. -/
theorem handed_ne_of_lost {g : BlockHandle} (hio : InOrder run) (ha : (store run).arenaAt k = some a)
    (hi : i ∈ lost k run) (hg : (store run).handed k c = some g) : g.index ≠ i := by
  obtain ⟨n, rfl⟩ : ∃ n, c = .arena n .allocate := by
    by_contra hne
    rw [Store.handed_eq_none fun n hn => hne ⟨n, hn⟩] at hg
    cases hg
  have hcov : a.Covered ((store run).ringSlots k ++
      ([] ++ ((live k run).map BlockHandle.index ++ lost k run))) := (hio.accounts k a ha).covered
  cases Store.turn_allocate (k := k) hio.settled n with
  | handed hsome hleft hb hh hturn =>
    obtain rfl := Option.some.inj (hsome.symm.trans hg)
    obtain ⟨-, b, -, hcov', -⟩ := hturn.settled (hio.settled k) ha hcov
    have hnd := (List.nodup_append'.1 hcov'.nodup).2.1
    rintro rfl
    exact (List.nodup_append'.1 hnd).2.2 List.mem_cons_self (List.mem_append_right _ hi)
  | container hnone hturn =>
    rw [hnone] at hg
    cases hg
  | written hnone hleft hpres ha' hh hturn =>
    rw [hnone] at hg
    cases hg
  | freed hnone hleft hpres ha' hh hb hout hturn =>
    rw [hnone] at hg
    cases hg

/-- **A block that was left to nobody is nobody's.** -/
theorem strayBlock_of_lost (hio : InOrder run) (hapart : (store run).ArenasApart)
    (hi : i ∈ lost k run) : StrayBlock run k i := by
  cases ha : (store run).arenaAt k with
  | none =>
    rw [(hio.absent k ha).2.1] at hi
    cases hi
  | some a =>
    have hcov := (hio.accounts k a ha).covered
    have hmem := List.mem_append_right ((live k run).map BlockHandle.index) hi
    obtain ⟨-, hrest, hrings⟩ := List.nodup_append'.1 hcov.nodup
    refine ⟨?_, fun hring => hrings hring hmem, fun j g hg hacc => ?_, fun c g hg =>
      handed_ne_of_lost hio ha hi hg⟩
    · rw [Store.inUse, ha, Option.any_some]
      exact decide_eq_true ((hcov.mem_iff i).1 (List.mem_append_right _ hmem))
    · have haccepts := (accepts_eq ha).1 hacc
      -- the identity of the handle tells which arena issued it
      obtain rfl : j = k := by
        cases hb : (store run).arenaAt j with
        | none =>
          rw [(hio.absent j hb).1] at hg
          cases hg
        | some b =>
          exact hapart j k b a hb ha
            (((hio.accounts j b hb).arena g hg).symm.trans haccepts.arena)
      have hlive := List.mem_map_of_mem (f := BlockHandle.index)
        ((mem_live_iff ha).2 ⟨hg, haccepts⟩)
      rintro rfl
      exact (List.nodup_append'.1 hrest).2.2 hlive hi

/-- **A slot that was left to nobody is nobody's.** -/
theorem strayText_of_lost (hord : Ordinary run) (hy : Young run) (hp : ∀ c ∈ run, c.KeepsPools)
    (hids : (store run).poolIds.Nodup) (hh : h ∈ lostTexts k run) : StrayText run k h := by
  have hbooks := books_lost hord hy hp
  have hmem := List.mem_append_right ((store run).ownedOn k) hh
  obtain ⟨p, hat, howned⟩ := (hbooks k).exists_owned hmem
  have hin : p ∈ (store run).poolList := by
    obtain ⟨g, hg, rfl⟩ := Option.map_eq_some_iff.1 hat
    exact Store.mem_poolList hg
  have he : TextPool.Exclusive [h] (store run).poolList :=
    ⟨List.nodup_singleton h, fun g hg => ⟨p, hin, List.mem_singleton.1 hg ▸ howned⟩, hids,
      (exclusive hord hy hids).small⟩
  refine ⟨⟨p, hat, TextPool.inUse_of_isOwned howned, howned⟩, fun r hheld => ?_,
    Store.safe_of_exclusive he List.mem_cons_self⟩
  obtain ⟨j, hj⟩ := Store.exists_heldOn hheld
  have hmine := Store.mem_ownedOn hj
  obtain ⟨q, hat', howned'⟩ := (hbooks j).exists_owned (List.mem_append_left (lostTexts j run) hmine)
  have hid : q.id = p.id :=
    (TextPool.isOwned_iff.1 howned').1.symm.trans (TextPool.isOwned_iff.1 howned).1
  obtain rfl := Store.pools_apart hids hat' hat hid
  exact (List.nodup_append'.1 (hbooks j).nodup_owned).2.2 hmine hh

end Stray

/-- A drop gives back what it can, whatever was left to nobody before. -/
theorem dropsAs_cons {x : Container} (h : Ordinary past) (hy : Young past)
    (hp : ∀ c ∈ past, c.KeepsPools) (hx : (store past).containerAt r = some x) :
    (store past).DropsAs r (store (.drop r :: past)) x := by
  have hio := inOrder h hy
  exact Store.dropsAs hio.settled (fun k a ha => ⟨_, (hio.accounts k a ha).covered⟩)
    (fun k => ⟨_, _, books_lost h hy hp k⟩) hx ((kept TextPool.lasting_tidy past).housed r x hx)

/-- **Dropping gives back what it can, and what it leaves behind is nobody's for good.**

Take any run of callers who change blocks only through handles that they were issued, in which no arenas
and no pools change places, no block is freed so often that its generation comes round again, and arenas
and pools are told apart by their identities. Whatever is held when a container is dropped, the drop gives
back exactly what `DropsAs` tells. The blocks and the slots that it leaves behind are in use ever after:
no container has them, no handle gives them back or puts them into a ring, and they are not handed out.
The drop, and every command after it, leaves all containers that it is not about, their lists and their
texts. -/
theorem drop_leaks {later : Run} {x : Container} (h : Honest (later ++ .drop r :: past))
    (hy : Young (later ++ .drop r :: past))
    (hp : ∀ c ∈ later ++ .drop r :: past, c.KeepsPools)
    (hapart : (store (later ++ .drop r :: past)).ArenasApart)
    (hids : (store (later ++ .drop r :: past)).poolIds.Nodup)
    (hx : (store past).containerAt r = some x) :
    (store past).DropsAs r (store (.drop r :: past)) x ∧
    (∀ k, ∀ i ∈ (store past).leftBy k r, StrayBlock (later ++ .drop r :: past) k i) ∧
    (∀ k, ∀ h ∈ (store past).leftTexts k (.drop r), StrayText (later ++ .drop r :: past) k h) ∧
    ∀ l c l', later ++ [.drop r] = l ++ c :: l' → ∀ r' < (store (l' ++ past)).containers.size,
      r' ≠ (store (l' ++ past)).holder c →
      (store (l' ++ past)).Spares r' c (store (c :: (l' ++ past))) := by
  have hord := h.ordinary hy hapart
  refine ⟨?_, fun k i hi => ?_, fun k g hg => ?_, fun l c l' hsplit r' hlt hr' => ?_⟩
  · have hpast : ∀ c ∈ past, c.KeepsPools := fun c hc =>
      hp c (List.mem_append_right later (List.mem_cons_of_mem _ hc))
    exact dropsAs_cons hord.of_append.1 hy.of_append.tail hpast hx
  · have hlost : i ∈ lost k (.drop r :: past) := List.mem_append_left _ hi
    exact strayBlock_of_lost (inOrder hord hy) hapart (mem_lost_append hlost)
  · have hlost : g ∈ lostTexts k (.drop r :: past) := List.mem_append_left _ hg
    exact strayText_of_lost hord hy hp hids (mem_lostTexts_append hlost)
  · have hrun : later ++ .drop r :: past = l ++ c :: (l' ++ past) := by
      rw [← List.singleton_append, ← List.append_assoc, hsplit, List.append_assoc]
      rfl
    rw [hrun] at hord hy hp
    have hpast : ∀ c' ∈ c :: (l' ++ past), c'.KeepsPools := fun c' hc' =>
      hp c' (List.mem_append_right l hc')
    have hnow := hord.of_append
    have hyoung := hy.of_append
    refine spares_cons (inOrder hnow.1 hyoung.tail) hnow (hpast c List.mem_cons_self) ?_ hr' hlt
    exact books_lost hnow.1 hyoung.tail fun c' hc' => hpast c' (List.mem_cons_of_mem c hc')

/-- A text ring with two texts, beside a ring and a text; then one of the arena and the pool is held. -/
def straying (target : Target) : Run :=
  [.hold target .shared, .textRing 0 (.pushText "b"), .textRing 0 (.pushText "a"),
    .ring 2 (.push .back ⟨.unsigned 1, (7 : BitVec 8)⟩), .newRing (.unsigned 1) 0,
    .newText 0 (some "c"), .newTextRing 0 0, .reservePool 4 8, .reserveArena 8 32]

/-- The text ring is given up; the hold ends, and a block and a slot are handed out. -/
def strayed (target : Target) : Run :=
  [.pool 0 .allocate, .arena 0 .allocate, .release target .shared] ++ .drop 0 :: straying target

theorem honest_strayed (target : Target) : Honest (strayed target) ∧ Young (strayed target) ∧
    ∀ c ∈ strayed target, c.KeepsPools := by
  have hcommands : ∀ c ∈ strayed target, (c.KeepsArenas ∧ c.changed? = none) ∧ c.KeepsPools := by
    simp [strayed, straying, Command.KeepsArenas, Command.changed?, Command.KeepsPools]
  have hnil : Honest [] := trivial
  have hhonest := hnil.append fun c hc => (hcommands c hc).1
  rw [List.append_nil] at hhonest
  exact ⟨hhonest, young_of_length (show 13 < indexLimit by decide), fun c hc => (hcommands c hc).2⟩

/-- Given up while its arena is held, the text ring leaves its blocks and its slots behind; given up while
its pool is held, its slots alone. -/
theorem drop_leaks_strayed :
    ((store (straying (.arena 0))).leftBy 0 0 = [0, 3, 4] ∧ StrayBlock (strayed (.arena 0)) 0 3 ∧
      StrayText (strayed (.arena 0)) 0 ⟨1, 1⟩) ∧
    (store (straying (.pool 0))).leftBy 0 0 = [] ∧
    (store (straying (.pool 0))).leftTexts 0 (.drop 0) = [⟨1, 1⟩, ⟨1, 2⟩] ∧
    StrayText (strayed (.pool 0)) 0 ⟨1, 2⟩ := by
  have hstore : ∀ target ∈ [Target.arena 0, .pool 0],
      ((store (strayed target)).arenas.toList.map fun g => g.value.id).Nodup ∧
      (store (strayed target)).poolIds.Nodup ∧
      ((store (straying target)).containerAt 0).isSome = true ∧
      (store (straying target)).leftTexts 0 (.drop 0) = [⟨1, 1⟩, ⟨1, 2⟩] ∧
      (store (straying target)).leftBy 0 0 = if target = .arena 0 then [0, 3, 4] else [] := by
    decide +kernel
  constructor
  · obtain ⟨hhonest, hy, hp⟩ := honest_strayed (.arena 0)
    obtain ⟨hapart, hids, hsome, htexts, hblocks⟩ := hstore (.arena 0) (by decide)
    obtain ⟨x, hx⟩ := Option.isSome_iff_exists.1 hsome
    obtain ⟨-, hstray, hstray', -⟩ :=
      drop_leaks hhonest hy hp (Store.arenasApart_of_nodup hapart) hids hx
    refine ⟨hblocks, hstray 0 3 ?_, hstray' 0 ⟨1, 1⟩ ?_⟩
    · rw [hblocks]
      decide
    · rw [htexts]
      decide
  · obtain ⟨hhonest, hy, hp⟩ := honest_strayed (.pool 0)
    obtain ⟨hapart, hids, hsome, htexts, hblocks⟩ := hstore (.pool 0) (by decide)
    obtain ⟨x, hx⟩ := Option.isSome_iff_exists.1 hsome
    obtain ⟨-, -, hstray', -⟩ :=
      drop_leaks hhonest hy hp (Store.arenasApart_of_nodup hapart) hids hx
    refine ⟨hblocks, htexts, hstray' 0 ⟨1, 2⟩ ?_⟩
    rw [htexts]
    decide

end Run

end FixedArena
