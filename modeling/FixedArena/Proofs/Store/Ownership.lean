import FixedArena.Proofs.Store.Held
import FixedArena.Proofs.Store.Run

/-!
Exclusive ownership of texts over whole runs. Handles of texts have no generation and come back
under the same name; what keeps a held one safe is the mark in its pool alone.

Main facts:
* `Run.exclusive`: at every moment the handles of all containers are in the account of the pools;
* `Run.texts_exclusive`: every held handle is owned, none is held twice, and nobody else frees it,
  puts it into a ring, or is handed it.
-/

namespace FixedArena

open TextPool (Exclusive)

namespace Store

variable {s : Store} {r k : Nat} {h : TextHandle}

/-- The handles that all containers but one hold, looked for among so many containers. -/
def otherHeld (s : Store) (r n : Nat) : List TextHandle :=
  ((List.range n).erase r).flatMap s.heldAt

theorem perm_held {n : Nat} (hn : s.containers.size ≤ n) (hr : r < n) :
    s.held.Perm (s.heldAt r ++ s.otherHeld r n) := by
  rw [held_eq hn]
  exact perm_flatMap_erase s.heldAt (List.mem_range.2 hr)

/-- A deal of one container is a deal of all. -/
theorem exclusive_of_dealsAt {t : Store} (h : s.DealsAt r t)
    (hother : ∀ r', r' ≠ r → t.heldAt r' = s.heldAt r') (hids : t.poolIds.Nodup)
    (he : Exclusive s.held s.poolList) : Exclusive t.held t.poolList := by
  obtain ⟨n, hns, hnt, hr⟩ : ∃ n, s.containers.size ≤ n ∧ t.containers.size ≤ n ∧ r < n :=
    ⟨s.containers.size + t.containers.size + (r + 1), by omega, by omega, by omega⟩
  have hsame : t.otherHeld r n = s.otherHeld r n :=
    List.flatMap_congr fun r' hr' => hother r' (List.nodup_range.mem_erase_iff.1 hr').1
  have hexcl := h.exclusive hids (s.otherHeld r n) (he.perm (perm_held hns hr))
  rw [← hsame] at hexcl
  exact hexcl.perm (perm_held hnt hr).symm

/-- Nobody but its holder gets at a handle. -/
structure Safe (s : Store) (h : TextHandle) : Prop where
  /-- It is not freed, and asking for it changes nothing. -/
  free : ∀ k, (step (.pool k (.free h)) s).state = s
  refused : ∀ k g, s.pools[k]? = some g → g.hold = .free →
    (step (.pool k (.free h)) s).result = .ok (.flag false)
  /-- No text ring takes it. -/
  push : ∀ r side reply, (step (.textRing r (.push side h)) s).result ≠ .ok reply
  /-- It is not handed out. -/
  allocate : ∀ k, (step (.pool k .allocate) s).result ≠ .ok (.handle h)

section Safe

variable {hs : List TextHandle} (he : Exclusive hs s.poolList) (hh : h ∈ hs)

include he hh

theorem free_held (k : Nat) : (step (.pool k (.free h)) s).state = s ∧
    ∀ g, s.pools[k]? = some g → g.hold = .free →
      (step (.pool k (.free h)) s).result = .ok (.flag false) := by
  rw [step, poolStep, Act.map_apply]
  unfold writePool
  cases hg : s.pools[k]? with
  | none =>
    rw [onPool_none hg]
    refine ⟨rfl, ?_⟩
    intro g hg'
    cases hg'
  | some g =>
    rw [onPool_some hg]
    obtain ⟨hresult, hstate⟩ := he.free_eq hh (mem_poolList hg)
    by_cases hf : g.hold = .free
    · rw [Guarded.writing_free _ _ _ hf]
      simp only [Act.mapError_apply, hresult, hstate, set_back hg]
      exact ⟨trivial, fun _ _ _ => rfl⟩
    · rw [Guarded.writing_busy _ _ _ hf, set_back hg]
      refine ⟨rfl, fun g' hg' hf' => absurd ?_ hf⟩
      exact Option.some.inj hg' ▸ hf'

/-- A ring that is to take a held handle is refused by the pool. -/
theorem push_held (site : TextRing.Site) (hp : site.pool.value ∈ s.poolList) (side : Ring.Side) :
    ∃ e log, TextRing.push side h site = ⟨.error e, site, log⟩ := by
  obtain ⟨e, hown⟩ := he.own_eq hh hp
  have hrefused : ∃ e', TextPool.writing (TextPool.own h) site.pool =
      ⟨.error e', site.pool, []⟩ := by
    unfold TextPool.writing
    by_cases hf : site.pool.hold = .free
    · rw [Guarded.writing_free _ _ _ hf, hown]
      exact ⟨e, rfl⟩
    · rw [Guarded.writing_busy _ _ _ hf]
      exact ⟨_, rfl⟩
  obtain ⟨e', hw⟩ := hrefused
  refine ⟨e', [], ?_⟩
  unfold TextRing.push
  apply Act.bind_error
  unfold TextRing.onPool
  rw [Act.zoom_apply, hw]

theorem result_push_held (r : Nat) (side : Ring.Side) (reply : Reply) :
    (step (.textRing r (.push side h)) s).result ≠ .ok reply := by
  obtain ⟨-, hrefused⟩ | ⟨tr, n, pool, hc, hstep⟩ := textRing_cases r (.push side h) s
  · rw [hrefused]
    simp
  · rw [hstep]
    simp only [textRingStep, textRingStep.on, Act.map_apply]
    obtain ⟨-, hx⟩ | ⟨g, p, -, hp, hx⟩ := onTextRing_cases r tr pool n (TextRing.push side h) s
    · rw [hx]
      simp [Except.map]
    · obtain ⟨e, log, hpush⟩ := push_held he hh ⟨tr, g, p⟩ (mem_poolList hp) side
      rw [hx, hpush]
      simp [Except.map, Except.mapError]

theorem allocate_held (k : Nat) : (step (.pool k .allocate) s).result ≠ .ok (.handle h) := by
  rw [step, poolStep, Act.map_apply]
  unfold writePool
  cases hg : s.pools[k]? with
  | none =>
    rw [onPool_none hg]
    simp [Except.map]
  | some g =>
    rw [onPool_some hg]
    by_cases hf : g.hold = .free
    · rw [Guarded.writing_free _ _ _ hf]
      simp only [Act.mapError_apply]
      cases ha : (TextPool.allocate g.value).result with
      | error e => simp [Except.map, Except.mapError]
      | ok h' =>
        intro heq
        obtain rfl : h' = h := by
          have hreply := Except.ok.inj heq
          cases hreply
          rfl
        exact he.allocate_ne (mem_poolList hg) ha hh
    · rw [Guarded.writing_busy _ _ _ hf]
      simp [Except.map]

theorem safe_of_exclusive : s.Safe h where
  free k := (free_held he hh k).1
  refused k := (free_held he hh k).2
  push := result_push_held he hh
  allocate := allocate_held he hh

end Safe

end Store

namespace Run

variable {past : Run} {c : Command}

/-- A ring is on an arena, where it holds a list. -/
theorem exists_holds {run : Run} (hio : InOrder run) {r : Nat} {p : Placed}
    (hp : (store run).placedAt r = some p) :
    ∃ a, (store run).arenaAt p.nodes = some a ∧ p.Valid a := by
  have hlt := ((hio.settled 0).homed r p hp).nodes
  have ha : (store run).arenaAt p.nodes = some (store run).arenas[p.nodes].value :=
    Store.arenaAt_of_get (Array.getElem?_eq_getElem hlt)
  exact ⟨_, ha, (hio.settled p.nodes).valid _ ha r p hp rfl⟩

/-- What a container holds is the same if the command is about another. -/
theorem heldAt_other (hio : InOrder past) (hc : Ordinary (c :: past)) {r : Nat}
    (hr : r ≠ (store past).subject c) :
    (store (c :: past)).heldAt r = (store past).heldAt r := by
  have hsame := container_other hio hc hr
  rcases hx : (store past).containerAt r with _ | ⟨type, ring, n⟩ | ⟨tr, n, pool⟩ | ⟨h, pool⟩
  · rw [Store.heldAt_of_containerAt hx, Store.heldAt_of_containerAt (hsame.trans hx)]
    rfl
  · rw [Store.heldAt_of_ring hx, Store.heldAt_of_ring (hsame.trans hx)]
  · have hplaced := Store.placedAt_of_container hx
    obtain ⟨a, ha, ns, vs, hh⟩ := exists_holds hio hplaced
    obtain ⟨b, hb, hother⟩ := holds_other hio hc ha
    have hh' := hother r _ hr hplaced rfl ns vs hh
    rw [Store.heldAt_of_textRing hx ha hh, Store.heldAt_of_textRing (hsame.trans hx) hb hh']
  · rw [Store.heldAt_of_containerAt hx, Store.heldAt_of_containerAt (hsame.trans hx)]
    rfl

/-- **The handles of all containers are in the account of the pools**, as long as the pools are
told apart by their identities. -/
theorem exclusive {run : Run} (h : Ordinary run) (hy : Young run)
    (hids : (store run).poolIds.Nodup) : Exclusive (store run).held (store run).poolList := by
  induction run with
  | nil => exact ⟨List.nodup_nil, nofun, List.nodup_nil, nofun⟩
  | cons c past ih =>
    have hio := inOrder h.1 hy.tail
    have hdeals := Store.step_deals h.2.1 hio.settled
    have hpast := ih h.1 hy.tail (hdeals.apart hids)
    exact Store.exclusive_of_dealsAt hdeals (fun r hr => heldAt_other hio h hr) hids hpast

/-- **Ownership of texts is exclusive at every moment.** What a text ring holds can be read. Every
handle that a container holds names a slot in use and owned, in the pool of its identity; no handle
is held twice; and nobody else gets at it. -/
theorem texts_exclusive {run : Run} (h : Ordinary run) (hy : Young run)
    (hids : (store run).poolIds.Nodup) :
    (∀ r tr n pool, (store run).containerAt r = some (.textRing tr n pool) →
      ((store run).heldAt r).length = tr.len) ∧
    (∀ h ∈ (store run).held, ∃ p ∈ (store run).poolList,
      p.id = h.pool ∧ p.inUse h = true ∧ p.isOwned h = true) ∧
    (store run).held.Nodup ∧ ∀ h ∈ (store run).held, (store run).Safe h := by
  have he := exclusive h hy hids
  have hio := inOrder h hy
  refine ⟨fun r tr n pool hc => ?_, fun g hg => ?_, he.nodup, fun g hg => ?_⟩
  · obtain ⟨a, ha, ns, vs, hh⟩ := exists_holds hio (Store.placedAt_of_container hc)
    rw [Store.heldAt_of_textRing hc ha hh]
    exact hh.len_eq.symm
  · obtain ⟨p, hp, ho⟩ := he.owned g hg
    exact ⟨p, hp, (TextPool.isOwned_iff.1 ho).1.symm, TextPool.inUse_of_isOwned ho, ho⟩
  · exact Store.safe_of_exclusive he hg

/-- A text, a text ring with a text of its own and one that was handed to it, and a second text ring
in another pool, given up under a hold after the pools changed places. -/
def owning : Run :=
  [.drop 2, .hold (.arena 0) .shared, .swapPools 0 1, .textRing 2 (.pushText "c"),
    .newTextRing 0 1, .textRing 1 (.push .back ⟨1, 2⟩), .pool 0 .allocate,
    .textRing 1 (.pushText "b"), .newTextRing 0 0, .newText 0 (some "a"), .reservePool 4 8,
    .reservePool 4 8, .reserveArena 6 32]

theorem texts_exclusive_owning : Ordinary owning ∧ Young owning ∧ (store owning).poolIds.Nodup ∧
    ((store owning).poolIds = [2, 1] ∧ (store owning).held = [⟨1, 0⟩, ⟨1, 1⟩, ⟨1, 2⟩]) ∧
    (store owning).held.Nodup ∧ ∀ h ∈ (store owning).held, (store owning).Safe h := by
  have hordinary : Ordinary owning := by
    apply ordinary_of_forall
    intro c hc
    simp only [owning, List.mem_cons, List.not_mem_nil, or_false] at hc
    rcases hc with rfl | rfl | rfl | rfl | rfl | rfl | rfl | rfl | rfl | rfl | rfl | rfl | rfl
    all_goals exact ⟨nofun, rfl⟩
  have hyoung : Young owning := young_of_length (by decide)
  have hrun : (store owning).poolIds = [2, 1] ∧
      (store owning).held = [⟨1, 0⟩, ⟨1, 1⟩, ⟨1, 2⟩] := by decide +kernel
  have hids : (store owning).poolIds.Nodup := by
    rw [hrun.1]
    decide
  have hexcl := texts_exclusive hordinary hyoung hids
  exact ⟨hordinary, hyoung, hids, hrun, hexcl.2.2.1, hexcl.2.2.2⟩

end Run

end FixedArena
