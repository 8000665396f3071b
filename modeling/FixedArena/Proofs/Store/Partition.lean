import FixedArena.Proofs.Store.Run

/-!
The blocks of an arena at any moment of an ordinary run. Every ring is a circle of blocks of its
own, and besides the blocks of rings only those are in use that callers hold or that were left to
nobody when a ring was given up under a hold.

Main facts:
* `Ring.Holds.round`: a ring that holds a list is such a circle;
* `Run.blocks_accounted`: the circles, and what else is in use.
-/

namespace FixedArena

namespace Ring

variable {α : Type} {a : BlockArena} {head : UInt32} {ns : List UInt32}

/-- **A ring is a circle of blocks in use.** From its head the links to the next node lead through
as many further blocks as the ring has values, all different, and back; the links to the previous
node undo them. -/
structure Round (r : Ring α) (a : BlockArena) : Prop where
  head : a.contains r.head = true
  starts : (r.slots a).head? = some r.head.index
  length : (r.slots a).length = r.len + 1
  nodup : (r.slots a).Nodup
  inUse : ∀ i ∈ r.slots a, a.InUse i
  next : ∀ m (hm : m < (r.slots a).length), linkOf a (r.slots a)[m] .next =
    .ok ((r.slots a).get ⟨(m + 1) % (r.slots a).length, Nat.mod_lt _ (Nat.zero_lt_of_lt hm)⟩)
  prev : ∀ i ∈ r.slots a, ∀ j ∈ r.slots a, linkOf a j .prev = .ok i ↔ linkOf a i .next = .ok j

/-- On a circle every node is linked to the one behind it, and the last to the head. -/
theorem Circle.linked_succ (hc : Circle a head ns) {m : Nat} (hm : m < (head :: ns).length) :
    Linked a (head :: ns)[m]
      ((head :: ns).get ⟨(m + 1) % (head :: ns).length, Nat.mod_lt _ (Nat.zero_lt_of_lt hm)⟩) := by
  rw [List.get_eq_getElem]
  have hlink := List.isChain_iff_getElem.1 hc m (by simpa using hm)
  simp only [List.getElem_append_left hm] at hlink
  by_cases hlast : m + 1 < (head :: ns).length
  · simp only [Nat.mod_eq_of_lt hlast]
    rwa [List.getElem_append_left hlast] at hlink
  · have heq : m + 1 = (head :: ns).length := by omega
    simp only [heq, Nat.mod_self]
    rw [List.getElem_append_right (Nat.le_of_eq heq.symm)] at hlink
    simpa using hlink

/-- On a circle every node has one before it. -/
theorem Circle.exists_pred (hc : Circle a head ns) {j : UInt32} (hj : j ∈ head :: ns) :
    ∃ i ∈ head :: ns, Linked a i j := by
  obtain ⟨m, hm, rfl⟩ := List.getElem_of_mem hj
  cases m with
  | zero =>
    refine ⟨(head :: ns)[ns.length], List.getElem_mem _, ?_⟩
    have hlink := hc.linked_succ (m := ns.length) (by simp)
    simpa using hlink
  | succ m =>
    refine ⟨(head :: ns)[m], List.getElem_mem _, ?_⟩
    have hlink := hc.linked_succ (m := m) (by omega)
    simpa only [List.get_eq_getElem, Nat.mod_eq_of_lt hm] using hlink

theorem Holds.round [Element α] {r : Ring α} {vs : List α} (h : r.Holds a ns vs) : r.Round a := by
  have hslots := h.slots_eq
  refine ⟨BlockArena.contains_iff.2 h.head, ?_, ?_, ?_, ?_, ?_, ?_⟩
  · rw [hslots]
    rfl
  · rw [hslots, h.len, List.length_cons]
  · rw [hslots]
    exact h.nodup
  · rw [hslots]
    exact fun i hi => h.inUse hi
  · rw [hslots]
    exact fun m hm => (h.circle.linked_succ hm).1
  · rw [hslots]
    intro i hi j hj
    constructor
    · intro hprev
      obtain ⟨i', hi', hlink⟩ := h.circle.exists_pred hj
      obtain rfl := Except.ok.inj (hlink.2.symm.trans hprev)
      exact hlink.1
    · intro hnext
      obtain ⟨m, hm, rfl⟩ := List.getElem_of_mem hi
      have hlink := h.circle.linked_succ hm
      obtain rfl := Except.ok.inj (hlink.1.symm.trans hnext)
      exact hlink.2

end Ring

namespace Run

/-- **The blocks of an arena are accounted for at every moment.** Every ring on the arena is a
circle of blocks in use, and the blocks in use are the disjoint union of these circles, the blocks
of the handles that callers were issued and that are still accepted, and the blocks left to
nobody. -/
theorem blocks_accounted {run : Run} (h : Ordinary run) (hy : Young run) {k : Nat}
    {a : BlockArena} (ha : (store run).arenaAt k = some a) :
    (∀ r p, (store run).placedAt r = some p → p.nodes = k → p.ring.Round a) ∧
    a.Covered ((store run).ringSlots k ++
      ((live k run).map BlockHandle.index ++ lost k run)) := by
  have hio := inOrder h hy
  refine ⟨fun r p hp hk => ?_, (hio.accounts k a ha).covered⟩
  obtain ⟨ns, vs, hh⟩ := (hio.settled k).valid a ha r p hp hk
  exact hh.round

/-- A ring with a value, a block in a caller's hands, and a ring given up under a hold. -/
def shared : Run :=
  [.drop 1, .hold (.arena 0) .shared, .newRing (.unsigned 1) 0,
    .arena 0 (.write ⟨1, 2, 0⟩ 0 [5]), .arena 0 .allocate,
    .ring 0 (.push .back ⟨.unsigned 1, (7 : BitVec 8)⟩), .newRing (.unsigned 1) 0,
    .reserveArena 5 16]

theorem ordinary_shared : Ordinary shared := by
  have hissued : (⟨1, 2, 0⟩ : BlockHandle) ∈ issued 0 (shared.drop 4) := by decide +kernel
  refine ⟨⟨⟨⟨⟨⟨⟨⟨trivial, ?_⟩, ?_⟩, ?_⟩, ?_⟩, ?_⟩, ?_⟩, ?_⟩, ?_⟩
  all_goals refine ⟨nofun, fun k h hc => ?_⟩
  all_goals cases hc
  exact .inl hissued

/-- The run ends with a ring of two blocks, a caller's block, and a block left to nobody. -/
theorem blocks_accounted_shared : Ordinary shared ∧ Young shared ∧
    ((store shared).ringSlots 0 = [0, 1] ∧ (live 0 shared).map BlockHandle.index = [2] ∧
      lost 0 shared = [3]) ∧
    ∃ a, (store shared).arenaAt 0 = some a ∧
      (∀ r p, (store shared).placedAt r = some p → p.nodes = 0 → p.ring.Round a) ∧
      a.Covered ((store shared).ringSlots 0 ++
        ((live 0 shared).map BlockHandle.index ++ lost 0 shared)) := by
  have hy : Young shared := young_of_length (by decide)
  have hsome : ((store shared).arenaAt 0).isSome = true := by decide +kernel
  obtain ⟨a, ha⟩ := Option.isSome_iff_exists.1 hsome
  refine ⟨ordinary_shared, hy, ?_, a, ha, blocks_accounted ordinary_shared hy ha⟩
  decide +kernel

end Run

end FixedArena
