import FixedArena.Proofs.Ring.Failures
import FixedArena.Proofs.Store.Peaks

/-!
Commands to rings that fail, in every run: with blocks written over, with handles of any origin, under all
holds, and on arenas that came in the place of others.

Main facts:
* `Run.sound`: every arena of every run is sound;
* `Store.failures`: a command to a ring that fails leaves the store as it was, but for the pushes that
  strand a block and the pops that stop halfway;
* `Run.failures_exact`: so it is in every run, and in ordinary runs nothing is left at all.
-/

namespace FixedArena

namespace Store

open FixedArena.Ring (Side Site)

/-- The store with another arena at a place. -/
def withArena (s : Store) (n : Nat) (g : Guarded BlockArena) : Store :=
  { s with arenas := s.arenas.setIfInBounds n g }

variable {α : Type} {s : Store} {r n : Nat} {p : Placed} {g : Guarded BlockArena}

/-! ### A ring and the store around it -/

section OnRing

variable {type : ElementType} {ring : Ring type.Value} (hc : s.containerAt r = some (.ring type ring n))
  (hg : s.arenas[n]? = some g) (x : Act Error (Site type.Value) α) (f : α → Reply)

include hg in
theorem onRing_result : ((f <$> onRing r ring n x) s).result =
    ((x ⟨ring, g⟩).result.mapError Failure.refused).map f := by
  rw [Act.map_apply, onRing_some r ring hg]

include hc hg

/-- An operation that leaves a ring as it was, with another arena. -/
theorem onRing_turned {b : BlockArena}
    (hx : (x ⟨ring, g⟩).state = Site.turned ⟨ring, g⟩ ring.len b) :
    ((f <$> onRing r ring n x) s).state = s.withArena n { g with value := b } := by
  have hc' : s.containers[r]? = some (some (.ring type ring n)) := Option.join_eq_some_iff.1 hc
  rw [Act.map_apply, onRing_some r ring hg, hx]
  simp only [Site.turned, set_back hc', withArena]

/-- An operation that leaves a ring and its arena as they were. -/
theorem onRing_same (hx : (x ⟨ring, g⟩).state = ⟨ring, g⟩) :
    ((f <$> onRing r ring n x) s).state = s := by
  have hc' : s.containers[r]? = some (some (.ring type ring n)) := Option.join_eq_some_iff.1 hc
  rw [Act.map_apply, onRing_some r ring hg, hx]
  simp only [set_back hc', set_back hg]

end OnRing

/-- What is placed without a pool is a ring by itself. -/
theorem containerAt_of_placedAt (hp : s.placedAt r = some p) (hpool : p.pool = none) :
    s.containerAt r = some (.ring p.type p.ring p.nodes) := by
  obtain ⟨c, hc, hplaced⟩ := Option.bind_eq_some_iff.1 hp
  rw [hc]
  cases c with
  | ring type ring nodes =>
    obtain rfl := Option.some.inj hplaced
    rfl
  | textRing ring nodes pool =>
    obtain rfl := Option.some.inj hplaced
    cases hpool
  | text h pool => cases hplaced

/-- A command to a ring reaches it. -/
theorem step_ring (hp : s.placedAt r = some p) (hpool : p.pool = none)
    {c : RingCommand Datum} {d : RingCommand p.type.Value} (hd : c.as? p.type = some d) :
    step (.ring r c) s = ringStep r p.ring p.nodes d s := by
  rw [step, Act.bind_ok (container_ok (containerAt_of_placedAt hp hpool))]
  simp only [hd]
  rfl

/-! ### Failures -/

/-- **What commands to a ring leave of the store when they fail.** Here `p` is the ring, and `g` the arena
that stands where its nodes live. -/
structure Failures (s : Store) (r : Nat) (p : Placed) (g : Guarded BlockArena) : Prop where
  push : ∀ side v f, (step (.ring r (.push side ⟨p.type, v⟩)) s).result = .error f →
    (∀ n i rest, ¬Site.Strands ⟨p.ring, g⟩ side n i rest) →
    (step (.ring r (.push side ⟨p.type, v⟩)) s).state = s
  strands : ∀ side n i rest, Site.Strands ⟨p.ring, g⟩ side n i rest → ∀ v,
    (step (.ring r (.push side ⟨p.type, v⟩)) s).result = .error (.refused (.foreign n)) ∧
    (step (.ring r (.push side ⟨p.type, v⟩)) s).state =
      s.withArena p.nodes { g with value := Site.stranded ⟨p.ring, g⟩ side v n i rest }
  pop : ∀ side, (step (.ring r (.pop side)) s).result = .ok (.popped none) →
    (∀ i j, ¬Site.Halts ⟨p.ring, g⟩ side i j) → (step (.ring r (.pop side)) s).state = s
  halts : ∀ side i j, Site.Halts ⟨p.ring, g⟩ side i j →
    (step (.ring r (.pop side)) s).result = .ok (.popped none) ∧
    (step (.ring r (.pop side)) s).state =
      s.withArena p.nodes { g with value := g.value.putLink i .next j }
  set : ∀ index v f, (step (.ring r (.set index ⟨p.type, v⟩)) s).result = .error f →
    (step (.ring r (.set index ⟨p.type, v⟩)) s).state = s

/-- A result that is refused under another name was refused. -/
theorem exists_error_of_map {β : Type} {x : Except Error α} {f : α → β} {e : Failure}
    (h : (x.mapError Failure.refused).map f = .error e) : ∃ e', x = .error e' := by
  cases x with
  | ok a => cases h
  | error e' => exact ⟨e', rfl⟩

/-- **A command to a ring that fails leaves the store as it was**, unless it is one of the pushes that
strand a block or of the pops that stop halfway. -/
theorem failures (hp : s.placedAt r = some p) (hpool : p.pool = none)
    (hg : s.arenas[p.nodes]? = some g) (h : Site.Failures ⟨p.ring, g⟩) : s.Failures r p g := by
  have hc := containerAt_of_placedAt hp hpool
  have hpush : ∀ side v, step (.ring r (.push side ⟨p.type, v⟩)) s =
      ((fun _ => .done) <$> onRing r p.ring p.nodes (Ring.push side v)) s := fun side v =>
    step_ring hp hpool (d := .push side v) (by simp [RingCommand.as?])
  have hpop : ∀ side, step (.ring r (.pop side)) s = ((fun v => .popped (v.map (Datum.mk p.type))) <$>
      onRing r p.ring p.nodes (Ring.pop side)) s := fun side =>
    step_ring hp hpool (d := .pop side) rfl
  have hset : ∀ index v, step (.ring r (.set index ⟨p.type, v⟩)) s =
      ((fun _ => .done) <$> onRing r p.ring p.nodes (Ring.set index v)) s := fun index v =>
    step_ring hp hpool (d := .set index v) (by simp [RingCommand.as?])
  refine ⟨fun side v f hf hno => ?_, fun side n i rest hs v => ?_, fun side hnone hno => ?_,
    fun side i j hs => ?_, fun index v f hf => ?_⟩
  · rw [hpush, onRing_result hg] at hf
    obtain ⟨e, he⟩ := exists_error_of_map hf
    rw [hpush]
    exact onRing_same hc hg _ _ (h.push side v e he hno)
  · obtain ⟨hresult, hstate, -⟩ := h.strands side n i rest hs v
    rw [hpush]
    refine ⟨?_, onRing_turned hc hg _ _ hstate⟩
    rw [onRing_result hg, hresult]
    rfl
  · rw [hpop, onRing_result hg] at hnone
    have hresult : (Ring.pop side ⟨p.ring, g⟩).result = .ok none := by
      cases hr : (Ring.pop side ⟨p.ring, g⟩).result with
      | error e =>
        rw [hr] at hnone
        cases hnone
      | ok v? =>
        rw [hr] at hnone
        cases v? with
        | none => rfl
        | some v => cases hnone
    rw [hpop]
    exact onRing_same hc hg _ _ (h.pop side hresult hno)
  · obtain ⟨hresult, hstate⟩ := h.halts side i j hs
    rw [hpop]
    refine ⟨?_, onRing_turned hc hg _ _ hstate⟩
    rw [onRing_result hg, hresult]
    rfl
  · rw [hset, onRing_result hg] at hf
    obtain ⟨e, he⟩ := exists_error_of_map hf
    rw [hset]
    exact onRing_same hc hg _ _ (h.set index v e he)

end Store

namespace Run

open FixedArena.Ring (Site)

variable {r k : Nat} {p : Placed} {g : Guarded BlockArena}

/-- **Every arena of every run is sound.** -/
theorem sound {run : Run} {a : BlockArena} (ha : (store run).arenaAt k = some a) : a.Sound := by
  obtain ⟨first, calls, h, rfl⟩ := Store.arenaShelf_served.exists_history (H := Store.arenaShelf) ha
  obtain ⟨hinv, -⟩ := Store.arenaShelf_served.of_history h
  exact (Store.arenaShelf_served.tallies.after hinv calls).toSound

/-- In an ordinary run every ring holds a list. -/
theorem holds_of_ordinary {run : Run} (hord : Ordinary run) (hy : Recent run)
    (hp : (store run).placedAt r = some p) (hg : (store run).arenas[p.nodes]? = some g) :
    ∃ ns vs, p.ring.Holds g.value ns vs :=
  ((inOrder_of_recent hord hy).settled p.nodes).valid g.value (Store.arenaAt_of_get hg) r p hp rfl

/-- **What fails on a ring leaves everything as it was, or one of two marks**, in every run of commands of
any kind, on the arena that stands in the run where the ring's nodes live, whatever its blocks hold, as
long as they are wide enough for a node. A push that is refused, for whatever reason, leaves the ring and
the arena as they were, unless it strands a block; it does that just if nobody holds the arena, which has
a free block, and the link of the head leads to a block that is not in use. A pop that brings no value
leaves them as they were, unless it stops halfway; it does that just if of the two nodes whose links it
sets the first is in use and the second is not. Setting a position leaves them as they were if it is
refused. What is so for the ring and the arena, is so for all of the store. Neither mark is left in recent
runs of callers who keep to their blocks and leave arenas in their places: there every ring and its arena
are as they were after whatever fails. -/
theorem failures_exact (run : Run) (hp : (store run).placedAt r = some p)
    (hg : (store run).arenas[p.nodes]? = some g)
    (hw : Ring.nodeSize p.type.Value ≤ g.value.blockSize) :
    Site.Failures ⟨p.ring, g⟩ ∧ (p.pool = none → (store run).Failures r p g) ∧
      (Ordinary run → Recent run → Site.Unchanged ⟨p.ring, g⟩) := by
  have hs : g.value.Sound := sound (Store.arenaAt_of_get hg)
  have hfailures : Site.Failures ⟨p.ring, g⟩ := Ring.failures hs hw
  refine ⟨hfailures, fun hpool => Store.failures hp hpool hg hfailures, fun hord hy => ?_⟩
  obtain ⟨ns, vs, hh⟩ := holds_of_ordinary hord hy hp hg
  exact Ring.unchanged_of_holds (s := ⟨p.ring, g⟩) hh hs

/-- A ring with its head in the first block, and another arena in the place of its own. There the first
block is in use too; what the ring takes for the link back to its last node leads to a block that is free,
and not the next one to go out. -/
def displaced : Run :=
  [.swapArenas 0 1, .arena 1 (.write ⟨2, 0, 0⟩ 0 [0, 0, 0, 0, 2, 0, 0, 0]), .arena 1 .allocate,
    .newRing (.unsigned 1) 0, .reserveArena 4 16, .reserveArena 4 16]

/-- A ring with its head in the only block of its arena. -/
def replete : Run := [.newRing (.unsigned 1) 0, .reserveArena 1 16]

/-- A push at the back of the one ring strands a block. No push to the other succeeds, and none leaves
anything. -/
theorem failures_exact_displaced : (∃ p g, (store displaced).placedAt 0 = some p ∧
    (store displaced).arenas[p.nodes]? = some g ∧ Ring.nodeSize p.type.Value ≤ g.value.blockSize ∧
    (store displaced).Failures 0 p g ∧
    ∃ rest, Site.Strands ⟨p.ring, g⟩ .back 2 1 rest ∧ ∀ v : p.type.Value,
      (Ring.push .back v ⟨p.ring, g⟩).result = .error (.foreign 2) ∧
      g.value.TakesOne (Site.stranded ⟨p.ring, g⟩ .back v 2 1 rest)) ∧
    ∃ p g, (store replete).placedAt 0 = some p ∧ (store replete).arenas[p.nodes]? = some g ∧
      Ring.nodeSize p.type.Value ≤ g.value.blockSize ∧ Ordinary replete ∧ Recent replete ∧
      g.value.freeList.next? = none ∧ Site.Unchanged ⟨p.ring, g⟩ := by
  have hrun : ∃ p ∈ (store displaced).placedAt 0, ∃ g ∈ (store displaced).arenas[p.nodes]?,
      Ring.nodeSize p.type.Value ≤ g.value.blockSize ∧ p.pool = none ∧ g.hold = .free ∧
      Ring.linkOf g.value p.ring.head.index .prev = .ok 2 ∧
      g.value.freeList.next?.map Prod.fst = some 1 ∧ ¬g.value.InUse 2 := by
    decide +kernel
  obtain ⟨p, hp, g, hg, hw, hpool, hf, hlink, hnext, hunused⟩ := hrun
  obtain ⟨⟨_, rest⟩, hnext, rfl⟩ := Option.map_eq_some_iff.1 hnext
  have hstrands : Site.Strands ⟨p.ring, g⟩ .back 2 1 rest := ⟨hf, hlink, hnext, by decide, hunused⟩
  obtain ⟨hsite, hstore, -⟩ := failures_exact displaced hp hg hw
  refine ⟨⟨p, g, hp, hg, hw, hstore hpool, _, hstrands, fun v => ?_⟩, ?_⟩
  · obtain ⟨hresult, -, htakes⟩ := hsite.strands .back 2 1 rest hstrands v
    exact ⟨hresult, htakes⟩
  · have hrun' : ∃ p ∈ (store replete).placedAt 0, ∃ g ∈ (store replete).arenas[p.nodes]?,
        Ring.nodeSize p.type.Value ≤ g.value.blockSize ∧ g.value.freeList.next? = none := by
      decide +kernel
    obtain ⟨q, hq, b, hb, hw', hfull⟩ := hrun'
    have hord : Ordinary replete :=
      ordinary_of_forall (by simp [replete, Command.KeepsArenas, Command.changed?])
    have hy : Recent replete := (young_of_length (by decide)).recent
    exact ⟨q, b, hq, hb, hw', hord, hy, hfull, (failures_exact replete hq hb hw').2.2 hord hy⟩

end Run

end FixedArena
