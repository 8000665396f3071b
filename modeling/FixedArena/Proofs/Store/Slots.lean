import FixedArena.Proofs.Store.Kept
import FixedArena.Proofs.Text.Flags
import FixedArena.Proofs.Text.Slots

/-!
The slots of pools, in every run of commands to pools and to containers, with handles of any origin. What
a pool counts is in use; it hands out its lowest free slot, and takes a slot back from a caller only. A
slot that was taken back stays free until the pool hands one out, wherever the pool is carried meanwhile.

Main facts:
* `Run.poolOrigin`: where a pool was some commands ago;
* `Run.Spares`: commands that take no slot of a pool, wherever it is;
* `Run.slots_accounted`: counts, handing out and taking back, at every moment of every run;
* `Run.slots_flagged`: the states of the slots do what two flags for each slot would do.
-/

namespace FixedArena

open TextPool (Outlasts)

/-! ### Carried pools -/

namespace Run

/-- Where the pool was before some commands that stands at a place after them. -/
def poolOrigin (past : Run) : Run → Nat → Nat
  | [], j => j
  | c :: later, j => poolOrigin past later (c.poolOrigin (store (later ++ past)) j)

/-- **No command takes a slot of the pool that was at a place**, wherever it is by then. -/
def Spares (past : Run) (k : Nat) : Run → Prop
  | [] => True
  | c :: later => Spares past k later ∧
    ∀ j, poolOrigin past later j = k → ¬c.TakesFrom (store (later ++ past)) j

end Run

namespace Store

variable {s : Store} {k : Nat} {h : TextHandle}

/-- A command that gives a slot back finds the pool free. -/
theorem free_taken (hb : (step (.pool k (.free h)) s).result = .ok (.flag true)) :
    ∃ p, s.poolAt k = some p ∧ (TextPool.free h p).result = .ok true ∧
      (step (.pool k (.free h)) s).state.poolAt k = some (TextPool.free h p).state := by
  rw [step, poolStep, Act.map_apply] at hb ⊢
  unfold writePool at hb ⊢
  cases hg : s.pools[k]? with
  | none =>
    rw [onPool_none hg] at hb
    cases hb
  | some g =>
    rw [onPool_some hg] at hb ⊢
    by_cases hf : g.hold = .free
    · rw [Guarded.writing_free _ _ _ hf, Act.mapError_apply] at hb ⊢
      refine ⟨g.value, poolAt_of_get hg, ?_, (poolAt_of_set hg rfl k).trans (if_pos rfl)⟩
      cases hr : (TextPool.free h g.value).result with
      | ok b =>
        rw [hr] at hb
        obtain rfl := Reply.flag.inj (Except.ok.inj hb)
        rfl
      | error e =>
        rw [hr] at hb
        cases hb
    · rw [Guarded.writing_busy _ _ _ hf] at hb
      cases hb

/-- A pool that is free answers for itself. -/
theorem free_flag {g : Guarded TextPool} {b : Bool} (hg : s.pools[k]? = some g) (hf : g.hold = .free)
    (hb : (TextPool.free h g.value).result = .ok b) :
    (step (.pool k (.free h)) s).result = .ok (.flag b) := by
  rw [step, poolStep, Act.map_apply]
  unfold writePool
  rw [onPool_some hg, Guarded.writing_free _ _ _ hf, Act.mapError_apply, hb]
  rfl

end Store

namespace Run

variable {past later : Run} {k : Nat} {h : TextHandle}

theorem result_of_toOption {ε α : Type} {r : Except ε α} {a : α} (h : r.toOption = some a) :
    r = .ok a := by
  cases r with
  | ok b => exact congrArg Except.ok (Option.some.inj h)
  | error e => cases h

/-- Every pool is tidy, and in that which was at a place a slot is free. -/
def Unused (past : Run) (k : Nat) (h : TextHandle) (later : Run) (j : Nat) (p : TextPool) : Prop :=
  p.Tidy ∧ (poolOrigin past later j = k → p.inUse h = false)

theorem outlasts_unused (past : Run) (k : Nat) (h : TextHandle) (later : Run) (j : Nat) :
    Outlasts (poolOrigin past later j ≠ k) (Unused past k h later j) where
  fresh id slots maxLen hid hlen hslots :=
    have hfresh := (TextPool.outlasts_unused h).fresh id slots maxLen hid hlen hslots
    ⟨hfresh.1, fun _ => hfresh.2⟩
  call c p hc := fun ⟨hp, hu⟩ =>
    ⟨(hp.comesTo c).tidy, fun ho =>
      ((TextPool.outlasts_unused h).call c p (fun ha => hc ha ho) ⟨hp, hu ho⟩).2⟩

/-- **A free slot stays free** while no slot of its pool is taken. -/
theorem kept_unused (hs : (store past).Kept (Unused past k h [])) (hl : Spares past k later) :
    (store (later ++ past)).Kept (Unused past k h later) := by
  induction later with
  | nil => exact hs
  | cons c later ih =>
    obtain ⟨hlater, hc⟩ := hl
    exact Store.kept_step (outlasts_unused past k h later) (fun j htakes ho => hc j ho htakes)
      (ih hlater)

/-- **The slots of a pool are accounted for**, in every run, for handles of any origin. What is counted
are the slots in use, of which the owned ones are some, and all others are available. The lowest free slot
is handed out, unless there is none, when nothing changes. A slot is taken back by the handle of this pool
that names it, if it is in use and nobody owns it, and then it is the only one that changes; no other handle
changes anything. The same handle is refused from then on, until the pool hands out a slot: whatever is
called meanwhile, whatever containers do, and wherever the pool is carried. -/
theorem slots_accounted (run : Run) {k : Nat} {p : TextPool} (hp : (store run).poolAt k = some p) :
    p.Counted ∧ p.HandsLowest (TextPool.allocate p) ∧
    ∀ h, p.TakesBack h (TextPool.free h p) ∧
      ((TextPool.free h p).result = .ok true →
        ∀ calls : List TextPool.Call, (∀ c ∈ calls, c ≠ .allocate) →
          TextPool.free h ((TextPool.free h p).state.run calls) =
            ⟨.ok false, (TextPool.free h p).state.run calls, [.slotNotAllocated h]⟩) ∧
      ((Store.step (.pool k (.free h)) (store run)).result = .ok (.flag true) →
        ∀ later, Spares (.pool k (.free h) :: run) k later →
          ∀ j q, poolOrigin (.pool k (.free h) :: run) later j = k →
            (store (later ++ .pool k (.free h) :: run)).poolAt j = some q →
            TextPool.free h q = ⟨.ok false, q, [.slotNotAllocated h]⟩) := by
  have htidy : p.Tidy := (kept TextPool.lasting_tidy run).pools k p hp
  refine ⟨htidy.counted, htidy.handsLowest, fun h => ⟨htidy.takesBack h, fun hb calls hc => ?_,
    fun hb later hl j q ho hq => ?_⟩⟩
  · exact TextPool.free_again htidy hb hc
  · have hstart : (store (.pool k (.free h) :: run)).Kept (Unused (.pool k (.free h) :: run) k h []) := by
      have hkept := kept TextPool.lasting_tidy (.pool k (.free h) :: run)
      refine ⟨fun i q hq => ⟨hkept.pools i q hq, fun hi => ?_⟩, hkept.nextPool, hkept.housed⟩
      obtain ⟨p', hp', hb', hstate⟩ := Store.free_taken hb
      obtain rfl : i = k := hi
      obtain rfl := Option.some.inj (hp.symm.trans hp')
      obtain rfl := Option.some.inj (hstate.symm.trans hq)
      exact TextPool.inUse_taken htidy hb'
    exact TextPool.free_unused (((kept_unused hstart hl).pools j q hq).2 ho)

/-- A pool with three slots: the first is that of a text, the second is a caller's. -/
def lodged : Run :=
  [.pool 0 .allocate, .newText 0 (some "a"), .reservePool 2 8, .reservePool 3 8]

/-- A text is assigned and given up, and its pool changes places. -/
def carried : Run := [.swapPools 0 1, .drop 0, .text 0 (.assign "b")]

/-- The third slot is handed out next. The second is given back, and its handle is refused at the new
place of the pool. -/
theorem slots_accounted_carried :
    (∃ p, (store lodged).poolAt 0 = some p ∧ p.live = 2 ∧ p.Counted ∧
      (TextPool.allocate p).result = .ok ⟨1, 2⟩ ∧ p.Lowest ⟨1, 2⟩) ∧
    Spares (.pool 0 (.free ⟨1, 1⟩) :: lodged) 0 carried ∧
    ∃ q, (store (carried ++ .pool 0 (.free ⟨1, 1⟩) :: lodged)).poolAt 1 = some q ∧
      TextPool.free ⟨1, 1⟩ q = ⟨.ok false, q, [.slotNotAllocated ⟨1, 1⟩]⟩ := by
  have hbefore : (store lodged).pools[0]?.map (fun g => (g.hold, g.value.live,
      (TextPool.allocate g.value).result.toOption,
      (TextPool.free ⟨1, 1⟩ g.value).result.toOption)) = some (.free, 2, some ⟨1, 2⟩, some true) := by
    decide +kernel
  have hthere : (((store (carried ++ .pool 0 (.free ⟨1, 1⟩) :: lodged)).poolAt 1).isSome &&
      poolOrigin (.pool 0 (.free ⟨1, 1⟩) :: lodged) carried 1 == 0) = true := by decide +kernel
  obtain ⟨hsome, horigin⟩ := Bool.and_eq_true_iff.1 hthere
  obtain ⟨q, hq⟩ := Option.isSome_iff_exists.1 hsome
  obtain ⟨g, hg, hparts⟩ := Option.map_eq_some_iff.1 hbefore
  simp only [Prod.mk.injEq] at hparts
  obtain ⟨hhold, hlive, hnext, hfreed⟩ := hparts
  have hb := Store.free_flag hg hhold (result_of_toOption hfreed)
  have hp := Store.poolAt_of_get hg
  obtain ⟨hcounted, hlowest, hfree⟩ := slots_accounted lodged hp
  have hspares : Spares (.pool 0 (.free ⟨1, 1⟩) :: lodged) 0 carried :=
    ⟨⟨⟨trivial, fun _ _ h => h.1⟩, fun _ _ h => h.1⟩, fun _ _ h => h.1⟩
  have hallocate := result_of_toOption hnext
  exact ⟨⟨g.value, hp, hlive, hcounted, hallocate, (hlowest.handed _ hallocate).1⟩, hspares, q, hq,
    (hfree ⟨1, 1⟩).2.2 hb carried hspares 1 q (eq_of_beq horigin) hq⟩

/-- **Two flags for each slot do what its state does**, for every pool of every run: the pool is what some
calls made of a new one, and its flags are what these calls make of the flags of a new one. No slot is ever
owned without being in use, none is handed out with an owner, and the next call does with the flags what it
does with the states. -/
theorem slots_flagged (run : Run) {k : Nat} {p : TextPool} (hp : (store run).poolAt k = some p) :
    ∃ id slots maxLen calls, p = TextPool.run (.fresh id slots maxLen) calls ∧
      p.Flagged ((TextPool.Flags.fresh id slots).run calls) := by
  obtain ⟨id, slots, maxLen, calls, hslots, rfl⟩ :=
    (kept TextPool.lasting_called run).pools k p hp
  exact ⟨id, slots, maxLen, calls, rfl, TextPool.flags_refined id hslots maxLen calls⟩

end Run

end FixedArena
