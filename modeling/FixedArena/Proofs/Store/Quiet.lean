import FixedArena.Proofs.Store.Account
import FixedArena.Proofs.Store.Placed
import FixedArena.Proofs.Store.Reserving

/-!
Commands that leave all arenas and rings as they were: those to pools and texts, holds, exchanges
of pools, reports, and the direct commands that only look at an arena. They leave the account of
texts alone, too, whatever handles they are given.

Main facts:
* `Calm`: stores with the same arenas and rings, and with the account of texts in order;
* `calm_step`: what asks nothing of blocks or rings leaves all of them alone;
* `calm_arena`: looking at an arena changes nothing.
-/

namespace FixedArena

/-- The command asks nothing of blocks or rings. -/
def Command.Aside : Command → Prop
  | .reservePool .. | .hold .. | .release .. | .swapPools .. | .pool .. | .usageBoth ..
  | .logUsageBoth .. | .describeBoth .. => True
  | .text _ c => c ≠ .clone
  | .newText .. | .reserveArena .. | .reserve _ | .newRing .. | .newTextRing .. | .drop _
  | .swapArenas ..
  | .arena .. | .ring .. | .textRing .. => False

/-- The command only looks at its arena. -/
def ArenaCommand.Looks : ArenaCommand → Prop
  | .contains _ | .block _ | .usage | .layout | .logUsage | .logLayout | .describe => True
  | .allocate | .free _ | .write .. | .fill .. => False

namespace Store

open TextPool (GuardedKeeps Keeps)

variable {α : Type} {s t : Store} {c : Command}

/-- The same arenas and containers, and the account of texts in order, whoever holds what. -/
structure Calm (s t : Store) : Prop extends Quiet s t where
  fair : s.Fair t

instance : IsPreorder Store Calm where
  refl s := ⟨refl_of Quiet s, refl_of Fair s⟩
  trans _ _ _ h₁ h₂ := ⟨trans_of Quiet h₁.toQuiet h₂.toQuiet, trans_of Fair h₁.fair h₂.fair⟩

theorem quiet_of_calm {x : StoreAct α} (hx : Act.Within Calm x) : Act.Within Quiet x :=
  hx.imp fun _ _ h => h.toQuiet

/-! ### Access to the parts -/

theorem calm_onPool (k : Nat) {x : Act Failure (Guarded TextPool) α}
    (hx : ∀ g, Keeps g.value (x g).state.value) : Act.Within Calm (onPool k x) :=
  fun s => ⟨quiet_onPool k x s, fair_onPool k hx s⟩

theorem calm_onArena (k : Nat) {x : Act Failure (Guarded BlockArena) α}
    (hx : ∀ g, (x g).state.value = g.value) : Act.Within Calm (onArena k x) := by
  intro s
  refine ⟨quiet_onArena k hx s, deals_of_pools ?_⟩
  cases hg : s.arenas[k]? with
  | none => rw [onArena_none hg]
  | some g => rw [onArena_some hg]

theorem calm_readArena (k : Nat) (f : BlockArena → Except Error α) :
    Act.Within Calm (readArena k f) :=
  calm_onArena k fun _ => rfl

theorem calm_readPool (k : Nat) (f : TextPool → Except Error α) :
    Act.Within Calm (readPool k f) :=
  calm_onPool k fun g => refl_of Keeps g.value

theorem calm_writePool (k : Nat) {x : Act Error TextPool α} (hx : Act.Within Keeps x) :
    Act.Within Calm (writePool k x) :=
  calm_onPool k fun g => (Guarded.within_writing (hx.mapError Failure.refused) Failure.held g).1

theorem calm_onText (k : Nat) {x : TextPool.GuardedAct α} (hx : Act.Within GuardedKeeps x) :
    Act.Within Calm (onText k x) :=
  calm_onPool k fun g => (hx g).1

/-! ### Pools and holds -/

theorem calm_addPool (slots maxLen : Nat) : Act.Within Calm (addPool slots maxLen) := by
  intro s
  cases hroom : TextPool.room slots maxLen with
  | error e =>
    obtain ⟨log, hadd⟩ := addPool_error hroom s
    rw [hadd]
    exact refl_of Calm s
  | ok u =>
    obtain ⟨-, -, hslots, -⟩ := TextPool.room_eq_ok_iff.1 hroom
    rw [addPool_ok hroom]
    exact ⟨quiet_of_eq rfl rfl (by simp), fair_of_push hslots rfl⟩

/-- Who holds a value does not change it. -/
theorem value_hold (mode : Mode) (g : Guarded α) :
    (takeHold.hold mode g).state.value = g.value := by
  unfold takeHold.hold
  rw [Act.get_bind]
  cases ht : g.take? mode with
  | none => rfl
  | some g' =>
    obtain ⟨h, -, rfl⟩ := Option.map_eq_some_iff.1 ht
    rfl

theorem calm_takeHold (target : Target) (mode : Mode) : Act.Within Calm (takeHold target mode) := by
  cases target with
  | arena k => exact calm_onArena k (value_hold mode)
  | pool k =>
    apply calm_onPool k
    intro g
    rw [value_hold]
    exact refl_of Keeps g.value

theorem map_value_modify (mode : Mode) (gs : List (Guarded α)) (k : Nat) :
    (gs.modify k (·.release mode)).map Guarded.value = gs.map Guarded.value := by
  induction gs generalizing k with
  | nil => simp
  | cons g gs ih =>
    rcases k with _ | k
    · rfl
    · simp [ih]

theorem calm_released (target : Target) (mode : Mode) (s : Store) :
    s.Calm (released target mode s) := by
  cases target with
  | pool k =>
    refine ⟨quiet_of_eq rfl rfl (by simp [released]), deals_of_perm (.of_eq ?_)⟩
    simp [poolList, released, map_value_modify]
  | arena k =>
    refine ⟨⟨fun j => ?_, rfl, ⟨(Array.size_modify ..).ge, Nat.le_refl _⟩⟩, deals_of_pools rfl⟩
    simp only [released, arenaAt, Array.getElem?_modify]
    split
    · cases s.arenas[j]? <;> rfl
    · rfl

theorem size_swapValues {xs ys : Array (Guarded α)} {i j : Nat}
    (h : swapValues xs i j = .ok ys) : ys.size = xs.size := by
  unfold swapValues at h
  split at h
  · split at h
    · obtain rfl := Except.ok.inj h
      simp
    · cases h
  · cases h

theorem calm_swapPools (i j : Nat) : Act.Within Calm (step (.swapPools i j)) := by
  intro s
  cases h : swapValues s.pools i j with
  | error e =>
    simp only [step, Act.read_bind, h]
    exact refl_of Calm s
  | ok pools =>
    simp only [step, Act.read_bind, h]
    exact ⟨quiet_of_eq rfl rfl (size_swapValues h).ge, fair_of_swap h⟩

theorem calm_poolStep (k : Nat) (c : PoolCommand) : Act.Within Calm (poolStep k c) := by
  cases c with
  | allocate => exact (calm_writePool k TextPool.keeps_allocate).map _
  | free h => exact (calm_writePool k (TextPool.keeps_free h)).map _
  | assign h t => exact (calm_writePool k (TextPool.keeps_assign h t)).map _
  | append h t => exact (calm_writePool k (TextPool.keeps_append h t)).map _
  | copy target source => exact (calm_writePool k (TextPool.keeps_copy target source)).map _
  | logUsage =>
    exact (calm_readPool k _).bind fun _ => (within_logLines _).bind fun _ => Act.within_pure _
  | state h => exact calm_readPool k _
  | _ => exact (calm_readPool k _).map _

/-! ### Texts -/

theorem calm_textAt (r : Nat) : Act.Within Calm (textAt r) := by
  refine (Act.within_read _).bind fun c => ?_
  cases c with
  | text h pool => exact Act.within_pure _
  | ring type ring nodes => exact Act.within_fail _
  | textRing ring nodes pool => exact Act.within_fail _

theorem calm_assignFrom (h : TextHandle) (pool : Nat) (source : TextHandle) (sourcePool : Nat) :
    Act.Within Calm (assignFrom h pool source sourcePool) := by
  unfold assignFrom
  split
  · exact calm_onText _ (OwnedText.keeps_copy h source)
  · exact (calm_onText _ (OwnedText.still_content source).within).bind fun t =>
      calm_onText _ (OwnedText.keeps_assign h t)

theorem calm_whileReading (pool : Nat) {x : StoreAct α} (hx : Act.Within Calm x) :
    Act.Within Calm (whileReading pool x) := by
  apply (calm_takeHold _ _).settled.bind
  intro taken
  match taken with
  | .ok () => exact hx.afterwards (calm_released _ _)
  | .error _ => exact hx

theorem calm_textStep (h : TextHandle) (pool : Nat) {c : TextCommand} (hne : c ≠ .clone) :
    Act.Within Calm (textStep h pool c) := by
  have hcontent : ∀ h pool, Act.Within Calm (onText pool (OwnedText.content h)) :=
    fun h pool => calm_onText pool (OwnedText.still_content h).within
  have hequals : ∀ t, Act.Within Calm (onText pool (OwnedText.equals h t)) :=
    fun t => calm_onText pool (OwnedText.still_equals h t).within
  cases c with
  | assign t => exact (calm_onText pool (OwnedText.keeps_assign h t)).map _
  | append t => exact (calm_onText pool (OwnedText.keeps_append h t)).map _
  | assignFrom other =>
    exact (calm_textAt other).bind fun _ =>
      (calm_assignFrom _ _ _ _).bind fun _ => Act.within_pure _
  | assignReading other =>
    refine (calm_textAt other).bind fun _ => (hcontent _ _).bind fun t => ?_
    exact (calm_whileReading _ (calm_onText pool (OwnedText.keeps_assign h t))).bind fun _ =>
      Act.within_pure _
  | compare t => exact (calm_onText pool (OwnedText.still_compare h t).within).map _
  | equals other =>
    exact (calm_textAt other).bind fun _ => (hcontent _ _).bind fun t => (hequals t).map _
  | equalsText t => exact (hequals t).bind fun _ => (hequals t).bind fun _ => Act.within_pure _
  | measure =>
    exact (calm_onText pool (OwnedText.still_length h).within).bind fun _ =>
      (calm_onText pool (OwnedText.still_isEmpty h).within).bind fun _ =>
      (calm_onText pool (OwnedText.still_maxLength h).within).bind fun _ => Act.within_pure _
  | content => exact (hcontent h pool).map _
  | describe => exact (calm_onText pool (OwnedText.still_describe h).within).map _
  | handle => exact Act.within_pure _
  | livesIn k => exact Act.within_pure _
  | clone => exact absurd rfl hne

/-! ### Commands -/

/-- **What asks nothing of blocks or rings leaves them alone**, and all texts with them. -/
theorem calm_step (hc : c.Aside) : Act.Within Calm (step c) := by
  cases c with
  | reservePool slots maxLen => exact (calm_addPool slots maxLen).map _
  | hold target mode => exact (calm_takeHold target mode).map _
  | release target mode =>
    exact (Act.within_modify (calm_released target mode)).bind fun _ => Act.within_pure _
  | swapPools i j => exact calm_swapPools i j
  | pool k c => exact calm_poolStep k c
  | text r c => exact (calm_textAt r).bind fun _ => calm_textStep _ _ hc
  | usageBoth nodes pool => exact (Act.within_read _).map _
  | logUsageBoth nodes pool =>
    exact (Act.within_read _).bind fun _ => (within_logLines _).bind fun _ => Act.within_pure _
  | describeBoth nodes pool => exact (Act.within_read _).map _
  | _ => exact hc.elim

theorem calm_arena (n : Nat) {c : ArenaCommand} (hc : c.Looks) :
    Act.Within Calm (step (.arena n c)) := by
  cases c with
  | contains h => exact (calm_readArena n _).map _
  | block h => exact (calm_readArena n _).map _
  | usage => exact (calm_readArena n _).map _
  | layout => exact (calm_readArena n _).map _
  | logUsage =>
    exact (calm_readArena n _).bind fun _ => (within_logLines _).bind fun _ => Act.within_pure _
  | logLayout =>
    exact (calm_readArena n _).bind fun _ => (within_logLines _).bind fun _ => Act.within_pure _
  | describe => exact (calm_readArena n _).map _
  | _ => exact hc.elim

end Store

end FixedArena
