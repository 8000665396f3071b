import FixedArena.Proofs.Block.Ages
import FixedArena.Proofs.Block.Frame
import Mathlib.Algebra.Group.Nat.Defs
import Mathlib.Logic.Function.Basic

/-!
How long a handle lives. Several arenas are called in any order: blocks are handed out, taken back
and written to, with handles of any origin. The generation of a block counts how often it was taken
back, as far as 32 bits go; so whether an arena accepts a handle is told by what became of the block
since the handle was handed out, over runs of any length.

Main facts:
* `Call`, `run`, `frees`: the calls, a run of them, and how often a run takes a block back;
* `generation_run`: a generation counts the frees;
* `inUse_run`: a block that is never taken back stays in use;
* `accepts_since`: the arenas that accept a handle again, told by the frees since;
* `handle_lives`: which handles are accepted after any run, and how the others are refused.
-/

namespace FixedArena

namespace BlockArena

variable {a : BlockArena} {h : BlockHandle} {i : UInt32}

/-! ### What an arena does with a handle -/

/-- The arena takes the handle wherever one is asked for. -/
structure Opens (a : BlockArena) (h : BlockHandle) : Prop where
  contains : a.contains h = true
  free : (free h a).result = .ok ()
  block : ∃ bs, a.block h = .ok bs
  write : ∀ offset bs, offset + bs.length ≤ a.blockSize → (write h offset bs a).result = .ok ()

/-- The arena refuses the handle wherever one is asked for, and stays as it is. -/
structure Rejects (a : BlockArena) (h : BlockHandle) (e : Error) : Prop where
  contains : a.contains h = false
  free : (BlockArena.free h a).result = .error e ∧ (BlockArena.free h a).state = a
  block : a.block h = .error e
  write : ∀ offset bs, (BlockArena.write h offset bs a).result = .error e ∧
    (BlockArena.write h offset bs a).state = a

theorem Accepts.opens (ha : a.Accepts h) : a.Opens h where
  contains := contains_iff.2 ha
  free := by rw [free_ok a h ha.locate]
  block := ⟨_, read_ok ha (by omega)⟩
  write offset bs hw := by rw [write_ok ha hw]

theorem rejects_of_locate {e : Error} (hl : a.locate h = .error e) : a.Rejects h e where
  contains := by simp [contains, hl, Except.toBool]
  free := by simp [free_error a h hl]
  block := by
    unfold block read
    rw [hl]
    rfl
  write offset bs := by simp [write, hl]

theorem rejects_of_not_accepts (ha : ¬a.Accepts h) : ∃ e, a.Rejects h e := by
  cases hl : a.locate h with
  | ok slot => exact absurd (accepts_of_locate hl) ha
  | error e => exact ⟨e, rejects_of_locate hl⟩

/-- The identity is looked at first. -/
theorem rejects_foreign (ha : h.arena ≠ a.id) : a.Rejects h (.foreign h.index) :=
  rejects_of_locate (by simp [locate, ha])

/-- The generation is looked at before the use, so a handle of a block that is free is stale. -/
theorem rejects_stale (ha : h.arena = a.id) (hi : h.index.toNat < a.capacity)
    (hg : a.generation h.index ≠ h.generation) :
    a.Rejects h (.stale h.index h.generation (a.generation h.index)) := by
  refine rejects_of_locate ?_
  have hs : a.slot? h.index.toNat = some (a.slots.get h.index.toNat) :=
    slot?_eq_some_iff.2 ⟨hi, rfl⟩
  have hg' : (a.slots.get h.index.toNat).generation ≠ h.generation := hg
  simp [locate, ha, hs, hg', BlockArena.generation]

/-- A handle that is handed out names a free block in its present generation, and is accepted from
then on. -/
theorem of_allocate (hs : a.Sound) (hh : (allocate a).result = .ok h) :
    h = a.handleAt h.index ∧ ¬a.InUse h.index ∧ (allocate a).state.Accepts h := by
  rcases hn : a.freeList.next? with _ | ⟨index, rest⟩
  · rw [allocate_full a hn] at hh
    cases hh
  · rw [allocate_ok a hn] at hh ⊢
    cases hh
    obtain ⟨hlt, hfree⟩ := hs.of_next? hn
    exact ⟨rfl, hfree, rfl, (inUse_handOut hlt).2 (.inl rfl), generation_handOut⟩

/-! ### Calls to one arena -/

/-- A call to one of several arenas. -/
inductive Call (ι : Type) where
  | allocate (k : ι)
  | free (k : ι) (h : BlockHandle)
  | write (k : ι) (h : BlockHandle) (offset : Nat) (bs : List UInt8)

section Calls

variable {ι : Type} {s : ι → BlockArena} {j k : ι}

namespace Call

/-- The arena that is called. -/
def target : Call ι → ι
  | allocate k => k
  | free k _ => k
  | write k _ _ _ => k

/-- What the called arena does. A handle is the answer to `allocate` only. -/
def act : Call ι → Act Error BlockArena (Option BlockHandle)
  | allocate _ => some <$> BlockArena.allocate
  | free _ h => (fun _ => none) <$> BlockArena.free h
  | write _ h offset bs => (fun _ => none) <$> BlockArena.write h offset bs

/-- The call, made to this arena, takes back block `i`. -/
def takes (i : UInt32) (a : BlockArena) : Call ι → Bool
  | free _ h => h.index = i ∧ (BlockArena.free h a).result.toBool = true
  | allocate _ => false
  | write _ _ _ _ => false

end Call

theorem generation_act (c : Call ι) (a : BlockArena) (i : UInt32) :
    (c.act a).state.generation i = a.generation i + if c.takes i a = true then 1 else 0 := by
  cases c with
  | allocate k =>
    have hg := ((grows_allocate.map some) a).generation i
    simpa [Call.takes, Call.act] using hg
  | write k h offset bs =>
    have hg := ((grows_write h offset bs).map (fun _ => (none : Option BlockHandle)) a).generation i
    simpa [Call.takes, Call.act] using hg
  | free k h =>
    rw [Call.act, Act.map_apply]
    cases hl : a.locate h with
    | error e => simp [Call.takes, free_error a h hl, Except.toBool]
    | ok slot =>
      rw [free_ok a h hl]
      change (a.takeBack h.index).generation i = _
      rw [generation_takeBack]
      by_cases hi : h.index = i
      · simp [Call.takes, free_ok a h hl, hi, Except.toBool]
      · simp [Call.takes, hi, Ne.symm hi]

theorem inUse_act (c : Call ι) (hi : a.InUse i) (hc : c.takes i a = false) :
    (c.act a).state.InUse i := by
  cases c with
  | allocate k => exact ((grows_allocate.map some) a).inUse i hi
  | write k h offset bs => exact ((grows_write h offset bs).map _ a).inUse i hi
  | free k h =>
    rw [Call.act, Act.map_apply]
    cases hl : a.locate h with
    | error e => rwa [free_error a h hl]
    | ok slot =>
      rw [free_ok a h hl]
      refine inUse_takeBack.2 ⟨fun hh => ?_, hi⟩
      simp [Call.takes, free_ok a h hl, hh, Except.toBool] at hc

/-- A call is refused and changes nothing, or it turns one sound arena into another. -/
theorem act_cases (c : Call ι) (hs : a.Sound) :
    (∃ e log, c.act a = ⟨.error e, a, log⟩) ∨
    ∃ v b log, c.act a = ⟨.ok v, b, log⟩ ∧ b.Sound := by
  cases c with
  | allocate k =>
    rw [Call.act, Act.map_apply]
    rcases allocate_cases a hs with ⟨e, log, he⟩ | ⟨h, b, log, he, -, ht⟩
    · exact .inl ⟨e, log, by rw [he]; rfl⟩
    · exact .inr ⟨some h, b, log, by rw [he]; rfl, ht.sound hs⟩
  | free k h =>
    rw [Call.act, Act.map_apply]
    rcases free_cases h a hs with ⟨e, log, he⟩ | ⟨v, b, log, he, -, ht⟩
    · exact .inl ⟨e, log, by rw [he]; rfl⟩
    · exact .inr ⟨none, b, log, by rw [he]; rfl, ht.sound hs⟩
  | write k h offset bs =>
    rw [Call.act, Act.map_apply]
    rcases write_cases h offset bs a with ⟨e, log, he⟩ | ⟨v, b, log, he, -, ht⟩
    · exact .inl ⟨e, log, by rw [he]; rfl⟩
    · exact .inr ⟨none, b, log, by rw [he]; rfl, ht.sound hs⟩

theorem ages_act (c : Call ι) (a : BlockArena) : a.Ages (c.act a).state := by
  cases c with
  | allocate k => exact ((grows_allocate.map some) a).ages
  | free k h => exact ((releases_free h).map _ a).toAges
  | write k h offset bs => exact ((grows_write h offset bs).map _ a).ages

/-! ### Calls to several arenas -/

/-- No two arenas are of one identity. -/
def Apart (s : ι → BlockArena) : Prop := ∀ j k, (s j).id = (s k).id → j = k

/-- Arenas as they are reserved, no two of them of one identity. -/
structure Reserved (s : ι → BlockArena) : Prop where
  fresh : ∀ k, ∃ id capacity blockSize,
    checkSizes capacity blockSize = .ok () ∧ s k = BlockArena.fresh id capacity blockSize
  apart : Apart s

theorem Reserved.sound (hs : Reserved s) (k : ι) : (s k).Sound := by
  obtain ⟨id, capacity, blockSize, hc, hk⟩ := hs.fresh k
  rw [hk]
  refine sound_fresh id blockSize ?_
  unfold checkSizes at hc
  split_ifs at hc with h₀ h₁ h₂ h₃
  omega

variable [DecidableEq ι]

namespace Call

/-- The call, among all arenas. -/
def step (c : Call ι) : Act Error (ι → BlockArena) (Option BlockHandle) :=
  Act.zoom (· c.target) (fun b s => Function.update s c.target b) c.act

/-- The call takes back block `i` of arena `k`. -/
def frees (k : ι) (i : UInt32) (s : ι → BlockArena) (c : Call ι) : Bool :=
  c.target = k ∧ c.takes i (s k) = true

theorem state_step (c : Call ι) (s : ι → BlockArena) :
    (c.step s).state = Function.update s c.target (c.act (s c.target)).state := rfl

end Call

/-- **The generation of a block rises by one if the call takes the block back**, and stays
otherwise. -/
theorem generation_step (c : Call ι) (s : ι → BlockArena) (k : ι) (i : UInt32) :
    ((c.step s).state k).generation i =
      (s k).generation i + if c.frees k i s = true then 1 else 0 := by
  rw [c.state_step]
  by_cases hk : k = c.target
  · subst hk
    rw [Function.update_self, generation_act]
    simp [Call.frees]
  · rw [Function.update_of_ne hk]
    simp [Call.frees, Ne.symm hk]

theorem inUse_step (c : Call ι) (hi : (s k).InUse i) (hc : c.frees k i s = false) :
    ((c.step s).state k).InUse i := by
  rw [c.state_step]
  by_cases hk : k = c.target
  · subst hk
    rw [Function.update_self]
    exact inUse_act c hi (by simpa [Call.frees] using hc)
  · rwa [Function.update_of_ne hk]

theorem sound_step (c : Call ι) (hs : ∀ k, (s k).Sound) (k : ι) : ((c.step s).state k).Sound := by
  rw [c.state_step]
  by_cases hk : k = c.target
  · subst hk
    rw [Function.update_self]
    rcases act_cases c (hs c.target) with ⟨e, log, he⟩ | ⟨v, b, log, he, hb⟩
    · rw [he]
      exact hs _
    · rwa [he]
  · rw [Function.update_of_ne hk]
    exact hs k

theorem shape_step (c : Call ι) (s : ι → BlockArena) (k : ι) :
    ((c.step s).state k).id = (s k).id ∧ ((c.step s).state k).capacity = (s k).capacity := by
  rw [c.state_step]
  by_cases hk : k = c.target
  · subst hk
    rw [Function.update_self]
    exact ⟨(ages_act c _).id, (ages_act c _).capacity⟩
  · rw [Function.update_of_ne hk]
    exact ⟨rfl, rfl⟩

/-- A call that is refused changes nothing. -/
theorem step_refused (c : Call ι) (hs : ∀ k, (s k).Sound) {e : Error}
    (he : (c.step s).result = .error e) : (c.step s).state = s := by
  rw [c.state_step]
  rcases act_cases c (hs c.target) with ⟨e', log, ha⟩ | ⟨v, b, log, ha, -⟩
  · rw [ha, Function.update_eq_self]
  · rw [Call.step, Act.zoom_apply] at he
    change (c.act (s c.target)).result = _ at he
    rw [ha] at he
    cases he

/-! ### Runs -/

/-- The arenas after some calls, the first call first. -/
def run (s : ι → BlockArena) (calls : List (Call ι)) : ι → BlockArena :=
  calls.foldl (fun s c => (c.step s).state) s

/-- How often some calls take back block `i` of arena `k`. -/
def frees (k : ι) (i : UInt32) (s : ι → BlockArena) : List (Call ι) → Nat
  | [] => 0
  | c :: calls => (if c.frees k i s = true then 1 else 0) + frees k i (c.step s).state calls

theorem run_cons (s : ι → BlockArena) (c : Call ι) (calls : List (Call ι)) :
    run s (c :: calls) = run (c.step s).state calls := rfl

theorem sound_run (hs : ∀ k, (s k).Sound) (calls : List (Call ι)) (k : ι) :
    (run s calls k).Sound := by
  induction calls generalizing s with
  | nil => exact hs k
  | cons c calls ih => exact ih (sound_step c hs)

theorem shape_run (s : ι → BlockArena) (calls : List (Call ι)) (k : ι) :
    (run s calls k).id = (s k).id ∧ (run s calls k).capacity = (s k).capacity := by
  induction calls generalizing s with
  | nil => exact ⟨rfl, rfl⟩
  | cons c calls ih =>
    obtain ⟨hid, hcap⟩ := ih (c.step s).state
    obtain ⟨hid', hcap'⟩ := shape_step c s k
    exact ⟨hid.trans hid', hcap.trans hcap'⟩

/-- **Generations count frees**, up to wrapping round. -/
theorem generation_run (s : ι → BlockArena) (calls : List (Call ι)) (k : ι) (i : UInt32) :
    (run s calls k).generation i = (s k).generation i + UInt32.ofNat (frees k i s calls) := by
  induction calls generalizing s with
  | nil => simp [run, frees]
  | cons c calls ih =>
    rw [run_cons, ih, generation_step, frees, UInt32.ofNat_add, UInt32.add_assoc]
    congr 2
    split <;> rfl

/-- **A block that no call takes back stays in use.** -/
theorem inUse_run {calls : List (Call ι)} (hf : frees k i s calls = 0) (hi : (s k).InUse i) :
    (run s calls k).InUse i := by
  induction calls generalizing s with
  | nil => exact hi
  | cons c calls ih =>
    rw [frees] at hf
    have hc : c.frees k i s = false := by
      cases hc : c.frees k i s with
      | false => rfl
      | true => simp [hc] at hf
    have hrest : frees k i (c.step s).state calls = 0 := by omega
    exact ih hrest (inUse_step c hi hc)

/-! ### What becomes of a handle -/

theorem Apart.run (hs : Apart s) (calls : List (Call ι)) : Apart (run s calls) := by
  intro j k hjk
  rw [(shape_run s calls j).1, (shape_run s calls k).1] at hjk
  exact hs j k hjk

theorem ofNat_eq_zero_iff (n : Nat) : UInt32.ofNat n = 0 ↔ 2 ^ 32 ∣ n := by
  rw [← UInt32.toNat_inj, UInt32.toNat_ofNat', Nat.dvd_iff_mod_eq_zero]
  rfl

/-- The arena that hands a handle out accepts it. -/
theorem accepts_issue {calls : List (Call ι)} (hs : (run s calls k).Sound)
    (hh : (allocate (run s calls k)).result = .ok h) :
    (run s (calls ++ [.allocate k]) k).Accepts h := by
  have hacc := (of_allocate hs hh).2.2
  rw [run, List.foldl_append]
  change (((Call.allocate k).step (run s calls)).state k).Accepts h
  rw [Call.state_step, Call.target, Function.update_self, Call.act, Act.map_apply]
  exact hacc

section Since

variable (ha : (s k).Accepts h) (calls : List (Call ι))

include ha

theorem generation_since :
    (run s calls k).generation h.index =
      h.generation + UInt32.ofNat (frees k h.index s calls) := by
  rw [generation_run, ha.generation]

/-- **A handle that was accepted once is accepted again** by the same arena alone, and there as
long as its block is in use and came back a multiple of 2 ^ 32 times. -/
theorem accepts_since (hs : Apart s) :
    (run s calls j).Accepts h ↔
      j = k ∧ (run s calls k).InUse h.index ∧ 2 ^ 32 ∣ frees k h.index s calls := by
  have hg := generation_since ha calls
  constructor
  · intro hj
    have hid : (run s calls j).id = (run s calls k).id := by
      rw [(shape_run s calls k).1, ← ha.arena, hj.arena]
    obtain rfl := hs.run calls j k hid
    refine ⟨rfl, hj.inUse, (ofNat_eq_zero_iff _).1 ?_⟩
    rw [hj.generation] at hg
    simpa using hg
  · rintro ⟨rfl, hu, hn⟩
    refine ⟨ha.arena.trans (shape_run s calls j).1.symm, hu, ?_⟩
    rw [hg, (ofNat_eq_zero_iff _).2 hn, UInt32.add_zero]

theorem rejects_since_foreign (hs : Apart s) (hj : j ≠ k) :
    (run s calls j).Rejects h (.foreign h.index) := by
  refine rejects_foreign fun hid => hj (hs j k ?_)
  rw [← ha.arena, hid, (shape_run s calls j).1]

theorem rejects_since_stale (hpos : 0 < frees k h.index s calls)
    (hlt : frees k h.index s calls < 2 ^ 32) :
    (run s calls k).Rejects h
      (.stale h.index h.generation ((run s calls k).generation h.index)) := by
  obtain ⟨hid, hcap⟩ := shape_run s calls k
  refine rejects_stale (ha.arena.trans hid.symm) (hcap ▸ ha.inUse.1) fun hg => ?_
  -- equal generations are a multiple of 2 ^ 32 frees apart
  rw [generation_since ha calls] at hg
  have hdvd := (ofNat_eq_zero_iff (frees k h.index s calls)).1 (by simpa using hg)
  exact absurd (Nat.le_of_dvd hpos hdvd) (by omega)

/-- A handle is not handed out again: until its block comes back it is in use, and after that it is
of another generation. -/
theorem allocate_ne_since (hs : Apart s) (hsound : ∀ k, (s k).Sound)
    (hlt : frees k h.index s calls < 2 ^ 32) : (allocate (run s calls j)).result ≠ .ok h := by
  intro hh
  obtain ⟨heq, hfree, -⟩ := of_allocate (sound_run hsound calls j) hh
  have hid : h.arena = (run s calls j).id := congrArg BlockHandle.arena heq
  have hg : h.generation = (run s calls j).generation h.index := congrArg BlockHandle.generation heq
  rw [(shape_run s calls j).1, ha.arena] at hid
  obtain rfl := hs k j hid
  rcases Nat.eq_zero_or_pos (frees k h.index s calls) with hz | hpos
  · exact hfree (inUse_run hz ha.inUse)
  · rw [generation_since ha calls] at hg
    have hdvd := (ofNat_eq_zero_iff (frees k h.index s calls)).1 (by simpa using hg.symm)
    exact absurd (Nat.le_of_dvd hpos hdvd) (by omega)

end Since

/-- **The life of a handle.** A call hands out `h` at arena `k`, in a run of any length. After
further calls, `n` of which took the block back, the arenas that take `h` are told by `n` and by
whether the block is in use. Until the generation has come round, `h` is refused as stale once the
block came back, by other arenas always as foreign, and no arena hands it out again. -/
theorem handle_lives (hs : Reserved s) (before after : List (Call ι)) {k : ι}
    (hh : (allocate (run s before k)).result = .ok h) :
    let issue := run s (before ++ [.allocate k])
    let now := run issue after
    let n := frees k h.index issue after
    let lives j := j = k ∧ (now k).InUse h.index ∧ 2 ^ 32 ∣ n
    (∀ j, (lives j → (now j).Opens h) ∧ (¬lives j → ∃ e, (now j).Rejects h e)) ∧
    (n < 2 ^ 32 →
      (∀ j, (allocate (now j)).result ≠ .ok h) ∧
      (0 < n → (now k).Rejects h (.stale h.index h.generation ((now k).generation h.index)))) ∧
    (∀ j, j ≠ k → (now j).Rejects h (.foreign h.index)) ∧
    ∀ (c : Call ι) (e : Error), (c.step now).result = .error e → (c.step now).state = now := by
  intro issue now n lives
  have hapart : Apart issue := hs.apart.run _
  have hsound : ∀ k, (issue k).Sound := sound_run hs.sound _
  have ha : (issue k).Accepts h := accepts_issue (sound_run hs.sound before k) hh
  have hlives : ∀ j, (now j).Accepts h ↔ lives j := fun j => accepts_since ha after hapart
  refine ⟨fun j => ⟨fun hj => ((hlives j).2 hj).opens, fun hj => ?_⟩, fun hlt => ⟨fun j => ?_, ?_⟩,
    fun j hj => rejects_since_foreign ha after hapart hj, fun c e he => ?_⟩
  · exact rejects_of_not_accepts fun hacc => hj ((hlives j).1 hacc)
  · exact allocate_ne_since ha after hapart hsound hlt
  · exact fun hpos => rejects_since_stale ha after hpos hlt
  · exact step_refused c (sound_run hsound after) he

end Calls

/-- Two arenas of one block each. -/
def pair (second : Bool) : BlockArena := .fresh (if second then 2 else 1) 1 8

theorem reserved_pair : Reserved pair where
  fresh second := ⟨_, 1, 8, rfl, rfl⟩
  apart j k hjk := by
    cases j <;> cases k <;> first | rfl | cases hjk

/-- The second handle of a block, presented again after it was given back in its turn. -/
theorem handle_lives_pair :
    let before := [.allocate true, .free true ⟨2, 0, 0⟩]
    let after := [.free true ⟨2, 0, 0⟩, .free true ⟨2, 0, 1⟩, .allocate true]
    let now := run (run pair (before ++ [.allocate true])) after
    (allocate (run pair before true)).result = .ok ⟨2, 0, 1⟩ ∧
      (now true).Rejects ⟨2, 0, 1⟩ (.stale 0 1 2) ∧ (now false).Rejects ⟨2, 0, 1⟩ (.foreign 0) := by
  intro before after now
  have hh : (allocate (run pair before true)).result = .ok ⟨2, 0, 1⟩ := by decide +kernel
  have hn : frees true 0 (run pair (before ++ [.allocate true])) after = 1 := by decide +kernel
  have hg : (now true).generation 0 = 2 := by decide +kernel
  obtain ⟨-, hlt, hforeign, -⟩ := handle_lives reserved_pair before after hh
  have hstale := (hlt (by rw [hn]; decide)).2 (by rw [hn]; decide)
  rw [hg] at hstale
  exact ⟨hh, hstale, hforeign false (by decide)⟩

end BlockArena

end FixedArena
