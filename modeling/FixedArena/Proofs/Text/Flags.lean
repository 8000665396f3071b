import FixedArena.Proofs.Text.Accesses

/-!
Two flags in the place of a slot's state: whether the slot is in use, and whether a container owns it.
They are written one by one. A slot that is handed out is marked as used and nothing more, a slot that a
container takes over is marked as owned and nothing more, and only a slot that is taken back loses both
marks. That no slot is owned without being in use, and that no slot is handed out with an owner, is then
up to the calls.

Main facts:
* `Flags`, `Call.onFlags`: the flags of all slots, and what a call does with them;
* `TextPool.flags`: the flags that the states of a pool come to;
* `Tidy.mirrors`: a call does with the flags what it does with the states;
* `flags_refined`: after any run of calls the flags are those of the states.
-/

namespace FixedArena

namespace TextPool

/-- What a pool keeps of its slots besides their bytes, with two flags for each. -/
@[ext]
structure Flags where
  id : UInt16
  /-- The slots in use. -/
  used : Array Bool
  /-- The slots that containers own. -/
  claimed : Array Bool
  live : Nat
  peak : Nat

namespace Flags

/-- No slot is in use. -/
def fresh (id : UInt16) (slots : Nat) : Flags where
  id := id
  used := Array.replicate slots false
  claimed := Array.replicate slots false
  live := 0
  peak := 0

/-- The slot that a handle names, if the handle is one of the pool's and the slot is in use. -/
def locate (f : Flags) (h : TextHandle) : Except Error Nat :=
  if h.pool ≠ f.id ∨ f.used[h.index.toNat]? ≠ some true then .error (.notAllocated h.index)
  else .ok h.index.toNat

/-- The handle names a slot that a container owns. -/
def isOwned (f : Flags) (h : TextHandle) : Bool :=
  match f.locate h with
  | .ok i => f.claimed[i]? = some true
  | .error _ => false

/-- Marks a slot as used. Whether it is owned is not looked at. -/
def take (f : Flags) (i : Nat) : Flags :=
  { f with used := f.used.setIfInBounds i true, live := f.live + 1, peak := max f.peak (f.live + 1) }

/-- Marks a slot as owned, or takes that mark. Whether it is in use is not looked at. -/
def claim (f : Flags) (i : Nat) (owned : Bool) : Flags :=
  { f with claimed := f.claimed.setIfInBounds i owned }

/-- Takes both marks of a slot. -/
def clear (f : Flags) (i : Nat) : Flags :=
  { f with
    used := f.used.setIfInBounds i false
    claimed := f.claimed.setIfInBounds i false
    live := f.live - 1 }

/-- Hands out the lowest slot that is not in use. -/
def allocate : Act Error Flags TextHandle := fun f =>
  match f.used.findIdx? (! ·) with
  | none => ⟨.error (.full kind f.used.size), f, [.slotsExhausted f.used.size]⟩
  | some i =>
    ⟨.ok ⟨f.id, UInt16.ofNat i⟩, f.take i,
      if f.peak < f.live + 1 then [.slotsPeak (f.live + 1)] else []⟩

/-- Takes back a slot that nobody owns. -/
def free (h : TextHandle) : Act Error Flags Bool := fun f =>
  match f.locate h with
  | .error _ => ⟨.ok false, f, [.slotNotAllocated h]⟩
  | .ok i =>
    if f.claimed[i]? = some true then ⟨.ok false, f, [.slotOwned h]⟩ else ⟨.ok true, f.clear i, []⟩

/-- Makes a container the owner of a slot that has none. -/
def own (h : TextHandle) : Act Error Flags Unit := fun f =>
  match f.locate h with
  | .error e => ⟨.error e, f, []⟩
  | .ok i =>
    if f.claimed[i]? = some true then ⟨.error (.alreadyOwned h.index), f, []⟩
    else ⟨.ok (), f.claim i true, []⟩

/-- Leaves a slot without an owner. -/
def disown (h : TextHandle) : Act Error Flags Unit := fun f =>
  match f.locate h with
  | .error _ => ⟨.ok (), f, []⟩
  | .ok i => ⟨.ok (), f.claim i false, []⟩

/-- Takes back a slot, whoever owns it. -/
def reclaim (h : TextHandle) : Act Error Flags Bool := fun f =>
  match f.locate h with
  | .error _ => ⟨.ok false, f, [.slotLost h]⟩
  | .ok i => ⟨.ok true, f.clear i, []⟩

end Flags

/-- What the flags know of an answer: all but the length of a text. -/
def Answer.known : Answer → Option Answer
  | length _ => none
  | answer => some answer

/-- **What a call does with the flags**, and what they know of the answer. Calls that are about texts ask
whether the slots are in use, and write no flag. -/
def Call.onFlags : Call → Act Error Flags (Option Answer)
  | allocate => (fun h => some (.handle h)) <$> Flags.allocate
  | free h => (fun known => some (.freed known)) <$> Flags.free h
  | own h => (fun _ => some .done) <$> Flags.own h
  | disown h => (fun _ => some .done) <$> Flags.disown h
  | reclaim h => (fun known => some (.freed known)) <$> Flags.reclaim h
  | assign h _ | append h _ => Act.read fun f => (f.locate h).map fun _ => none
  | copy target source => Act.read fun f => do
    let _ ← f.locate target
    let _ ← f.locate source
    return none

/-- The flags after some calls, the first call first. -/
def Flags.run (f : Flags) (calls : List Call) : Flags := calls.foldl (fun f c => (c.onFlags f).state) f

/-- **The flags that the states of a pool come to.** -/
def flags (p : TextPool) : Flags where
  id := p.id
  used := p.slots.map (· ≠ .free)
  claimed := p.slots.map (· = .owned)
  live := p.live
  peak := p.peak

variable {α : Type} {p : TextPool} {h : TextHandle} {i : Nat} {c : Call}

/-! ### Flags and states -/

theorem used_eq_true_iff : p.flags.used[i]? = some true ↔ ∃ s, p.slots[i]? = some s ∧ s ≠ .free := by
  simp [flags]

theorem claimed_eq_true_iff : p.flags.claimed[i]? = some true ↔ p.slots[i]? = some .owned := by
  simp [flags]

theorem locate_flags (p : TextPool) (h : TextHandle) : p.flags.locate h = p.locate h := by
  unfold Flags.locate locate
  by_cases hid : h.pool = p.id
  · cases hs : p.slots[h.index.toNat]? with
    | none => simp [flags, hid, hs]
    | some state => cases state <;> simp [flags, hid, hs]
  · rw [if_pos hid, if_pos (.inl hid)]

theorem isOwned_flags (p : TextPool) (h : TextHandle) : p.flags.isOwned h = p.isOwned h := by
  unfold Flags.isOwned isOwned
  rw [locate_flags]
  cases p.locate h with
  | ok i => simp only [claimed_eq_true_iff]
  | error e => rfl

theorem findIdx?_flags (p : TextPool) :
    p.flags.used.findIdx? (! ·) = p.slots.findIdx? (· = .free) := by
  simp [flags, Function.comp_def]

theorem size_flags (p : TextPool) : p.flags.used.size = p.capacity := by
  simp [flags, capacity]

/-- A free slot has no owner, so that its mark need not be taken when it is handed out. -/
theorem flags_lend (hi : p.slots[i]? = some .free) : (p.lend i).flags = p.flags.take i := by
  have hclaimed : (p.slots.setIfInBounds i .lent).map (fun s => decide (s = .owned)) =
      p.slots.map fun s => decide (s = .owned) := by
    rw [Array.map_setIfInBounds]
    exact set_back (by rw [Array.getElem?_map, hi]; rfl)
  exact Flags.ext rfl Array.map_setIfInBounds hclaimed rfl rfl

/-- A slot in use that gets an owner, or loses it, stays in use. -/
theorem flags_setState {old state : SlotState} (hi : p.slots[i]? = some old) (hold : old ≠ .free)
    (hstate : state ≠ .free) : (p.setState i state).flags = p.flags.claim i (state = .owned) := by
  have hused : (p.slots.setIfInBounds i state).map (fun s => decide (s ≠ .free)) =
      p.slots.map fun s => decide (s ≠ .free) := by
    rw [Array.map_setIfInBounds]
    refine set_back ?_
    rw [Array.getElem?_map, hi, Option.map_some, decide_eq_true hold, decide_eq_true hstate]
  exact Flags.ext rfl hused Array.map_setIfInBounds rfl rfl

theorem flags_takeBack (p : TextPool) (i : Nat) : (p.takeBack i).flags = p.flags.clear i :=
  Flags.ext rfl Array.map_setIfInBounds Array.map_setIfInBounds rfl rfl

/-! ### Calls -/

/-- **An operation does with the flags what another does with the states**: it gives the same answer, logs
the same, and what it leaves are the flags of what the other leaves. -/
def Mirrored (x : Act Error Flags α) (y : Act Error TextPool α) : Prop :=
  ∀ p, x p.flags = ⟨(y p).result, (y p).state.flags, (y p).events⟩

theorem mirrored_allocate : Mirrored Flags.allocate allocate := by
  intro p
  unfold Flags.allocate
  rw [findIdx?_flags, size_flags]
  cases hf : p.slots.findIdx? (· = .free) with
  | none => rw [allocate_full p hf]
  | some i =>
    rw [allocate_ok p hf, flags_lend (free_of_findIdx? hf)]
    rfl

theorem mirrored_free (h : TextHandle) : Mirrored (Flags.free h) (free h) := by
  intro p
  unfold Flags.free free
  rw [locate_flags]
  cases hl : p.locate h with
  | error e => rfl
  | ok i =>
    simp only [claimed_eq_true_iff]
    split
    · rfl
    · rw [flags_takeBack]

theorem mirrored_own (h : TextHandle) : Mirrored (Flags.own h) (own h) := by
  intro p
  unfold Flags.own own
  rw [locate_flags]
  cases hl : p.locate h with
  | error e => rfl
  | ok i =>
    obtain ⟨-, rfl, state, hs, hused⟩ := (locate_eq_ok_iff p h i).1 hl
    simp only [claimed_eq_true_iff]
    split
    · rfl
    · rw [flags_setState hs hused (by decide)]
      rfl

theorem mirrored_disown (h : TextHandle) : Mirrored (Flags.disown h) (disown h) := by
  intro p
  unfold Flags.disown disown
  rw [locate_flags]
  cases hl : p.locate h with
  | error e => rfl
  | ok i =>
    obtain ⟨-, rfl, state, hs, hused⟩ := (locate_eq_ok_iff p h i).1 hl
    simp only
    rw [flags_setState hs hused (by decide)]
    rfl

theorem mirrored_reclaim (h : TextHandle) : Mirrored (Flags.reclaim h) (reclaim h) := by
  intro p
  unfold Flags.reclaim reclaim
  rw [locate_flags]
  cases hl : p.locate h with
  | error e => rfl
  | ok i => simp only [flags_takeBack]

/-- The operation changes no flag. -/
abbrev KeepsFlags (x : Act Error TextPool α) : Prop := Act.Within (Order.Preimage flags Eq) x

theorem keepsFlags_writeBytes (i offset : Nat) (bs : List UInt8) :
    KeepsFlags (writeBytes i offset bs) := by
  intro p
  unfold writeBytes
  split <;> rfl

theorem keepsFlags_assign (h : TextHandle) (t : String) : KeepsFlags (assign h t) :=
  Act.within_get.bind fun _ => (Act.within_read _).bind fun _ =>
    (keepsFlags_writeBytes _ _ _).bind fun _ => Act.within_pure _

theorem keepsFlags_append (h : TextHandle) (t : String) : KeepsFlags (append h t) :=
  Act.within_get.bind fun _ => (Act.within_read _).bind fun _ =>
    (keepsFlags_writeBytes _ _ _).bind fun _ => Act.within_pure _

theorem keepsFlags_copy (target source : TextHandle) : KeepsFlags (copy target source) :=
  Act.within_get.bind fun _ => (Act.within_read _).bind fun _ => (Act.within_read _).bind fun _ =>
    (Act.within_read _).bind fun _ => (keepsFlags_writeBytes _ _ _).bind fun _ => Act.within_pure _

/-- **A call does with the flags what it does with the states.** -/
def Mirrors (p : TextPool) (c : Call) : Prop :=
  c.onFlags p.flags =
    ⟨(c.act p).result.map Answer.known, (c.act p).state.flags, (c.act p).events⟩

theorem Mirrored.mirrors {x : Act Error Flags α} {y : Act Error TextPool α} {f : α → Answer}
    (h : Mirrored x y) (hx : c.onFlags = (fun a => (f a).known) <$> x) (hy : c.act = f <$> y)
    (p : TextPool) : Mirrors p c := by
  rw [Mirrors, hx, hy, Act.map_apply, Act.map_apply, h p]
  cases (y p).result <;> rfl

/-- A call about a text is refused for its handle, or comes to a length. -/
theorem mirrors_text {y : Act Error TextPool Nat} (hkeeps : KeepsFlags y)
    (hy : c.act = .length <$> y)
    (h : (∃ e, c.onFlags p.flags = ⟨.error e, p.flags, []⟩ ∧ y p = ⟨.error e, p, []⟩) ∨
      ∃ n p', c.onFlags p.flags = ⟨.ok none, p.flags, []⟩ ∧ y p = ⟨.ok n, p', []⟩) : Mirrors p c := by
  rw [Mirrors, hy, Act.map_apply]
  obtain ⟨e, hx, hy⟩ | ⟨n, p', hx, hy⟩ := h
  · rw [hx, hy]
    rfl
  · have hflags : p.flags = p'.flags := by
      have hkept := hkeeps p
      rwa [hy] at hkept
    rw [hx, hy, hflags]
    rfl

theorem locate_flags_of_none (hf : p.catalog.find h = none) :
    p.flags.locate h = .error (.notAllocated h.index) := by
  rw [locate_flags, locate_eq, hf]

theorem locate_flags_of_some {entry : Entry} (hf : p.catalog.find h = some entry) :
    p.flags.locate h = .ok h.index.toNat := by
  rw [locate_flags, locate_eq, hf]

/-- A call about the text of one slot. -/
theorem mirrors_edit {y : Act Error TextPool Nat} (hkeeps : KeepsFlags y)
    (hx : c.onFlags = Act.read fun f => (f.locate h).map fun _ => none) (hy : c.act = .length <$> y)
    (hmissing : p.catalog.find h = none → y p = ⟨.error (.notAllocated h.index), p, []⟩)
    (hfound : ∀ entry, p.catalog.find h = some entry → ∃ n p', y p = ⟨.ok n, p', []⟩) :
    Mirrors p c := by
  refine mirrors_text hkeeps hy ?_
  rw [hx, Act.read_apply]
  cases hf : p.catalog.find h with
  | none =>
    rw [locate_flags_of_none hf]
    exact .inl ⟨_, rfl, hmissing hf⟩
  | some entry =>
    rw [locate_flags_of_some hf]
    obtain ⟨n, p', hdone⟩ := hfound entry hf
    exact .inr ⟨n, p', rfl, hdone⟩

namespace Tidy

variable (hp : p.Tidy)

include hp

theorem mirrors_assign (h : TextHandle) (t : String) : Mirrors p (.assign h t) := by
  refine mirrors_edit (keepsFlags_assign h t) rfl rfl (assign_missing · t) fun entry hf => ?_
  obtain ⟨p', hassign, -⟩ := assign_found hp hf t
  exact ⟨_, p', hassign⟩

theorem mirrors_append (h : TextHandle) (t : String) : Mirrors p (.append h t) := by
  refine mirrors_edit (keepsFlags_append h t) rfl rfl (append_missing · t) fun entry hf => ?_
  obtain ⟨p', happend, -⟩ := append_found hp hf t
  exact ⟨_, p', happend⟩

theorem mirrors_copy (target source : TextHandle) : Mirrors p (.copy target source) := by
  refine mirrors_text (keepsFlags_copy target source) rfl ?_
  have hflags : (Call.copy target source).onFlags p.flags =
      ⟨p.flags.locate target >>= fun _ => p.flags.locate source >>= fun _ => pure none, p.flags, []⟩ :=
    rfl
  rw [hflags]
  cases hf : p.catalog.find target with
  | none =>
    rw [locate_flags_of_none hf]
    exact .inl ⟨_, rfl, copy_missing_target hf source⟩
  | some entry =>
    rw [locate_flags_of_some hf]
    cases hf' : p.catalog.find source with
    | none =>
      rw [locate_flags_of_none hf']
      exact .inl ⟨_, rfl, copy_missing_source hf hf'⟩
    | some entry' =>
      rw [locate_flags_of_some hf']
      obtain ⟨p', hcopy, -⟩ := copy_found hp hf hf'
      exact .inr ⟨_, p', rfl, hcopy⟩

/-- **Every call does with the flags what it does with the states.** -/
theorem mirrors (c : Call) : Mirrors p c := by
  cases c with
  | allocate => exact mirrored_allocate.mirrors rfl rfl p
  | free h => exact (mirrored_free h).mirrors rfl rfl p
  | own h => exact (mirrored_own h).mirrors rfl rfl p
  | disown h => exact (mirrored_disown h).mirrors rfl rfl p
  | reclaim h => exact (mirrored_reclaim h).mirrors rfl rfl p
  | assign h t => exact hp.mirrors_assign h t
  | append h t => exact hp.mirrors_append h t
  | copy target source => exact hp.mirrors_copy target source

end Tidy

/-! ### Runs of calls -/

theorem flags_fresh (id : UInt16) (slots maxLen : Nat) :
    (TextPool.fresh id slots maxLen).flags = Flags.fresh id slots := by
  simp [flags, TextPool.fresh, Flags.fresh]

theorem flags_run (hp : p.Tidy) (calls : List Call) : (run p calls).flags = p.flags.run calls := by
  induction calls generalizing p with
  | nil => rfl
  | cons c calls ih =>
    have hc : (c.onFlags p.flags).state = (c.act p).state.flags := by rw [hp.mirrors c]
    change (run (c.act p).state calls).flags = (c.onFlags p.flags).state.run calls
    rw [ih (hp.comesTo c).tidy, hc]

/-- **The flags of a pool tell what its states tell.** No slot is owned without being in use, a slot that
is handed out has no owner, and every call goes on in the same way. -/
structure Flagged (p : TextPool) (f : Flags) : Prop where
  flags : p.flags = f
  used_of_claimed : ∀ i : Nat, f.claimed[i]? = some true → f.used[i]? = some true
  locate : ∀ h, f.locate h = p.locate h
  isOwned : ∀ h, f.isOwned h = p.isOwned h
  owned : f.claimed.count true = p.owned
  capacity : f.used.size = p.capacity ∧ f.claimed.size = p.capacity
  handed : ∀ h, (Flags.allocate f).result = .ok h →
    (Flags.allocate f).state.claimed[h.index.toNat]? = some false
  mirrors : ∀ c : Call, c.onFlags f =
    ⟨(c.act p).result.map Answer.known, (c.act p).state.flags, (c.act p).events⟩

theorem Tidy.flagged (hp : p.Tidy) : p.Flagged p.flags where
  flags := rfl
  used_of_claimed i hi := used_eq_true_iff.2 ⟨_, claimed_eq_true_iff.1 hi, by decide⟩
  locate := locate_flags p
  isOwned := isOwned_flags p
  owned := by
    rw [TextPool.owned, TextPool.flags, Array.count, Array.countP_map, Array.count]
    refine Array.countP_congr fun state _ => ?_
    simp
  capacity := ⟨size_flags p, by simp [TextPool.flags, TextPool.capacity]⟩
  handed h hh := by
    unfold Flags.allocate at hh ⊢
    rw [findIdx?_flags] at hh ⊢
    cases hf : p.slots.findIdx? (· = .free) with
    | none =>
      rw [hf] at hh
      cases hh
    | some i =>
      rw [hf] at hh
      obtain rfl := Except.ok.inj hh
      have hfree := free_of_findIdx? hf
      have hlt : i < p.capacity := (Array.getElem?_eq_some_iff.1 hfree).1
      have hclaimed : p.flags.claimed[i]? = some false := by simp [TextPool.flags, hfree]
      simp only [hp.toNat_ofNat hlt]
      exact hclaimed
  mirrors := hp.mirrors

/-- **Two flags for each slot do what its state does**, over every run of calls with any handles and any
texts. -/
theorem flags_refined (id : UInt16) {slots : Nat} (hslots : slots < 65535) (maxLen : Nat)
    (calls : List Call) :
    Flagged (run (.fresh id slots maxLen) calls) ((Flags.fresh id slots).run calls) := by
  have hfresh : (TextPool.fresh id slots maxLen).Tidy := tidy_fresh id hslots
  rw [← flags_fresh id slots maxLen, ← flags_run hfresh]
  exact (tidy_run hfresh calls).flagged

/-- Pools change by calls only. -/
theorem lasting_called : Lasting fun p =>
    ∃ id slots maxLen calls, slots < 65535 ∧ p = run (.fresh id slots maxLen) calls where
  fresh id slots maxLen _ _ hslots := ⟨id, slots, maxLen, [], hslots, rfl⟩
  call c p := by
    rintro ⟨id, slots, maxLen, calls, hslots, rfl⟩
    refine ⟨id, slots, maxLen, calls ++ [c], hslots, ?_⟩
    simp only [run, List.foldl_append, List.foldl_cons, List.foldl_nil]

end TextPool

end FixedArena
