import FixedArena.Proofs.Ring.Walk
import FixedArena.Proofs.Smooth

/-!
Rings on an arena that nobody holds are smooth: a ring that holds a list finds every node that it looks
for, and every value.

Main facts:
* `smooth_push`, `smooth_pop`, `smooth_clear`, `smooth_drop`: operations of a ring that holds a list;
* `smooth_scan`: a script logs nothing and refuses nothing but a fault.
-/

namespace FixedArena

open Outcome (Smooth)

theorem BlockArena.isAlarm_peakLog (a : BlockArena) : ∀ e ∈ a.peakLog, e.isAlarm = false := by
  unfold peakLog
  split
  · intro e he
    obtain rfl := List.mem_singleton.1 he
    rfl
  · exact Act.notAlarm_nil

namespace Ring

variable {α : Type} [Element α] {s : Site α} {ns : List UInt32} {vs : List α}
  {g : Guarded BlockArena} {side : Side}

open Act

/-- No block is free. -/
theorem smooth_full {β σ : Type} {t : σ} (capacity : Nat) : Smooth Error.Inner
    (⟨.error (.full BlockArena.kind capacity), t, [.blocksExhausted capacity]⟩ :
      Outcome Error σ β) := by
  refine smooth_error_log (fun e he => ?_) id
  obtain rfl := List.mem_singleton.1 he
  rfl

section Held

variable (h : s.Holds ns vs) (hf : s.nodes.hold = .free)

include h hf

theorem smooth_push (hs : s.nodes.value.Sound) (v : α) : (push side v s).Smooth Error.Inner := by
  match hn : s.nodes.value.freeList.next? with
  | none =>
    rw [push_full h hf hn]
    exact smooth_full _
  | some (i, rest) =>
    rw [push_eq h hf hs hn]
    exact smooth_ok_log s.nodes.value.isAlarm_peakLog

theorem smooth_pop : (pop side s).Smooth Error.Inner := by
  by_cases h0 : vs = []
  · have hlen : s.ring.len = 0 := by
      rw [h.len_eq, h0]
      rfl
    rw [pop_empty side hlen]
    exact smooth_ok _ _
  · obtain ⟨i, ns', v, vs', rfl, rfl⟩ := h.exists_entry side h0
    rw [pop_eq h hf]
    exact smooth_ok _ _

theorem smooth_peek : (peek side s).Smooth Error.Inner := by
  by_cases h0 : vs = []
  · have hlen : s.ring.len = 0 := by
      rw [h.len_eq, h0]
      rfl
    rw [peek_empty side hlen]
    exact smooth_error id _
  · obtain ⟨i, ns', v, vs', rfl, rfl⟩ := h.exists_entry side h0
    rw [peek_ok h (by rw [hf]; rfl)]
    exact smooth_ok _ _

theorem smooth_get (index : Nat) : (get index s).Smooth Error.Inner := by
  rw [get_ok h (by rw [hf]; rfl)]
  split
  · exact smooth_ok _ _
  · exact smooth_error id _

theorem smooth_set (index : Nat) (v : α) : (set index v s).Smooth Error.Inner := by
  by_cases hi : index < ns.length
  · rw [set_eq h hf hi]
    exact smooth_ok _ _
  · rw [set_outOfBounds h hf hi]
    exact smooth_error id _

theorem smooth_clear : (clear s).Smooth Error.Inner := by
  obtain ⟨t, hclear, -⟩ := clear_ok h hf
  rw [hclear]
  exact smooth_ok _ _

theorem smooth_drop : (drop s).Smooth Error.Inner := by
  obtain ⟨t, hdrop, -⟩ := drop_ok h hf
  rw [hdrop]
  exact smooth_ok _ _

theorem smooth_toList : (Act.read toList s).Smooth Error.Inner :=
  smooth_read fun e he => by
    rw [toList_ok h (by rw [hf]; rfl)] at he
    cases he

end Held

theorem smooth_create (hf : g.hold = .free) (hs : g.value.Sound) :
    ((create : Act Error (Guarded BlockArena) (Ring α)) g).Smooth Error.Inner := by
  by_cases hw : g.value.blockSize < nodeSize α
  · rw [create_narrow hf hw]
    exact smooth_error id _
  · match hn : g.value.freeList.next? with
    | none =>
      rw [create_full hf (Nat.le_of_not_lt hw) hn]
      exact smooth_full _
    | some (i, rest) =>
      obtain ⟨r, b, hcreate, -⟩ := create_ok (α := α) hf hs (Nat.le_of_not_lt hw) hn
      rw [hcreate]
      exact smooth_ok_log g.value.isAlarm_peakLog

/-! ### Scripts -/

/-- What is refused is a fault. -/
def OnlyFaults {β : Type} (r : Except Error β) : Prop := ∀ e, r = .error e → e.isFault = true

theorem onlyFaults_ok {β : Type} (b : β) : OnlyFaults (.ok b) := nofun

theorem onlyFaults_orNone {β : Type} (r : Except Error β) : OnlyFaults (Error.orNone r) :=
  fun e he => ((Error.orNone_eq_error_iff r e).1 he).2

theorem OnlyFaults.bind {β γ : Type} {r : Except Error β} {f : β → Except Error γ}
    (hr : OnlyFaults r) (hf : ∀ b, OnlyFaults (f b)) : OnlyFaults (r >>= f) := by
  cases r with
  | ok b => exact hf b
  | error e => exact fun e' he => hr e' (congrArg Except.error (Except.error.inj he))

omit [Element α] in
theorem onlyFaults_start (s : Site α) : OnlyFaults (start s) :=
  (onlyFaults_orNone _).bind fun _ => onlyFaults_ok _

namespace Cursor

theorem onlyFaults_next (c : Cursor α) (g : Guarded BlockArena) : OnlyFaults (c.next g) := by
  unfold next
  split
  · exact onlyFaults_ok _
  split
  · exact onlyFaults_ok _
  · refine (onlyFaults_orNone _).bind fun v? => ?_
    cases v? with
    | none => exact onlyFaults_ok _
    | some v => exact (onlyFaults_orNone _).bind fun _ => onlyFaults_ok _

theorem onlyFaults_collect (n : Nat) (c : Cursor α) : OnlyFaults (collect g n c) := by
  induction n generalizing c with
  | zero => exact onlyFaults_ok _
  | succ n ih =>
    refine (c.onlyFaults_next g).bind fun p => ?_
    obtain ⟨v?, c'⟩ := p
    cases v? with
    | none => exact onlyFaults_ok _
    | some v => exact (ih c').bind fun _ => onlyFaults_ok _

end Cursor

theorem smooth_of_onlyFaults {σ β : Type} {f : σ → Except Error β} {t : σ}
    (h : OnlyFaults (f t)) : (Act.read f t).Smooth Error.Inner :=
  smooth_read fun e he => Error.not_inner_of_isFault (h e he)

theorem smooth_scanStep (step : ScanStep) (w : Walk α) :
    (scanStep step w).Smooth Error.Inner := by
  cases step with
  | next =>
    have hnext := smooth_of_onlyFaults (f := fun w : Walk α => w.cursor.next w.nodes) (t := w)
      (w.cursor.onlyFaults_next w.nodes)
    refine hnext.bind fun p _ => ?_
    obtain ⟨v, cursor⟩ := p
    exact smooth_ok _ _
  | rest =>
    have hrest := smooth_of_onlyFaults (f := fun w : Walk α => w.cursor.rest w.nodes) (t := w)
      (Cursor.onlyFaults_collect w.cursor.remaining w.cursor)
    refine hrest.bind fun p _ => ?_
    obtain ⟨vs, cursor⟩ := p
    exact smooth_ok _ _
  | hold mode =>
    rw [scanStep, Act.get_bind]
    cases w.nodes.take? mode with
    | some nodes => exact smooth_ok _ _
    | none => exact smooth_ok _ _
  | hint => exact smooth_ok _ _
  | describe => exact smooth_ok _ _
  | release => exact smooth_ok _ _

/-- **A script logs nothing, and is refused by a fault alone**, whatever holds it takes. -/
theorem smooth_scan (steps : List ScanStep) (s : Site α) : (scan steps s).Smooth Error.Inner := by
  have hsteps : ∀ w : Walk α, (steps.mapM scanStep w).Smooth Error.Inner := by
    induction steps with
    | nil => exact fun w => smooth_ok [] w
    | cons step steps ih =>
      intro w
      rw [List.mapM_cons]
      exact (smooth_scanStep step w).bind fun _ _ => (ih _).bind fun _ _ => smooth_ok _ _
  unfold scan
  exact (smooth_of_onlyFaults (onlyFaults_start s)).bind fun c _ => (hsteps _).zoom

end Ring

end FixedArena
