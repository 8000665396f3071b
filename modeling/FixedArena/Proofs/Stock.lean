import FixedArena.Proofs.Trails
import Mathlib.Data.Finset.Card
import Mathlib.Order.Bounds.Basic

/-!
Stocks of numbered places, and the most of them that were ever in use at once. A place is handed out and
taken back by calls. If every call that takes more places into use than ever takes the first one that was
never in use, then the count of the most ever in use tells it all: which places were ever handed out, and
what was logged.

Main facts:
* `Stock`: what is called, what is logged, and what is counted;
* `Stock.Tallies`: what one call may do;
* `Stock.Exact`, `Stock.Tallies.exact`: what becomes of the counts, the places and the log in any run of
  calls;
* `Stock.Follows`: one state comes from another by calls, with the marks of a log.
-/

namespace FixedArena

/-- **A stock of numbered places.** -/
structure Stock (τ κ : Type) where
  /-- What a call does. It answers with the number of the place that it handed out, if it did. -/
  act : κ → Act Error τ (Option Nat)
  /-- The number of places that an event tells of, if it tells that so many were never in use before. -/
  mark? : Event → Option Nat
  live : τ → Nat
  peak : τ → Nat
  capacity : τ → Nat
  /-- The place is as it was when the stock was new. -/
  Untouched : τ → Nat → Prop

namespace Stock

variable {τ κ : Type} (S : Stock τ κ) {Inv : τ → Prop} {s t u : τ} {c : κ} {calls calls' : List κ}
  {l l' : List Event} {n : Nat}

/-! ### Runs of calls -/

/-- The counts that a log tells of, one after another. -/
def marks (l : List Event) : List Nat := l.filterMap S.mark?

/-- The state after calls, the first one first. -/
def after : List κ → τ → τ
  | [], s => s
  | c :: calls, s => after calls (S.act c s).state

/-- What the calls log. -/
def logged : List κ → τ → List Event
  | [], _ => []
  | c :: calls, s => (S.act c s).events ++ logged calls (S.act c s).state

/-- The states on the way, from the first to the last. -/
def moments : List κ → τ → List τ
  | [], s => [s]
  | c :: calls, s => s :: moments calls (S.act c s).state

/-- The place that a call hands out, if it does. -/
def given (c : κ) (s : τ) : Option Nat :=
  match (S.act c s).result with
  | .ok n? => n?
  | .error _ => none

/-- The places that the calls hand out, one after another. -/
def handed : List κ → τ → List Nat
  | [], _ => []
  | c :: calls, s => (S.given c s).toList ++ handed calls (S.act c s).state

theorem marks_append (l l' : List Event) : S.marks (l ++ l') = S.marks l ++ S.marks l' :=
  List.filterMap_append

theorem after_append (calls calls' : List κ) (s : τ) :
    S.after (calls ++ calls') s = S.after calls' (S.after calls s) := by
  induction calls generalizing s with
  | nil => rfl
  | cons c calls ih => exact ih _

theorem logged_append (calls calls' : List κ) (s : τ) :
    S.logged (calls ++ calls') s = S.logged calls s ++ S.logged calls' (S.after calls s) := by
  induction calls generalizing s with
  | nil => rfl
  | cons c calls ih => rw [List.cons_append, logged, ih, logged, after, List.append_assoc]

/-- **One state comes from another by calls** that log the marks of a log. -/
def Follows (s : τ) (l : List Event) (t : τ) : Prop :=
  ∃ calls, S.after calls s = t ∧ S.marks (S.logged calls s) = S.marks l

instance : IsTrail S.Follows where
  nil s := ⟨[], rfl, rfl⟩
  append h h' := by
    obtain ⟨calls, rfl, hl⟩ := h
    obtain ⟨calls', rfl, hl'⟩ := h'
    refine ⟨calls ++ calls', S.after_append calls calls' _, ?_⟩
    rw [logged_append, marks_append, hl, hl', marks_append]

variable {S}

/-- What logs no mark and changes nothing makes no call. -/
theorem follows_silent (hl : S.marks l = []) : S.Follows s l s := ⟨[], rfl, hl.symm⟩

theorem follows_act (c : κ) (s : τ) : S.Follows s (S.act c s).events (S.act c s).state :=
  ⟨[c], rfl, by rw [logged, logged, List.append_nil]⟩

/-- What an operation does is a call, if the call does the same, whatever either answers. -/
theorem along_act {α : Type} {x : Act Error τ α} {f : α → Option Nat} (h : S.act c = f <$> x) :
    Act.Along S.Follows x := by
  intro s
  have hcall := S.follows_act c s
  rwa [h, Act.map_apply] at hcall

/-! ### Counts -/

/-- **What a call may do**: it marks nothing and hands out no place but one that was in use before; or it
takes one place more into use than ever, the first that was never in use, and marks it. -/
inductive Step (S : Stock τ κ) (s : τ) (out : Outcome Error τ (Option Nat)) : Prop where
  | level (marks : S.marks out.events = []) (peak : S.peak out.state = S.peak s)
      (given : ∀ n, out.result = .ok (some n) → n < S.peak s)
  | rise (marks : S.marks out.events = [S.peak s + 1]) (peak : S.peak out.state = S.peak s + 1)
      (live : S.live out.state = S.peak s + 1) (given : out.result = .ok (some (S.peak s)))

/-- What hands a place out is such a call, if the place was in use before, or else all that ever were are
in use and it is the first that never was. -/
theorem step_of_next {out : Outcome Error τ (Option Nat)} (hresult : out.result = .ok (some n))
    (hmarks : S.marks out.events = if S.peak s < S.live s + 1 then [S.live s + 1] else [])
    (hpeak : S.peak out.state = max (S.peak s) (S.live s + 1))
    (hlive : S.live out.state = S.live s + 1)
    (hn : n < S.peak s ∧ S.live s + 1 ≤ S.peak s ∨ n = S.peak s ∧ S.live s = S.peak s) :
    S.Step s out := by
  rcases hn with ⟨hn, hle⟩ | ⟨rfl, heq⟩
  · rw [if_neg (Nat.not_lt.2 hle)] at hmarks
    rw [Nat.max_eq_left hle] at hpeak
    refine .level hmarks hpeak fun n' hn' => ?_
    obtain rfl := Option.some.inj (Except.ok.inj (hresult.symm.trans hn'))
    exact hn
  · rw [heq] at hmarks hpeak hlive
    rw [if_pos (Nat.lt_succ_self _)] at hmarks
    rw [Nat.max_eq_right (Nat.le_succ _)] at hpeak
    exact .rise hmarks hpeak hlive hresult

/-- **The counts tally** in all states that an invariant holds in, and every call keeps it. -/
structure Tallies (S : Stock τ κ) (Inv : τ → Prop) : Prop where
  live_le : ∀ {s}, Inv s → S.live s ≤ S.peak s
  peak_le : ∀ {s}, Inv s → S.peak s ≤ S.capacity s
  untouched : ∀ {s}, Inv s → ∀ n, S.peak s ≤ n → n < S.capacity s → S.Untouched s n
  act : ∀ {s}, Inv s → ∀ c, Inv (S.act c s).state
  step : ∀ {s}, Inv s → ∀ c, S.Step s (S.act c s)

/-- **The count of the most ever in use is exact**, from the first state to the last: it lies between the
places in use and all places, it is the greatest number in use on the way, it is the number of places that
were ever handed out, and they are the first ones; all others are untouched; and it was marked at every
rise. -/
structure Exact (S : Stock τ κ) (first : τ) (calls : List κ) (last : τ) (marks : List Nat) : Prop where
  live_le : S.live last ≤ S.peak last
  peak_le : S.peak last ≤ S.capacity last
  greatest : IsGreatest {n | ∃ s ∈ S.moments calls first, S.live s = n} (S.peak last)
  handed : ∀ n, n ∈ S.handed calls first ↔ n < S.peak last
  distinct : (S.handed calls first).dedup.length = S.peak last
  untouched : ∀ n, S.peak last ≤ n → n < S.capacity last → S.Untouched last n
  marks : marks = List.range' 1 (S.peak last)

/-- From one state to another, the count went up by what was marked, place by place. -/
structure Climbs (S : Stock τ κ) (s : τ) (calls : List κ) (t : τ) : Prop where
  peak_le : S.peak s ≤ S.peak t
  marks : S.marks (S.logged calls s) = List.range' (S.peak s + 1) (S.peak t - S.peak s)
  handed_lt : ∀ n ∈ S.handed calls s, n < S.peak t
  mem_handed : ∀ n, S.peak s ≤ n → n < S.peak t → n ∈ S.handed calls s
  live_le : ∀ u ∈ S.moments calls s, S.live u ≤ S.peak t
  reached : S.peak t = S.peak s ∨ ∃ u ∈ S.moments calls s, S.live u = S.peak t

theorem first_mem_moments (calls : List κ) (s : τ) : s ∈ S.moments calls s := by
  cases calls with
  | nil => exact List.mem_singleton_self s
  | cons c calls => exact List.mem_cons_self

theorem given_eq_some (h : S.given c s = some n) : (S.act c s).result = .ok (some n) := by
  unfold given at h
  split at h
  · next n? hr => rw [hr, h]
  · cases h

namespace Tallies

variable (hS : S.Tallies Inv)

include hS

theorem after (hs : Inv s) (calls : List κ) : Inv (S.after calls s) := by
  induction calls generalizing s with
  | nil => exact hs
  | cons c calls ih => exact ih (hS.act hs c)

/-- A call that marks nothing, before others. -/
theorem climbs_level (hs : Inv s) (hpeak : S.peak (S.act c s).state = S.peak s)
    (hmarks : S.marks (S.act c s).events = [])
    (hgiven : ∀ n, (S.act c s).result = .ok (some n) → n < S.peak s)
    (h : S.Climbs (S.act c s).state calls t) : S.Climbs s (c :: calls) t := by
  have hle : S.peak s ≤ S.peak t := hpeak ▸ h.peak_le
  refine ⟨hle, ?_, fun n hn => ?_, fun n hn hlt => ?_, fun u hu => ?_, ?_⟩
  · rw [logged, marks_append, hmarks, List.nil_append, h.marks, hpeak]
  · rcases List.mem_append.1 hn with hn | hn
    · exact Nat.lt_of_lt_of_le (hgiven n (given_eq_some (Option.mem_toList.1 hn))) hle
    · exact h.handed_lt n hn
  · exact List.mem_append_right _ (h.mem_handed n (hpeak ▸ hn) hlt)
  · rcases List.mem_cons.1 hu with rfl | hu
    · exact Nat.le_trans (hS.live_le hs) hle
    · exact h.live_le u hu
  · rcases h.reached with hsame | ⟨u, hu, hlive⟩
    · exact .inl (hsame.trans hpeak)
    · exact .inr ⟨u, List.mem_cons_of_mem s hu, hlive⟩

/-- A call that takes one place more into use than ever, before others. -/
theorem climbs_rise (hs : Inv s) (hpeak : S.peak (S.act c s).state = S.peak s + 1)
    (hmarks : S.marks (S.act c s).events = [S.peak s + 1])
    (hlive : S.live (S.act c s).state = S.peak s + 1)
    (hgiven : (S.act c s).result = .ok (some (S.peak s)))
    (h : S.Climbs (S.act c s).state calls t) : S.Climbs s (c :: calls) t := by
  have hlt : S.peak s + 1 ≤ S.peak t := hpeak ▸ h.peak_le
  have hfirst : S.handed (c :: calls) s = S.peak s :: S.handed calls (S.act c s).state := by
    simp [Stock.handed, Stock.given, hgiven]
  refine ⟨Nat.le_of_succ_le hlt, ?_, ?_, fun n hn hnt => ?_, fun u hu => ?_, ?_⟩
  · have hsplit : S.peak t - S.peak s = S.peak t - (S.peak s + 1) + 1 := by omega
    rw [logged, marks_append, hmarks, h.marks, hpeak, hsplit, List.range'_succ]
    rfl
  · rw [hfirst]
    exact List.forall_mem_cons.2 ⟨hlt, h.handed_lt⟩
  · rw [hfirst]
    rcases Nat.eq_or_lt_of_le hn with rfl | hn
    · exact List.mem_cons_self
    · exact List.mem_cons_of_mem _ (h.mem_handed n (hpeak ▸ hn) hnt)
  · rcases List.mem_cons.1 hu with rfl | hu
    · exact Nat.le_trans (hS.live_le hs) (Nat.le_of_succ_le hlt)
    · exact h.live_le u hu
  · right
    rcases h.reached with hsame | ⟨u, hu, hu'⟩
    · exact ⟨_, List.mem_cons_of_mem s (first_mem_moments calls _), hlive.trans (by omega)⟩
    · exact ⟨u, List.mem_cons_of_mem s hu, hu'⟩

/-- **Every run of calls climbs** place by place. -/
theorem climbs (hs : Inv s) (calls : List κ) : S.Climbs s calls (S.after calls s) := by
  induction calls generalizing s with
  | nil =>
    refine ⟨Nat.le_refl _, ?_, nofun, fun n hn hlt => absurd hn (Nat.not_le.2 hlt), ?_, .inl rfl⟩
    · rw [Stock.after, Nat.sub_self]
      rfl
    · rintro u hu
      obtain rfl := List.mem_singleton.1 hu
      exact hS.live_le hs
  | cons c calls ih =>
    have hrest := ih (hS.act hs c)
    rcases hS.step hs c with ⟨hmarks, hpeak, hgiven⟩ | ⟨hmarks, hpeak, hlive, hgiven⟩
    · exact hS.climbs_level hs hpeak hmarks hgiven hrest
    · exact hS.climbs_rise hs hpeak hmarks hlive hgiven hrest

/-- **From a new stock on, the count of the most ever in use is exact.** -/
theorem exact (hs : Inv s) (hnew : S.peak s = 0) (calls : List κ) :
    S.Exact s calls (S.after calls s) (S.marks (S.logged calls s)) := by
  have hafter := hS.after hs calls
  have hclimbs := hS.climbs hs calls
  have hhanded : ∀ n, n ∈ S.handed calls s ↔ n < S.peak (S.after calls s) := fun n =>
    ⟨hclimbs.handed_lt n, hclimbs.mem_handed n (hnew ▸ Nat.zero_le n)⟩
  have hset : (S.handed calls s).toFinset = Finset.range (S.peak (S.after calls s)) :=
    Finset.ext fun n => List.mem_toFinset.trans ((hhanded n).trans Finset.mem_range.symm)
  refine ⟨hS.live_le hafter, hS.peak_le hafter, ⟨?_, ?_⟩, hhanded, ?_, hS.untouched hafter, ?_⟩
  · rcases hclimbs.reached with hsame | hreached
    · have hzero : S.live s = 0 := Nat.le_zero.1 (hnew ▸ hS.live_le hs)
      exact ⟨s, first_mem_moments calls s, hzero.trans (hsame.trans hnew).symm⟩
    · exact hreached
  · rintro n ⟨u, hu, rfl⟩
    exact hclimbs.live_le u hu
  · rw [← List.card_toFinset, hset, Finset.card_range]
  · rw [hclimbs.marks, hnew, Nat.sub_zero]

end Tallies

end Stock

end FixedArena
