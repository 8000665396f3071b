import FixedArena.Proofs.Store.Run
import FixedArena.Proofs.Store.Trails
import Mathlib.Logic.Equiv.Basic

/-!
The most blocks and the most slots that were ever in use at once, in every run. Whatever callers do, with
handles of any origin, held arenas and arenas that change places, every arena and every pool comes from
a new one by calls; so its count is exact, and what was logged tells it place by place.

Main facts:
* `Shelf`: the stocks of one kind that a store has;
* `Shelf.History`: the calls that an arena or a pool saw since it was reserved, command by command;
* `Run.peaks_exact`: in every run, every arena and every pool has a history, and counts it exactly.
-/

namespace FixedArena

open Act

variable {τ κ : Type}

/-! ### Where stocks come from -/

namespace Store

variable {α : Type} {i j k : Nat}

/-- Where the value was that stands at a place after an exchange. -/
def swapOrigin (xs : Array (Guarded α)) (i j k : Nat) : Nat :=
  match swapValues xs i j with
  | .ok _ => Equiv.swap i j k
  | .error _ => k

theorem values_swap {xs ys : Array (Guarded α)} (h : swapValues xs i j = .ok ys) (k : Nat) :
    ys[k]?.map Guarded.value = xs[Equiv.swap i j k]?.map Guarded.value := by
  unfold swapValues at h
  split at h
  · next a b ha hb =>
    split at h
    · next hfree =>
      obtain rfl := Except.ok.inj h
      obtain ⟨hi, -⟩ := Array.getElem?_eq_some_iff.1 ha
      obtain ⟨hj, -⟩ := Array.getElem?_eq_some_iff.1 hb
      by_cases hkj : k = j
      · subst hkj
        rw [Equiv.swap_apply_right, Array.getElem?_setIfInBounds_self_of_lt (by simpa using hj), ha]
        rfl
      · rw [Array.getElem?_setIfInBounds_ne (Ne.symm hkj)]
        by_cases hki : k = i
        · subst hki
          rw [Equiv.swap_apply_left, Array.getElem?_setIfInBounds_self_of_lt hi, hb]
          rfl
        · rw [Equiv.swap_apply_of_ne_of_ne hki hkj, Array.getElem?_setIfInBounds_ne (Ne.symm hki)]
    · cases h
  · cases h

end Store

/-- Where the arena was that a command leaves at a place. -/
def Command.arenaOrigin (s : Store) : Command → Nat → Nat
  | .swapArenas i j, k => Store.swapOrigin s.arenas i j k
  | _, k => k

/-- Where the pool was that a command leaves at a place. -/
def Command.poolOrigin (s : Store) : Command → Nat → Nat
  | .swapPools i j, k => Store.swapOrigin s.pools i j k
  | _, k => k

/-! ### Histories -/

/-- **The stocks of one kind that a store has**, and which of them a command calls. -/
structure Shelf (τ κ : Type) where
  stock : Stock τ κ
  part : Store → Nat → Option τ
  called? : Store → Command → Option Nat
  origin : Store → Command → Nat → Nat

namespace Shelf

open Run (store)

variable (H : Shelf τ κ) {Inv : τ → Prop} {run past : Run} {c : Command} {k : Nat} {a first : τ}
  {calls : List κ}

/-- The counts that a command logs for the stock that it leaves at a place. -/
def marked (c : Command) (past : Run) (k : Nat) : List Nat :=
  if H.called? (store past) c = some (H.origin (store past) c k) then
    H.stock.marks (Store.step c (store past)).events
  else []

/-- The counts that were logged for the stock at a place, wherever it was at the time. -/
def marks : Run → Nat → List Nat
  | [], _ => []
  | c :: past, k => marks past (H.origin (store past) c k) ++ H.marked c past k

/-- **A history of the stock at a place**: what it was when it was reserved, and the calls since, command
by command. Calls lead to what is there; those of one command log the counts that the command logged, and
a command that calls another stock, or none, makes no calls. -/
def History : Run → Nat → τ → List κ → Prop
  | [], _, _, _ => False
  | c :: past, k, first, calls =>
    H.part (store past) (H.origin (store past) c k) = none ∧
        H.part (store (c :: past)) k = some first ∧ calls = [] ∨
      ∃ before more, calls = before ++ more ∧ History past (H.origin (store past) c k) first before ∧
        H.part (store (c :: past)) k = some (H.stock.after calls first) ∧
        H.stock.marks (H.stock.logged more (H.stock.after before first)) = H.marked c past k ∧
        (H.called? (store past) c ≠ some (H.origin (store past) c k) → more = [])

/-- **What a command does to the stocks of a store**: it calls the one that it names, and reserves new
ones. No mark is logged but by the one that is called. -/
structure Turn (Inv : τ → Prop) (s : Store) (c : Command) : Prop where
  called : ∀ k a, H.called? s c = some (H.origin s c k) → H.part s (H.origin s c k) = some a →
    ∃ b, H.part (Store.step c s).state k = some b ∧ H.stock.Follows a (Store.step c s).events b
  others : ∀ k a, H.called? s c ≠ some (H.origin s c k) → H.part s (H.origin s c k) = some a →
    H.part (Store.step c s).state k = some a
  born : ∀ k b, H.part s (H.origin s c k) = none → H.part (Store.step c s).state k = some b →
    Inv b ∧ H.stock.peak b = 0
  absent : ∀ k, H.part s (H.origin s c k) = none → H.called? s c = some (H.origin s c k) →
    H.stock.marks (Store.step c s).events = []
  silent : H.called? s c = none → H.stock.marks (Store.step c s).events = []

variable {H} {s : Store}

theorem Turn.of_asked (ho : ∀ k, H.origin s c k = k)
    (h : Store.Asked H.stock H.part (H.called? s c) s (Store.step c s).events (Store.step c s).state) :
    H.Turn Inv s c where
  called k a hk ha := by
    rw [ho] at hk ha
    exact h.called k a hk ha
  others k a hk ha := by
    rw [ho] at hk ha
    exact (h.others k hk).trans ha
  born k b hk hb := by
    rw [ho] at hk
    by_cases hcalled : H.called? s c = some k
    · rw [(h.absent k hcalled hk).1] at hb
      cases hb
    · rw [h.others k hcalled, hk] at hb
      cases hb
  absent k hk hcalled := by
    rw [ho] at hk hcalled
    exact (h.absent k hcalled hk).2
  silent := h.silent

/-- A command that calls nothing. -/
theorem Turn.of_uncalled (hc : H.called? s c = none)
    (hl : H.stock.marks (Store.step c s).events = [])
    (hkept : ∀ k a, H.part s (H.origin s c k) = some a → H.part (Store.step c s).state k = some a)
    (hborn : ∀ k b, H.part s (H.origin s c k) = none → H.part (Store.step c s).state k = some b →
      Inv b ∧ H.stock.peak b = 0) : H.Turn Inv s c where
  called k a hk := by
    rw [hc] at hk
    cases hk
  others k a _ ha := hkept k a ha
  born := hborn
  absent _ _ _ := hl
  silent _ := hl

/-- A command that calls nothing, and reserves nothing. -/
theorem Turn.of_same (hc : H.called? s c = none) (hl : H.stock.marks (Store.step c s).events = [])
    (hsame : ∀ k, H.part (Store.step c s).state k = H.part s (H.origin s c k)) : H.Turn Inv s c := by
  refine .of_uncalled hc hl (fun k a ha => (hsame k).trans ha) fun k b hk hb => ?_
  rw [hsame k, hk] at hb
  cases hb

/-- A command that reserves a stock behind all others. -/
theorem Turn.of_push {n : Nat} (hc : H.called? s c = none)
    (hl : H.stock.marks (Store.step c s).events = []) (ho : ∀ k, H.origin s c k = k)
    (hn : H.part s n = none) (ha : Inv a) (hpeak : H.stock.peak a = 0)
    (hpush : ∀ k, H.part (Store.step c s).state k = if k = n then some a else H.part s k) :
    H.Turn Inv s c := by
  refine .of_uncalled hc hl (fun k a' ha' => ?_) fun k b hk hb => ?_
  · rw [ho] at ha'
    have hne : k ≠ n := by
      rintro rfl
      rw [hn] at ha'
      cases ha'
    rw [hpush, if_neg hne]
    exact ha'
  · rw [ho] at hk
    rw [hpush] at hb
    by_cases hkn : k = n
    · rw [if_pos hkn] at hb
      obtain rfl := Option.some.inj hb
      exact ⟨ha, hpeak⟩
    · rw [if_neg hkn, hk] at hb
      cases hb

variable (H)

/-- The counts of a kind of stocks tally, and every command serves them. -/
structure Served (Inv : τ → Prop) : Prop where
  tallies : H.stock.Tallies Inv
  empty : ∀ k, H.part {} k = none
  turn : ∀ s c, H.Turn Inv s c

namespace Served

variable {H} (hH : H.Served Inv)

include hH

/-- **What is there has a history.** -/
theorem exists_history (ha : H.part (store run) k = some a) :
    ∃ first calls, H.History run k first calls ∧ H.stock.after calls first = a := by
  induction run generalizing k a with
  | nil =>
    rw [store, hH.empty k] at ha
    cases ha
  | cons c past ih =>
    cases hbefore : H.part (store past) (H.origin (store past) c k) with
    | none => exact ⟨a, [], .inl ⟨hbefore, ha, rfl⟩, rfl⟩
    | some b =>
      obtain ⟨first, calls, hcalls, hb⟩ := ih hbefore
      by_cases hcalled : H.called? (store past) c = some (H.origin (store past) c k)
      · obtain ⟨a', ha', more, hmore, hlog⟩ := (hH.turn _ c).called k b hcalled hbefore
        obtain rfl := Option.some.inj (ha.symm.trans ha')
        have hafter : H.stock.after (calls ++ more) first = a := by
          rw [Stock.after_append, hb, hmore]
        refine ⟨first, calls ++ more, .inr ⟨calls, more, rfl, hcalls, ?_, ?_, ?_⟩, hafter⟩
        · rw [hafter]
          exact ha
        · rw [hb, hlog, marked, if_pos hcalled]
        · exact fun hne => absurd hcalled hne
      · obtain rfl := Option.some.inj (ha.symm.trans ((hH.turn _ c).others k b hcalled hbefore))
        refine ⟨first, calls, .inr ⟨calls, [], (List.append_nil _).symm, hcalls, ?_, ?_, ?_⟩, hb⟩
        · rw [hb]
          exact ha
        · rw [marked, if_neg hcalled]
          rfl
        · exact fun _ => rfl

/-- Where there was nothing, a command logs nothing. -/
theorem marked_of_absent (ha : H.part (store past) (H.origin (store past) c k) = none) :
    H.marked c past k = [] := by
  unfold marked
  split
  · next hcalled => exact (hH.turn _ c).absent k ha hcalled
  · rfl

/-- Where there is nothing, nothing was ever logged. -/
theorem marks_of_absent (ha : H.part (store run) k = none) : H.marks run k = [] := by
  induction run generalizing k with
  | nil => rfl
  | cons c past ih =>
    have hbefore : H.part (store past) (H.origin (store past) c k) = none := by
      by_contra hsome
      obtain ⟨b, hb⟩ := Option.ne_none_iff_exists'.1 hsome
      have hnow : H.part (store (c :: past)) k ≠ none := by
        by_cases hcalled : H.called? (store past) c = some (H.origin (store past) c k)
        · obtain ⟨a, ha', -⟩ := (hH.turn _ c).called k b hcalled hb
          exact fun he => nomatch ha'.symm.trans he
        · exact fun he => nomatch ((hH.turn _ c).others k b hcalled hb).symm.trans he
      exact hnow ha
    rw [marks, ih hbefore, hH.marked_of_absent hbefore, List.append_nil]

/-- What a history tells: where it starts, where it leads, and what was logged. -/
theorem of_history (h : H.History run k first calls) :
    Inv first ∧ H.stock.peak first = 0 ∧ H.part (store run) k = some (H.stock.after calls first) ∧
      H.marks run k = H.stock.marks (H.stock.logged calls first) := by
  induction run generalizing k calls with
  | nil => exact h.elim
  | cons c past ih =>
    obtain ⟨hnone, hfirst, rfl⟩ | ⟨before, more, rfl, hbefore, hnow, hlog, -⟩ := h
    · obtain ⟨hinv, hpeak⟩ := (hH.turn _ c).born k first hnone hfirst
      refine ⟨hinv, hpeak, hfirst, ?_⟩
      rw [marks, hH.marks_of_absent hnone, hH.marked_of_absent hnone]
      rfl
    · obtain ⟨hinv, hpeak, -, hmarks⟩ := ih hbefore
      refine ⟨hinv, hpeak, hnow, ?_⟩
      rw [marks, hmarks, ← hlog, Stock.logged_append, Stock.marks_append]

/-- **Every stock counts the most places that were ever in use at once exactly.** -/
theorem exact_of_history (ha : H.part (store run) k = some a) (h : H.History run k first calls) :
    H.stock.Exact first calls a (H.marks run k) := by
  obtain ⟨hinv, hpeak, hnow, hmarks⟩ := hH.of_history h
  obtain rfl := Option.some.inj (hnow.symm.trans ha)
  rw [hmarks]
  exact hH.tallies.exact hinv hpeak calls

end Served

end Shelf

/-! ### Arenas and pools -/

namespace Store

/-- The arenas of a store, and the calls that commands make to them. -/
def arenaShelf : Shelf BlockArena (BlockArena.Call Unit) where
  stock := BlockArena.stock
  part := arenaAt
  called? s c := c.arena? s
  origin s c k := c.arenaOrigin s k

/-- The pools of a store, and the calls that commands make to them. -/
def poolShelf : Shelf TextPool TextPool.Call where
  stock := TextPool.stock
  part := poolAt
  called? s c := c.pool? s
  origin s c k := c.poolOrigin s k

/-! #### Reserving and exchanging -/

section Reserving

variable {α : Type} (capacity blockSize slots maxLen : Nat) (sizing : Sizing) (s : Store)

/-- The operation logs no count. -/
abbrev Uncounted {ε σ α : Type} (x : Act ε σ α) : Prop := Along (fun _ l _ => TextPool.Unmarked l) x

theorem uncounted_modify {ε σ : Type} (f : σ → σ) : Uncounted (Act.modify f : Act ε σ Unit) :=
  fun _ => ⟨rfl, rfl⟩

theorem uncounted_addArena : Uncounted (addArena capacity blockSize) := by
  refine along_get.bind fun s => Along.bind ?_ fun a => (uncounted_modify _).bind fun _ => along_pure _
  refine Along.mapError ((along_read _).bind fun _ => (along_log fun _ => ⟨rfl, rfl⟩).bind fun _ => ?_) _
  split
  · exact along_fail _
  · exact along_pure _

theorem uncounted_addPool : Uncounted (addPool slots maxLen) := by
  refine along_get.bind fun s => Along.bind ?_ fun a => (uncounted_modify _).bind fun _ => along_pure _
  refine Along.mapError ((along_read _).bind fun _ => (along_log fun _ => ⟨rfl, rfl⟩).bind fun _ => ?_) _
  split
  · exact along_fail _
  · exact along_pure _

theorem uncounted_onFailure {x : StoreAct α} (hx : Uncounted x) (f : Store → Store) :
    Uncounted (Act.onFailure f x) := by
  intro s
  unfold Act.onFailure
  dsimp only
  split <;> exact hx s

theorem uncounted_addArenas : Uncounted (addArenas sizing) := by
  have hlog : ∀ e, TextPool.Unmarked [e] → Uncounted (Act.log e : StoreAct Unit) := fun _ h _ => h
  refine (hlog _ ⟨rfl, rfl⟩).bind fun _ => (uncounted_addArena _ _).bind fun nodes => ?_
  exact (uncounted_onFailure (uncounted_addPool _ _) _).bind fun pool => along_pure _

/-- What becomes of a store on which a pool is reserved. -/
theorem addPool_cases : (addPool slots maxLen s).state = s ∨
    TextPool.room slots maxLen = .ok () ∧ (addPool slots maxLen s).state = { s with
      pools := s.pools.push { value := .fresh s.nextPool slots maxLen }
      nextPool := nextPoolId s.nextPool } := by
  cases hroom : TextPool.room slots maxLen with
  | error e =>
    obtain ⟨log, hadd⟩ := addPool_error hroom s
    left
    rw [hadd]
  | ok u =>
    right
    rw [addPool_ok hroom]
    exact ⟨rfl, rfl⟩

end Reserving

section Turns

variable {s : Store} {c : Command} {capacity blockSize slots maxLen i j : Nat}

/-- No arena was touched. -/
theorem arenas_kept (hc : c.arena? s = none) (ho : ∀ k, c.arenaOrigin s k = k)
    (hl : TextPool.Unmarked (step c s).events) (h : (step c s).state.arenas = s.arenas) :
    arenaShelf.Turn BlockArena.Gauged s c := by
  refine .of_same hc hl.blocks fun k => ?_
  change (step c s).state.arenaAt k = s.arenaAt (c.arenaOrigin s k)
  rw [ho, arenaAt, h, arenaAt]

theorem arenas_pushed {id : UInt32} (hc : c.arena? s = none) (ho : ∀ k, c.arenaOrigin s k = k)
    (hl : TextPool.Unmarked (step c s).events) (hcapacity : capacity < indexLimit)
    (h : (step c s).state.arenas = s.arenas.push { value := .fresh id capacity blockSize }) :
    arenaShelf.Turn BlockArena.Gauged s c :=
  .of_push hc hl.blocks ho (by simp [arenaShelf, arenaAt] : arenaShelf.part s s.arenas.size = none)
    (BlockArena.gauged_fresh id blockSize hcapacity) rfl (arenaAt_of_push h)

/-- No pool was touched. -/
theorem pools_kept (hc : c.pool? s = none) (ho : ∀ k, c.poolOrigin s k = k)
    (hl : TextPool.Unmarked (step c s).events) (h : (step c s).state.pools = s.pools) :
    poolShelf.Turn TextPool.Gauged s c := by
  refine .of_same hc hl.slots fun k => ?_
  change (step c s).state.poolAt k = s.poolAt (c.poolOrigin s k)
  rw [ho, poolAt, h, poolAt]

theorem pools_pushed {id : UInt16} (hc : c.pool? s = none) (ho : ∀ k, c.poolOrigin s k = k)
    (hl : TextPool.Unmarked (step c s).events) (hslots : slots < 65535)
    (h : (step c s).state.pools = s.pools.push { value := .fresh id slots maxLen }) :
    poolShelf.Turn TextPool.Gauged s c :=
  .of_push hc hl.slots ho (by simp [poolShelf, poolAt] : poolShelf.part s s.pools.size = none)
    (TextPool.gauged_fresh id hslots) rfl (poolAt_of_push h)

/-- **What a command does to all arenas and all pools.** -/
structure Turns (s : Store) (c : Command) : Prop where
  arenas : arenaShelf.Turn BlockArena.Gauged s c
  pools : poolShelf.Turn TextPool.Gauged s c

theorem turns_reserveArena (capacity blockSize : Nat) (s : Store) :
    Turns s (.reserveArena capacity blockSize) := by
  have hl : TextPool.Unmarked (step (.reserveArena capacity blockSize) s).events :=
    (uncounted_addArena capacity blockSize).map _ s
  have hstate : (step (.reserveArena capacity blockSize) s).state =
      (addArena capacity blockSize s).state := by rw [step, map_apply]
  obtain h | ⟨hroom, h⟩ := addArena_cases capacity blockSize s
  · rw [h] at hstate
    exact ⟨arenas_kept rfl (fun _ => rfl) hl (by rw [hstate]),
      pools_kept rfl (fun _ => rfl) hl (by rw [hstate])⟩
  · rw [h] at hstate
    obtain ⟨-, -, hcapacity, -⟩ := BlockArena.room_eq_ok_iff.1 hroom
    exact ⟨arenas_pushed rfl (fun _ => rfl) hl hcapacity (by rw [hstate]),
      pools_kept rfl (fun _ => rfl) hl (by rw [hstate])⟩

theorem turns_reservePool (slots maxLen : Nat) (s : Store) :
    Turns s (.reservePool slots maxLen) := by
  have hl : TextPool.Unmarked (step (.reservePool slots maxLen) s).events :=
    (uncounted_addPool slots maxLen).map _ s
  have hstate : (step (.reservePool slots maxLen) s).state = (addPool slots maxLen s).state := by
    rw [step, map_apply]
  obtain h | ⟨hroom, h⟩ := addPool_cases slots maxLen s
  · rw [h] at hstate
    exact ⟨arenas_kept rfl (fun _ => rfl) hl (by rw [hstate]),
      pools_kept rfl (fun _ => rfl) hl (by rw [hstate])⟩
  · rw [h] at hstate
    obtain ⟨-, -, hslots, -⟩ := TextPool.room_eq_ok_iff.1 hroom
    exact ⟨arenas_kept rfl (fun _ => rfl) hl (by rw [hstate]),
      pools_pushed rfl (fun _ => rfl) hl hslots (by rw [hstate])⟩

theorem turns_reserve (sizing : Sizing) (s : Store) : Turns s (.reserve sizing) := by
  have hl : TextPool.Unmarked (step (.reserve sizing) s).events :=
    (uncounted_addArenas sizing).map _ s
  have hstate : (step (.reserve sizing) s).state = (addArenas sizing s).state := by
    rw [step, map_apply]
  obtain h | h | ⟨hroom, hroom', h⟩ := addArenas_cases sizing s
  · rw [h] at hstate
    exact ⟨arenas_kept rfl (fun _ => rfl) hl (by rw [hstate]),
      pools_kept rfl (fun _ => rfl) hl (by rw [hstate])⟩
  · rw [h] at hstate
    exact ⟨arenas_kept rfl (fun _ => rfl) hl (by rw [hstate]),
      pools_kept rfl (fun _ => rfl) hl (by rw [hstate])⟩
  · rw [h] at hstate
    obtain ⟨-, -, hcapacity, -⟩ := BlockArena.room_eq_ok_iff.1 hroom
    obtain ⟨-, -, hslots, -⟩ := TextPool.room_eq_ok_iff.1 hroom'
    exact ⟨arenas_pushed rfl (fun _ => rfl) hl hcapacity (by rw [hstate]),
      pools_pushed rfl (fun _ => rfl) hl hslots (by rw [hstate])⟩

theorem turns_swapArenas (i j : Nat) (s : Store) : Turns s (.swapArenas i j) := by
  cases h : swapValues s.arenas i j with
  | error e =>
    have hstep : step (.swapArenas i j) s = ⟨.error e, s, []⟩ := by
      simp only [step, read_bind, h]
    have ho : ∀ k, Command.arenaOrigin s (.swapArenas i j) k = k := by
      intro k
      simp [Command.arenaOrigin, swapOrigin, h]
    exact ⟨arenas_kept rfl ho (by rw [hstep]; exact ⟨rfl, rfl⟩) (by rw [hstep]),
      pools_kept rfl (fun _ => rfl) (by rw [hstep]; exact ⟨rfl, rfl⟩) (by rw [hstep])⟩
  | ok arenas =>
    have hstep : step (.swapArenas i j) s = ⟨.ok .done, { s with arenas }, []⟩ := by
      simp only [step, read_bind, h]
      rfl
    refine ⟨.of_same rfl (by rw [hstep]; rfl) fun k => ?_,
      pools_kept rfl (fun _ => rfl) (by rw [hstep]; exact ⟨rfl, rfl⟩) (by rw [hstep])⟩
    have ho : Command.arenaOrigin s (.swapArenas i j) k = Equiv.swap i j k := by
      simp [Command.arenaOrigin, swapOrigin, h]
    rw [hstep]
    change arenas[k]?.map Guarded.value = s.arenaAt (Command.arenaOrigin s (.swapArenas i j) k)
    rw [ho]
    exact values_swap h k

theorem turns_swapPools (i j : Nat) (s : Store) : Turns s (.swapPools i j) := by
  cases h : swapValues s.pools i j with
  | error e =>
    have hstep : step (.swapPools i j) s = ⟨.error e, s, []⟩ := by
      simp only [step, read_bind, h]
    have ho : ∀ k, Command.poolOrigin s (.swapPools i j) k = k := by
      intro k
      simp [Command.poolOrigin, swapOrigin, h]
    exact ⟨arenas_kept rfl (fun _ => rfl) (by rw [hstep]; exact ⟨rfl, rfl⟩) (by rw [hstep]),
      pools_kept rfl ho (by rw [hstep]; exact ⟨rfl, rfl⟩) (by rw [hstep])⟩
  | ok pools =>
    have hstep : step (.swapPools i j) s = ⟨.ok .done, { s with pools }, []⟩ := by
      simp only [step, read_bind, h]
      rfl
    refine ⟨arenas_kept rfl (fun _ => rfl) (by rw [hstep]; exact ⟨rfl, rfl⟩) (by rw [hstep]),
      .of_same rfl (by rw [hstep]; rfl) fun k => ?_⟩
    have ho : Command.poolOrigin s (.swapPools i j) k = Equiv.swap i j k := by
      simp [Command.poolOrigin, swapOrigin, h]
    rw [hstep]
    change pools[k]?.map Guarded.value = s.poolAt (Command.poolOrigin s (.swapPools i j) k)
    rw [ho]
    exact values_swap h k

/-- **Every command serves the arenas and the pools of a store.** -/
theorem turns_step (s : Store) (c : Command) : Turns s c := by
  have hcalls : c.Calls → (∀ k, c.arenaOrigin s k = k) → (∀ k, c.poolOrigin s k = k) → Turns s c :=
    fun hc ho ho' => ⟨.of_asked ho (step_went hc s).arenas, .of_asked ho' (step_went hc s).pools⟩
  cases c with
  | reserveArena capacity blockSize => exact turns_reserveArena capacity blockSize s
  | reservePool slots maxLen => exact turns_reservePool slots maxLen s
  | reserve sizing => exact turns_reserve sizing s
  | swapArenas i j => exact turns_swapArenas i j s
  | swapPools i j => exact turns_swapPools i j s
  | _ => exact hcalls trivial (fun _ => rfl) fun _ => rfl

end Turns

theorem arenaShelf_served : arenaShelf.Served BlockArena.Gauged where
  tallies := BlockArena.tallies_gauged
  empty _ := by simp [arenaShelf, arenaAt]
  turn s c := (turns_step s c).arenas

theorem poolShelf_served : poolShelf.Served TextPool.Gauged where
  tallies := TextPool.tallies_gauged
  empty _ := by simp [poolShelf, poolAt]
  turn s c := (turns_step s c).pools

end Store

/-! ### Runs -/

namespace Run

open Store (arenaShelf poolShelf)

/-- **The most blocks and the most slots ever in use are counted exactly**, in every run of commands of
any kind. An arena or a pool that is there has a history; and by every history, its count lies between the
places in use and all places, is the greatest number of places that were ever in use at once, and is the
number of places that were ever handed out, which are the first ones; all others are untouched; and the
counts that were logged for it are one, two, three, and so on up to it. A command logs counts only for the
arena and the pool that it calls. -/
theorem peaks_exact (run : Run) :
    (∀ k a, (store run).arenaAt k = some a →
      (∃ first calls, arenaShelf.History run k first calls) ∧
      ∀ first calls, arenaShelf.History run k first calls →
        BlockArena.stock.Exact first calls a (arenaShelf.marks run k)) ∧
    (∀ k p, (store run).poolAt k = some p →
      (∃ first calls, poolShelf.History run k first calls) ∧
      ∀ first calls, poolShelf.History run k first calls →
        TextPool.stock.Exact first calls p (poolShelf.marks run k)) ∧
    ∀ c, (c.arena? (store run) = none →
        BlockArena.stock.marks (Store.step c (store run)).events = []) ∧
      (c.pool? (store run) = none → TextPool.stock.marks (Store.step c (store run)).events = []) := by
  have harenas := Store.arenaShelf_served
  have hpools := Store.poolShelf_served
  refine ⟨fun k a ha => ⟨?_, fun first calls h => harenas.exact_of_history ha h⟩,
    fun k p hp => ⟨?_, fun first calls h => hpools.exact_of_history hp h⟩, fun c => ⟨?_, ?_⟩⟩
  · obtain ⟨first, calls, h, -⟩ := harenas.exists_history ha
    exact ⟨first, calls, h⟩
  · obtain ⟨first, calls, h, -⟩ := hpools.exists_history hp
    exact ⟨first, calls, h⟩
  · exact (harenas.turn (store run) c).silent
  · exact (hpools.turn (store run) c).silent

/-- An arena with four blocks and a pool with four slots. Three texts fit the ring, since its head takes a
block; the fourth takes a slot, finds no block, and gives the slot back. Then the arena changes places. -/
def brimming : Run :=
  [.swapArenas 0 1, .textRing 0 (.pushText "d"), .textRing 0 (.pushText "c"),
    .textRing 0 (.pushText "b"), .textRing 0 (.pushText "a"), .newTextRing 0 0, .reservePool 4 8,
    .reserveArena 2 16, .reserveArena 4 16]

/-- All four slots were in use at once, although no command left more than three in use. -/
theorem peaks_exact_brimming :
    (∃ a first calls, (store brimming).arenaAt 1 = some a ∧ arenaShelf.History brimming 1 first calls ∧
      BlockArena.stock.Exact first calls a [1, 2, 3, 4]) ∧
    ∃ p first calls, (store brimming).poolAt 0 = some p ∧ p.live = 3 ∧
      poolShelf.History brimming 0 first calls ∧ TextPool.stock.Exact first calls p [1, 2, 3, 4] := by
  obtain ⟨harenas, hpools, -⟩ := peaks_exact brimming
  have hmarks : arenaShelf.marks brimming 1 = [1, 2, 3, 4] ∧
      poolShelf.marks brimming 0 = [1, 2, 3, 4] := by decide +kernel
  have hlive : ((store brimming).poolAt 0).map TextPool.live = some 3 := by decide +kernel
  have hthere : ((store brimming).arenaAt 1).isSome = true := by decide +kernel
  obtain ⟨a, ha⟩ := Option.isSome_iff_exists.1 hthere
  obtain ⟨p, hp, hlive⟩ := Option.map_eq_some_iff.1 hlive
  obtain ⟨⟨first, calls, h⟩, hexact⟩ := harenas 1 a ha
  obtain ⟨⟨first', calls', h'⟩, hexact'⟩ := hpools 0 p hp
  exact ⟨⟨a, first, calls, ha, h, hmarks.1 ▸ hexact first calls h⟩,
    p, first', calls', hp, hlive, h', hmarks.2 ▸ hexact' first' calls' h'⟩

end Run

end FixedArena
