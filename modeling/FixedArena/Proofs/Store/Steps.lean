import FixedArena.Proofs.Store.Direct

/-!
Every command as an exchange of blocks. One container is its subject; besides, a command may hand a
block to a caller, take one back from him, or leave the blocks of a ring to nobody.

Main facts:
* `step_turn`: every command but the exchange of two arenas is such an exchange.
-/

namespace FixedArena

/-- The arena and the handle of a direct command that changes a block. -/
def Command.changed? : Command → Option (Nat × BlockHandle)
  | .arena k (.free h) | .arena k (.write h _ _) | .arena k (.fill h _) => some (k, h)
  | _ => none

/-- The command leaves every arena in its place. -/
def Command.KeepsArenas (c : Command) : Prop := ∀ i j, c ≠ .swapArenas i j

namespace Store

variable {s t : Store} {k r : Nat} {c : Command}

/-- The container that a command is about; it may be the one that the command makes. -/
def subject (s : Store) : Command → Nat
  | .drop r | .ring r _ | .textRing r _ => r
  | _ => s.containers.size

/-- The handle of an arena that a command hands to its caller. -/
def handed (s : Store) (k : Nat) (c : Command) : Option BlockHandle :=
  match c, (step c s).result with
  | .arena n .allocate, .ok (.block h) => if n = k then some h else none
  | _, _ => none

/-- The blocks of an arena that a command leaves to nobody. -/
def leavings (s : Store) (k : Nat) : Command → List UInt32
  | .drop r => s.leftBy k r
  | .textRing r c => s.leftByTextRing k r c
  | _ => []

/-- What a command does to an arena: it is an exchange of its subject with nobody else, or a caller
is handed a block, or a caller's block is written to or taken back. -/
inductive Turn (k : Nat) (s : Store) (c : Command) (t : Store) : Prop where
  | container (handed : s.handed k c = none)
      (turn : Exchanges k s (s.subject c) [] t (s.leavings k c))
  | handed {h : BlockHandle} {b : BlockArena} (handed : s.handed k c = some h)
      (leavings : s.leavings k c = []) (arena : t.arenaAt k = some b) (accepts : b.Accepts h)
      (turn : Exchanges k s (s.subject c) [] t [h.index])
  | written {h : BlockHandle} {a : BlockArena} (handed : s.handed k c = none)
      (leavings : s.leavings k c = []) (presented : c.changed? = some (k, h))
      (arena : s.arenaAt k = some a) (accepts : a.Accepts h)
      (turn : Exchanges k s (s.subject c) [h.index] t [h.index])
  | freed {h : BlockHandle} {a b : BlockArena} (handed : s.handed k c = none)
      (leavings : s.leavings k c = []) (presented : c.changed? = some (k, h))
      (arena : s.arenaAt k = some a) (accepts : a.Accepts h) (after : t.arenaAt k = some b)
      (out : ¬b.InUse h.index) (turn : Exchanges k s (s.subject c) [h.index] t [])

theorem handed_eq_none (h : ∀ n, c ≠ .arena n .allocate) : s.handed k c = none := by
  unfold handed
  split
  · next n h' _ => exact absurd rfl (h n)
  · rfl

/-- What asks nothing of blocks is no exchange. -/
theorem Turn.of_quiet (h : s.Quiet t) (hs : s.Settled k) (hne : ∀ n, c ≠ .arena n .allocate)
    (hl : s.leavings k c = []) : Turn k s c t := by
  refine .container (handed_eq_none hne) ?_
  rw [hl]
  exact exchanges_of_quiet h hs _

theorem turn_allocate (hs : ∀ j, s.Settled j) (n : Nat) :
    Turn k s (.arena n .allocate) (step (.arena n .allocate) s).state := by
  obtain ⟨e, log, hstep⟩ | ⟨h, t, log, b, hstep, hb, hacc, hhands⟩ := step_allocate hs n
  · have hnone : s.handed k (.arena n .allocate) = none := by simp [handed, hstep]
    rw [hstep]
    exact .container hnone (exchanges_refl (hs k) _)
  · have hex := hhands k
    rw [hstep]
    by_cases hk : k = n
    · subst hk
      rw [if_pos rfl, if_pos rfl] at hex
      exact .handed (by simp [handed, hstep]) rfl hb hacc hex
    · rw [if_neg hk, if_neg hk] at hex
      exact .container (by simp [handed, hstep, Ne.symm hk]) hex

theorem turn_free (hs : ∀ j, s.Settled j) (n : Nat) (h : BlockHandle) :
    Turn k s (.arena n (.free h)) (step (.arena n (.free h)) s).state := by
  obtain ⟨e, log, hstep⟩ | ⟨t, log, a, b, hstep, ha, hacc, hb, hout, hhands⟩ := step_free hs n h
  · rw [hstep]
    exact .of_quiet (refl_of Quiet s) (hs k) nofun rfl
  · have hex := hhands k
    rw [hstep]
    by_cases hk : k = n
    · subst hk
      rw [if_pos rfl, if_pos rfl] at hex
      exact .freed (handed_eq_none nofun) rfl rfl ha hacc hb hout hex
    · rw [if_neg hk, if_neg hk] at hex
      exact .container (handed_eq_none nofun) hex

/-- A direct command that writes to a block, or is refused. -/
theorem turn_written {n : Nat} {h : BlockHandle} (hs : ∀ j, s.Settled j)
    (hne : ∀ n, c ≠ .arena n .allocate) (hl : s.leavings k c = []) (hc : c.changed? = some (n, h))
    (hsub : s.subject c = s.containers.size)
    (hstep : (∃ e log, step c s = ⟨.error e, s, log⟩) ∨
      ∃ t log a, step c s = ⟨.ok .done, t, log⟩ ∧ s.arenaAt n = some a ∧ a.Accepts h ∧
        s.Hands n [h.index] t [h.index]) : Turn k s c (step c s).state := by
  obtain ⟨e, log, hstep⟩ | ⟨t, log, a, hstep, ha, hacc, hhands⟩ := hstep
  · rw [hstep]
    exact .of_quiet (refl_of Quiet s) (hs k) hne hl
  · have hex := hhands k
    rw [hstep]
    rw [← hsub] at hex
    by_cases hk : k = n
    · subst hk
      rw [if_pos rfl] at hex
      exact .written (handed_eq_none hne) hl hc ha hacc hex
    · rw [if_neg hk] at hex
      exact .container (handed_eq_none hne) (hl.symm ▸ hex)

/-- **Every command but the exchange of two arenas is an exchange of blocks.** -/
theorem step_turn (hc : c.KeepsArenas) (hs : ∀ j, s.Settled j) (k : Nat) :
    Turn k s c (step c s).state := by
  cases c with
  | reserveArena capacity blockSize =>
    exact .container (handed_eq_none nofun) (exchanges_reserveArena capacity blockSize (hs k) _)
  | reserve sizing => exact .container (handed_eq_none nofun) (exchanges_reserve sizing (hs k) _)
  | newRing type n => exact .container (handed_eq_none nofun) (exchanges_newRing type n hs)
  | newTextRing n pool => exact .container (handed_eq_none nofun) (exchanges_newTextRing n pool hs)
  | newText pool content =>
    exact .container (handed_eq_none nofun) (exchanges_newText pool content (hs k))
  | drop r => exact .container (handed_eq_none nofun) (exchanges_drop r (hs k))
  | swapArenas i j => exact absurd rfl (hc i j)
  | ring r c => exact .container (handed_eq_none nofun) (exchanges_ring r c (hs k))
  | textRing r c => exact .container (handed_eq_none nofun) (exchanges_textRing r c (hs k))
  | arena n c =>
    cases c with
    | allocate => exact turn_allocate hs n
    | free h => exact turn_free hs n h
    | write h offset bs => exact turn_written hs nofun rfl rfl rfl (step_write hs n h offset bs)
    | fill h b => exact turn_written hs nofun rfl rfl rfl (step_fill hs n h b)
    | _ => exact .of_quiet (calm_arena n (by trivial) s).toQuiet (hs k) nofun rfl
  | text r c =>
    by_cases hclone : c = .clone
    · subst hclone
      exact .container (handed_eq_none nofun) (exchanges_clone r (hs k))
    · exact .of_quiet (calm_step (c := .text r c) hclone s).toQuiet (hs k) nofun rfl
  | _ => exact .of_quiet (calm_step (by trivial) s).toQuiet (hs k) nofun rfl

end Store

end FixedArena
