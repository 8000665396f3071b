import FixedArena.Proofs.Ring.Places
import FixedArena.Proofs.Store.Failures
import FixedArena.Proofs.Store.Harmless
import FixedArena.Proofs.Store.TextLists
import Mathlib.Data.List.ReduceOption

/-!
Tours: a cursor walks over a ring while commands of all kinds come in between. They may hold the arena and
give it back, and change other rings and the blocks of callers on the same arena. The ring itself is only
looked at, as long as there is a cursor on it.

Main facts:
* `Run.lists_tour`: the ring keeps its nodes and its list on a tour that spares it;
* `Run.tours_lossless`: a cursor that could read the arena when it was made brings the values of the ring
  in order, each once, and stays where it is while somebody writes to the arena;
* `Run.hints_exact`: its bounds are the number of values to come; those of a cursor that was made beside a
  writer are not, as it brings nothing.
-/

namespace FixedArena

/-- The container that a command may give up or change. -/
def Command.altered? : Command → Option Nat
  | .drop r => some r
  | .ring r (.push ..) | .ring r (.pop _) | .ring r (.set ..) | .ring r .clear => some r
  | .textRing r (.push ..) | .textRing r (.pushText _) | .textRing r (.pop _) | .textRing r .clear
  | .textRing r .intoTexts => some r
  | _ => none

/-! ### Looking at a ring -/

namespace Store

variable {s : Store} {r : Nat} {p : Placed}

/-- A command that only looks at a ring leaves the store as it was. -/
theorem state_ring_unaltered {c : RingCommand Datum} (hc : (Command.ring r c).altered? ≠ some r)
    (s : Store) : (step (.ring r c) s).state = s := by
  obtain h | ⟨type, ring, n, d, hr, hd, h⟩ := ring_cases r c s
  · rw [h]
  · rw [h]
    have hon : ∀ {β : Type} (x : Act Error (Ring.Site type.Value) β) (f : β → Reply),
        (∀ t, (x t).state = t) → ((f <$> onRing r ring n x) s).state = s := by
      intro β x f hx
      cases hg : s.arenas[n]? with
      | none => rw [Act.map_apply, onRing_none r ring hg]
      | some g => exact onRing_same hr hg x f (hx ⟨ring, g⟩)
    cases c with
    | push side v => exact absurd rfl hc
    | pop side => exact absurd rfl hc
    | set index v => exact absurd rfl hc
    | clear => exact absurd rfl hc
    | peek side => exact Option.some.inj hd ▸ hon _ _ (Ring.state_peek side)
    | get index => exact Option.some.inj hd ▸ hon _ _ (Ring.state_get index)
    | size => exact Option.some.inj hd ▸ rfl
    | toList => exact Option.some.inj hd ▸ hon _ _ fun t => rfl
    | scan steps => exact Option.some.inj hd ▸ hon _ _ (Ring.state_scan steps)
    | describe => exact Option.some.inj hd ▸ rfl

/-- A command that only looks at a text ring leaves the store as it was. -/
theorem state_textRing_unaltered {c : TextRingCommand} (hc : (Command.textRing r c).altered? ≠ some r)
    (s : Store) : (step (.textRing r c) s).state = s := by
  obtain ⟨-, h⟩ | ⟨tr, n, pool, hr, h⟩ := textRing_cases r c s
  · rw [h]
  · rw [h]
    have hon : ∀ {β : Type} (x : Act Error TextRing.Site β) (f : β → Reply),
        (∀ t, (x t).state = t) → ((f <$> textRingStep.on r tr n pool x) s).state = s := by
      intro β x f hx
      obtain ⟨-, hs⟩ | ⟨g, q, hg, hq, hs⟩ := onTextRing_cases r tr pool n x s
      · rw [Act.map_apply, textRingStep.on, hs]
      · rw [Act.map_apply, textRingStep.on,
          onTextRing_same hr hg hq (congrArg (Outcome.mk _ · _) (hx ⟨tr, g, q⟩))]
    cases c with
    | push side h => exact absurd rfl hc
    | pushText t => exact absurd rfl hc
    | pop side => exact absurd rfl hc
    | clear => exact absurd rfl hc
    | intoTexts => exact absurd rfl hc
    | peek side => exact hon _ _ (TextRing.state_onHandles (Ring.state_peek side))
    | get index => exact hon _ _ (TextRing.state_onHandles (Ring.state_get index))
    | text index => exact hon _ _ (TextRing.state_text index)
    | position t => exact hon _ _ fun t => rfl
    | size => rfl
    | toList => exact hon _ _ fun t => rfl
    | scan steps => exact hon _ _ (TextRing.state_onHandles (Ring.state_scan steps))
    | describe => exact hon _ _ fun t => rfl
    | describeLong => exact hon _ _ fun t => rfl
    | livesIn k => rfl

/-- A command that only looks at a ring leaves the store as it was; any other one that does not alter the
ring is about another container. -/
theorem state_or_subject_ne {c : Command} (hp : s.placedAt r = some p) (hc : c.altered? ≠ some r) :
    (step c s).state = s ∨ r ≠ s.subject c := by
  have hlt : r ≠ s.containers.size := by
    obtain ⟨x, hx, -⟩ := Option.bind_eq_some_iff.1 hp
    exact Nat.ne_of_lt (lt_size_of_containerAt hx)
  cases c with
  | drop r' => exact .inr fun h => hc (congrArg some h.symm)
  | ring r' c =>
    by_cases h : r = r'
    · subst h
      exact .inl (state_ring_unaltered hc s)
    · exact .inr h
  | textRing r' c =>
    by_cases h : r = r'
    · subst h
      exact .inl (state_textRing_unaltered hc s)
    · exact .inr h
  | _ => exact .inr hlt

theorem not_admits_of_writer {hold : Hold} (h : hold = .writer) : ¬hold.admits .shared = true := by
  rw [h]
  decide

/-- The ring of a container, with its nodes and its list on the arena where it lives. -/
structure Lists (s : Store) (r : Nat) (p : Placed) (ns : List UInt32) (vs : List p.type.Value) : Prop where
  placed : s.placedAt r = some p
  nodes : ∃ g, s.arenas[p.nodes]? = some g ∧ p.ring.Holds g.value ns vs

end Store

/-! ### Tours -/

/-- What happens while there is a cursor on a ring: somebody gives the store a command, or the cursor is
asked for the next value. -/
inductive Move where
  | command (c : Command)
  | next

/-- Moves, the latest first. -/
abbrev Tour : Type := List Move

namespace Tour

open FixedArena.Ring (Cursor)

variable {α : Type} [Element α]

/-- The run with the commands of a tour. -/
def run (past : Run) : Tour → Run
  | [] => past
  | .command c :: tour => c :: run past tour
  | .next :: tour => run past tour

/-- How often the cursor was asked. -/
def steps : Tour → Nat
  | [] => 0
  | .command _ :: tour => steps tour
  | .next :: tour => steps tour + 1

/-- **What a cursor answered on a tour**, the first answer first, and where it is then. It is always asked
on the arena that has the number `k` at that moment. -/
def asked (past : Run) (k : Nat) (c : Cursor α) : Tour → Except Error (List (Option α) × Cursor α)
  | [] => .ok ([], c)
  | .command _ :: tour => asked past k c tour
  | .next :: tour => do
    let (answers, c) ← asked past k c tour
    match (Run.store (run past tour)).arenas[k]? with
    | some g =>
      let (v, c) ← c.next g
      return (answers ++ [v], c)
    | none => return (answers ++ [none], c)

/-- The commands of a tour leave the container. -/
def Spares (r : Nat) (tour : Tour) : Prop := ∀ c, Move.command c ∈ tour → c.altered? ≠ some r

theorem Spares.tail {r : Nat} {m : Move} {tour : Tour} (h : Spares r (m :: tour)) : Spares r tour :=
  fun c hc => h c (List.mem_cons_of_mem m hc)

/-- Nobody writes to the arena when the cursor is asked. -/
def Readable (past : Run) (k : Nat) : Tour → Prop
  | [] => True
  | .command _ :: tour => Readable past k tour
  | .next :: tour => Readable past k tour ∧
      ∀ g, (Run.store (run past tour)).arenas[k]? = some g → g.hold.admits .shared = true

end Tour

namespace Run

open FixedArena.Ring (Cursor)

variable {past : Run} {c : Command} {r : Nat} {p : Placed} {g : Guarded BlockArena} {ns : List UInt32}
  {vs : List p.type.Value} {tour : Tour}

/-- **A command that leaves a ring alone leaves it with its nodes and its list.** -/
theorem lists_cons (hio : InOrder past) (hc : Ordinary (c :: past)) (hr : c.altered? ≠ some r)
    (h : (store past).Lists r p ns vs) : (store (c :: past)).Lists r p ns vs := by
  obtain ⟨g, hg, hh⟩ := h.nodes
  obtain hsame | hne := Store.state_or_subject_ne h.placed hr
  · rw [store, hsame]
    exact h
  · obtain ⟨b, hb, hother⟩ := holds_other hio hc (Store.arenaAt_of_get hg)
    obtain ⟨g', hg', rfl⟩ := Option.map_eq_some_iff.1 hb
    have hplaced := Store.placedAt_congr (container_other hio hc hne)
    exact ⟨hplaced.trans h.placed, g', hg', hother r p hne h.placed rfl ns vs hh⟩

/-- **A ring keeps its nodes and its list on a tour that spares it.** -/
theorem lists_tour (hord : Ordinary (tour.run past)) (hy : Recent (tour.run past)) (hs : tour.Spares r)
    (h : (store past).Lists r p ns vs) : (store (tour.run past)).Lists r p ns vs := by
  induction tour with
  | nil => exact h
  | cons m tour ih =>
    cases m with
    | next => exact ih hord hy hs.tail
    | command c =>
      have hio := inOrder_of_recent hord.1 hy.tail
      exact lists_cons hio hord (hs c List.mem_cons_self) (ih hord.1 hy.tail hs.tail)

/-! ### Cursors on tours -/

section Asked

variable {k : Nat} {α : Type} [Element α] {c c' c'' : Cursor α} {answers : List (Option α)} {v : Option α}
  (ha : tour.asked past k c = .ok (answers, c'))

include ha

theorem asked_next_eq : Tour.asked past k c (.next :: tour) =
    match (store (tour.run past)).arenas[k]? with
    | some g => c'.next g >>= fun q => pure (answers ++ [q.1], q.2)
    | none => .ok (answers ++ [none], c') := by
  rw [Tour.asked, ha]
  rfl

/-- What is asked next on a tour is asked on the arena that is there. -/
theorem asked_next (hg : (store (tour.run past)).arenas[k]? = some g)
    (hnext : c'.next g = .ok (v, c'')) :
    Tour.asked past k c (.next :: tour) = .ok (answers ++ [v], c'') := by
  rw [asked_next_eq ha, hg]
  change (c'.next g >>= fun q => pure (answers ++ [q.1], q.2)) = _
  rw [hnext]
  rfl

end Asked

section Cursors

variable {c : Cursor p.type.Value} {k : Nat}

/-- **On a tour that spares the ring, a cursor brings its values from the first on, in order, each once**,
and has the nodes of the others ahead. -/
theorem asked_faces (hord : Ordinary (tour.run past)) (hy : Recent (tour.run past)) (hs : tour.Spares r)
    (h : (store past).Lists r p ns vs) (hc : c.Faces p.ring.head.index ns) : ∃ answers c' k,
    tour.asked past p.nodes c = .ok (answers, c') ∧ k ≤ vs.length ∧
    answers.reduceOption = vs.take k ∧ c'.Faces p.ring.head.index (ns.drop k) := by
  induction tour with
  | nil => exact ⟨[], c, 0, rfl, Nat.zero_le _, rfl, hc⟩
  | cons m tour ih =>
    cases m with
    | command d => exact ih hord.1 hy.tail hs.tail
    | next =>
      obtain ⟨answers, c', k, hasked, hk, htaken, hc'⟩ := ih hord hy hs.tail
      have hlists : (store (Tour.run past tour)).Lists r p ns vs := lists_tour hord hy hs.tail h
      obtain ⟨g, hg, hh⟩ := hlists.nodes
      -- A step without a value, at the end or beside a writer, leaves the cursor and what it brought.
      have hstays : answers.reduceOption ++ [] = vs.take k := by rw [List.append_nil, htaken]
      by_cases hend : k = vs.length
      · have hnil : ns.drop k = [] := List.drop_eq_nil_of_le (by rw [hend, hh.length_eq])
        refine ⟨_, c', k, asked_next hasked hg (Cursor.Faces.next_end (hnil ▸ hc') g), hk, ?_, hc'⟩
        rw [List.reduceOption_append]
        exact hstays
      · by_cases hf : g.hold.admits .shared = true
        · have hlt : k < vs.length := Nat.lt_of_le_of_ne hk hend
          obtain ⟨c'', hnext, hc''⟩ := hc'.next_some hh hf hlt
          refine ⟨_, c'', k + 1, asked_next hasked hg hnext, hlt, ?_, hc''⟩
          rw [List.reduceOption_append, htaken, List.take_succ_eq_append_getElem hlt]
          rfl
        · refine ⟨_, c', k, asked_next hasked hg (Cursor.next_held hf c'), hk, ?_, hc'⟩
          rw [List.reduceOption_append]
          exact hstays

/-- **As long as nobody writes to the arena when it is asked, a cursor brings every value ahead**, and after
the last one no more. -/
theorem asked_readable (hord : Ordinary (tour.run past)) (hy : Recent (tour.run past))
    (hs : tour.Spares r) (hread : tour.Readable past p.nodes) (h : (store past).Lists r p ns vs)
    (hc : c.Faces p.ring.head.index (ns.drop k)) : ∃ c',
    tour.asked past p.nodes c = .ok ((List.range tour.steps).map ((vs.drop k)[·]?), c') ∧
    c'.Faces p.ring.head.index (ns.drop (k + Tour.steps tour)) := by
  induction tour with
  | nil => exact ⟨c, rfl, hc⟩
  | cons m tour ih =>
    cases m with
    | command d => exact ih hord.1 hy.tail hs.tail hread
    | next =>
      obtain ⟨c', hasked, hc'⟩ := ih hord hy hs.tail hread.1
      have hlists : (store (Tour.run past tour)).Lists r p ns vs := lists_tour hord hy hs.tail h
      obtain ⟨g, hg, hh⟩ := hlists.nodes
      rw [Tour.steps, List.range_succ, List.map_append, List.map_singleton, List.getElem?_drop]
      obtain ⟨c'', hnext, hc''⟩ := hc'.next_admitted hh (hread.2 g hg)
      exact ⟨c'', asked_next hasked hg hnext, hc''⟩

/-- A cursor that knows no node brings nothing on any tour. -/
theorem asked_lost (hc : c.node = none) (past : Run) (k : Nat) (tour : Tour) :
    tour.asked past k c = .ok (List.replicate tour.steps none, c) := by
  induction tour with
  | nil => rfl
  | cons m tour ih =>
    cases m with
    | command d => exact ih
    | next =>
      rw [Tour.steps, List.replicate_succ']
      cases hg : (store (Tour.run past tour)).arenas[k]? with
      | some g => exact asked_next ih hg (Cursor.next_lost hc g)
      | none => rw [asked_next_eq ih, hg]

end Cursors

/-! ### What a cursor brings -/

/-- A ring in a run has nodes and a list. -/
theorem exists_lists (hord : Ordinary past) (hy : Recent past) (hp : (store past).placedAt r = some p)
    (hg : (store past).arenas[p.nodes]? = some g) :
    ∃ ns vs, p.ring.Holds g.value ns vs ∧ (store past).Lists r p ns vs := by
  obtain ⟨ns, vs, hh⟩ := holds_of_ordinary hord hy hp hg
  exact ⟨ns, vs, hh, hp, g, hg, hh⟩

/-- **A cursor loses and repeats nothing.** It is made while nobody writes to the arena, on a ring with the
values `vs`. Then, on every tour that leaves the ring alone, whoever holds the arena in the meantime and
whatever else happens to it, the values that the cursor brought are the first `k` of `vs`, in order. While
somebody writes to the arena, it brings nothing and stays where it is; otherwise it brings the value at
position `k` next, or nothing if there is none. -/
theorem tours_lossless (hord : Ordinary past) (hy : Recent past) (hp : (store past).placedAt r = some p)
    (hg : (store past).arenas[p.nodes]? = some g) (hf : g.hold ≠ .writer) :
    ∃ (vs : List p.type.Value) (c₀ : Cursor p.type.Value), vs.length = p.ring.len ∧
    (∀ i (hi : i < vs.length), (Ring.get i ⟨p.ring, g⟩).result = .ok vs[i]) ∧
    Ring.start ⟨p.ring, g⟩ = .ok c₀ ∧
    ∀ tour : Tour, Ordinary (tour.run past) → Recent (tour.run past) → tour.Spares r →
      ∃ answers c k g', tour.asked past p.nodes c₀ = .ok (answers, c) ∧
        k ≤ vs.length ∧ answers.reduceOption = vs.take k ∧
        (store (tour.run past)).arenas[p.nodes]? = some g' ∧
        (g'.hold = .writer → c.next g' = .ok (none, c)) ∧
        (g'.hold ≠ .writer → ∃ c', c.next g' = .ok (vs[k]?, c')) := by
  obtain ⟨ns, vs, hh, hlists⟩ := exists_lists hord hy hp hg
  have hread := Store.admits_of_ne_writer hf
  obtain ⟨c₀, hstart, hc₀⟩ := Ring.start_faces (s := ⟨p.ring, g⟩) hh hread
  refine ⟨vs, c₀, hh.len_eq.symm, fun i hi => ?_, hstart, fun tour hord' hy' hs => ?_⟩
  · rw [Ring.get_ok (s := ⟨p.ring, g⟩) hh hread, dif_pos hi]
  · obtain ⟨answers, c, k, hasked, hk, htaken, hc⟩ := asked_faces hord' hy' hs hlists hc₀
    obtain ⟨g', hg', hh'⟩ := (lists_tour hord' hy' hs hlists).nodes
    refine ⟨answers, c, k, g', hasked, hk, htaken, hg', fun hw => ?_, fun hw => ?_⟩
    · exact Cursor.next_held (Store.not_admits_of_writer hw) c
    · obtain ⟨c', hnext, -⟩ := hc.next_admitted hh' (Store.admits_of_ne_writer hw)
      exact ⟨c', hnext⟩

/-- Two rings of bytes on one arena, the first with two values. -/
def neighbours : Run :=
  [.ring 0 (.push .back ⟨.unsigned 1, (8 : BitVec 8)⟩),
    .ring 0 (.push .back ⟨.unsigned 1, (7 : BitVec 8)⟩), .newRing (.unsigned 1) 0,
    .newRing (.unsigned 1) 0, .reserveArena 8 16]

/-- A tour that asks first beside nobody, then beside a writer, and once more after the arena was given
back and the other ring has one value more. -/
def interrupted : Tour :=
  [.next, .command (.ring 1 (.push .front ⟨.unsigned 1, (9 : BitVec 8)⟩)),
    .command (.release (.arena 0) .exclusive), .next, .command (.hold (.arena 0) .exclusive), .next]

theorem ordinary_interrupted : Ordinary (interrupted.run neighbours) :=
  ordinary_of_forall (by
    simp [interrupted, neighbours, Tour.run, Command.KeepsArenas, Command.changed?])

theorem spares_interrupted : interrupted.Spares 0 := by
  simp [Tour.Spares, interrupted, Command.altered?]

/-- The cursor brings both values on that tour, and nothing in between. -/
theorem tours_lossless_interrupted : ∃ p g, (store neighbours).placedAt 0 = some p ∧
    (store neighbours).arenas[p.nodes]? = some g ∧ g.hold ≠ .writer ∧
    Ordinary (interrupted.run neighbours) ∧ Recent (interrupted.run neighbours) ∧
    interrupted.Spares 0 ∧ ∃ (vs : List p.type.Value) (c₀ c : Cursor p.type.Value) (answers : _),
      vs.length = p.ring.len ∧ Ring.start ⟨p.ring, g⟩ = .ok c₀ ∧
      interrupted.asked neighbours p.nodes c₀ = .ok (answers, c) ∧
      answers.map (Option.map Element.encode) = [some [7], none, some [8]] ∧
      answers.reduceOption = vs := by
  have hrun : ∃ p ∈ (store neighbours).placedAt 0, ∃ g ∈ (store neighbours).arenas[p.nodes]?,
      g.hold ≠ .writer ∧ p.ring.len = 2 ∧ ∃ c₀ ∈ (Ring.start ⟨p.ring, g⟩).toOption,
        ∃ q ∈ (interrupted.asked neighbours p.nodes c₀).toOption,
          q.1.map (Option.map Element.encode) = [some [7], none, some [8]] := by
    decide +kernel
  obtain ⟨p, hp, g, hg, hf, hlen, c₁, hc₁, q, hq, hvalues⟩ := hrun
  have hord : Ordinary neighbours := ordinary_interrupted.of_append (l := interrupted.run [])
  have hy : Recent (interrupted.run neighbours) := (young_of_length (by decide)).recent
  obtain ⟨vs, c₀, hvs, -, hstart, htours⟩ :=
    tours_lossless hord (young_of_length (by decide)).recent hp hg hf
  obtain ⟨answers, c, k, -, hasked, hk, htaken, -⟩ :=
    htours interrupted ordinary_interrupted hy spares_interrupted
  rw [hstart] at hc₁
  obtain rfl := Option.some.inj hc₁
  rw [hasked] at hq
  obtain rfl := Option.some.inj hq
  refine ⟨p, g, hp, hg, hf, ordinary_interrupted, hy, spares_interrupted, vs, c₀, c, answers, hvs, hstart,
    hasked, hvalues, htaken.trans (List.take_of_length_le ?_)⟩
  have htwo : answers.reduceOption.length = 2 := by
    have hlength := congrArg (fun l => (List.reduceOption l).length) hvalues
    simpa [List.reduceOption_map] using hlength
  rw [htaken, List.length_take] at htwo
  omega

/-- **From now on a cursor brings the values of a list, and then no more**, whatever commands come in
between, as long as they leave the ring alone and nobody writes to the arena when the cursor is asked. -/
def Brings (now : Run) (r : Nat) (p : Placed) (c : Cursor p.type.Value) (us : List p.type.Value) : Prop :=
  ∀ later : Tour, Ordinary (later.run now) → Recent (later.run now) → later.Spares r →
    later.Readable now p.nodes →
    ∃ c', later.asked now p.nodes c = .ok ((List.range later.steps).map (us[·]?), c')

theorem brings_nil {c : Cursor p.type.Value} (hc : c.node = none) (now : Run) (r : Nat) :
    Brings now r p c [] := by
  intro later _ _ _ _
  refine ⟨c, (asked_lost hc now p.nodes later).trans ?_⟩
  simp [List.map_const']

/-- **The bounds of a cursor that was made while nobody wrote to the arena are the number of values that it
still brings**, at every moment of every tour that leaves the ring alone. The bounds of a cursor that was
made beside a writer stay at the number of values in the ring, while it brings nothing at all. -/
theorem hints_exact (hord : Ordinary past) (hy : Recent past) (hp : (store past).placedAt r = some p)
    (hg : (store past).arenas[p.nodes]? = some g) :
    ∃ c₀ : Cursor p.type.Value, Ring.start ⟨p.ring, g⟩ = .ok c₀ ∧
    ∀ tour : Tour, Ordinary (tour.run past) → Recent (tour.run past) → tour.Spares r →
      ∃ answers c us, tour.asked past p.nodes c₀ = .ok (answers, c) ∧ Brings (tour.run past) r p c us ∧
        (g.hold ≠ .writer → c.bounds = (us.length, us.length)) ∧
        (g.hold = .writer → us = [] ∧ c.bounds = (p.ring.len, p.ring.len)) := by
  by_cases hw : g.hold = .writer
  · -- The first node was not read, so the cursor knows none, whatever comes.
    have hstart := Ring.start_held (s := ⟨p.ring, g⟩) (Store.not_admits_of_writer hw)
    refine ⟨_, hstart, fun tour _ _ _ => ?_⟩
    exact ⟨_, _, [], asked_lost rfl past p.nodes tour, brings_nil rfl _ r, absurd hw, fun _ => ⟨rfl, rfl⟩⟩
  · obtain ⟨ns, vs, hh, hlists⟩ := exists_lists hord hy hp hg
    obtain ⟨c₀, hstart, hc₀⟩ := Ring.start_faces (s := ⟨p.ring, g⟩) hh (Store.admits_of_ne_writer hw)
    refine ⟨c₀, hstart, fun tour hord' hy' hs => ?_⟩
    obtain ⟨answers, c, k, hasked, hk, htaken, hc⟩ := asked_faces hord' hy' hs hlists hc₀
    refine ⟨answers, c, vs.drop k, hasked, fun later hord'' hy'' hs' hread => ?_, fun _ => ?_,
      fun h => absurd h hw⟩
    · obtain ⟨c', hlater, -⟩ := asked_readable hord'' hy'' hs' hread (lists_tour hord' hy' hs hlists) hc
      exact ⟨c', hlater⟩
    · rw [hc.bounds_eq, List.length_drop, List.length_drop, hh.length_eq]

/-- A ring with one value, and a writer on its arena. -/
def overwritten : Run :=
  [.hold (.arena 0) .exclusive, .ring 0 (.push .back ⟨.unsigned 1, (7 : BitVec 8)⟩),
    .newRing (.unsigned 1) 0, .reserveArena 4 16]

/-- The writer goes, and the cursor is asked. -/
def uncovered : Tour := [.next, .command (.release (.arena 0) .exclusive)]

/-- A cursor that was made beside the writer still announces a value when nobody holds the arena any more,
and brings none. -/
theorem hints_exact_uncovered : ∃ p g, (store overwritten).placedAt 0 = some p ∧
    (store overwritten).arenas[p.nodes]? = some g ∧ g.hold = .writer ∧
    ((store (uncovered.run overwritten)).arenas[p.nodes]?).map Guarded.hold = some .free ∧
    ∃ (c₀ c : Cursor p.type.Value) (answers : _), Ring.start ⟨p.ring, g⟩ = .ok c₀ ∧
      uncovered.asked overwritten p.nodes c₀ = .ok (answers, c) ∧
      Brings (uncovered.run overwritten) 0 p c [] ∧ c.bounds = (1, 1) := by
  have hrun : ∃ p ∈ (store overwritten).placedAt 0, ∃ g ∈ (store overwritten).arenas[p.nodes]?,
      g.hold = .writer ∧ p.ring.len = 1 ∧
      ((store (uncovered.run overwritten)).arenas[p.nodes]?).map Guarded.hold = some .free := by
    decide +kernel
  obtain ⟨p, hp, g, hg, hw, hlen, hfree⟩ := hrun
  have hord : Ordinary (uncovered.run overwritten) := ordinary_of_forall (by
    simp [uncovered, overwritten, Tour.run, Command.KeepsArenas, Command.changed?])
  have hs : uncovered.Spares 0 := by simp [Tour.Spares, uncovered, Command.altered?]
  obtain ⟨c₀, hstart, htours⟩ := hints_exact hord.1 (young_of_length (by decide)).recent hp hg
  obtain ⟨answers, c, us, hasked, hbrings, -, hbeside⟩ :=
    htours uncovered hord (young_of_length (by decide)).recent hs
  obtain ⟨rfl, hbounds⟩ := hbeside hw
  exact ⟨p, g, hp, hg, hw, hfree, c₀, c, answers, hstart, hasked, hbrings, hlen ▸ hbounds⟩

end Run

end FixedArena
