import FixedArena.Proofs.Ring.Fields
import FixedArena.Ring.Basic
import Mathlib.Data.List.Chain

/-!
Circles of nodes. The nodes of a ring and its head are linked both ways, round and back to the head.
A node is added or taken out at an end by changing the links of its two neighbours, which are one
and the same node if the ring has no other.

Main facts:
* `circle_add`, `circle_remove`: what a node that comes or goes does to a circle;
* `Circle.linkOf_end`: the head leads to both ends;
* `Circle.follow`: so many steps behind the head lies the node at that place, and at last the head.
-/

namespace FixedArena

namespace Ring

/-! ### Ends of lists -/

namespace Side

variable {β γ : Type}

/-- The list with one more entry at an end. -/
def add : Side → β → List β → List β
  | .front, x, l => x :: l
  | .back, x, l => l ++ [x]

/-- The entry at an end. -/
def outer? : Side → List β → Option β
  | .front, l => l.head?
  | .back, l => l.getLast?

/-- The list without the entry at an end. -/
def shorten : Side → List β → List β
  | .front, l => l.tail
  | .back, l => l.dropLast

variable (side : Side) {x : β} {l : List β}

@[simp] theorem outer?_add : side.outer? (side.add x l) = some x := by
  cases side <;> simp [outer?, add]

@[simp] theorem shorten_add : side.shorten (side.add x l) = l := by
  cases side <;> simp [shorten, add]

@[simp] theorem length_add : (side.add x l).length = l.length + 1 := by
  cases side <;> simp [add]

@[simp] theorem mem_add {y : β} : y ∈ side.add x l ↔ y = x ∨ y ∈ l := by
  cases side <;> simp [add, or_comm]

theorem map_add (f : β → γ) : (side.add x l).map f = side.add (f x) (l.map f) := by
  cases side <;> simp [add]

theorem perm_add : (x :: l).Perm (side.add x l) := by
  cases side
  · exact .refl _
  · exact (List.perm_append_singleton x l).symm

theorem perm_cons_add (y : β) : (x :: y :: l).Perm (y :: side.add x l) :=
  (List.Perm.swap y x l).trans ((side.perm_add).cons y)

theorem subset_add (y : β) : y :: l ⊆ y :: side.add x l := by
  intro z hz
  rcases List.mem_cons.1 hz with rfl | hz
  · exact List.mem_cons_self
  · exact List.mem_cons_of_mem y (side.mem_add.2 (.inr hz))

/-- A list that is not empty has an entry at each end. -/
theorem exists_eq_add (hl : l ≠ []) : ∃ x l', l = side.add x l' := by
  cases side
  · obtain ⟨x, l', rfl⟩ := List.exists_cons_of_ne_nil hl
    exact ⟨x, l', rfl⟩
  · exact ⟨l.getLast hl, l.dropLast, (List.dropLast_append_getLast hl).symm⟩

theorem add_inj {y : β} {l' : List β} : side.add x l = side.add y l' ↔ x = y ∧ l = l' := by
  constructor
  · intro h
    have hx := congrArg (side.outer? ·) h
    have hl := congrArg (side.shorten ·) h
    simp only [outer?_add, shorten_add, Option.some.injEq] at hx hl
    exact ⟨hx, hl⟩
  · rintro ⟨rfl, rfl⟩
    rfl

/-! ### The gap at an end -/

/-- The node next to the head at an end; the head itself if there is no other. -/
def neighbour (head : UInt32) (ns : List UInt32) : UInt32 := (side.outer? ns).getD head

/-- The node before the gap at an end. -/
def before (head : UInt32) (ns : List UInt32) : UInt32 :=
  match side with
  | .front => head
  | .back => side.neighbour head ns

/-- The node behind the gap at an end. -/
def behind (head : UInt32) (ns : List UInt32) : UInt32 :=
  match side with
  | .front => side.neighbour head ns
  | .back => head

/-- The gap at an end cuts the way round in two, and one more node goes in between. -/
theorem exists_split (head : UInt32) (ns : List UInt32) : ∃ l₁ l₂,
    head :: ns ++ [head] = l₁ ++ side.before head ns :: side.behind head ns :: l₂ ∧
    ∀ i, head :: side.add i ns ++ [head] =
      l₁ ++ side.before head ns :: i :: side.behind head ns :: l₂ := by
  cases side with
  | front =>
    cases ns with
    | nil => exact ⟨[], [], rfl, fun i => rfl⟩
    | cons n ns => exact ⟨[], ns ++ [head], rfl, fun i => rfl⟩
  | back =>
    rcases List.eq_nil_or_concat ns with rfl | ⟨ns, n, rfl⟩
    · exact ⟨[], [], rfl, fun i => rfl⟩
    · refine ⟨head :: ns, [], ?_, fun i => ?_⟩
      · simp [before, behind, neighbour, outer?]
      · simp [before, behind, neighbour, outer?, add]

theorem before_mem (head : UInt32) (ns : List UInt32) : side.before head ns ∈ head :: ns := by
  cases side with
  | front => exact List.mem_cons_self
  | back =>
    rcases List.eq_nil_or_concat ns with rfl | ⟨ns, n, rfl⟩ <;>
      simp [before, neighbour, outer?]

theorem behind_mem (head : UInt32) (ns : List UInt32) : side.behind head ns ∈ head :: ns := by
  cases side with
  | front => cases ns <;> simp [behind, neighbour, outer?]
  | back => exact List.mem_cons_self

end Side

/-! ### Linked nodes -/

variable {a b : BlockArena} {head i p q : UInt32} {ns l₁ l₂ : List UInt32} {side : Side}

/-- Two nodes that follow each other. -/
def Linked (a : BlockArena) (x y : UInt32) : Prop :=
  linkOf a x .next = .ok y ∧ linkOf a y .prev = .ok x

/-- The way round from a head through nodes and back to the head. -/
def Circle (a : BlockArena) (head : UInt32) (ns : List UInt32) : Prop :=
  (head :: ns ++ [head]).IsChain (Linked a)

/-- A chain stays one if every link of it stays, be it told from its first nodes or its second. -/
theorem isChain_of_links {l : List UInt32} (hc : l.IsChain (Linked a))
    (hn : ∀ x ∈ l.dropLast, linkOf b x .next = linkOf a x .next)
    (hp : ∀ y ∈ l.tail, linkOf b y .prev = linkOf a y .prev) : l.IsChain (Linked b) := by
  rw [List.isChain_iff_forall₂, List.forall₂_iff_zip] at hc ⊢
  obtain ⟨hlen, hz⟩ := hc
  refine ⟨hlen, fun {x y} hxy => ?_⟩
  obtain ⟨hx, hy⟩ := List.of_mem_zip hxy
  obtain ⟨hnext, hprev⟩ := hz hxy
  exact ⟨(hn x hx).trans hnext, (hp y hy).trans hprev⟩

/-- Around a gap the links may change; the two chains beside it keep theirs. -/
theorem isChain_beside (hd : (l₁ ++ p :: i :: q :: l₂).dropLast.Nodup)
    (ht : (l₁ ++ p :: i :: q :: l₂).tail.Nodup)
    (hn : ∀ x, x ≠ p → x ≠ i → linkOf b x .next = linkOf a x .next)
    (hp : ∀ y, y ≠ q → y ≠ i → linkOf b y .prev = linkOf a y .prev) :
    ((l₁ ++ [p]).IsChain (Linked a) → (l₁ ++ [p]).IsChain (Linked b)) ∧
    ((q :: l₂).IsChain (Linked a) → (q :: l₂).IsChain (Linked b)) := by
  have hd' : (l₁ ++ p :: i :: (q :: l₂).dropLast).Nodup := by simpa using hd
  have ht' : ((l₁ ++ [p]).tail ++ i :: q :: l₂).Nodup := by
    have : l₁ ++ p :: i :: q :: l₂ = (l₁ ++ [p]) ++ i :: q :: l₂ := by simp
    rwa [this, List.tail_append_of_ne_nil (by simp)] at ht
  obtain ⟨-, hd2, hdis⟩ := List.nodup_append.1 hd'
  obtain ⟨-, ht2, htis⟩ := List.nodup_append.1 ht'
  simp only [List.nodup_cons, List.mem_cons, not_or] at hd2 ht2
  constructor
  · intro hc
    refine isChain_of_links hc (fun x hx => ?_) fun y hy => ?_
    · rw [List.dropLast_concat] at hx
      exact hn x (hdis x hx p (by simp)) (hdis x hx i (by simp))
    · exact hp y (htis y hy q (by simp)) (htis y hy i (by simp))
  · intro hc
    refine isChain_of_links hc (fun x hx => ?_) fun y hy => ?_
    · exact hn x (fun h => hd2.1.2 (h ▸ hx)) fun h => hd2.2.1 (h ▸ hx)
    · exact hp y (fun h => ht2.2.1 (h ▸ hy)) fun h => ht2.1.2 (h ▸ hy)

section Change

variable (hnd : (head :: side.add i ns).Nodup)
  (hn : ∀ x, x ≠ side.before head ns → x ≠ i → linkOf b x .next = linkOf a x .next)
  (hp : ∀ y, y ≠ side.behind head ns → y ≠ i → linkOf b y .prev = linkOf a y .prev)

include hnd

theorem nodup_round : (head :: side.add i ns ++ [head]).dropLast.Nodup ∧
    (head :: side.add i ns ++ [head]).tail.Nodup := by
  refine ⟨by rwa [List.dropLast_concat], ?_⟩
  exact (List.perm_append_singleton head (side.add i ns)).nodup_iff.2 hnd

include hn hp

/-- **A node that is linked in at an end makes the circle longer.** -/
theorem circle_add (hc : Circle a head ns) (hpi : Linked b (side.before head ns) i)
    (hiq : Linked b i (side.behind head ns)) : Circle b head (side.add i ns) := by
  obtain ⟨l₁, l₂, h, hi⟩ := side.exists_split head ns
  obtain ⟨hd, ht⟩ := nodup_round hnd
  rw [hi] at hd ht
  rw [Circle, h, List.isChain_append_cons_cons] at hc
  rw [Circle, hi, List.isChain_append_cons_cons, List.isChain_cons_cons]
  obtain ⟨h₁, h₂⟩ := isChain_beside hd ht hn hp
  exact ⟨h₁ hc.1, hpi, hiq, h₂ hc.2.2⟩

/-- **A node that is linked out at an end makes the circle shorter.** -/
theorem circle_remove (hc : Circle a head (side.add i ns))
    (hpq : Linked b (side.before head ns) (side.behind head ns)) : Circle b head ns := by
  obtain ⟨l₁, l₂, h, hi⟩ := side.exists_split head ns
  obtain ⟨hd, ht⟩ := nodup_round hnd
  rw [hi] at hd ht
  rw [Circle, hi, List.isChain_append_cons_cons, List.isChain_cons_cons] at hc
  rw [Circle, h, List.isChain_append_cons_cons]
  obtain ⟨h₁, h₂⟩ := isChain_beside hd ht hn hp
  exact ⟨h₁ hc.1, hpq, h₂ hc.2.2.2⟩

end Change

/-! ### Walking round -/

namespace Circle

theorem linked_gap (hc : Circle a head ns) (side : Side) :
    Linked a (side.before head ns) (side.behind head ns) := by
  obtain ⟨l₁, l₂, h, -⟩ := side.exists_split head ns
  rw [Circle, h, List.isChain_append_cons_cons] at hc
  exact hc.2.1

/-- The head leads to both ends. -/
theorem linkOf_end (hc : Circle a head ns) (side : Side) :
    linkOf a head side.link = .ok (side.neighbour head ns) := by
  cases side with
  | front => exact (hc.linked_gap .front).1
  | back => exact (hc.linked_gap .back).2

/-- The neighbours of the node at an end. -/
theorem linked_entry (hc : Circle a head (side.add i ns)) :
    Linked a (side.before head ns) i ∧ Linked a i (side.behind head ns) := by
  obtain ⟨l₁, l₂, -, hi⟩ := side.exists_split head ns
  rw [Circle, hi, List.isChain_append_cons_cons, List.isChain_cons_cons] at hc
  exact ⟨hc.2.1, hc.2.2.1⟩

theorem follow_of_isChain {x y : UInt32} {l : List UInt32} (hc : (x :: l).IsChain (Linked a))
    {n : Nat} (hy : (x :: l)[n]? = some y) : follow a n x = .ok y := by
  induction n generalizing x l with
  | zero =>
    obtain rfl : x = y := by simpa using hy
    rfl
  | succ n ih =>
    cases l with
    | nil => simp at hy
    | cons z l =>
      rw [List.isChain_cons_cons] at hc
      unfold Ring.follow
      rw [hc.1.1]
      exact ih hc.2 (by simpa using hy)

/-- **So many steps behind the head lies the node at that place, and at last the head.** -/
theorem follow (hc : Circle a head ns) {n : Nat} {y : UInt32}
    (hy : (head :: ns ++ [head])[n]? = some y) : Ring.follow a n head = .ok y :=
  follow_of_isChain hc hy

theorem congr (hc : Circle a head ns) {l : List UInt32} (hab : a.SameBlocks b l)
    (hl : head :: ns ⊆ l) : Circle b head ns := by
  refine isChain_of_links hc (fun x hx => ?_) fun y hy => ?_
  · rw [List.dropLast_concat] at hx
    exact hab.linkOf (hl hx) .next
  · refine hab.linkOf (hl ?_) .prev
    simpa [or_comm] using hy

end Circle

end Ring

end FixedArena
