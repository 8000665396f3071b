import FixedArena.Toml.Reader

/-!
What readers take and what they bring. A reader takes some characters for a value if it does so wherever
they may stand; a reader yields values of a kind if it never brings any others.

Main facts:
* `run_append`: a run ends where the first character of another class stands;
* `many_stop`: repetition takes apart what was put together from parts;
* `Yields.bind`, `Yields.many`, `Yields.sepBy`: a sequence yields what its last reader yields, a
  repetition what it repeats.
-/

namespace FixedArena.Toml.Reader

variable {α β : Type} {p q : Reader α} {cs rest : List Char} {a : α}

/-! ### Taking -/

/-- The text does not go on with a character of the class. -/
def Ends (cls : Char → Bool) (rest : List Char) : Prop := ∀ c ∈ rest.head?, cls c = false

@[simp] theorem ends_nil (cls : Char → Bool) : Ends cls [] := by simp [Ends]

@[simp] theorem ends_cons {cls : Char → Bool} {c : Char} : Ends cls (c :: rest) ↔ cls c = false := by
  simp [Ends]

/-- **A run ends where the first character of another class stands.** -/
theorem run_append {cls : Char → Bool} (h : ∀ c ∈ cs, cls c) (hr : Ends cls rest) :
    run cls (cs ++ rest) = some (cs, rest) := by
  have hnone : rest.takeWhile cls = [] ∧ rest.dropWhile cls = rest := by
    cases rest with
    | nil => exact ⟨rfl, rfl⟩
    | cons c rest =>
      have hc := ends_cons.1 hr
      simp [hc]
  rw [run, List.takeWhile_append_of_pos h, List.dropWhile_append_of_pos h, hnone.1, hnone.2,
    List.append_nil]

theorem char_cons (c : Char) (rest : List Char) : char c (c :: rest) = some ((), rest) := by
  simp [char]

theorem char_of_ne {c d : Char} (h : d ≠ c) : char c (d :: rest) = none := by simp [char, h]

/-- The reader takes these characters for a value, if what comes behind them is of a kind. -/
def TakesBefore (E : List Char → Prop) (p : Reader α) (cs : List Char) (a : α) : Prop :=
  ∀ rest, E rest → p (cs ++ rest) = some (a, rest)

theorem orElse_some {found : α × List Char} (h : p cs = some found) : orElse p q cs = some found := by
  rw [orElse, h]

theorem orElse_none (h : p cs = none) : orElse p q cs = q cs := by rw [orElse, h]

section Parts

variable {E : List Char → Prop} {tail : List Char} {parts : List (List Char × α)}
  (h : ∀ part ∈ parts, part.1 ≠ [] ∧ (∀ rest, E (part.1 ++ rest)) ∧ TakesBefore E p part.1 part.2)

include h

theorem length_parts_le : parts.length ≤ (parts.flatMap Prod.fst).length := by
  induction parts with
  | nil => simp
  | cons part parts ih =>
    have hpos := List.length_pos_iff.2 (h part List.mem_cons_self).1
    have hrest := ih fun part' hp => h part' (List.mem_cons_of_mem part hp)
    rw [List.flatMap_cons, List.length_append, List.length_cons]
    omega

variable (htail : E tail)

include htail

/-- A text of parts may stand behind a part. -/
theorem before_parts : E (parts.flatMap Prod.fst ++ tail) := by
  cases parts with
  | nil => exact htail
  | cons part parts =>
    rw [List.flatMap_cons, List.append_assoc]
    exact (h part List.mem_cons_self).2.1 _

/-- Repetition takes part by part, and goes on behind the last. -/
theorem manyFrom_append (bound : List Char) (found : List α) (hb : parts.length ≤ bound.length) :
    manyFrom p bound found (parts.flatMap Prod.fst ++ tail) =
      manyFrom p (bound.drop parts.length) ((parts.map Prod.snd).reverse ++ found) tail := by
  induction parts generalizing bound found with
  | nil => rfl
  | cons part parts ih =>
    obtain ⟨hne, -, htakes⟩ := h part List.mem_cons_self
    have hparts := fun part' hp => h part' (List.mem_cons_of_mem part hp)
    obtain ⟨c, cs, hcs⟩ := List.exists_cons_of_ne_nil hne
    obtain ⟨b, bound, rfl⟩ := List.exists_cons_of_length_pos (Nat.lt_of_lt_of_le (by simp) hb)
    have htake := htakes _ (before_parts hparts htail)
    rw [hcs, List.cons_append] at htake
    rw [List.flatMap_cons, List.append_assoc, hcs, List.cons_append, manyFrom, htake]
    dsimp only
    rw [ih hparts bound (part.2 :: found) (Nat.le_of_succ_le_succ hb)]
    simp

/-- **Repetition takes apart what was put together** from parts that the reader takes, and stops where it
takes nothing. -/
theorem many_stop (hstop : tail ≠ [] → p tail = none) :
    many p (parts.flatMap Prod.fst ++ tail) = some (parts.map Prod.snd, tail) := by
  have hle : parts.length ≤ (parts.flatMap Prod.fst ++ tail).length :=
    Nat.le_trans (length_parts_le h) (by simp)
  rw [many, manyFrom_append h htail _ [] hle, List.append_nil]
  generalize (parts.flatMap Prod.fst ++ tail).drop parts.length = bound
  cases tail with
  | nil => cases bound <;> simp [manyFrom]
  | cons c cs =>
    cases bound with
    | nil => simp [manyFrom]
    | cons b bound => simp [manyFrom, hstop (List.cons_ne_nil c cs)]

end Parts

/-! ### Yielding -/

/-- The reader brings no values but of a kind. -/
def Yields (P : α → Prop) (p : Reader α) : Prop := ∀ cs a rest, p cs = some (a, rest) → P a

variable {P : α → Prop} {Q : β → Prop}

theorem yields_true (p : Reader α) : Yields (fun _ => True) p := fun _ _ _ _ => trivial

theorem yields_pure (h : P a) : Yields P (pure a) := by
  intro cs b rest hb
  obtain ⟨rfl, -⟩ := Prod.mk.inj (Option.some.inj hb)
  exact h

theorem yields_fail : Yields P fail := fun cs a rest h => by cases h

theorem yields_ofOption {a? : Option α} (h : ∀ a, a? = some a → P a) : Yields P (ofOption a?) := by
  cases a? with
  | none => exact yields_fail
  | some a => exact yields_pure (h a rfl)

theorem Yields.bind {f : α → Reader β} (hp : Yields P p) (hf : ∀ a, P a → Yields Q (f a)) :
    Yields Q (p >>= f) := by
  intro cs b rest hb
  cases ha : p cs with
  | none =>
    rw [bind_none ha] at hb
    cases hb
  | some found =>
    obtain ⟨a, rest'⟩ := found
    rw [bind_some ha] at hb
    exact hf a (hp cs a rest' ha) rest' b rest hb

/-- What is read first may be anything. -/
theorem yields_bind {f : α → Reader β} (hf : ∀ a, Yields Q (f a)) : Yields Q (p >>= f) :=
  (yields_true p).bind fun a _ => hf a

theorem Yields.orElse (hp : Yields P p) (hq : Yields P q) : Yields P (orElse p q) := by
  intro cs a rest h
  unfold Reader.orElse at h
  cases hf : p cs with
  | none =>
    rw [hf] at h
    exact hq cs a rest h
  | some found =>
    rw [hf] at h
    exact hp cs a rest (hf.trans h)

theorem Yields.manyFrom (hp : Yields P p) (bound : List Char) {found : List α}
    (hfound : ∀ a ∈ found, P a) (cs : List Char) : ∀ a ∈ (manyFrom p bound found cs).1, P a := by
  induction bound generalizing found cs with
  | nil => cases cs <;> simpa [Reader.manyFrom] using hfound
  | cons b bound ih =>
    cases cs with
    | nil => simpa [Reader.manyFrom] using hfound
    | cons c cs =>
      rw [Reader.manyFrom]
      cases hc : p (c :: cs) with
      | none => simpa using hfound
      | some next =>
        obtain ⟨a, rest⟩ := next
        refine ih ?_ rest
        simp only [List.mem_cons, forall_eq_or_imp]
        exact ⟨hp (c :: cs) a rest hc, hfound⟩

theorem Yields.many (hp : Yields P p) : Yields (fun l => ∀ a ∈ l, P a) (many p) := by
  intro cs l rest h
  obtain ⟨rfl, -⟩ := Prod.mk.inj (Option.some.inj h)
  exact hp.manyFrom cs (by simp) cs

theorem Yields.sepBy {sep : Reader Unit} (hp : Yields P p) :
    Yields (fun l => ∀ a ∈ l, P a) (sepBy p sep) := by
  refine hp.bind fun first hfirst => ?_
  refine (Yields.many (yields_bind fun _ => hp)).bind fun others hothers => yields_pure ?_
  simp only [List.mem_cons, forall_eq_or_imp]
  exact ⟨hfirst, hothers⟩

end FixedArena.Toml.Reader
