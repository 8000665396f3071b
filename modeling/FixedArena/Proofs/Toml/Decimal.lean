import FixedArena.Proofs.Toml.Reader
import FixedArena.Toml.Value
import Mathlib.Data.List.Basic
import Mathlib.Data.List.TakeWhile

/-!
Numbers as they are written, read back. The decimal digits of a number make a word that says nothing but
this number.

Main facts:
* `integer?_toDigits`: the digits of a number give it back;
* `scalarOf?_digits`, `scalarOf?_minus`: a word of digits is a whole number or nothing, with a minus before
  it or without one;
* `valueWithin_word`: a word that is a whole number is read as its value.
-/

namespace FixedArena.Toml

variable {n : Nat} {w rest : List Char} {c : Char}

/-! ### Digits -/

theorem plainDigits?_eq {isDigit : Char → Bool} (hne : w ≠ []) (hw : ∀ c ∈ w, isDigit c)
    (hu : isDigit '_' = false) : plainDigits? isDigit w = some w := by
  fun_induction plainDigits? isDigit w with
  | case1 => exact absurd rfl hne
  | case2 c hc => rfl
  | case3 c hc => simp_all
  | case4 c cs hc ih => simp_all
  | case5 c cs hc => simp_all
  | case6 c cs hcs hc hd ih =>
    have hne' : cs ≠ [] := by simpa using hcs
    rw [ih hne' fun c hm => hw c (List.mem_cons_of_mem _ hm)]
    rfl
  | case7 c cs => simp_all

theorem digitValue_eq (hc : c.isDigit) : digitValue c = c.toNat - '0'.toNat := by
  simp [digitValue, hexDigit?, hc]

theorem ofDigits_toDigits (n : Nat) : ofDigits 10 (Nat.toDigits 10 n) = n := by
  have hfold : ofDigits 10 (Nat.toDigits 10 n) = Nat.ofDigitChars 10 (Nat.toDigits 10 n) 0 := by
    rw [ofDigits, Nat.ofDigitChars_eq_foldl]
    refine List.foldl_ext _ _ 0 fun k c hc => ?_
    rw [digitValue_eq (Nat.isDigit_of_mem_toDigits (by decide) (by decide) hc)]
  rw [hfold, Nat.ofDigitChars_ten_toDigits]

/-- No digits stand behind a leading zero. -/
theorem toDigits_ne_zero_cons (n : Nat) (d : Char) (ds : List Char) :
    Nat.toDigits 10 n ≠ '0' :: d :: ds := by
  induction n using Nat.strongRecOn generalizing d ds with
  | _ n ih =>
    intro h
    by_cases hn : n < 10
    · rw [Nat.toDigits_of_lt_base hn] at h
      simp at h
    · have hrest := Nat.toDigits_of_base_le (b := 10) (by decide) (Nat.not_lt.1 hn)
      rw [hrest] at h
      have hlt : n / 10 < n := Nat.div_lt_self (by omega) (by decide)
      match hq : Nat.toDigits 10 (n / 10) with
      | [] => exact Nat.toDigits_ne_nil hq
      | [q] =>
        rw [hq] at h
        obtain rfl : q = '0' := by simpa using congrArg List.head? h
        have hzero := ofDigits_toDigits (n / 10)
        rw [hq] at hzero
        have hval : ofDigits 10 ['0'] = 0 := by decide
        omega
      | q :: q' :: qs =>
        rw [hq] at h
        obtain rfl : q = '0' := by simpa using congrArg List.head? h
        exact ih (n / 10) hlt q' qs hq

theorem decimalDigits?_toDigits (n : Nat) :
    decimalDigits? (Nat.toDigits 10 n) = some (Nat.toDigits 10 n) := by
  have hplain : plainDigits? Char.isDigit (Nat.toDigits 10 n) = some (Nat.toDigits 10 n) :=
    plainDigits?_eq Nat.toDigits_ne_nil
      (fun c hc => Nat.isDigit_of_mem_toDigits (by decide) (by decide) hc) rfl
  unfold decimalDigits?
  rw [hplain]
  simp only [Option.bind_eq_bind, Option.bind_some]
  split
  · next h => exact absurd h (toDigits_ne_zero_cons n _ _)
  · rfl

/-! ### Days and times -/

section Times

variable {v : List Char}

theorem isDate_of_tail (h : '-' ∉ v.tail) : isDate v = false := by
  unfold isDate
  split
  · exact absurd (by simp) h
  · rfl

theorem isTime_of_tail (h : ':' ∉ v.tail) : isTime v = false := by
  unfold isTime
  split
  · exact absurd (by simp) h
  · rfl

theorem isMoment_of_tail (hT : 'T' ∉ v.tail) (ht : 't' ∉ v.tail) : isMoment v = false := by
  have hdrop : ∀ c, c ∉ v.tail → ∀ clock, v.drop 10 ≠ c :: clock := by
    intro c hc clock h
    refine hc (List.mem_of_mem_drop (i := 9) ?_)
    rw [List.drop_tail, h]
    exact List.mem_cons_self
  unfold isMoment
  split
  · next h => exact absurd h (hdrop 'T' hT _)
  · next h => exact absurd h (hdrop 't' ht _)
  · rfl

end Times

/-! ### Words of digits -/

section Digits

variable (hw : ∀ c ∈ w, c.isDigit)

include hw

/-- What is no digit does not stand in a word of digits. -/
theorem not_mem_of_digits (hc : c.isDigit = false) : c ∉ w := fun hm => by
  rw [hw c hm] at hc
  cases hc

theorem splitSign_digits : splitSign w = (false, w) := by
  unfold splitSign
  split
  · exact absurd List.mem_cons_self (not_mem_of_digits hw rfl)
  · exact absurd List.mem_cons_self (not_mem_of_digits hw rfl)
  · rfl

theorem integer?_digits : integer? w = (decimalDigits? w).bind (inRange? <| ofDigits 10 ·) := by
  unfold integer?
  split
  · exact absurd (by simp) (not_mem_of_digits (c := 'x') hw rfl)
  · exact absurd (by simp) (not_mem_of_digits (c := 'o') hw rfl)
  · exact absurd (by simp) (not_mem_of_digits (c := 'b') hw rfl)
  · rw [splitSign_digits hw]
    rfl

/-- A word of digits is none of the words that spell something. -/
theorem ne_spelled (t : String) (ht : t.toList.any (!·.isDigit)) : w ≠ t.toList := by
  rintro rfl
  obtain ⟨c, hc, hd⟩ := List.any_eq_true.1 ht
  exact not_mem_of_digits hw (by simpa using hd) hc

/-- Floating-point numbers have a point or a scale. -/
theorem isFloat_of_splitSign {v : List Char} {sign : Bool} (hv : splitSign v = (sign, w)) :
    isFloat v = false := by
  have hall : ∀ cls : Char → Bool, (∀ c, cls c = false → c.isDigit = false) →
      w.takeWhile cls = w ∧ w.dropWhile cls = [] := by
    intro cls h
    have hcls : ∀ c ∈ w, cls c := fun c hc => by
      by_contra hn
      exact not_mem_of_digits hw (h c (by simpa using hn)) hc
    exact ⟨List.takeWhile_eq_self_iff.2 hcls, List.dropWhile_eq_nil_iff.2 hcls⟩
  have he : ∀ c, (!(decide (c = 'e') || decide (c = 'E'))) = false → c.isDigit = false := by
    intro c hc
    by_cases hlow : c = 'e'
    · exact hlow ▸ rfl
    · have hhigh : c = 'E' := by simpa [hlow] using hc
      exact hhigh ▸ rfl
  obtain ⟨hmantissa, hscale⟩ := hall _ he
  obtain ⟨hwhole, hfraction⟩ := hall (fun c => c ≠ '.') (by simp)
  have hinf := ne_spelled hw "inf" (by decide)
  have hnan := ne_spelled hw "nan" (by decide)
  unfold isFloat
  rw [hv]
  dsimp only
  rw [hmantissa, hscale, hwhole, hfraction, decide_eq_false hinf, decide_eq_false hnan]
  cases decimalDigits? w <;> rfl

/-- Digits behind a first character make no day and no time. -/
theorem scalarOf?_of_tail {v : List Char} {sign : Bool} (hv : splitSign v = (sign, w))
    (htail : ∀ c ∈ v.tail, c ∈ w) (htrue : v ≠ "true".toList) (hfalse : v ≠ "false".toList) :
    scalarOf? v = (integer? v).map .integer := by
  have hnot : ∀ c : Char, c.isDigit = false → c ∉ v.tail := fun c hc hm =>
    not_mem_of_digits hw hc (htail c hm)
  unfold scalarOf?
  rw [if_neg htrue, if_neg hfalse, isDate_of_tail (hnot '-' rfl), isTime_of_tail (hnot ':' rfl),
    isMoment_of_tail (hnot 'T' rfl) (hnot 't' rfl), isFloat_of_splitSign hw hv]
  rfl

/-- **A word of digits is a whole number or nothing.** -/
theorem scalarOf?_digits : scalarOf? w = (integer? w).map .integer :=
  scalarOf?_of_tail hw (splitSign_digits hw) (fun _ => List.mem_of_mem_tail)
    (ne_spelled hw "true" (by decide)) (ne_spelled hw "false" (by decide))

/-- A minus before a word of digits changes the sign of its number, and nothing else. -/
theorem scalarOf?_minus : scalarOf? ('-' :: w) =
    ((decimalDigits? w).bind (inRange? <| -ofDigits 10 ·)).map .integer :=
  scalarOf?_of_tail hw rfl (fun _ hc => hc) (by simp) (by simp)

end Digits

/-! ### Numbers -/

theorem isDigit_toDigits (n : Nat) : ∀ c ∈ Nat.toDigits 10 n, c.isDigit := fun _ hc =>
  Nat.isDigit_of_mem_toDigits (by decide) (by decide) hc

/-- **The digits of a number give it back**, if documents can hold it. -/
theorem integer?_toDigits (hn : n < signedLimit) : integer? (Nat.toDigits 10 n) = some (n : Int) := by
  rw [integer?_digits (isDigit_toDigits n), decimalDigits?_toDigits, Option.bind_some,
    ofDigits_toDigits, inRange?, if_pos]
  omega

/-! ### Words that are whole numbers -/

/-- A day of the calendar is no number. -/
theorem isDate_of_integer {m : Int} (hs : scalarOf? w = some (.integer m)) : isDate w = false := by
  by_contra hd
  rw [Bool.not_eq_false] at hd
  unfold scalarOf? at hs
  split_ifs at hs with htrue hfalse htime
  · cases hs
  · cases hs
  · cases hs
  all_goals simp [hd] at htime

/-- **A word that is a whole number** is read as its value, where it ends. -/
theorem word_append {m : Int} (hw : ∀ c ∈ w, isWordChar c) (hs : scalarOf? w = some (.integer m))
    (hr : Reader.Ends isWordChar rest) : word (w ++ rest) = some (.integer m, rest) := by
  unfold word
  rw [Reader.bind_some (Reader.run_append hw hr), hs]
  change (if isDate w then _ else _ : Reader Scalar) rest = _
  rw [isDate_of_integer hs]
  rfl

/-- What begins neither with a quote nor with a bracket or brace is a word. -/
theorem valueWithin_plain (hc : c ≠ '"' ∧ c ≠ '\'' ∧ c ≠ '[' ∧ c ≠ '\x7b') (depth : Nat) :
    valueWithin depth (c :: rest) = (word (c :: rest)).map fun found => (.scalar found.1, found.2) := by
  obtain ⟨hdouble, hsingle, hbracket, hbrace⟩ := hc
  induction depth with
  | zero =>
    rw [valueWithin]
    dsimp only
    split
    · next h => exact absurd (List.cons.inj h).1 hdouble
    · next h => exact absurd (List.cons.inj h).1 hsingle
    · cases word (c :: rest) <;> rfl
  | succ depth ih =>
    rw [valueWithin]
    dsimp only
    split
    · next h => exact absurd (List.cons.inj h).1 hbracket
    · next h => exact absurd (List.cons.inj h).1 hbrace
    · exact ih

theorem valueWithin_word {m : Int} (hne : w ≠ []) (hw : ∀ c ∈ w, isWordChar c)
    (hs : scalarOf? w = some (.integer m)) (hr : Reader.Ends isWordChar rest) (depth : Nat) :
    valueWithin depth (w ++ rest) = some (.scalar (.integer m), rest) := by
  have hword := word_append hw hs hr
  obtain ⟨c, cs, rfl⟩ := List.exists_cons_of_ne_nil hne
  have hc : isWordChar c := hw c List.mem_cons_self
  have hplain : c ≠ '"' ∧ c ≠ '\'' ∧ c ≠ '[' ∧ c ≠ '\x7b' := by
    refine ⟨?_, ?_, ?_, ?_⟩ <;>
    · rintro rfl
      cases hc
  rw [List.cons_append] at hword ⊢
  rw [valueWithin_plain hplain, hword]
  rfl

/-- What begins with a character of another kind is no value. -/
theorem valueWithin_none (hc : isWordChar c = false)
    (hplain : c ≠ '"' ∧ c ≠ '\'' ∧ c ≠ '[' ∧ c ≠ '\x7b') (depth : Nat) :
    valueWithin depth (c :: rest) = none := by
  have hword : word (c :: rest) = none := by
    have hrun : Reader.run isWordChar ([] ++ c :: rest) = some ([], c :: rest) :=
      Reader.run_append (by simp) (Reader.ends_cons.2 hc)
    rw [List.nil_append] at hrun
    unfold word
    rw [Reader.bind_some hrun]
    rfl
  rw [valueWithin_plain hplain, hword]
  rfl

/-! ### Decimals -/

theorem isWordChar_toDigits (n : Nat) : ∀ c ∈ Nat.toDigits 10 n, isWordChar c := by
  intro c hc
  simp [isWordChar, Char.isAlphanum, isDigit_toDigits n c hc]

theorem scalarOf?_toDigits (hn : n < signedLimit) :
    scalarOf? (Nat.toDigits 10 n) = some (.integer n) := by
  rw [scalarOf?_digits (isDigit_toDigits n), integer?_toDigits hn]
  rfl

/-- The digits of a number behind a minus give the number below zero. -/
theorem scalarOf?_minus_toDigits (hn : n ≤ signedLimit) :
    scalarOf? ('-' :: Nat.toDigits 10 n) = some (.integer (-n)) := by
  have hpos : 0 < signedLimit := by decide
  rw [scalarOf?_minus (isDigit_toDigits n), decimalDigits?_toDigits, Option.bind_some,
    ofDigits_toDigits, inRange?, if_pos (by omega)]
  rfl

end FixedArena.Toml
