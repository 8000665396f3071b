import FixedArena.Proofs.Toml.Decimal

/-!
Values as they may be written. A value is spelled by characters that are read for it wherever a value may
end. Numbers are spelled by their digits, and arrays by their values, with commas, blanks, comments and
ends of lines in between.

Main facts:
* `Spells`: the characters are read as the value;
* `spells_integer`, `spells_decimal`, `spells_minus`: whole numbers;
* `Gap`, `gap_append`: what may stand between the values of an array;
* `ArrayText`, `spells_array`: arrays of values that are spelled.
-/

namespace FixedArena.Toml

open Reader (Ends TakesBefore Shortens)

variable {cs rest : List Char} {c : Char} {depth : Nat} {v : Value}

/-! ### Where values end -/

/-- A character that stands behind a value, or begins a comment or the next line. -/
def isStop (c : Char) : Bool := c = '\n' || c = '\r' || c = '#' || c = ',' || c = ']'

/-- **A value may end here**: after blanks, if there are any, the text ends or goes on with something
that is no part of a value. -/
def EndsValue (rest : List Char) : Prop := Ends (fun c => !isStop c) (rest.dropWhile isBlank)

theorem isBlank_iff : isBlank c ↔ c = ' ' ∨ c = '\t' := by simp [isBlank]

theorem isStop_iff : isStop c ↔ c = '\n' ∨ c = '\r' ∨ c = '#' ∨ c = ',' ∨ c = ']' := by
  simp [isStop, or_assoc]

theorem not_isBlank_of_isStop (hc : isStop c) : isBlank c = false := by
  obtain rfl | rfl | rfl | rfl | rfl := isStop_iff.1 hc <;> rfl

theorem endsValue_nil : EndsValue [] := Reader.ends_nil _

theorem endsValue_stop (hc : isStop c) : EndsValue (c :: rest) := by
  rw [EndsValue, List.dropWhile_cons_of_neg (by simp [not_isBlank_of_isStop hc]), Reader.ends_cons, hc]
  rfl

theorem endsValue_blanks (hcs : ∀ c ∈ cs, isBlank c) (hr : EndsValue rest) :
    EndsValue (cs ++ rest) := by
  rwa [EndsValue, List.dropWhile_append_of_pos hcs]

theorem EndsValue.word (hr : EndsValue rest) : Ends isWordChar rest := by
  cases rest with
  | nil => exact Reader.ends_nil _
  | cons c rest =>
    rw [Reader.ends_cons]
    by_cases hb : isBlank c
    · obtain rfl | rfl := isBlank_iff.1 hb <;> rfl
    · rw [EndsValue, List.dropWhile_cons_of_neg hb, Reader.ends_cons, Bool.not_eq_false'] at hr
      obtain rfl | rfl | rfl | rfl | rfl := isStop_iff.1 hr <;> rfl

/-! ### Values -/

/-- **The characters spell a value**, with so many levels of brackets and braces at most: they are read as
this value wherever a value may end. -/
def Spells (depth : Nat) (v : Value) (cs : List Char) : Prop :=
  TakesBefore EndsValue (valueWithin depth) cs v

theorem valueWithin_blank (hc : isBlank c) (depth : Nat) : valueWithin depth (c :: rest) = none := by
  obtain rfl | rfl := isBlank_iff.1 hc <;> exact valueWithin_none rfl (by decide) depth

theorem valueWithin_stop (hc : isStop c) (depth : Nat) : valueWithin depth (c :: rest) = none := by
  obtain rfl | rfl | rfl | rfl | rfl := isStop_iff.1 hc <;>
    exact valueWithin_none rfl (by decide) depth

/-- No value begins with a blank, or with what stands behind values. -/
theorem Spells.exists_cons (h : Spells depth v cs) :
    ∃ c tail, cs = c :: tail ∧ isBlank c = false ∧ isStop c = false := by
  cases cs with
  | nil =>
    have hstop := h [']'] (endsValue_stop rfl)
    rw [List.nil_append, valueWithin_stop rfl] at hstop
    cases hstop
  | cons c tail =>
    have hread := h [] endsValue_nil
    rw [List.append_nil] at hread
    refine ⟨c, tail, rfl, ?_, ?_⟩
    · refine Bool.eq_false_iff.2 fun hc => ?_
      rw [valueWithin_blank hc] at hread
      cases hread
    · refine Bool.eq_false_iff.2 fun hc => ?_
      rw [valueWithin_stop hc] at hread
      cases hread

section Numbers

variable {n : Nat} {m : Int}

/-- **A word that is a whole number** spells it. -/
theorem spells_integer (hne : cs ≠ []) (hcs : ∀ c ∈ cs, isWordChar c)
    (hs : scalarOf? cs = some (.integer m)) : Spells depth (.scalar (.integer m)) cs :=
  fun _ hr => valueWithin_word hne hcs hs hr.word depth

theorem spells_decimal (hn : n < signedLimit) :
    Spells depth (.scalar (.integer n)) (Nat.toDigits 10 n) :=
  spells_integer Nat.toDigits_ne_nil (isWordChar_toDigits n) (scalarOf?_toDigits hn)

theorem spells_minus (hn : n ≤ signedLimit) :
    Spells depth (.scalar (.integer (-n))) ('-' :: Nat.toDigits 10 n) := by
  refine spells_integer (List.cons_ne_nil _ _) ?_ (scalarOf?_minus_toDigits hn)
  simp only [List.mem_cons, forall_eq_or_imp]
  exact ⟨rfl, isWordChar_toDigits n⟩

end Numbers

/-! ### Gaps -/

/-- The end of a line. -/
inductive Newline : List Char → Prop
  | lf : Newline ['\n']
  | crlf : Newline ['\r', '\n']

/-- **What means nothing between values**: blanks, ends of lines, and comments. -/
inductive Gap : List Char → Prop
  | nil : Gap []
  | blank {c : Char} {cs : List Char} (hc : isBlank c) (h : Gap cs) : Gap (c :: cs)
  | newline {nl cs : List Char} (hn : Newline nl) (h : Gap cs) : Gap (nl ++ cs)
  | comment {body nl cs : List Char} (hb : ∀ c ∈ body, isTextChar c) (hn : Newline nl) (h : Gap cs) :
      Gap ('#' :: (body ++ (nl ++ cs)))

/-- One piece of a gap. -/
def gapPiece : Reader Unit :=
  Reader.orElse newline (Reader.orElse comment (Reader.orElse (Reader.char ' ') (Reader.char '\t')))

theorem shortens_gapPiece : Shortens gapPiece := by
  have hchar : ∀ d, Shortens (Reader.char d) := by
    intro d cs a rest h
    cases cs with
    | nil => cases h
    | cons c cs =>
      simp only [Reader.char] at h
      split at h
      · cases h
        simp
      · cases h
  have hcomment : Shortens comment := by
    intro cs a rest h
    cases hc : Reader.char '#' cs with
    | none =>
      rw [comment, Reader.bind_none hc] at h
      cases h
    | some found =>
      obtain ⟨u, tail⟩ := found
      rw [comment, Reader.bind_some hc] at h
      cases h
      have hlt := hchar '#' cs u tail hc
      have hle := List.length_dropWhile_le isTextChar tail
      omega
  have hnewline : Shortens newline := by
    intro cs a rest h
    unfold newline at h
    split at h
    · cases h
      simp
    · cases h
      exact Nat.lt_succ_of_lt (Nat.lt_succ_self _)
    · cases h
  have horElse : ∀ {p q : Reader Unit}, Shortens p → Shortens q → Shortens (Reader.orElse p q) := by
    intro p q hp hq cs a rest h
    unfold Reader.orElse at h
    split at h
    · next found hf => exact hp cs a rest (hf.trans h)
    · exact hq cs a rest h
  exact horElse hnewline (horElse hcomment (horElse (hchar ' ') (hchar '\t')))

/-- A gap goes on behind each of its pieces. -/
theorem gap_piece {u : Unit} (h : gapPiece (c :: cs) = some (u, rest)) : gap (c :: cs) = gap rest := by
  change (Reader.many gapPiece >>= fun _ => pure ()) (c :: cs) =
    (Reader.many gapPiece >>= fun _ => pure ()) rest
  have hmany := Reader.many_some shortens_gapPiece h
  cases hrest : Reader.many gapPiece rest with
  | none =>
    rw [hrest] at hmany
    rw [Reader.bind_none hmany, Reader.bind_none hrest]
  | some found =>
    rw [hrest] at hmany
    rw [Reader.bind_some hmany, Reader.bind_some hrest]

theorem Newline.newline {nl : List Char} (hn : Newline nl) : newline (nl ++ rest) = some ((), rest) := by
  cases hn <;> rfl

theorem Newline.ends {nl : List Char} (hn : Newline nl) : Ends isTextChar (nl ++ rest) := by
  cases hn <;> exact Reader.ends_cons.2 rfl

/-- A comment ends with its line. -/
theorem comment_append {body : List Char} (hb : ∀ c ∈ body, isTextChar c) (hr : Ends isTextChar rest) :
    comment ('#' :: (body ++ rest)) = some ((), rest) := by
  have hrun := Reader.run_append hb hr
  rw [comment, Reader.bind_some (Reader.char_cons '#' _), Reader.bind_some hrun]
  rfl

/-- A gap ends here. -/
def EndsGap (rest : List Char) : Prop := rest ≠ [] → gapPiece rest = none

theorem gap_append (h : Gap cs) (hr : EndsGap rest) : gap (cs ++ rest) = some ((), rest) := by
  induction h with
  | nil =>
    cases rest with
    | nil => rfl
    | cons c tail => exact Reader.bind_some (Reader.many_none (hr (List.cons_ne_nil c tail)))
  | @blank c cs hc h ih =>
    rw [← ih]
    apply gap_piece
    obtain rfl | rfl := isBlank_iff.1 hc <;> rfl
  | @newline nl cs hn h ih =>
    rw [← ih]
    cases hn <;> exact gap_piece rfl
  | @comment body nl cs hb hn h ih =>
    have hcomment : gapPiece ('#' :: (body ++ (nl ++ (cs ++ rest)))) = some ((), nl ++ (cs ++ rest)) :=
      (Reader.orElse_none rfl).trans (Reader.orElse_some (comment_append hb hn.ends))
    have hnewline : gap (nl ++ (cs ++ rest)) = gap (cs ++ rest) := by
      cases hn <;> exact gap_piece rfl
    rw [List.cons_append, List.append_assoc, List.append_assoc, gap_piece hcomment, hnewline, ih]

/-- A value may end before a gap that something follows. -/
theorem endsValue_gap (h : Gap cs) (hr : EndsValue rest) : EndsValue (cs ++ rest) := by
  induction h with
  | nil => exact hr
  | @blank c cs hc h ih =>
    change EndsValue ([c] ++ (cs ++ rest))
    exact endsValue_blanks (by simpa using hc) ih
  | @newline nl cs hn h ih => cases hn <;> exact endsValue_stop rfl
  | comment => exact endsValue_stop rfl

theorem gapPiece_none (hblank : isBlank c = false) (hstop : isStop c = false) :
    gapPiece (c :: rest) = none := by
  have hne : ∀ d, isBlank d = true ∨ isStop d = true → c ≠ d := by
    rintro d hd rfl
    rw [hblank, hstop] at hd
    simp at hd
  have hnewline : newline (c :: rest) = none := by
    unfold newline
    split
    · next h => exact absurd (List.cons.inj h).1 (hne '\n' (.inr rfl))
    · next h => exact absurd (List.cons.inj h).1 (hne '\r' (.inr rfl))
    · rfl
  have hcomment : comment (c :: rest) = none :=
    Reader.bind_none (Reader.char_of_ne (hne '#' (.inr rfl)))
  rw [gapPiece, Reader.orElse_none hnewline, Reader.orElse_none hcomment,
    Reader.orElse_none (Reader.char_of_ne (hne ' ' (.inl rfl))),
    Reader.char_of_ne (hne '\t' (.inl rfl))]

/-- Values begin where gaps end. -/
theorem Spells.endsGap (h : Spells depth v cs) : EndsGap (cs ++ rest) := by
  obtain ⟨c, tail, rfl, hblank, hstop⟩ := h.exists_cons
  exact fun _ => gapPiece_none hblank hstop

/-! ### Arrays -/

/-- A value with gaps around it. -/
def CellText (depth : Nat) (v : Value) (cs : List Char) : Prop :=
  ∃ before text after, cs = before ++ (text ++ after) ∧ Gap before ∧ Spells depth v text ∧ Gap after

/-- What stands before the last bracket: nothing, or one more comma and a gap. -/
def LastComma (last : List Char) : Prop := last = [] ∨ ∃ inside, Gap inside ∧ last = ',' :: inside

/-- **How an array may be written**: values with commas in between, and perhaps one behind the last. -/
inductive ArrayText (depth : Nat) : List Value → List Char → Prop
  | empty {inside : List Char} (h : Gap inside) : ArrayText depth [] ('[' :: (inside ++ [']']))
  | cells {v : Value} {first last : List Char} {others : List (List Char × Value)}
      (hv : CellText depth v first) (ho : ∀ cell ∈ others, CellText depth cell.2 cell.1)
      (hl : LastComma last) :
      ArrayText depth (v :: others.map Prod.snd)
        ('[' :: (first ++ (others.flatMap (fun cell => ',' :: cell.1) ++ (last ++ [']']))))

/-- The reader of one value of an array. -/
def cell (value : Reader Value) : Reader Value := do
  gap
  let v ← value
  gap
  return v

/-- What stands behind a value of an array. -/
def EndsCell (rest : List Char) : Prop := ∃ c tail, rest = c :: tail ∧ (c = ',' ∨ c = ']')

theorem EndsCell.endsValue (hr : EndsCell rest) : EndsValue rest := by
  obtain ⟨c, tail, rfl, rfl | rfl⟩ := hr <;> exact endsValue_stop rfl

theorem EndsCell.endsGap (hr : EndsCell rest) : EndsGap rest := by
  obtain ⟨c, tail, rfl, rfl | rfl⟩ := hr <;> exact fun _ => rfl

theorem takes_cell (h : CellText depth v cs) : TakesBefore EndsCell (cell (valueWithin depth)) cs v := by
  obtain ⟨before, text, after, rfl, hbefore, htext, hafter⟩ := h
  intro rest hr
  rw [List.append_assoc, List.append_assoc, cell, Reader.bind_some (gap_append hbefore htext.endsGap),
    Reader.bind_some (htext _ (endsValue_gap hafter hr.endsValue)),
    Reader.bind_some (gap_append hafter hr.endsGap)]
  rfl

theorem LastComma.endsCell {last : List Char} (hl : LastComma last) : EndsCell (last ++ ']' :: rest) := by
  obtain rfl | ⟨inside, -, rfl⟩ := hl
  · exact ⟨']', rest, rfl, .inr rfl⟩
  · exact ⟨',', _, rfl, .inl rfl⟩

/-- There is no value behind the last comma. -/
theorem cell_none {inside : List Char} (hi : Gap inside) :
    cell (valueWithin depth) (inside ++ ']' :: rest) = none := by
  have hgap : gap (inside ++ ']' :: rest) = some ((), ']' :: rest) := gap_append hi fun _ => rfl
  rw [cell, Reader.bind_some hgap, Reader.bind_none (valueWithin_stop rfl depth)]

/-- The values behind the first, each behind a comma. -/
theorem many_cells {others : List (List Char × Value)} {last : List Char}
    (ho : ∀ cell ∈ others, CellText depth cell.2 cell.1) (hl : LastComma last) :
    Reader.many (do Reader.char ','; cell (valueWithin depth))
      (others.flatMap (fun cell => ',' :: cell.1) ++ (last ++ ']' :: rest)) =
        some (others.map Prod.snd, last ++ ']' :: rest) := by
  let parts := others.map fun cell => (',' :: cell.1, cell.2)
  have hparts : ∀ part ∈ parts, part.1 ≠ [] ∧ (∀ rest, EndsCell (part.1 ++ rest)) ∧
      TakesBefore EndsCell (do Reader.char ','; cell (valueWithin depth)) part.1 part.2 := by
    intro part hpart
    obtain ⟨other, hother, rfl⟩ := List.mem_map.1 hpart
    refine ⟨List.cons_ne_nil _ _, fun rest => ⟨',', _, rfl, .inl rfl⟩, fun rest hr => ?_⟩
    exact (Reader.bind_some (Reader.char_cons ',' _)).trans (takes_cell (ho other hother) rest hr)
  have hstop : last ++ ']' :: rest ≠ [] →
      (do Reader.char ','; cell (valueWithin depth) : Reader Value) (last ++ ']' :: rest) = none := by
    intro _
    obtain rfl | ⟨inside, hi, rfl⟩ := hl
    · exact Reader.bind_none (Reader.char_of_ne (by decide))
    · exact (Reader.bind_some (Reader.char_cons ',' _)).trans (cell_none hi)
  have hmany := Reader.many_stop hparts hl.endsCell hstop
  rwa [List.flatMap_map, List.map_map] at hmany

theorem bracketed_append {items : List Value} (h : ArrayText depth items cs) :
    bracketed (valueWithin depth) (cs ++ rest) = some (items, rest) := by
  cases h with
  | @empty inside hi =>
    have hgap : gap (inside ++ ']' :: rest) = some ((), ']' :: rest) := gap_append hi fun _ => rfl
    have hcells : Reader.orElse (Reader.sepBy (cell (valueWithin depth)) (Reader.char ',')) (pure [])
        (inside ++ ']' :: rest) = some ([], inside ++ ']' :: rest) :=
      Reader.orElse_none (Reader.bind_none (cell_none hi))
    rw [List.cons_append, List.append_assoc]
    refine (Reader.bind_some (Reader.char_cons '[' _)).trans ((Reader.bind_some hcells).trans ?_)
    exact (Reader.bind_some hgap).trans (Reader.bind_some (Reader.char_cons ']' rest))
  | @cells v first last others hv ho hl =>
    let behind := others.flatMap (fun cell => ',' :: cell.1) ++ (last ++ ']' :: rest)
    have hends : EndsCell behind := by
      cases others with
      | nil => exact hl.endsCell
      | cons other others => exact ⟨',', _, rfl, .inl rfl⟩
    have hcells : Reader.orElse (Reader.sepBy (cell (valueWithin depth)) (Reader.char ',')) (pure [])
        (first ++ behind) = some (v :: others.map Prod.snd, last ++ ']' :: rest) :=
      Reader.orElse_some ((Reader.bind_some (takes_cell hv behind hends)).trans
        (Reader.bind_some (many_cells ho hl)))
    have hlast : Reader.orElse (do Reader.char ','; gap) (pure ()) (last ++ ']' :: rest) =
        some ((), ']' :: rest) := by
      obtain rfl | ⟨inside, hi, rfl⟩ := hl
      · exact Reader.orElse_none (Reader.bind_none (Reader.char_of_ne (by decide)))
      · exact Reader.orElse_some
          ((Reader.bind_some (Reader.char_cons ',' _)).trans (gap_append hi fun _ => rfl))
    have htext : '[' :: (first ++ (others.flatMap (fun cell => ',' :: cell.1) ++ (last ++ [']']))) ++
        rest = '[' :: (first ++ behind) := by simp [behind]
    rw [htext]
    refine (Reader.bind_some (Reader.char_cons '[' _)).trans ((Reader.bind_some hcells).trans ?_)
    exact (Reader.bind_some hlast).trans (Reader.bind_some (Reader.char_cons ']' rest))

/-- **An array is spelled by its values**, whatever stands between them. -/
theorem spells_array {items : List Value} (h : ArrayText depth items cs) :
    Spells (depth + 1) (.array items) cs := by
  obtain ⟨tail, rfl⟩ : ∃ tail, cs = '[' :: tail := by
    cases h with
    | empty => exact ⟨_, rfl⟩
    | cells => exact ⟨_, rfl⟩
  intro rest _
  have hread : bracketed (valueWithin depth) ('[' :: tail ++ rest) = some (items, rest) :=
    bracketed_append h
  rw [List.cons_append] at hread ⊢
  rw [valueWithin]
  simp only [hread]
  rfl

end FixedArena.Toml
