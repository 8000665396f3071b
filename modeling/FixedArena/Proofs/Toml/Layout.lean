import FixedArena.Proofs.Toml.Values
import FixedArena.Toml.Document

/-!
Documents as they may be laid out: a line for each header and each entry, with blanks around every part,
with comments and empty lines anywhere, with ends of lines of both kinds, and with or without one behind
the last line.

Main facts:
* `Names`, `names_bare`: how keys are spelled;
* `LineText`, `line_append`: a line is read for what it says;
* `Says`, `document?_eq_foldlM`: a document says what its lines say, one after the other.
-/

namespace FixedArena.Toml

open Reader (Ends TakesBefore)

variable {cs rest before inside behind : List Char} {c : Char} {key : String} {v : Value}

/-! ### Keys -/

/-- **The characters spell a key**: they are read for it wherever a bare key may end. -/
def Names (key : String) (cs : List Char) : Prop := TakesBefore (Ends isBareChar) simpleKey cs key

/-- The key needs no quotes. -/
def IsBare (key : String) : Prop := key.toList ≠ [] ∧ ∀ c ∈ key.toList, isBareChar c

-- by the characters of the key, not by all characters that there are
instance (key : String) : Decidable (IsBare key) :=
  decidable_of_iff (key.toList ≠ [] ∧ key.toList.all isBareChar = true)
    (and_congr_right fun _ => List.all_eq_true)

/-- A character that a key may begin with. -/
def beginsKey (c : Char) : Bool := isBareChar c || c = '"' || c = '\''

theorem beginsKey_iff : beginsKey c ↔ isBareChar c ∨ c = '"' ∨ c = '\'' := by
  simp [beginsKey, or_assoc]

theorem ne_of_beginsKey {d : Char} (hc : beginsKey c) (hd : beginsKey d = false) : c ≠ d := by
  rintro rfl
  rw [hc] at hd
  cases hd

theorem not_isBlank_of_beginsKey (hc : beginsKey c) : isBlank c = false := by
  refine Bool.eq_false_iff.2 fun hb => ?_
  obtain rfl | rfl := isBlank_iff.1 hb <;> cases hc

theorem simpleKey_plain (hdouble : c ≠ '"') (hsingle : c ≠ '\'') : simpleKey (c :: cs) =
    (bareKey (c :: cs)).map fun found => (String.ofList found.1, found.2) := by
  rw [simpleKey]
  · exact fun tail h => hdouble (List.cons.inj h).1
  · exact fun tail h => hsingle (List.cons.inj h).1

/-- No key is empty, and none begins with a character of another kind. -/
theorem Names.exists_cons (h : Names key cs) : ∃ c tail, cs = c :: tail ∧ beginsKey c := by
  have hread := h [] (Reader.ends_nil _)
  rw [List.append_nil] at hread
  cases cs with
  | nil => cases hread
  | cons c tail =>
    refine ⟨c, tail, rfl, ?_⟩
    by_contra hc
    simp only [beginsKey_iff, not_or, Bool.not_eq_true] at hc
    obtain ⟨hbare, hdouble, hsingle⟩ := hc
    have hrun : Reader.run isBareChar ([] ++ c :: tail) = some ([], c :: tail) :=
      Reader.run_append (by simp) (Reader.ends_cons.2 hbare)
    rw [List.nil_append] at hrun
    have hnone : bareKey (c :: tail) = none := (Reader.bind_some hrun).trans rfl
    rw [simpleKey_plain hdouble hsingle, hnone] at hread
    cases hread

/-- **A bare key spells itself.** -/
theorem names_bare (hk : IsBare key) : Names key key.toList := by
  intro rest hr
  have hbare : bareKey (key.toList ++ rest) = some (key.toList, rest) := by
    rw [bareKey, Reader.bind_some (Reader.run_append hk.2 hr),
      if_neg (by simpa [List.isEmpty_iff] using hk.1)]
    rfl
  obtain ⟨c, cs, hcs⟩ := List.exists_cons_of_ne_nil hk.1
  have hc : isBareChar c := hk.2 c (hcs ▸ List.mem_cons_self)
  have hdouble : c ≠ '"' := by
    rintro rfl
    cases hc
  have hsingle : c ≠ '\'' := by
    rintro rfl
    cases hc
  rw [hcs, List.cons_append] at hbare ⊢
  rw [simpleKey_plain hdouble hsingle, hbare, ← hcs]
  exact congrArg (fun k => some (k, rest)) String.ofList_toList

/-- A key between single quotes. -/
theorem names_literal (hk : ∀ c ∈ key.toList, c ≠ '\'' ∧ isTextChar c) :
    Names key ('\'' :: (key.toList ++ ['\''])) := by
  intro rest _
  have hrun : Reader.run (fun c => c ≠ '\'' && isTextChar c) (key.toList ++ '\'' :: rest) =
      some (key.toList, '\'' :: rest) :=
    Reader.run_append (fun c hc => by simpa using hk c hc) (Reader.ends_cons.2 rfl)
  have hliteral : literalText ('\'' :: (key.toList ++ '\'' :: rest)) = some (key.toList, rest) := by
    refine (Reader.bind_some (Reader.char_cons '\'' _)).trans ((Reader.bind_some hrun).trans ?_)
    exact Reader.bind_some (Reader.char_cons '\'' rest)
  change (literalText ('\'' :: ((key.toList ++ ['\'']) ++ rest))).map _ = _
  rw [List.append_assoc, List.singleton_append, hliteral]
  exact congrArg (fun k => some (k, rest)) String.ofList_toList

/-! ### Paths -/

theorem blanks_append (hcs : ∀ c ∈ cs, isBlank c) (hr : Ends isBlank rest) :
    blanks (cs ++ rest) = some ((), rest) := by
  rw [blanks, Reader.bind_some (Reader.run_append hcs hr)]
  rfl

theorem Names.ends_blank (h : Names key cs) : Ends isBlank (cs ++ rest) := by
  obtain ⟨c, tail, rfl, hc⟩ := h.exists_cons
  exact Reader.ends_cons.2 (not_isBlank_of_beginsKey hc)

/-- Blanks end a bare key. -/
theorem ends_bare (hcs : ∀ c ∈ cs, isBlank c) (hc : isBareChar c = false) :
    Ends isBareChar (cs ++ c :: rest) := by
  cases cs with
  | nil => exact Reader.ends_cons.2 hc
  | cons b bs =>
    refine Reader.ends_cons.2 ?_
    obtain rfl | rfl := isBlank_iff.1 (hcs b List.mem_cons_self) <;> rfl

/-- **A key is a path by itself**, with blanks around it and then something else. -/
theorem keyPath_append (hk : Names key cs) (hbefore : ∀ c ∈ before, isBlank c)
    (hbehind : ∀ c ∈ behind, isBlank c) (hblank : isBlank c = false) (hbare : isBareChar c = false)
    (hdot : c ≠ '.') :
    keyPath (before ++ (cs ++ (behind ++ c :: rest))) = some ([key], c :: rest) := by
  have hfirst : blanks (before ++ (cs ++ (behind ++ c :: rest))) =
      some ((), cs ++ (behind ++ c :: rest)) := blanks_append hbefore hk.ends_blank
  have hname : simpleKey (cs ++ (behind ++ c :: rest)) = some (key, behind ++ c :: rest) :=
    hk _ (ends_bare hbehind hbare)
  have hlast : blanks (behind ++ c :: rest) = some ((), c :: rest) :=
    blanks_append hbehind (Reader.ends_cons.2 hblank)
  have hkey : (do blanks; let key ← simpleKey; blanks; return key : Reader String)
      (before ++ (cs ++ (behind ++ c :: rest))) = some (key, c :: rest) :=
    (Reader.bind_some hfirst).trans ((Reader.bind_some hname).trans (Reader.bind_some hlast))
  have hmany : Reader.many (do
      Reader.char '.'
      (do blanks; let key ← simpleKey; blanks; return key : Reader String)) (c :: rest) =
      some ([], c :: rest) :=
    Reader.many_none (Reader.bind_none (Reader.char_of_ne hdot))
  have hpath : Reader.sepBy (do blanks; let key ← simpleKey; blanks; return key : Reader String)
      (Reader.char '.') (before ++ (cs ++ (behind ++ c :: rest))) = some ([key], c :: rest) :=
    (Reader.bind_some hkey).trans (Reader.bind_some hmany)
  rw [keyPath, Reader.bind_some hpath]
  rfl

/-! ### Headers and entries -/

theorem header_append (hk : Names key cs) (hbefore : ∀ c ∈ before, isBlank c)
    (hbehind : ∀ c ∈ behind, isBlank c) :
    header ('[' :: (before ++ (cs ++ (behind ++ ']' :: rest)))) = some (.header [key], rest) := by
  have hpath : keyPath (before ++ (cs ++ (behind ++ ']' :: rest))) = some ([key], ']' :: rest) :=
    keyPath_append hk hbefore hbehind rfl rfl (by decide)
  obtain ⟨c, tail, hcons, hc⟩ : ∃ c tail,
      before ++ (cs ++ (behind ++ ']' :: rest)) = c :: tail ∧ c ≠ '[' := by
    cases before with
    | nil =>
      obtain ⟨c, tail, rfl, hc⟩ := hk.exists_cons
      exact ⟨c, _, rfl, ne_of_beginsKey hc rfl⟩
    | cons b bs =>
      refine ⟨b, _, rfl, ?_⟩
      obtain rfl | rfl := isBlank_iff.1 (hbefore b List.mem_cons_self) <;> decide
  have hsingle : (do Reader.char '['; let path ← keyPath; Reader.char ']'; return .header path :
      Reader Line) ('[' :: (before ++ (cs ++ (behind ++ ']' :: rest)))) = some (.header [key], rest) :=
    (Reader.bind_some (Reader.char_cons '[' _)).trans
      ((Reader.bind_some hpath).trans (Reader.bind_some (Reader.char_cons ']' rest)))
  rw [hcons] at hsingle ⊢
  rw [header]
  · exact hsingle
  · exact fun tail' h => hc (List.cons.inj (List.cons.inj h).2).1

theorem entry_append {text : List Char} (hk : Names key cs) (hbefore : ∀ c ∈ before, isBlank c)
    (hbehind : ∀ c ∈ behind, isBlank c) (hv : Spells nestingLimit v text) (hr : EndsValue rest) :
    entry value (cs ++ (before ++ '=' :: (behind ++ (text ++ rest)))) = some (([key], v), rest) := by
  have hpath : keyPath ([] ++ (cs ++ (before ++ '=' :: (behind ++ (text ++ rest))))) =
      some ([key], '=' :: (behind ++ (text ++ rest))) :=
    keyPath_append hk (by simp) hbefore rfl rfl (by decide)
  have hblanks : blanks (behind ++ (text ++ rest)) = some ((), text ++ rest) := by
    refine blanks_append hbehind ?_
    obtain ⟨c, tail, rfl, hc, -⟩ := hv.exists_cons
    exact Reader.ends_cons.2 hc
  have hvalue : value (text ++ rest) = some (v, rest) := hv rest hr
  exact (Reader.bind_some hpath).trans ((Reader.bind_some (Reader.char_cons '=' _)).trans
    ((Reader.bind_some hblanks).trans (Reader.bind_some hvalue)))

/-! ### Ends of lines -/

/-- **What may stand at the end of a line**: blanks, and perhaps a comment. -/
def Trail (cs : List Char) : Prop :=
  ∃ blank note, cs = blank ++ note ∧ (∀ c ∈ blank, isBlank c) ∧
    (note = [] ∨ ∃ body, note = '#' :: body ∧ ∀ c ∈ body, isTextChar c)

theorem trail_nil : Trail [] := ⟨[], [], rfl, by simp, .inl rfl⟩

/-- A line breaks off, and this text is left: a line end stands in between, or the text is over. -/
inductive Breaks : List Char → List Char → Prop
  | newline {nl rest : List Char} (hn : Newline nl) : Breaks (nl ++ rest) rest
  | done : Breaks [] []

namespace Breaks

variable {text : List Char} (hb : Breaks text rest)

include hb

theorem ends_text : Ends isTextChar text := by
  cases hb with
  | newline hn => exact hn.ends
  | done => exact Reader.ends_nil _

theorem cases_head : text = [] ∨ ∃ c tail, text = c :: tail ∧ (c = '\n' ∨ c = '\r') := by
  cases hb with
  | newline hn =>
    cases hn with
    | lf => exact .inr ⟨'\n', _, rfl, .inl rfl⟩
    | crlf => exact .inr ⟨'\r', _, rfl, .inr rfl⟩
  | done => exact .inl rfl

theorem endsValue : EndsValue text := by
  obtain rfl | ⟨c, tail, rfl, rfl | rfl⟩ := hb.cases_head
  · exact endsValue_nil
  · exact endsValue_stop rfl
  · exact endsValue_stop rfl

theorem read : Reader.orElse Toml.newline Reader.done text = some ((), rest) := by
  cases hb with
  | newline hn => exact Reader.orElse_some hn.newline
  | done => rfl

end Breaks

/-- The rest of a line, behind its blanks. -/
theorem lineEnd_note {note text : List Char}
    (hnote : note = [] ∨ ∃ body, note = '#' :: body ∧ ∀ c ∈ body, isTextChar c)
    (hb : Breaks text rest) : Ends isBlank (note ++ text) ∧ EndsValue (note ++ text) ∧
      (Reader.orElse comment (pure ()) >>= fun _ => Reader.orElse newline Reader.done)
        (note ++ text) = some ((), rest) := by
  obtain rfl | ⟨body, rfl, hbody⟩ := hnote
  · refine ⟨?_, hb.endsValue, ?_⟩
    · obtain h | ⟨c, tail, h, rfl | rfl⟩ := hb.cases_head <;> rw [h]
      · exact Reader.ends_nil _
      · exact Reader.ends_cons.2 rfl
      · exact Reader.ends_cons.2 rfl
    · have hcomment : Reader.orElse comment (pure ()) ([] ++ text) = some ((), text) := by
        apply Reader.orElse_none
        obtain h | ⟨c, tail, h, rfl | rfl⟩ := hb.cases_head <;> rw [h] <;> rfl
      exact (Reader.bind_some hcomment).trans hb.read
  · refine ⟨Reader.ends_cons.2 rfl, endsValue_stop rfl, ?_⟩
    have hcomment : Reader.orElse comment (pure ()) ('#' :: (body ++ text)) = some ((), text) :=
      Reader.orElse_some (comment_append hbody hb.ends_text)
    exact (Reader.bind_some hcomment).trans hb.read

section Trail

variable {text : List Char} (ht : Trail cs) (hb : Breaks text rest)

include ht hb

theorem lineEnd_append : lineEnd (cs ++ text) = some ((), rest) := by
  obtain ⟨blank, note, rfl, hblank, hnote⟩ := ht
  obtain ⟨hends, -, hread⟩ := lineEnd_note hnote hb
  rw [List.append_assoc]
  exact (Reader.bind_some (blanks_append hblank hends)).trans hread

theorem endsValue_trail : EndsValue (cs ++ text) := by
  obtain ⟨blank, note, rfl, hblank, hnote⟩ := ht
  rw [List.append_assoc]
  exact endsValue_blanks hblank (lineEnd_note hnote hb).2.1

end Trail

/-! ### Lines -/

/-- **How a line may be written**, without its end: it says nothing, or opens a table, or sets a value. -/
inductive LineText : List Char → Option Line → Prop
  | quiet {cs : List Char} (h : Trail cs) : LineText cs none
  | header {key : String} {cs lead before behind trail : List Char} (hk : Names key cs)
      (hlead : ∀ c ∈ lead, isBlank c) (hbefore : ∀ c ∈ before, isBlank c)
      (hbehind : ∀ c ∈ behind, isBlank c) (ht : Trail trail) :
      LineText (lead ++ '[' :: (before ++ (cs ++ (behind ++ ']' :: trail)))) (some (.header [key]))
  | entry {key : String} {v : Value} {cs text lead before behind trail : List Char}
      (hk : Names key cs) (hv : Spells nestingLimit v text) (hlead : ∀ c ∈ lead, isBlank c)
      (hbefore : ∀ c ∈ before, isBlank c) (hbehind : ∀ c ∈ behind, isBlank c) (ht : Trail trail) :
      LineText (lead ++ (cs ++ (before ++ '=' :: (behind ++ (text ++ trail))))) (some (.entry [key] v))

/-- **A line is read for what it says.** -/
theorem line_append {l : Option Line} {text : List Char} (h : LineText cs l) (hb : Breaks text rest) :
    line (cs ++ text) = some (l, rest) := by
  cases h with
  | quiet ht =>
    obtain ⟨blank, note, rfl, hblank, hnote⟩ := ht
    obtain ⟨hends, -, -⟩ := lineEnd_note hnote hb
    have hline : lineEnd (note ++ text) = some ((), rest) :=
      lineEnd_append ⟨[], note, rfl, by simp, hnote⟩ hb
    rw [List.append_assoc]
    refine (Reader.bind_some (blanks_append hblank hends)).trans
      ((Reader.bind_some (?_ : _ = some (none, note ++ text))).trans (Reader.bind_some hline))
    obtain rfl | ⟨body, rfl, -⟩ := hnote
    · obtain h | ⟨c, tail, h, rfl | rfl⟩ := hb.cases_head <;> rw [h] <;> rfl
    · rfl
  | @header key cs lead before behind trail hk hlead hbefore hbehind ht =>
    have hheader : (some <$> header : Reader (Option Line))
        ('[' :: (before ++ (cs ++ (behind ++ ']' :: (trail ++ text))))) =
        some (some (.header [key]), trail ++ text) :=
      Reader.bind_some (header_append hk hbefore hbehind)
    have hblanks : blanks (lead ++ '[' :: (before ++ (cs ++ (behind ++ ']' :: (trail ++ text))))) =
        some ((), '[' :: (before ++ (cs ++ (behind ++ ']' :: (trail ++ text))))) :=
      blanks_append hlead (Reader.ends_cons.2 rfl)
    simp only [List.append_assoc, List.cons_append]
    refine (Reader.bind_some hblanks).trans ?_
    exact (Reader.bind_some hheader).trans (Reader.bind_some (lineEnd_append ht hb))
  | @entry key v cs value lead before behind trail hk hv hlead hbefore hbehind ht =>
    have hentry : entry Toml.value (cs ++ (before ++ '=' :: (behind ++ (value ++ (trail ++ text))))) =
        some (([key], v), trail ++ text) :=
      entry_append hk hbefore hbehind hv (endsValue_trail ht hb)
    have hblanks : blanks (lead ++ (cs ++ (before ++ '=' :: (behind ++ (value ++ (trail ++ text)))))) =
        some ((), cs ++ (before ++ '=' :: (behind ++ (value ++ (trail ++ text))))) :=
      blanks_append hlead hk.ends_blank
    simp only [List.append_assoc, List.cons_append]
    refine (Reader.bind_some hblanks).trans
      ((Reader.bind_some (?_ : _ = some (some (.entry [key] v), trail ++ text))).trans
        (Reader.bind_some (lineEnd_append ht hb)))
    obtain ⟨c, tail, rfl, hc⟩ := hk.exists_cons
    rw [List.cons_append] at hentry ⊢
    -- a key begins with none of the characters that make a line of another kind
    split
    · next h => cases h
    · next h => exact absurd (List.cons.inj h).1 (ne_of_beginsKey hc rfl)
    · next h => exact absurd (List.cons.inj h).1 (ne_of_beginsKey hc rfl)
    · next h => exact absurd (List.cons.inj h).1 (ne_of_beginsKey hc rfl)
    · next h => exact absurd (List.cons.inj h).1 (ne_of_beginsKey hc rfl)
    · exact Reader.bind_some hentry

/-! ### Documents -/

/-- **How the lines of a document may be written**, one after the other, the last one with an end or
without one, and what they say. -/
inductive LinesText : List Char → List Line → Prop
  | last {cs : List Char} {l : Option Line} (h : LineText cs l) : LinesText cs l.toList
  | cons {cs nl rest : List Char} {l : Option Line} {ls : List Line} (h : LineText cs l)
      (hn : Newline nl) (hr : LinesText rest ls) : LinesText (cs ++ (nl ++ rest)) (l.toList ++ ls)

/-- **What a document says**, line by line. A mark of byte order may stand before it. -/
def Says (text : String) (ls : List Line) : Prop :=
  ∃ cs, LinesText cs ls ∧ (text.toList = cs ∨ text.toList = '\ufeff' :: cs)

theorem head_blanks {d : Char} (hd : isBlank d = false) (hcs : ∀ c ∈ cs, isBlank c)
    (hr : rest.head? ≠ some d) : (cs ++ rest).head? ≠ some d := by
  cases cs with
  | nil => exact hr
  | cons b bs =>
    intro h
    rw [← Option.some.inj h, hcs b List.mem_cons_self] at hd
    cases hd

/-- No line begins with a mark of byte order. -/
theorem LineText.head_ne {l : Option Line} {text : List Char} (h : LineText cs l)
    (hb : Breaks text rest) : (cs ++ text).head? ≠ some '\ufeff' := by
  cases h with
  | quiet ht =>
    obtain ⟨blank, note, rfl, hblank, hnote⟩ := ht
    rw [List.append_assoc]
    refine head_blanks rfl hblank ?_
    obtain rfl | ⟨body, rfl, -⟩ := hnote
    · obtain rfl | ⟨c, tail, rfl, rfl | rfl⟩ := hb.cases_head <;> simp
    · simp
  | header hk hlead hbefore hbehind ht =>
    rw [List.append_assoc]
    exact head_blanks rfl hlead (by simp)
  | entry hk hv hlead hbefore hbehind ht =>
    obtain ⟨c, tail, rfl, hc⟩ := hk.exists_cons
    rw [List.append_assoc]
    refine head_blanks rfl hlead fun h => ne_of_beginsKey hc rfl (Option.some.inj h)

theorem LinesText.head_ne {ls : List Line} (h : LinesText cs ls) : cs.head? ≠ some '\ufeff' := by
  cases h with
  | last h =>
    have hne := h.head_ne .done
    rwa [List.append_nil] at hne
  | cons h hn hr => exact h.head_ne (.newline hn)

theorem manyFrom_lines {ls : List Line} (h : LinesText cs ls) (bound : List Char)
    (found : List (Option Line)) (hb : cs.length ≤ bound.length) :
    ∃ more, Reader.manyFrom line bound found cs = (found.reverse ++ more, []) ∧
      more.filterMap id = ls := by
  induction h generalizing bound found with
  | @last cs l h =>
    have hread := line_append h .done
    rw [List.append_nil] at hread
    cases cs with
    | nil =>
      obtain rfl : none = l := (Prod.mk.inj (Option.some.inj hread)).1
      exact ⟨[], by cases bound <;> simp [Reader.manyFrom], rfl⟩
    | cons c tail =>
      obtain ⟨b, bound, rfl⟩ := List.exists_cons_of_length_pos (Nat.lt_of_lt_of_le (by simp) hb)
      refine ⟨[l], ?_, by cases l <;> rfl⟩
      rw [Reader.manyFrom, hread]
      cases bound <;> simp [Reader.manyFrom]
  | @cons cs nl rest l ls h hn hr ih =>
    have hread := line_append h (.newline hn : Breaks (nl ++ rest) rest)
    have hlen : rest.length < (cs ++ (nl ++ rest)).length := by
      cases hn <;> simp <;> omega
    obtain ⟨c, tail, hcons⟩ := List.exists_cons_of_length_pos (Nat.lt_of_le_of_lt (Nat.zero_le _) hlen)
    obtain ⟨b, bound, rfl⟩ :=
      List.exists_cons_of_length_pos (Nat.lt_of_lt_of_le (Nat.lt_of_le_of_lt (Nat.zero_le _) hlen) hb)
    obtain ⟨more, hmore, hls⟩ := ih bound (l :: found) (by rw [List.length_cons] at hb; omega)
    refine ⟨l :: more, ?_, by cases l <;> simp [← hls]⟩
    rw [hcons] at hread ⊢
    rw [Reader.manyFrom, hread]
    simp [hmore]

theorem lines?_of_linesText {ls : List Line} (h : LinesText cs ls) : lines? cs = some ls := by
  obtain ⟨more, hmore, rfl⟩ := manyFrom_lines h cs [] (Nat.le_refl _)
  have hmany : Reader.many line cs = some (more, []) := congrArg some hmore
  rw [lines?, hmany]
  rfl

/-- **A document says what its lines say**, one after the other. -/
theorem document?_eq_foldlM {text : String} {ls : List Line} (h : Says text ls) :
    document? text = (ls.foldlM Draft.add {}).map Draft.root := by
  obtain ⟨cs, hcs, htext⟩ := h
  have hread : (do let lines ← lines? cs; let draft ← lines.foldlM Draft.add {}; some draft.root) =
      (ls.foldlM Draft.add {}).map Draft.root := by
    rw [lines?_of_linesText hcs]
    simp only [Option.bind_eq_bind, Option.bind_some]
    cases ls.foldlM Draft.add {} <;> rfl
  unfold document?
  split
  · next tail hmark =>
    obtain htext | htext := htext
    · exact absurd (by rw [← htext, hmark]; rfl) hcs.head_ne
    · obtain rfl : tail = cs := (List.cons.inj (hmark.symm.trans htext)).2
      exact hread
  · next hmark =>
    obtain htext | htext := htext
    · rw [htext]
      exact hread
    · exact absurd htext (hmark cs)

end FixedArena.Toml
