import FixedArena.Proofs.Toml.Outline

/-!
Documents made of plain lines: headers that name one table each, and numbers under bare keys. They are one
of the ways to write an outline.

Main facts:
* `isLine_header`, `isLine_value`, `isLine_number`, `isLine_blank`: each line says what it is said to say;
* `says_table`: a header and numbers below it say a table;
* `linesText`, `says_lines`: lines one after the other are the text of what they say.
-/

namespace FixedArena.Toml

variable {key name : String} {n : Nat}

/-! ### Lines -/

/-- A line that opens a table, and what it says. -/
def headerLine (name : String) : List Char × Option Line :=
  ('[' :: (name.toList ++ [']', '\n']), some (.header [name]))

/-- A line that sets a value which is spelled by `text`, and what it says. -/
def valueLine (key : String) (v : Value) (text : List Char) : List Char × Option Line :=
  (key.toList ++ (" = ".toList ++ (text ++ ['\n'])), some (.entry [key] v))

/-- A line that sets a number, and what it says. -/
def numberLine (key : String) (n : Nat) : List Char × Option Line :=
  valueLine key (.scalar (.integer n)) (Nat.toDigits 10 n)

/-- An empty line, which says nothing. -/
def blankLine : List Char × Option Line := (['\n'], none)

/-- The line says what it is said to say, and ends with a line feed. -/
def IsLine (l : List Char × Option Line) : Prop := ∃ cs, l.1 = cs ++ ['\n'] ∧ LineText cs l.2

theorem isLine_blank : IsLine blankLine := ⟨[], rfl, .quiet trail_nil⟩

theorem isLine_header (hname : IsBare name) : IsLine (headerLine name) := by
  refine ⟨[] ++ '[' :: ([] ++ (name.toList ++ ([] ++ ']' :: []))), by simp [headerLine], ?_⟩
  exact .header (names_bare hname) (by simp) (by simp) (by simp) trail_nil

theorem isLine_value {v : Value} {text : List Char} (hk : IsBare key)
    (hv : Spells nestingLimit v text) : IsLine (valueLine key v text) := by
  refine ⟨[] ++ (key.toList ++ ([' '] ++ '=' :: ([' '] ++ (text ++ [])))), by simp [valueLine], ?_⟩
  exact .entry (names_bare hk) hv (by simp) (by simp [isBlank]) (by simp [isBlank]) trail_nil

theorem isLine_number (hk : IsBare key) (hn : n < signedLimit) : IsLine (numberLine key n) :=
  isLine_value hk (spells_decimal hn)

/-- The lines of a table of numbers. -/
def tableLines (name : String) (entries : List (String × Nat)) : List (List Char × Option Line) :=
  headerLine name :: entries.map fun entry => numberLine entry.1 entry.2

/-- A table of numbers. -/
def numberTable (entries : List (String × Nat)) : Table :=
  entries.map fun entry => (entry.1, .scalar (.integer entry.2))

theorem map_fst_numberTable (entries : List (String × Nat)) :
    (numberTable entries).map Prod.fst = entries.map Prod.fst := by
  simp [numberTable, Function.comp_def]

theorem isLine_table (hname : IsBare name) {entries : List (String × Nat)}
    (h : ∀ entry ∈ entries, IsBare entry.1 ∧ entry.2 < signedLimit) :
    ∀ l ∈ tableLines name entries, IsLine l := by
  intro l hl
  obtain rfl | hl := List.mem_cons.1 hl
  · exact isLine_header hname
  · obtain ⟨entry, hentry, rfl⟩ := List.mem_map.1 hl
    exact isLine_number (h entry hentry).1 (h entry hentry).2

/-! ### What lines say -/

/-- **A header and numbers below it say a table.** -/
theorem says_table (name : String) (entries : List (String × Nat)) :
    (tableLines name entries).filterMap Prod.snd = tableSays (name, numberTable entries) := by
  have hnumbers : (Prod.snd ∘ fun entry : String × Nat => numberLine entry.1 entry.2) =
      some ∘ fun entry => Line.entry [entry.1] (.scalar (.integer entry.2)) := rfl
  rw [tableLines, List.filterMap_cons, List.filterMap_map, hnumbers, List.filterMap_eq_map, tableSays,
    numberTable, List.map_map]
  rfl

/-- **Lines one after the other** are the text of what they say. -/
theorem linesText {lines : List (List Char × Option Line)} (h : ∀ l ∈ lines, IsLine l) :
    LinesText (lines.flatMap Prod.fst) (lines.filterMap Prod.snd) := by
  induction lines with
  | nil => exact .last (.quiet trail_nil)
  | cons l lines ih =>
    obtain ⟨cs, hcs, htext⟩ := h l List.mem_cons_self
    have hlines := LinesText.cons htext .lf (ih fun l' hl' => h l' (List.mem_cons_of_mem l hl'))
    have hsays : (l :: lines).filterMap Prod.snd = l.2.toList ++ lines.filterMap Prod.snd := by
      cases hl : l.2 <;> simp [hl]
    rw [List.flatMap_cons, hcs, List.append_assoc, hsays]
    exact hlines

theorem says_lines {lines : List (List Char × Option Line)} {ls : List Line} {text : String}
    (h : ∀ l ∈ lines, IsLine l) (hls : lines.filterMap Prod.snd = ls)
    (htext : text.toList = lines.flatMap Prod.fst) : Says text ls :=
  ⟨_, hls ▸ linesText h, .inl htext⟩

end FixedArena.Toml
