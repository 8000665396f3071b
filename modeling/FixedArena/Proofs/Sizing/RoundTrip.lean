import FixedArena.Proofs.Store.Capacity
import FixedArena.Proofs.Toml.Lines
import FixedArena.Proofs.Toml.Range
import FixedArena.Sizing.Document

/-!
Writing a sizing and reading it back. The writer knows one form of a document, the reader all of them;
what the one writes, the other reads for the same sizing, and what the reader accepts, the writer can
write.

Main facts:
* `document?_written`: the document of a sizing is read for two tables with its sizes;
* `fits_of_parse`: the sizes of every document fit the numbers of documents;
* `read_back`: what is written is read back, up to the check of the sizing.
-/

namespace FixedArena

open Toml (IsBare IsLine blankLine numberTable tableLines)

/-! ### The document of a sizing -/

/-- The sizes of the block arena by name. -/
def BlockSizing.entries (s : BlockSizing) : List (String × Nat) :=
  [("max_len", s.maxLen), ("max_deques", s.maxDeques)] ++ s.blockSize.toList.map ("item_size", ·)

/-- The sizes of the text pool by name. -/
def TextSizing.entries (s : TextSizing) : List (String × Nat) :=
  [("slots", s.slots), ("max_str_len", s.maxStrLen)]

namespace Sizing

variable {s : Sizing}

/-- The lines of a sizing's document. -/
def lines (s : Sizing) : List (List Char × Option Toml.Line) :=
  tableLines "nodes" s.nodes.entries ++ blankLine :: tableLines "strings" s.strings.entries

/-- The sizes fit the numbers of documents. -/
def Fits (s : Sizing) : Prop := ∀ n ∈ s.sizes, n < signedLimit

theorem toList_written (s : Sizing) : s.written.toList = s.lines.flatMap Prod.fst := by
  obtain ⟨⟨maxLen, maxDeques, blockSize⟩, ⟨slots, maxStrLen⟩⟩ := s
  cases blockSize <;>
    simp [written, writtenSize, lines, tableLines, BlockSizing.entries, TextSizing.entries, Toml.headerLine,
      Toml.numberLine, Toml.valueLine, blankLine]

theorem sizes_eq (s : Sizing) :
    s.sizes = (s.nodes.entries ++ s.strings.entries).map Prod.snd := by
  simp [sizes, BlockSizing.entries, TextSizing.entries, Function.comp_def]

theorem isBare_entries (s : Sizing) :
    ∀ entry ∈ s.nodes.entries ++ s.strings.entries, IsBare entry.1 := by
  have hkeys : ∀ entry ∈ s.nodes.entries ++ s.strings.entries,
      entry.1 ∈ ["max_len", "max_deques", "item_size", "slots", "max_str_len"] := by
    obtain ⟨⟨maxLen, maxDeques, blockSize⟩, ⟨slots, maxStrLen⟩⟩ := s
    cases blockSize <;> simp [BlockSizing.entries, TextSizing.entries]
  have hbare : ["max_len", "max_deques", "item_size", "slots", "max_str_len"].all
      (fun key => decide (IsBare key)) = true := by
    decide
  exact fun entry hentry => of_decide_eq_true (List.all_eq_true.1 hbare entry.1 (hkeys entry hentry))

theorem isLine_lines (h : s.Fits) : ∀ l ∈ s.lines, IsLine l := by
  have hentries : ∀ entry ∈ s.nodes.entries ++ s.strings.entries,
      IsBare entry.1 ∧ entry.2 < signedLimit := fun entry hentry =>
    ⟨isBare_entries s entry hentry, h _ (s.sizes_eq ▸ List.mem_map_of_mem hentry)⟩
  have hnodes : ∀ l ∈ tableLines "nodes" s.nodes.entries, IsLine l :=
    Toml.isLine_table (by decide) fun entry hentry =>
      hentries entry (List.mem_append_left s.strings.entries hentry)
  have hstrings : ∀ l ∈ tableLines "strings" s.strings.entries, IsLine l :=
    Toml.isLine_table (by decide) fun entry hentry =>
      hentries entry (List.mem_append_right s.nodes.entries hentry)
  intro l hl
  obtain hl | hl := List.mem_append.1 hl
  · exact hnodes l hl
  · obtain rfl | hl := List.mem_cons.1 hl
    · exact Toml.isLine_blank
    · exact hstrings l hl

/-- The tables of a sizing. -/
def outline (s : Sizing) : Toml.Outline where
  arrays := []
  tables := [("nodes", numberTable s.nodes.entries), ("strings", numberTable s.strings.entries)]

theorem says_written (h : s.Fits) : Toml.Says s.written s.outline.lines := by
  have hlines : s.lines.filterMap Prod.snd = s.outline.lines := by
    rw [lines, List.filterMap_append, List.filterMap_cons_none rfl, Toml.says_table, Toml.says_table]
    simp [outline, Toml.Outline.lines, Toml.Outline.entries]
  exact Toml.says_lines (isLine_lines h) hlines s.toList_written

/-- **The document of a sizing is read for two tables with its sizes.** -/
theorem document?_written (h : s.Fits) : Toml.document? s.written =
    some [("nodes", .table .header (numberTable s.nodes.entries)),
      ("strings", .table .header (numberTable s.strings.entries))] := by
  have hdistinct : s.outline.Distinct := by
    refine ⟨by simp [outline, Toml.Outline.table, Toml.Outline.entries, Toml.headed], fun t ht => ?_⟩
    simp only [outline, List.mem_cons, List.not_mem_nil, or_false] at ht
    obtain rfl | rfl := ht
    · cases hb : s.nodes.blockSize <;> simp [numberTable, BlockSizing.entries, hb]
    · simp [numberTable, TextSizing.entries]
  rw [Toml.document?_outline (says_written h), if_pos hdistinct]
  rfl

theorem ofTable?_tables (s : Sizing) :
    ofTable? [("nodes", .table .header (numberTable s.nodes.entries)),
      ("strings", .table .header (numberTable s.strings.entries))] = some s := by
  obtain ⟨⟨maxLen, maxDeques, blockSize⟩, ⟨slots, maxStrLen⟩⟩ := s
  cases blockSize <;>
    simp [ofTable?, set?, size?, numberTable, SizeGroup.ofValue?, SizeGroup.ofTable?, SizeGroup.set?,
      List.lookup_cons, BlockSizing.ofValue?, BlockSizing.group, BlockSizing.entries,
      TextSizing.ofValue?, TextSizing.group, TextSizing.entries]

/-- **A sizing is read back as it was written**, if its check passes. -/
theorem parse_written (h : s.Fits) (hcheck : s.check = .ok ()) : parse s.written = .ok s := by
  rw [parse, document?_written h, Option.bind_some, ofTable?_tables]
  simp only [hcheck]

theorem parse_written_error (h : s.Fits) {fault : Fault} (hcheck : s.check = .error fault) :
    parse s.written = .error (.badSizing fault.reason) := by
  rw [parse, document?_written h, Option.bind_some, ofTable?_tables]
  simp only [hcheck]

theorem write?_of_fits (h : s.Fits) : s.write? = some s.written :=
  if_pos (List.all_eq_true.2 fun n hn => decide_eq_true (h n hn))

theorem fits_of_write? {text : String} (h : s.write? = some text) : s.Fits ∧ text = s.written := by
  unfold write? at h
  split at h
  · next hall =>
    exact ⟨fun n hn => of_decide_eq_true (List.all_eq_true.1 hall n hn), (Option.some.inj h).symm⟩
  · cases h

end Sizing

/-! ### The sizes of documents -/

theorem Sizing.size?_lt {v : Toml.Value} {n : Nat} (hv : v.InRange) (h : Sizing.size? v = some n) :
    n < signedLimit := by
  cases hv with
  | @scalar word hword =>
    cases word with
    | integer m =>
      have hm := (hword m rfl).2
      rw [Sizing.size?] at h
      split at h
      · obtain rfl := Option.some.inj h
        omega
      · cases h
    | _ => cases h
  | _ => cases h

namespace SizeGroup

variable {σ : Type} {group : SizeGroup σ} {P : σ → Prop} {s t : σ} {table : Toml.Table} {v : Toml.Value}
  (hput : ∀ e ∈ group, ∀ n s, n < signedLimit → P s → P (e.2 n s)) (hs : P s)

include hput hs

/-- What is kept when sizes of documents are set one by one, is kept by a table of them. -/
theorem keeps_table (ht : table.InRange) (h : group.ofTable? s table = some t) : P t := by
  refine Toml.foldlM_keeps (fun u entry u' hentry hu hset => ?_) hs h
  obtain ⟨put, n, hmem, hn, rfl⟩ := set?_eq_some_iff.1 hset
  exact hput _ (Toml.mem_of_lookup hmem) n u (Sizing.size?_lt (ht entry hentry) hn) hu

theorem keeps_value (hv : v.InRange) (h : group.ofValue? s v = some t) : P t := by
  cases hv with
  | table hentries => exact keeps_table hput hs hentries h
  | array hitems => exact keeps_table hput hs (fun e he => hitems e.2 (List.of_mem_zip he).2) h
  | _ => cases h

end SizeGroup

/-- The numbers of a group fit those of documents. -/
def Sizing.AllFit (entries : List (String × Nat)) : Prop := ∀ entry ∈ entries, entry.2 < signedLimit

open Sizing (AllFit)

theorem BlockSizing.allFit_iff {s : BlockSizing} : AllFit s.entries ↔ s.maxLen < signedLimit ∧
    s.maxDeques < signedLimit ∧ ∀ n, s.blockSize = some n → n < signedLimit := by
  cases hb : s.blockSize <;> simp [AllFit, entries, hb]

theorem BlockSizing.allFit_of_value {v : Toml.Value} {s : BlockSizing} (hv : v.InRange)
    (h : ofValue? v = some s) : AllFit s.entries := by
  refine SizeGroup.keeps_value (P := fun s => AllFit (entries s)) (fun e he n s hn hs => ?_)
    (allFit_iff.2 (by decide)) hv h
  simp only [group, List.mem_cons, List.not_mem_nil, or_false] at he
  obtain rfl | rfl | rfl := he <;> simp_all [allFit_iff]

theorem TextSizing.allFit_iff {s : TextSizing} :
    AllFit s.entries ↔ s.slots < signedLimit ∧ s.maxStrLen < signedLimit := by
  simp [AllFit, entries]

theorem TextSizing.allFit_of_value {v : Toml.Value} {s : TextSizing} (hv : v.InRange)
    (h : ofValue? v = some s) : AllFit s.entries := by
  refine SizeGroup.keeps_value (P := fun s => AllFit (entries s)) (fun e he n s hn hs => ?_)
    (allFit_iff.2 (by decide)) hv h
  simp only [group, List.mem_cons, List.not_mem_nil, or_false] at he
  obtain rfl | rfl := he <;> simp_all [allFit_iff]

namespace Sizing

variable {s : Sizing} {text : String}

theorem fits_iff : s.Fits ↔ AllFit s.nodes.entries ∧ AllFit s.strings.entries := by
  simp only [Fits, AllFit, sizes_eq, List.map_append, List.mem_append, List.mem_map]
  constructor
  · intro h
    exact ⟨fun entry he => h _ (.inl ⟨entry, he, rfl⟩),
      fun entry he => h _ (.inr ⟨entry, he, rfl⟩)⟩
  · rintro ⟨hnodes, hstrings⟩ n (⟨entry, he, rfl⟩ | ⟨entry, he, rfl⟩)
    · exact hnodes entry he
    · exact hstrings entry he

theorem Fits.set? {t : Sizing} {key : String} {v : Toml.Value} (hs : s.Fits) (hv : v.InRange)
    (h : s.set? key v = some t) : t.Fits := by
  obtain ⟨hnodes, hstrings⟩ := fits_iff.1 hs
  unfold Sizing.set? at h
  split at h
  · obtain ⟨nodes, hset, rfl⟩ := Option.map_eq_some_iff.1 h
    exact fits_iff.2 ⟨BlockSizing.allFit_of_value hv hset, hstrings⟩
  split at h
  · obtain ⟨strings, hset, rfl⟩ := Option.map_eq_some_iff.1 h
    exact fits_iff.2 ⟨hnodes, TextSizing.allFit_of_value hv hset⟩
  · cases h

/-- **What the reader accepts, the writer can write.** -/
theorem fits_of_parse (h : parse text = .ok s) : s.Fits := by
  unfold parse at h
  split at h
  · cases h
  · next s' hs' =>
    obtain ⟨root, hroot, htable⟩ := Option.bind_eq_some_iff.1 hs'
    have hfits : s'.Fits := Toml.foldlM_keeps
      (fun _ entry _ hentry hs hset => Fits.set? hs (Toml.document?_inRange hroot entry hentry) hset)
      (fits_iff.2 ⟨BlockSizing.allFit_iff.2 (by decide), TextSizing.allFit_iff.2 (by decide)⟩) htable
    split at h
    · exact Except.ok.inj h ▸ hfits
    · cases h

/-! ### Writing and reading -/

/-- **Writing a sizing and reading it back changes nothing.** A sizing cannot be written just if one of its
sizes is no number of documents. Otherwise the document that is written is read for the same sizing if
its check passes, and for the fault of the check if not. What was read off any text can be written, and is
read back the same. -/
theorem read_back (s : Sizing) :
    (s.write? = none ↔ ∃ n ∈ s.sizes, signedLimit ≤ n) ∧
    (∀ text, s.write? = some text →
      (s.check = .ok () → parse text = .ok s) ∧
      ∀ fault, s.check = .error fault → parse text = .error (.badSizing fault.reason)) ∧
    ∀ text, parse text = .ok s → ∃ text', s.write? = some text' ∧ parse text' = .ok s := by
  refine ⟨write?_eq_none_iff s, fun text h => ?_, fun text h => ?_⟩
  · obtain ⟨hfits, rfl⟩ := fits_of_write? h
    exact ⟨parse_written hfits, fun fault => parse_written_error hfits⟩
  · have hfits := fits_of_parse h
    exact ⟨s.written, write?_of_fits hfits, parse_written hfits (check_of_parse h)⟩

/-- A group of sizes by position, which no document that is written has. -/
def positional : String := "nodes = [64]"

/-- With a size of blocks and without one, with a fault, with a size that is too large, and read off a
document of another form. -/
theorem read_back_samples :
    (∃ text, write? { nodes := { blockSize := some 24 } } = some text ∧
      parse text = .ok { nodes := { blockSize := some 24 } }) ∧
    (∃ text, write? {} = some text ∧ parse text = .ok {}) ∧
    (∃ text, write? { strings := { slots := 0 } } = some text ∧
      parse text = .error (.badSizing "strings.slots must be in 1..65535")) ∧
    write? { nodes := { maxLen := signedLimit } } = none ∧
    parse positional = .ok { nodes := { maxLen := 64 } } ∧
    ∃ text, write? { nodes := { maxLen := 64 } } = some text ∧
      parse text = .ok { nodes := { maxLen := 64 } } := by
  have hparse : parse positional = .ok { nodes := { maxLen := 64 } } := by
    have hsome : (parse positional).toOption = some { nodes := { maxLen := 64 } } := by
      decide +kernel
    cases hp : parse positional with
    | ok s =>
      rw [hp] at hsome
      exact congrArg Except.ok (Option.some.inj hsome)
    | error e =>
      rw [hp] at hsome
      cases hsome
  exact ⟨⟨_, rfl, ((read_back { nodes := { blockSize := some 24 } }).2.1 _ rfl).1 (by decide)⟩,
    ⟨_, rfl, ((read_back {}).2.1 _ rfl).1 (by decide)⟩,
    ⟨_, rfl, ((read_back { strings := { slots := 0 } }).2.1 _ rfl).2 .slotsOutOfRange (by decide)⟩,
    (read_back { nodes := { maxLen := signedLimit } }).1.2 ⟨signedLimit, by decide, by decide⟩,
    hparse, (read_back { nodes := { maxLen := 64 } }).2.2 _ hparse⟩

end Sizing

end FixedArena
