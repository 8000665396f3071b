import FixedArena.Proofs.Toml.Reader
import FixedArena.Toml.Document

/-!
The whole numbers of documents. Whatever a document says and however it is put together, every whole
number in it fits a signed word.

Main facts:
* `Value.InRange`: the whole numbers in a value fit;
* `yields_value`: so it is of all values that are read;
* `document?_inRange`: and of all that a document puts together from them.
-/

namespace FixedArena.Toml

open Reader (Yields)

/-! ### Values -/

/-- If the word is a whole number, then it fits a signed word of 64 bits. -/
def Scalar.InRange (s : Scalar) : Prop :=
  ∀ n, s = .integer n → -(signedLimit : Int) ≤ n ∧ n < signedLimit

/-- **The whole numbers in a value fit a signed word.** -/
inductive Value.InRange : Value → Prop
  | scalar {s : Scalar} (h : s.InRange) : InRange (.scalar s)
  | array {items : List Value} (h : ∀ v ∈ items, InRange v) : InRange (.array items)
  | table {origin : Origin} {entries : List (String × Value)} (h : ∀ e ∈ entries, InRange e.2) :
      InRange (.table origin entries)
  | tables {elements : List (List (String × Value))} (h : ∀ t ∈ elements, ∀ e ∈ t, InRange e.2) :
      InRange (.tables elements)

/-- The whole numbers in a table fit. -/
def Table.InRange (t : Table) : Prop := ∀ e ∈ t, e.2.InRange

/-- What every step of a fold keeps, the fold keeps. -/
theorem foldlM_keeps {σ ι : Type} {P : σ → Prop} {f : σ → ι → Option σ} {l : List ι} {s t : σ}
    (hf : ∀ s x t, x ∈ l → P s → f s x = some t → P t) (hs : P s) (h : l.foldlM f s = some t) :
    P t := by
  induction l generalizing s with
  | nil => exact Option.some.inj h ▸ hs
  | cons x l ih =>
    rw [List.foldlM_cons] at h
    obtain ⟨u, hu, hrest⟩ := Option.bind_eq_some_iff.1 h
    exact ih (fun s y t hy => hf s y t (List.mem_cons_of_mem x hy))
      (hf s x u List.mem_cons_self hs hu) hrest

variable {w : List Char} {n : Int} {s : Scalar} {v : Value} {value : Reader Value}

/-! ### Words -/

theorem inRange?_eq_some {m : Int} (h : inRange? m = some n) :
    -(signedLimit : Int) ≤ n ∧ n < signedLimit := by
  unfold inRange? at h
  split at h
  · next hm => exact Option.some.inj h ▸ hm
  · cases h

theorem integer?_inRange (h : integer? w = some n) : -(signedLimit : Int) ≤ n ∧ n < signedLimit := by
  unfold integer? at h
  split at h
  all_goals
    obtain ⟨m, -, hm⟩ := Option.bind_eq_some_iff.1 h
    exact inRange?_eq_some hm

theorem scalarOf?_inRange (h : scalarOf? w = some s) : s.InRange := by
  intro n hn
  subst hn
  unfold scalarOf? at h
  split at h
  · cases h
  split at h
  · cases h
  split at h
  · cases h
  split at h
  · cases h
  · obtain ⟨m, hm, heq⟩ := Option.map_eq_some_iff.1 h
    cases heq
    exact integer?_inRange hm

theorem yields_word : Yields Scalar.InRange word := by
  refine Reader.yields_bind fun cs => ?_
  refine (Reader.yields_ofOption fun _ => scalarOf?_inRange).bind fun found hfound => ?_
  split
  · exact Reader.yields_bind fun clock => Reader.yields_pure fun n h => by cases h
  · exact Reader.yields_pure hfound

/-! ### Tables -/

namespace Table

variable {t t' : Table} {key : String} {path : List String} {way : Way} {origin : Origin}

theorem InRange.nil : InRange [] := fun e he => by cases he

theorem InRange.append {u : Table} (ht : t.InRange) (hu : u.InRange) : InRange (t ++ u) := by
  intro e he
  exact (List.mem_append.1 he).elim (ht e) (hu e)

theorem InRange.insert (ht : t.InRange) (hv : v.InRange) (h : t.insert key v = some t') :
    t'.InRange := by
  obtain ⟨-, rfl⟩ := insert_eq_some h
  refine ht.append fun e he => ?_
  rw [List.mem_singleton.1 he]
  exact hv

theorem InRange.replace (ht : t.InRange) (hv : v.InRange) : (t.replace key v).InRange := by
  intro e he
  obtain ⟨e', he', rfl⟩ := List.mem_map.1 he
  split
  · exact hv
  · exact ht e' he'

theorem InRange.lookup (ht : t.InRange) (h : t.lookup key = some v) : v.InRange := by
  obtain ⟨l₁, l₂, rfl, -⟩ := List.lookup_eq_some_iff.1 h
  exact ht (key, v) (by simp)

/-- Changes at the end of a path keep numbers that fit, if the changes there do. -/
theorem InRange.alter {f : Origin → Table → Option Table}
    (hf : ∀ origin t t', InRange t → f origin t = some t' → InRange t') (ht : t.InRange)
    (h : alter way f path origin t = some t') : t'.InRange := by
  induction path generalizing origin t t' with
  | nil => exact hf origin t t' ht h
  | cons key path ih =>
    rw [Table.alter] at h
    split at h
    · obtain ⟨inner, hinner, hinsert⟩ := Option.bind_eq_some_iff.1 h
      exact ht.insert (.table (ih .nil hinner)) hinsert
    · next origin' inner hlookup =>
      split at h
      · obtain ⟨inner', hinner, heq⟩ := Option.bind_eq_some_iff.1 h
        obtain rfl := Option.some.inj heq
        cases ht.lookup hlookup with
        | table hold => exact ht.replace (.table (ih hold hinner))
      · cases h
    · next elements hlookup =>
      obtain ⟨last, hlast, h⟩ := Option.bind_eq_some_iff.1 h
      obtain ⟨last', hlast', heq⟩ := Option.bind_eq_some_iff.1 h
      obtain rfl := Option.some.inj heq
      cases ht.lookup hlookup with
      | tables hold =>
        refine ht.replace (.tables fun t htm => ?_)
        obtain htm | htm := List.mem_append.1 htm
        · exact hold t (List.dropLast_subset elements htm)
        · rw [List.mem_singleton.1 htm]
          exact ih (hold last (List.mem_of_getLast? hlast)) hlast'
    · cases h

theorem InRange.insertAt (ht : t.InRange) (hv : v.InRange) (h : t.insertAt path v = some t') :
    t'.InRange := by
  obtain ⟨⟨parents, key⟩, -, halter⟩ := Option.bind_eq_some_iff.1 h
  refine ht.alter (fun origin t t' ht h => ?_) halter
  split at h
  · cases h
  · exact ht.insert hv h

theorem InRange.openTable (ht : t.InRange) (h : t.openTable path = some t') : t'.InRange := by
  obtain ⟨⟨parents, key⟩, -, halter⟩ := Option.bind_eq_some_iff.1 h
  refine ht.alter (fun origin t t' ht h => ?_) halter
  split at h
  · exact ht.insert (.table InRange.nil) h
  · next inner hlookup =>
    obtain rfl := Option.some.inj h
    cases ht.lookup hlookup with
    | table hold => exact ht.replace (.table hold)
  · cases h

theorem InRange.openElement (ht : t.InRange) (h : t.openElement path = some t') : t'.InRange := by
  obtain ⟨⟨parents, key⟩, -, halter⟩ := Option.bind_eq_some_iff.1 h
  refine ht.alter (fun origin t t' ht h => ?_) halter
  split at h
  · exact ht.insert (.tables fun t htm => List.mem_singleton.1 htm ▸ InRange.nil) h
  · next elements hlookup =>
    obtain rfl := Option.some.inj h
    cases ht.lookup hlookup with
    | tables hold =>
      refine ht.replace (.tables fun t htm => ?_)
      obtain htm | htm := List.mem_append.1 htm
      · exact hold t htm
      · exact List.mem_singleton.1 htm ▸ InRange.nil
  · cases h

end Table

/-! ### Reading values -/

section Value

variable (hv : Yields Value.InRange value)

include hv

theorem yields_entry : Yields (fun found => found.2.InRange) (entry value) := by
  refine Reader.yields_bind fun path => Reader.yields_bind fun _ => Reader.yields_bind fun _ => ?_
  exact hv.bind fun v h => Reader.yields_pure h

theorem yields_bracketed : Yields (fun items => ∀ v ∈ items, v.InRange) (bracketed value) := by
  refine Reader.yields_bind fun _ => ?_
  refine (Reader.Yields.orElse (Reader.Yields.sepBy (P := Value.InRange) ?_)
    (Reader.yields_pure (by simp))).bind fun items hitems => ?_
  · exact Reader.yields_bind fun _ => hv.bind fun v h => Reader.yields_bind fun _ =>
      Reader.yields_pure h
  · split
    · exact Reader.yields_bind fun _ => Reader.yields_bind fun _ => Reader.yields_pure hitems
    · exact Reader.yields_bind fun _ => Reader.yields_bind fun _ => Reader.yields_pure hitems

theorem yields_braced : Yields Table.InRange (braced value) := by
  refine Reader.yields_bind fun _ => Reader.yields_bind fun _ => ?_
  refine (Reader.Yields.orElse (Reader.Yields.sepBy (P := fun found => found.2.InRange) ?_)
    (Reader.yields_pure (by simp))).bind fun entries hentries => ?_
  · exact (yields_entry hv).bind fun found h => Reader.yields_bind fun _ => Reader.yields_pure h
  · refine Reader.yields_bind fun _ => Reader.yields_ofOption fun t ht => ?_
    exact foldlM_keeps (fun t found t' hfound ht => ht.insertAt (hentries found hfound)) .nil ht

end Value

theorem yields_valueWithin (depth : Nat) : Yields Value.InRange (valueWithin depth) := by
  induction depth with
  | zero =>
    intro cs v rest h
    have htext : ∀ t : List Char, (Value.scalar (.text (String.ofList t))).InRange := fun t =>
      .scalar fun n h => by cases h
    rw [valueWithin] at h
    dsimp only at h
    split at h
    · obtain ⟨⟨t, rest'⟩, -, heq⟩ := Option.bind_eq_some_iff.1 h
      cases heq
      exact htext t
    · obtain ⟨⟨t, rest'⟩, -, heq⟩ := Option.bind_eq_some_iff.1 h
      cases heq
      exact htext t
    · obtain ⟨⟨found, rest'⟩, hword, heq⟩ := Option.bind_eq_some_iff.1 h
      cases heq
      exact .scalar (yields_word cs found rest' hword)
  | succ depth ih =>
    intro cs v rest h
    rw [valueWithin] at h
    dsimp only at h
    split at h
    · obtain ⟨⟨items, rest'⟩, hitems, heq⟩ := Option.bind_eq_some_iff.1 h
      cases heq
      exact .array (yields_bracketed ih _ items rest' hitems)
    · obtain ⟨⟨entries, rest'⟩, hentries, heq⟩ := Option.bind_eq_some_iff.1 h
      cases heq
      exact .table (yields_braced ih _ entries rest' hentries)
    · exact ih cs v rest h

/-- **The whole numbers of every value that is read fit a signed word.** -/
theorem yields_value : Yields Value.InRange Toml.value := yields_valueWithin nestingLimit

/-! ### Documents -/

/-- The whole numbers in a line fit. -/
def Line.InRange : Line → Prop
  | .header _ | .element _ => True
  | .entry _ v => v.InRange

theorem yields_header : Yields Line.InRange header := by
  intro cs l rest h
  unfold header at h
  split at h
  · refine (Reader.yields_bind fun path => Reader.yields_bind fun _ => Reader.yields_bind fun _ => ?_)
      _ l rest h
    exact Reader.yields_pure (P := Line.InRange) trivial
  · refine (Reader.yields_bind fun _ => Reader.yields_bind fun path => Reader.yields_bind fun _ => ?_)
      _ l rest h
    exact Reader.yields_pure (P := Line.InRange) trivial

/-- If a line says anything, then the whole numbers in it fit. -/
def SaysInRange (found : Option Line) : Prop := ∀ l, found = some l → l.InRange

theorem saysInRange_none : SaysInRange none := fun l h => by cases h

theorem saysInRange_some {l : Line} (hl : l.InRange) : SaysInRange (some l) := fun _ h =>
  Option.some.inj h ▸ hl

theorem yields_line : Yields SaysInRange line := by
  refine Reader.yields_bind fun _ => ?_
  refine Yields.bind (P := SaysInRange) ?_ fun found hfound =>
    Reader.yields_bind fun _ => Reader.yields_pure hfound
  intro cs found rest h
  dsimp only at h
  split at h
  · cases h
    exact saysInRange_none
  · cases h
    exact saysInRange_none
  · cases h
    exact saysInRange_none
  · cases h
    exact saysInRange_none
  · exact (yields_header.bind (Q := SaysInRange) fun l hl =>
      Reader.yields_pure (saysInRange_some hl)) _ found rest h
  · exact ((yields_entry yields_value).bind (Q := SaysInRange) fun e he =>
      Reader.yields_pure (saysInRange_some (l := .entry e.1 e.2) he)) _ found rest h

theorem lines?_inRange {cs : List Char} {lines : List Line} (h : lines? cs = some lines) :
    ∀ l ∈ lines, l.InRange := by
  unfold lines? at h
  obtain ⟨⟨found, rest⟩, hmany, hfound⟩ := Option.bind_eq_some_iff.1 h
  dsimp only at hfound
  split at hfound
  · obtain rfl := Option.some.inj hfound
    intro l hl
    obtain ⟨l?, hl?, heq⟩ := List.mem_filterMap.1 hl
    exact yields_line.many cs found rest hmany l? hl? l heq
  · cases hfound

theorem draft_inRange {d d' : Draft} {l : Line} (hd : d.root.InRange) (hl : l.InRange)
    (h : d.add l = some d') : d'.root.InRange := by
  cases l with
  | header path =>
    obtain ⟨root, hroot, rfl⟩ := Option.map_eq_some_iff.1 h
    exact hd.openTable hroot
  | element path =>
    obtain ⟨root, hroot, rfl⟩ := Option.map_eq_some_iff.1 h
    exact hd.openElement hroot
  | entry path v =>
    obtain ⟨root, hroot, rfl⟩ := Option.map_eq_some_iff.1 h
    exact hd.alter (fun _ t t' ht ht' => ht.insertAt hl ht') hroot

/-- **The whole numbers of every document fit a signed word.** -/
theorem document?_inRange {text : String} {root : Table} (h : document? text = some root) :
    root.InRange := by
  obtain ⟨lines, hlines, h⟩ := Option.bind_eq_some_iff.1 h
  obtain ⟨d, hd, heq⟩ := Option.bind_eq_some_iff.1 h
  obtain rfl := Option.some.inj heq
  exact foldlM_keeps (P := fun d : Draft => d.root.InRange)
    (fun d l d' hl hd hadd => draft_inRange hd (lines?_inRange hlines l hl) hadd) .nil hd

end FixedArena.Toml
