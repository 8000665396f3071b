import FixedArena.Proofs.Toml.Layout

/-!
Documents in outline: arrays under names of their own, and then tables with a header each. Such a document
is read for just these arrays and tables, if no name is given twice, and not at all otherwise.

Main facts:
* `Outline`, `Outline.lines`, `Outline.root`: what is written, and what is read for it;
* `foldlM_insert`: values are added as long as their keys are new;
* `document?_outline`: the document of an outline.
-/

namespace FixedArena.Toml

variable {key name : String} {v v' : Value} {root t es : Table} {path : List String}

/-! ### Adding values -/

theorem lookup_eq_none_iff {τ : Type} {t : List (String × τ)} :
    t.lookup key = none ↔ key ∉ t.map Prod.fst := by
  rw [List.lookup_eq_none_iff, List.mem_map]
  constructor
  · rintro h ⟨e, he, rfl⟩
    simpa using h e he
  · intro h e he
    rw [bne_iff_ne]
    exact fun hk => h ⟨e, he, hk.symm⟩

theorem mem_of_lookup {τ : Type} {t : List (String × τ)} {v : τ} (hv : t.lookup key = some v) :
    (key, v) ∈ t := by
  obtain ⟨l₁, l₂, rfl, -⟩ := List.lookup_eq_some_iff.1 hv
  exact List.mem_append_right l₁ List.mem_cons_self

theorem lookup_of_mem {τ : Type} {t : List (String × τ)} {v : τ} (ht : (t.map Prod.fst).Nodup)
    (hv : (key, v) ∈ t) : t.lookup key = some v := by
  obtain ⟨l₁, l₂, rfl⟩ := List.append_of_mem hv
  rw [List.map_append, List.nodup_append] at ht
  refine List.lookup_eq_some_iff.2 ⟨l₁, l₂, rfl, fun e he => ?_⟩
  rw [bne_iff_ne]
  exact fun hk => ht.2.2 e.1 (List.mem_map_of_mem he) key (by simp) hk.symm

theorem lookup_last (hk : root.lookup key = none) : (root ++ [(key, v)]).lookup key = some v := by
  simp [List.lookup_append, hk]

theorem replace_last (hk : root.lookup key = none) :
    Table.replace (root ++ [(key, v)]) key v' = root ++ [(key, v')] := by
  have hroot : root.map (fun entry => if entry.1 = key then (key, v') else entry) = root := by
    refine (List.map_congr_left fun entry hentry => ?_).trans (List.map_id root)
    have hne := List.lookup_eq_none_iff.1 hk entry hentry
    exact if_neg fun he => by simp [he] at hne
  rw [Table.replace, List.map_append, hroot]
  simp

theorem nodup_last {e : String × Value} (ht : (t.map Prod.fst).Nodup) (hk : t.lookup e.1 = none) :
    ((t ++ [e]).map Prod.fst).Nodup := by
  rw [List.map_append, List.nodup_append]
  refine ⟨ht, by simp, fun a ha b hb => ?_⟩
  obtain rfl : b = e.1 := by simpa using hb
  rintro rfl
  exact lookup_eq_none_iff.1 hk ha

theorem not_nodup {e : String × Value} (hk : t.lookup e.1 ≠ none) (es : Table) :
    ¬((t ++ e :: es).map Prod.fst).Nodup := by
  rw [ne_eq, lookup_eq_none_iff, not_not] at hk
  rw [List.map_append, List.nodup_append]
  exact fun h => h.2.2 e.1 hk e.1 (by simp) rfl

/-- **Values are added one by one**, as long as their keys are new. -/
theorem foldlM_insert (es : Table) (ht : (t.map Prod.fst).Nodup) :
    es.foldlM (fun (t : Table) e => t.insert e.1 e.2) t =
      if ((t ++ es).map Prod.fst).Nodup then some (t ++ es) else none := by
  induction es generalizing t with
  | nil =>
    rw [List.append_nil, if_pos ht]
    rfl
  | cons e es ih =>
    rw [List.foldlM_cons]
    by_cases hk : t.lookup e.1 = none
    · have hinsert : t.insert e.1 e.2 = some (t ++ [e]) := by rw [Table.insert, hk]
      rw [hinsert, Option.bind_eq_bind, Option.bind_some, ih (nodup_last ht hk), ← List.append_cons]
    · have hinsert : t.insert e.1 e.2 = none :=
        (Table.insert_eq_none_iff ..).2 (Option.isSome_iff_ne_none.2 hk)
      rw [hinsert, if_neg (not_nodup hk es)]
      rfl

/-! ### Lines of a draft -/

/-- An entry of a table, as a line. -/
def entryLine (e : String × Value) : Line := .entry [e.1] e.2

/-- Steps on one state that mean steps on another. -/
theorem foldlM_of_step {σ τ ι κ : Type} {f : σ → ι → Option σ} {g : τ → κ → Option τ} {of : τ → σ}
    {line : κ → ι} (h : ∀ x e, f (of x) (line e) = (g x e).map of) (l : List κ) (x : τ) :
    (l.map line).foldlM f (of x) = (l.foldlM g x).map of := by
  induction l generalizing x with
  | nil => rfl
  | cons e l ih =>
    rw [List.map_cons, List.foldlM_cons, List.foldlM_cons, h]
    cases g x e with
    | none => rfl
    | some y => exact ih y

/-- Values before the first header are added to the root. -/
theorem add_rootEntry (root : Table) (e : String × Value) :
    Draft.add ⟨root, []⟩ (entryLine e) = (root.insert e.1 e.2).map (⟨·, []⟩) := by
  simp [Draft.add, entryLine, Table.alter, Table.insertAt, Table.splitLast]

/-- Values behind a header are added to the table that it opened. -/
theorem add_entry (hname : root.lookup name = none) (t : Table) (e : String × Value) :
    Draft.add ⟨root ++ [(name, .table .header t)], [name]⟩ (entryLine e) =
      (t.insert e.1 e.2).map fun t => ⟨root ++ [(name, .table .header t)], [name]⟩ := by
  have hinsert : t.insertAt [e.1] e.2 = t.insert e.1 e.2 := by
    simp [Table.insertAt, Table.splitLast, Table.alter]
  cases hi : t.insert e.1 e.2 <;>
    simp [Draft.add, entryLine, Table.alter, lookup_last hname, Table.Way.enters, hinsert, hi,
      replace_last hname]

/-- A header opens a table under a name that is not taken. -/
theorem add_header (hname : root.lookup name = none) : Draft.add ⟨root, path⟩ (.header [name]) =
    some ⟨root ++ [(name, .table .header [])], [name]⟩ := by
  simp [Draft.add, Table.openTable, Table.splitLast, Table.alter, hname, Table.insert]

/-- No table of the root came about but by a header of its own. -/
def Explicit (root : Table) : Prop := ∀ e ∈ root, ∀ inner, e.2 ≠ .table .implied inner

/-- A header opens no table under a name that is taken. -/
theorem add_header_none (hroot : Explicit root) (hname : root.lookup name ≠ none) :
    Draft.add ⟨root, path⟩ (.header [name]) = none := by
  obtain ⟨v, hv⟩ := Option.ne_none_iff_exists'.1 hname
  -- what stands under the name is no table that a header could still open
  have hexplicit : ∀ inner, v ≠ .table .implied inner := hroot _ (mem_of_lookup hv)
  have hopen : root.openTable [name] = none := by
    simp only [Table.openTable, Table.splitLast, List.getLast?_singleton, Option.map_some,
      Option.bind_eq_bind, Option.bind_some, List.dropLast_singleton, Table.alter, hv]
  rw [Draft.add, hopen]
  rfl

/-! ### Outlines -/

/-- **What a document of plain form says**: arrays by name, and then tables by name. -/
structure Outline where
  arrays : List (String × List Value)
  tables : List (String × Table)

/-- The lines of a table. -/
def tableSays (t : String × Table) : List Line := .header [t.1] :: t.2.map entryLine

/-- A table with a header, as a value of the root. -/
def headed (t : String × Table) : String × Value := (t.1, .table .header t.2)

namespace Outline

/-- The arrays, as values of the root. -/
def entries (o : Outline) : Table := o.arrays.map fun a => (a.1, .array a.2)

/-- The lines of the document. -/
def lines (o : Outline) : List Line := o.entries.map entryLine ++ o.tables.flatMap tableSays

/-- What the document is read for. -/
def table (o : Outline) : Table := o.entries ++ o.tables.map headed

/-- No name of an array or a table is given twice, and no key of one table. -/
def Distinct (o : Outline) : Prop :=
  (o.table.map Prod.fst).Nodup ∧ ∀ t ∈ o.tables, (t.2.map Prod.fst).Nodup

instance (o : Outline) : Decidable o.Distinct := inferInstanceAs (Decidable (_ ∧ _))

theorem explicit_entries (o : Outline) : Explicit o.entries := by
  intro e he inner h
  obtain ⟨a, -, rfl⟩ := List.mem_map.1 he
  cases h

end Outline

theorem Explicit.headed (hroot : Explicit root) (t : String × Table) :
    Explicit (root ++ [headed t]) := by
  intro e he inner
  rcases List.mem_append.1 he with he | he
  · exact hroot e he inner
  · rw [List.mem_singleton.1 he]
    exact nofun

/-- **Tables are added one by one**, as long as their names are new and their keys are. -/
theorem foldlM_tables (hroot : Explicit root) (hnames : (root.map Prod.fst).Nodup)
    (tables : List (String × Table)) :
    ((tables.flatMap tableSays).foldlM Draft.add ⟨root, path⟩).map Draft.root =
      if ((root ++ tables.map headed).map Prod.fst).Nodup ∧ ∀ t ∈ tables, (t.2.map Prod.fst).Nodup
      then some (root ++ tables.map headed) else none := by
  induction tables generalizing root path with
  | nil => simp [hnames]
  | cons t tables ih =>
    rw [List.flatMap_cons, List.foldlM_append, tableSays, List.foldlM_cons, List.map_cons]
    by_cases hname : root.lookup t.1 = none
    · have hentries := foldlM_of_step (add_entry hname) t.2 []
      have hnil : (([] : Table).map Prod.fst).Nodup := List.nodup_nil
      rw [add_header hname, Option.bind_eq_bind, Option.bind_some, hentries, foldlM_insert t.2 hnil,
        List.nil_append]
      by_cases hkeys : (t.2.map Prod.fst).Nodup
      · have hlast : ((root ++ [headed t]).map Prod.fst).Nodup := nodup_last hnames hname
        rw [if_pos hkeys, Option.map_some, Option.bind_some]
        refine (ih (hroot.headed t) hlast).trans ?_
        rw [← List.append_cons]
        refine if_congr (and_congr_right fun _ => ?_) rfl rfl
        rw [List.forall_mem_cons, and_iff_right hkeys]
      · rw [if_neg hkeys, if_neg fun h => hkeys (h.2 t List.mem_cons_self)]
        rfl
    · have htwice : ¬((root ++ headed t :: tables.map headed).map Prod.fst).Nodup :=
        not_nodup hname (tables.map headed)
      rw [add_header_none hroot hname, if_neg fun h => htwice h.1]
      rfl

/-- **A document in outline is read for its arrays and tables**, if no name is given twice and no key of
one table, and is not read otherwise. -/
theorem document?_outline {text : String} {o : Outline} (h : Says text o.lines) :
    document? text = if o.Distinct then some o.table else none := by
  have hnil : (([] : Table).map Prod.fst).Nodup := List.nodup_nil
  have hentries := foldlM_of_step add_rootEntry o.entries []
  rw [foldlM_insert o.entries hnil, List.nil_append] at hentries
  rw [document?_eq_foldlM h, Outline.lines, List.foldlM_append]
  change ((List.foldlM Draft.add ⟨[], []⟩ _ : Option Draft) >>= _ |>.map Draft.root) = _
  rw [hentries]
  by_cases hnames : (o.entries.map Prod.fst).Nodup
  · rw [if_pos hnames, Option.map_some, Option.bind_eq_bind, Option.bind_some]
    exact foldlM_tables o.explicit_entries hnames o.tables
  · have hdistinct : ¬o.Distinct := by
      intro h
      have hall := h.1
      rw [Outline.table, List.map_append, List.nodup_append] at hall
      exact hnames hall.1
    rw [if_neg hnames, if_neg hdistinct]
    rfl

end FixedArena.Toml
