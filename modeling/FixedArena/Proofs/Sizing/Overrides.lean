import FixedArena.Proofs.Toml.Lines
import FixedArena.Sizing.Document

/-!
Documents that set some of the sizes. A group of sizes may be a table or an array, groups and keys may
stand in any order, and what is not set keeps its default. A document that sets anything else, or sets a
size twice, or to what is no size, is refused.

Main facts:
* `groups`, `given`: what an outline sets, whichever form its groups have;
* `Settles`, `Settles.fold`: values set one by one under distinct keys, told at once;
* `settings_override`: the sizing of a document, for every choice of what it sets.
-/

namespace FixedArena

open Toml (Outline Table Value numberTable)

/-! ### Values set one by one -/

section Fold

variable {σ τ : Type} {set : σ → String → τ → Option σ} {Sound : String → τ → Prop}
  {outcome : σ → List (String × τ) → σ}

/-- One value that cannot be set in any state is enough to fail. -/
theorem foldlM_none {e : String × τ} {es : List (String × τ)} (he : e ∈ es)
    (hbad : ∀ s, set s e.1 e.2 = none) (s : σ) : es.foldlM (fun s e => set s e.1 e.2) s = none := by
  induction es generalizing s with
  | nil => cases he
  | cons e' es ih =>
    rw [List.foldlM_cons]
    obtain rfl | he := List.mem_cons.1 he
    · rw [hbad s]
      rfl
    · cases set s e'.1 e'.2 with
      | none => rfl
      | some s' => exact ih he s'

/-- **Setting sound values one by one comes to `outcome`**, which tells all of them at once. -/
structure Settles (set : σ → String → τ → Option σ) (Sound : String → τ → Prop)
    (outcome : σ → List (String × τ) → σ) : Prop where
  nil : ∀ s, outcome s [] = s
  one : ∀ s key v, Sound key v → set s key v = some (outcome s [(key, v)])
  cons : ∀ s key v es, Sound key v → key ∉ es.map Prod.fst →
    outcome (outcome s [(key, v)]) es = outcome s ((key, v) :: es)

/-- **Sound values under distinct keys are all set.** -/
theorem Settles.fold (h : Settles set Sound outcome) {es : List (String × τ)}
    (hsound : ∀ e ∈ es, Sound e.1 e.2) (hkeys : (es.map Prod.fst).Nodup) (s : σ) :
    es.foldlM (fun s e => set s e.1 e.2) s = some (outcome s es) := by
  induction es generalizing s with
  | nil =>
    rw [h.nil]
    rfl
  | cons e es ih =>
    obtain ⟨hnot, hnodup⟩ := List.nodup_cons.1 hkeys
    have he : Sound e.1 e.2 := hsound e List.mem_cons_self
    rw [List.foldlM_cons, h.one s e.1 e.2 he, Option.bind_eq_bind, Option.bind_some,
      ih (fun e' he' => hsound e' (List.mem_cons_of_mem e he')) hnodup, h.cons s e.1 e.2 es he hnot]

end Fold

/-! ### Sizes of one group -/

namespace Sizing

variable {key : String} {v : Value} {t : Table}

/-- A value that is a size: a whole number, and not a negative one. -/
def IsSize (v : Value) : Prop := ∃ n : Nat, v = .scalar (.integer n)

@[simp] theorem size?_natCast (n : Nat) : size? (.scalar (.integer n)) = some n := by
  simp [size?]

theorem size?_eq_none (hv : ¬IsSize v) : size? v = none := by
  unfold size?
  split
  · next m =>
    refine if_neg fun hm => hv ⟨m.toNat, ?_⟩
    rw [Int.toNat_of_nonneg hm]
  · rfl

theorem isSize_iff : IsSize v ↔ (size? v).isSome := by
  constructor
  · rintro ⟨n, rfl⟩
    rw [size?_natCast]
    rfl
  · intro h
    by_contra hv
    rw [size?_eq_none hv] at h
    cases h

instance (v : Value) : Decidable (IsSize v) := decidable_of_iff _ isSize_iff.symm

/-- The key is one of a group, and the value is a size. -/
def IsSetting (keys : List String) (key : String) (v : Value) : Prop := key ∈ keys ∧ IsSize v

/-- The size that a table sets under a key. -/
def sizeIn (t : Table) (key : String) : Option Nat := (t.lookup key).bind size?

theorem sizeIn_cons : sizeIn ((key, v) :: t) = Function.update (sizeIn t) key (size? v) := by
  funext key'
  by_cases h : key' = key
  · subst h
    simp [sizeIn]
  · rw [sizeIn, List.lookup_cons, beq_false_of_ne h, Function.update_of_ne h]
    rfl

theorem sizeIn_of_notMem (h : key ∉ t.map Prod.fst) : sizeIn t key = none := by
  rw [sizeIn, Toml.lookup_eq_none_iff.2 h]
  rfl

end Sizing

open Sizing (IsSize IsSetting sizeIn sizeIn_cons sizeIn_of_notMem size?_natCast)

namespace SizeGroup

variable {σ : Type} {group : SizeGroup σ} {override : σ → (String → Option Nat) → σ} {key : String}
  {v : Value} {t : Table}

theorem set?_eq_none (s : σ) (h : ¬IsSetting group.keys key v) : group.set? s key v = none := by
  rw [Option.eq_none_iff_forall_not_mem]
  intro s' hs'
  obtain ⟨put, n, hput, hn, -⟩ := set?_eq_some_iff.1 hs'
  have hkey : key ∈ group.keys := List.mem_map_of_mem (Toml.mem_of_lookup hput)
  exact h ⟨hkey, Sizing.isSize_iff.2 (Option.isSome_of_mem hn)⟩

theorem ofTable?_eq_none {e : String × Value} (he : e ∈ t) (hbad : ¬IsSetting group.keys e.1 e.2)
    (s : σ) : group.ofTable? s t = none :=
  foldlM_none he (fun s => set?_eq_none s hbad) s

/-- A setting is set by one of the group. -/
theorem exists_put (hkey : key ∈ group.keys) :
    ∃ put, (key, put) ∈ group ∧
      ∀ s n, group.set? s key (.scalar (.integer (n : Nat))) = some (put n s) := by
  cases hput : group.lookup key with
  | none => exact absurd hkey (Toml.lookup_eq_none_iff.1 hput)
  | some put =>
    exact ⟨put, Toml.mem_of_lookup hput, fun s n =>
      set?_eq_some_iff.2 ⟨put, n, hput, size?_natCast n, rfl⟩⟩

/-- **`override` sets any of the sizes at once**: with none given it changes nothing, and a size that is
not given may be set beforehand. -/
structure Overrides (group : SizeGroup σ) (override : σ → (String → Option Nat) → σ) : Prop where
  nil : ∀ s, override s (fun _ => none) = s
  put : ∀ e ∈ group, ∀ s n given, given e.1 = none →
    override (e.2 n s) given = override s (Function.update given e.1 (some n))

namespace Overrides

variable (h : group.Overrides override)

include h

/-- One size set is one size given. -/
theorem put_eq {put : Nat → σ → σ} (hput : (key, put) ∈ group) (s : σ) (n : Nat) :
    put n s = override s (sizeIn [(key, .scalar (.integer n))]) := by
  rw [sizeIn_cons, size?_natCast, ← h.put _ hput s n (sizeIn []) rfl]
  exact (h.nil _).symm

theorem settles : Settles group.set? (IsSetting group.keys) fun s t => override s (sizeIn t) where
  nil := h.nil
  one s key v hv := by
    obtain ⟨hkey, n, rfl⟩ := hv
    obtain ⟨put, hput, hset⟩ := exists_put hkey
    rw [hset, h.put_eq hput]
  cons s key v t hv hnot := by
    obtain ⟨hkey, n, rfl⟩ := hv
    obtain ⟨put, hput, -⟩ := exists_put hkey
    rw [← h.put_eq hput, h.put _ hput s n _ (sizeIn_of_notMem hnot), sizeIn_cons, size?_natCast]

/-- **A table of settings is read for all of them**, each key once. -/
theorem ofTable?_eq (ht : ∀ e ∈ t, IsSetting group.keys e.1 e.2) (hkeys : (t.map Prod.fst).Nodup)
    (s : σ) : group.ofTable? s t = some (override s (sizeIn t)) :=
  h.settles.fold ht hkeys s

end Overrides

end SizeGroup

/-- The sizing with all the sizes that are given. -/
def BlockSizing.override (s : BlockSizing) (given : String → Option Nat) : BlockSizing where
  maxLen := (given "max_len").getD s.maxLen
  maxDeques := (given "max_deques").getD s.maxDeques
  blockSize := (given "item_size").or s.blockSize

theorem BlockSizing.overrides : group.Overrides override where
  nil s := rfl
  put e he s n given hnone := by
    simp only [group, List.mem_cons, List.not_mem_nil, or_false] at he
    obtain rfl | rfl | rfl := he <;> simp_all [override, Function.update]

/-- The sizing with all the sizes that are given. -/
def TextSizing.override (s : TextSizing) (given : String → Option Nat) : TextSizing where
  slots := (given "slots").getD s.slots
  maxStrLen := (given "max_str_len").getD s.maxStrLen

theorem TextSizing.overrides : group.Overrides override where
  nil s := rfl
  put e he s n given hnone := by
    simp only [group, List.mem_cons, List.not_mem_nil, or_false] at he
    obtain rfl | rfl := he <;> simp_all [override, Function.update]

/-! ### Groups -/

namespace Sizing

variable {o : Outline} {name : String} {t : Table} {s : Sizing}

/-- The keys of the sizes of a group, in the order in which an array gives them. -/
def keysOf (name : String) : List String :=
  if name = "nodes" then BlockSizing.keys else if name = "strings" then TextSizing.keys else []

theorem nodup_keysOf (name : String) : (keysOf name).Nodup := by
  unfold keysOf
  split
  · decide
  · split <;> decide

theorem name_of_mem_keysOf {key : String} (hkey : key ∈ keysOf name) :
    name = "nodes" ∨ name = "strings" := by
  unfold keysOf at hkey
  split at hkey
  · next h => exact .inl h
  · split at hkey
    · next h => exact .inr h
    · cases hkey

/-- **The groups that an outline sets**, by name and then by key. An array gives its values in the order of
the keys, and what is left over is ignored. -/
def groups (o : Outline) : List (String × Table) :=
  o.arrays.map (fun a => (a.1, (keysOf a.1).zip a.2)) ++ o.tables

/-- **The size that an outline gives.** -/
def given (o : Outline) (name key : String) : Option Nat :=
  ((groups o).lookup name).bind (sizeIn · key)

/-- The sizing with all the sizes that are given. -/
def override (s : Sizing) (given : String → String → Option Nat) : Sizing where
  nodes := s.nodes.override (given "nodes")
  strings := s.strings.override (given "strings")

/-- **The outline sets sizes and nothing else**: it has no groups but the two, no keys in them but theirs,
no values but sizes, and sets nothing twice. -/
structure SetsSizes (o : Outline) : Prop where
  distinct : o.Distinct
  names : ∀ g ∈ groups o, g.1 = "nodes" ∨ g.1 = "strings"
  settings : ∀ g ∈ groups o, ∀ e ∈ g.2, IsSetting (keysOf g.1) e.1 e.2

instance (o : Outline) : Decidable (SetsSizes o) :=
  decidable_of_iff (o.Distinct ∧ (∀ g ∈ groups o, g.1 = "nodes" ∨ g.1 = "strings") ∧
      ∀ g ∈ groups o, ∀ e ∈ g.2, e.1 ∈ keysOf g.1 ∧ IsSize e.2)
    ⟨fun h => ⟨h.1, h.2.1, h.2.2⟩, fun h => ⟨h.distinct, h.names, h.settings⟩⟩

/-- The sizing with one group set by name. -/
def setGroup (s : Sizing) (name : String) (t : Table) : Option Sizing :=
  if name = "nodes" then (BlockSizing.ofTable? t).map ({ s with nodes := · })
  else if name = "strings" then (TextSizing.ofTable? t).map ({ s with strings := · })
  else none

theorem set?_table (s : Sizing) (origin : Toml.Origin) :
    s.set? name (.table origin t) = s.setGroup name t := rfl

theorem set?_array (s : Sizing) (items : List Value) :
    s.set? name (.array items) = s.setGroup name ((keysOf name).zip items) := by
  unfold set? setGroup keysOf
  split
  · rfl
  · split <;> rfl

/-- **Both forms of a group come to the same.** -/
theorem ofTable?_table (o : Outline) :
    ofTable? o.table = (groups o).foldlM (fun s g => s.setGroup g.1 g.2) {} := by
  simp only [ofTable?, Outline.table, Outline.entries, groups, List.foldlM_append, List.foldlM_map,
    Toml.headed, set?_array, set?_table]

/-- Keys and sizes of a group, each key once. -/
def IsGroup (name : String) (t : Table) : Prop :=
  (name = "nodes" ∨ name = "strings") ∧ (t.map Prod.fst).Nodup ∧
    ∀ e ∈ t, IsSetting (keysOf name) e.1 e.2

theorem settles : Settles setGroup IsGroup fun s gs =>
    { nodes := ((gs.lookup "nodes").map (BlockSizing.override {} <| sizeIn ·)).getD s.nodes
      strings := ((gs.lookup "strings").map (TextSizing.override {} <| sizeIn ·)).getD s.strings } where
  nil s := rfl
  one s name t h := by
    obtain ⟨rfl | rfl, hkeys, ht⟩ := h
    · simp [setGroup, BlockSizing.ofTable?, BlockSizing.overrides.ofTable?_eq ht hkeys, List.lookup_cons]
    · simp [setGroup, TextSizing.ofTable?, TextSizing.overrides.ofTable?_eq ht hkeys, List.lookup_cons]
  cons s name t gs h hnot := by
    have hnone : gs.lookup name = none := Toml.lookup_eq_none_iff.2 hnot
    obtain ⟨rfl | rfl, -⟩ := h <;> simp [List.lookup_cons, hnone]

theorem setGroup_eq_none_of_name (s : Sizing) (hnodes : name ≠ "nodes") (hstrings : name ≠ "strings") :
    s.setGroup name t = none := by
  rw [setGroup, if_neg hnodes, if_neg hstrings]

theorem setGroup_eq_none_of_setting (s : Sizing) {e : String × Value} (he : e ∈ t)
    (hbad : ¬IsSetting (keysOf name) e.1 e.2) : s.setGroup name t = none := by
  unfold setGroup
  split
  · next hname =>
    subst hname
    have hnone : BlockSizing.ofTable? t = none := SizeGroup.ofTable?_eq_none he hbad {}
    rw [hnone]
    rfl
  · split
    · next hname =>
      subst hname
      have hnone : TextSizing.ofTable? t = none := SizeGroup.ofTable?_eq_none he hbad {}
      rw [hnone]
      rfl
    · rfl

/-! ### Documents -/

theorem map_fst_groups (o : Outline) : (groups o).map Prod.fst = o.table.map Prod.fst := by
  simp [groups, Outline.table, Outline.entries, Toml.headed, Function.comp_def]

/-- No group has a key twice, in either form. -/
theorem nodup_group (ho : o.Distinct) : ∀ g ∈ groups o, (g.2.map Prod.fst).Nodup := by
  intro g hg
  obtain hg | hg := List.mem_append.1 hg
  · obtain ⟨a, -, rfl⟩ := List.mem_map.1 hg
    have hkeys : ((keysOf a.1).zip a.2).map Prod.fst =
        (keysOf a.1).take (min (keysOf a.1).length a.2.length) := by
      rw [List.zip_eq_zip_take_min, List.map_fst_zip (by simp)]
    exact hkeys ▸ (nodup_keysOf a.1).sublist (List.take_sublist _ _)
  · exact ho.2 g hg

/-- An outline that sets sizes is a sizing. -/
theorem ofTable?_of_setsSizes (h : SetsSizes o) : ofTable? o.table = some (override {} (given o)) := by
  have hgroups : ∀ g ∈ groups o, IsGroup g.1 g.2 := fun g hg =>
    ⟨h.names g hg, nodup_group h.distinct g hg, h.settings g hg⟩
  have hnames : ((groups o).map Prod.fst).Nodup := map_fst_groups o ▸ h.distinct.1
  rw [ofTable?_table, settles.fold hgroups hnames]
  unfold override given
  congr 2
  · cases (groups o).lookup "nodes" <;> rfl
  · cases (groups o).lookup "strings" <;> rfl

/-- An outline that does not set sizes is none. -/
theorem ofTable?_of_not_setsSizes (ho : o.Distinct) (h : ¬SetsSizes o) : ofTable? o.table = none := by
  rw [ofTable?_table]
  by_cases hnames : ∀ g ∈ groups o, g.1 = "nodes" ∨ g.1 = "strings"
  · have hbad : ∃ g ∈ groups o, ∃ e ∈ g.2, ¬IsSetting (keysOf g.1) e.1 e.2 := by
      by_contra hall
      push Not at hall
      exact h ⟨ho, hnames, hall⟩
    obtain ⟨g, hg, e, he, hbad⟩ := hbad
    exact foldlM_none hg (fun (s : Sizing) => s.setGroup_eq_none_of_setting he hbad) {}
  · push Not at hnames
    obtain ⟨g, hg, hnodes, hstrings⟩ := hnames
    exact foldlM_none hg (fun (s : Sizing) => s.setGroup_eq_none_of_name hnodes hstrings) {}

variable {text : String}

/-- **A document that sets sizes is read for them**, and for the defaults of the others. -/
theorem document?_setsSizes (ht : Toml.Says text o.lines) (h : SetsSizes o) :
    (Toml.document? text).bind ofTable? = some (override {} (given o)) := by
  rw [Toml.document?_outline ht, if_pos h.distinct, Option.bind_some, ofTable?_of_setsSizes h]

theorem parse_setsSizes (ht : Toml.Says text o.lines) (h : SetsSizes o)
    (hcheck : (override {} (given o)).check = .ok ()) :
    parse text = .ok (override {} (given o)) := by
  rw [parse, document?_setsSizes ht h]
  simp only [hcheck]

theorem parse_setsSizes_error (ht : Toml.Says text o.lines) (h : SetsSizes o) {fault : Fault}
    (hcheck : (override {} (given o)).check = .error fault) :
    parse text = .error (.badSizing fault.reason) := by
  rw [parse, document?_setsSizes ht h]
  simp only [hcheck]

/-- **A document that does not set sizes is refused.** -/
theorem parse_not_setsSizes (ht : Toml.Says text o.lines) (h : ¬SetsSizes o) :
    parse text = .error (.malformed "no document of sizes") := by
  have hnone : (Toml.document? text).bind ofTable? = none := by
    rw [Toml.document?_outline ht]
    by_cases ho : o.Distinct
    · rw [if_pos ho, Option.bind_some, ofTable?_of_not_setsSizes ho h]
    · rw [if_neg ho]
      rfl
  rw [parse, hnone]

/-! ### Every choice can be written -/

section Choice

variable {choice : String → String → Option Nat}

/-- The sizes that are chosen for a group. -/
def chosen (choice : String → String → Option Nat) (name : String) : List (String × Nat) :=
  (keysOf name).filterMap fun key => (choice name key).map (key, ·)

/-- What sets the sizes that are chosen. -/
def choiceOutline (choice : String → String → Option Nat) : Outline where
  arrays := []
  tables := [("nodes", numberTable (chosen choice "nodes")),
    ("strings", numberTable (chosen choice "strings"))]

theorem mem_chosen {e : String × Nat} (he : e ∈ chosen choice name) :
    e.1 ∈ keysOf name ∧ choice name e.1 = some e.2 := by
  obtain ⟨key, hkey, h⟩ := List.mem_filterMap.1 he
  obtain ⟨n, hn, rfl⟩ := Option.map_eq_some_iff.1 h
  exact ⟨hkey, hn⟩

theorem map_fst_chosen_sublist (choice : String → String → Option Nat) (name : String) :
    ((chosen choice name).map Prod.fst).Sublist (keysOf name) := by
  have hfst : (chosen choice name).map Prod.fst =
      (keysOf name).filter fun key => (choice name key).isSome := by
    rw [chosen, List.map_filterMap, ← List.filterMap_eq_filter]
    refine List.filterMap_congr fun key _ => ?_
    cases hc : choice name key <;> simp [Option.guard, hc]
  rw [hfst]
  exact List.filter_sublist

theorem nodup_chosen (choice : String → String → Option Nat) (name : String) :
    ((numberTable (chosen choice name)).map Prod.fst).Nodup :=
  Toml.map_fst_numberTable _ ▸ (nodup_keysOf name).sublist (map_fst_chosen_sublist choice name)

/-- What is chosen under a key is set under it, and nothing is if nothing is chosen. -/
theorem sizeIn_chosen (hkey : key ∈ keysOf name) :
    sizeIn (numberTable (chosen choice name)) key = choice name key := by
  cases hc : choice name key with
  | none =>
    refine sizeIn_of_notMem fun hmem => ?_
    rw [Toml.map_fst_numberTable] at hmem
    obtain ⟨e, he, rfl⟩ := List.mem_map.1 hmem
    rw [(mem_chosen he).2] at hc
    cases hc
  | some n =>
    have hmem : (key, Value.scalar (.integer n)) ∈ numberTable (chosen choice name) :=
      List.mem_map.2 ⟨(key, n), List.mem_filterMap.2 ⟨key, hkey, by rw [hc]; rfl⟩, rfl⟩
    rw [sizeIn, Toml.lookup_of_mem (nodup_chosen choice name) hmem]
    exact size?_natCast n

theorem isSetting_chosen : ∀ e ∈ numberTable (chosen choice name), IsSetting (keysOf name) e.1 e.2 := by
  intro e he
  obtain ⟨entry, hentry, rfl⟩ := List.mem_map.1 he
  exact ⟨(mem_chosen hentry).1, entry.2, rfl⟩

theorem mem_groups_choice {g : String × Table} : g ∈ groups (choiceOutline choice) ↔
    g = ("nodes", numberTable (chosen choice "nodes")) ∨
      g = ("strings", numberTable (chosen choice "strings")) := by
  simp [groups, choiceOutline]

theorem setsSizes_choice (choice : String → String → Option Nat) :
    SetsSizes (choiceOutline choice) where
  distinct := by
    refine ⟨by simp [choiceOutline, Outline.table, Outline.entries, Toml.headed], fun t ht => ?_⟩
    simp only [choiceOutline, List.mem_cons, List.not_mem_nil, or_false] at ht
    obtain rfl | rfl := ht <;> exact nodup_chosen choice _
  names g hg := by
    obtain rfl | rfl := mem_groups_choice.1 hg
    · exact .inl rfl
    · exact .inr rfl
  settings g hg := by
    obtain rfl | rfl := mem_groups_choice.1 hg <;> exact isSetting_chosen

theorem given_choice (hkey : key ∈ keysOf name) :
    given (choiceOutline choice) name key = choice name key := by
  obtain rfl | rfl := name_of_mem_keysOf hkey <;> exact sizeIn_chosen hkey

theorem says_choice (h : ∀ name key n, choice name key = some n → n < signedLimit) :
    ∃ text, Toml.Says text (choiceOutline choice).lines := by
  have hbare : (∀ key ∈ keysOf "nodes", Toml.IsBare key) ∧ ∀ key ∈ keysOf "strings", Toml.IsBare key := by
    decide
  have hline : ∀ name, Toml.IsBare name → (∀ key ∈ keysOf name, Toml.IsBare key) →
      ∀ l ∈ Toml.tableLines name (chosen choice name), Toml.IsLine l := fun name hname hkeys =>
    Toml.isLine_table hname fun e he =>
      ⟨hkeys e.1 (mem_chosen he).1, h name e.1 e.2 (mem_chosen he).2⟩
  let lines := Toml.tableLines "nodes" (chosen choice "nodes") ++
    Toml.tableLines "strings" (chosen choice "strings")
  have hlines : ∀ l ∈ lines, Toml.IsLine l := fun l hl =>
    (List.mem_append.1 hl).elim (hline "nodes" (by decide) hbare.1 l)
      (hline "strings" (by decide) hbare.2 l)
  have hsays : lines.filterMap Prod.snd = (choiceOutline choice).lines := by
    rw [List.filterMap_append, Toml.says_table, Toml.says_table]
    simp [choiceOutline, Outline.lines, Outline.entries]
  exact ⟨String.ofList (lines.flatMap Prod.fst), Toml.says_lines hlines hsays String.toList_ofList⟩

end Choice

/-! ### Sizings of documents -/

/-- What makes a table none of sizes: a key of no size, a key that is given twice, or a negative number. -/
theorem not_setsSizes {t : String × Table} (ht : t ∈ o.tables)
    (hbad : (∃ e ∈ t.2, e.1 ∉ keysOf t.1) ∨ ¬(t.2.map Prod.fst).Nodup ∨
      ∃ e ∈ t.2, ∃ m : Int, m < 0 ∧ e.2 = .scalar (.integer m)) : ¬SetsSizes o := by
  intro h
  have hgroup : t ∈ groups o := List.mem_append_right _ ht
  obtain ⟨e, he, hkey⟩ | hkeys | ⟨e, he, m, hm, hv⟩ := hbad
  · exact hkey (h.settings t hgroup e he).1
  · exact hkeys (h.distinct.2 t ht)
  · obtain ⟨-, n, hn⟩ := h.settings t hgroup e he
    rw [hv] at hn
    injection hn with hn
    injection hn with hn
    omega

/-- **Documents may set some of the sizes, in any order.** Numbers are given by their digits, and arrays by
their values with what may stand in between. Every choice of sizes can be written. Whatever is written, in
whichever layout: if it sets sizes, the sizing is the default with just these sizes, up to its check, and
if not, the document is refused. It is refused if one table has a key of no size, a key twice, or a
negative number. -/
theorem settings_override :
    (∀ depth n, n < signedLimit →
      Toml.Spells depth (.scalar (.integer (n : Nat))) (Nat.toDigits 10 n)) ∧
    (∀ depth n, n ≤ signedLimit →
      Toml.Spells depth (.scalar (.integer (-(n : Nat)))) ('-' :: Nat.toDigits 10 n)) ∧
    (∀ depth items cs, Toml.ArrayText depth items cs → Toml.Spells (depth + 1) (.array items) cs) ∧
    (∀ choice : String → String → Option Nat,
      (∀ name key n, choice name key = some n → n < signedLimit) →
      ∃ text o, Toml.Says text o.lines ∧ SetsSizes o ∧
        ∀ name key, key ∈ keysOf name → given o name key = choice name key) ∧
    ∀ text o, Toml.Says text o.lines →
      (SetsSizes o →
        ((override {} (given o)).check = .ok () → parse text = .ok (override {} (given o))) ∧
        ∀ fault, (override {} (given o)).check = .error fault →
          parse text = .error (.badSizing fault.reason)) ∧
      (¬SetsSizes o → parse text = .error (.malformed "no document of sizes")) ∧
      ∀ t ∈ o.tables, ((∃ e ∈ t.2, e.1 ∉ keysOf t.1) ∨ ¬(t.2.map Prod.fst).Nodup ∨
          ∃ e ∈ t.2, ∃ m : Int, m < 0 ∧ e.2 = .scalar (.integer m)) →
        parse text = .error (.malformed "no document of sizes") := by
  refine ⟨fun _ _ => Toml.spells_decimal, fun _ _ => Toml.spells_minus,
    fun _ _ _ => Toml.spells_array, fun choice h => ?_, fun text o ht => ⟨fun h => ?_, ?_, ?_⟩⟩
  · obtain ⟨text, ht⟩ := says_choice h
    exact ⟨text, choiceOutline choice, ht, setsSizes_choice choice, fun _ _ => given_choice⟩
  · exact ⟨parse_setsSizes ht h, fun _ => parse_setsSizes_error ht h⟩
  · exact parse_not_setsSizes ht
  · exact fun t hmem hbad => parse_not_setsSizes ht (not_setsSizes hmem hbad)

/-- A group by position and a group by name, in another order than they are written. -/
def mixed : String :=
  "# sizes\nstrings = [ 32, ]\r\n\n[nodes]\n\titem_size=24 # bytes\n'max_len' = 64"

/-- What `mixed` says. -/
def mixedOutline : Outline where
  arrays := [("strings", [.scalar (.integer 32)])]
  tables := [("nodes", [("item_size", .scalar (.integer 24)), ("max_len", .scalar (.integer 64))])]

theorem says_mixed : Toml.Says mixed mixedOutline.lines := by
  have hnone : ∀ c ∈ ([] : List Char), Toml.isBlank c := by simp
  have hone : ∀ c ∈ [' '], Toml.isBlank c := by simp [Toml.isBlank]
  have htab : ∀ c ∈ ['\t'], Toml.isBlank c := by simp [Toml.isBlank]
  have hcell : Toml.CellText 78 (.scalar (.integer 32)) [' ', '3', '2'] :=
    ⟨[' '], _, [], rfl, .blank rfl .nil, Toml.spells_decimal (n := 32) (by decide), .nil⟩
  have harray : Toml.Spells 79 (.array [.scalar (.integer 32)]) "[ 32, ]".toList :=
    Toml.spells_array (.cells hcell (List.forall_mem_nil _) (.inr ⟨[' '], .blank rfl .nil, rfl⟩))
  have htitle : Toml.LineText "# sizes".toList none :=
    .quiet ⟨[], "# sizes".toList, rfl, hnone, .inr ⟨" sizes".toList, rfl, by simp [Toml.isTextChar]⟩⟩
  have hstrings : Toml.LineText "strings = [ 32, ]".toList
      (some (.entry ["strings"] (.array [.scalar (.integer 32)]))) :=
    .entry (Toml.names_bare (by decide : Toml.IsBare "strings")) harray hnone hone hone Toml.trail_nil
  have hnodes : Toml.LineText "[nodes]".toList (some (.header ["nodes"])) :=
    .header (Toml.names_bare (by decide : Toml.IsBare "nodes")) hnone hnone hnone Toml.trail_nil
  have hsize : Toml.LineText "\titem_size=24 # bytes".toList
      (some (.entry ["item_size"] (.scalar (.integer 24)))) :=
    .entry (Toml.names_bare (by decide : Toml.IsBare "item_size"))
      (Toml.spells_decimal (n := 24) (by decide)) htab hnone hnone
      ⟨[' '], "# bytes".toList, rfl, hone, .inr ⟨" bytes".toList, rfl, by simp [Toml.isTextChar]⟩⟩
  have hquoted : Toml.Names "max_len" "'max_len'".toList :=
    Toml.names_literal (by simp [Toml.isTextChar])
  have hlen : Toml.LineText "'max_len' = 64".toList
      (some (.entry ["max_len"] (.scalar (.integer 64)))) :=
    .entry hquoted
      (Toml.spells_decimal (n := 64) (by decide)) hnone hone hone Toml.trail_nil
  exact ⟨_, .cons htitle .lf (.cons hstrings .crlf (.cons (.quiet Toml.trail_nil) .lf
    (.cons hnodes .lf (.cons hsize .lf (.last hlen))))), .inl (by decide)⟩

/-- A document with nothing but a table for the text pool. -/
def stringsOutline (t : Table) : Outline := ⟨[], [("strings", t)]⟩

theorem says_strings {text : String} (rows : List (String × Value × List Char))
    (h : ∀ row ∈ rows, Toml.IsBare row.1 ∧ Toml.Spells Toml.nestingLimit row.2.1 row.2.2)
    (htext : text.toList = (Toml.headerLine "strings" ::
      rows.map fun row => Toml.valueLine row.1 row.2.1 row.2.2).flatMap Prod.fst) :
    Toml.Says text (stringsOutline (rows.map fun row => (row.1, row.2.1))).lines := by
  refine Toml.says_lines ?_ ?_ htext
  · rw [List.forall_mem_cons, List.forall_mem_map]
    exact ⟨Toml.isLine_header (by decide),
      fun row hrow => Toml.isLine_value (h row hrow).1 (h row hrow).2⟩
  · simp [stringsOutline, Outline.lines, Outline.entries, Toml.tableSays, Toml.headerLine, Toml.valueLine,
      Toml.entryLine, Function.comp_def]

/-- Two forms in one document, a size out of its range, a key of no size, a key given twice, and a negative
number. -/
theorem settings_override_mixed :
    parse mixed = .ok { nodes := { maxLen := 64, blockSize := some 24 }, strings := { slots := 32 } } ∧
    parse "[strings]\nslots = 0\n" =
      .error (.badSizing "strings.slots must be in 1..65535") ∧
    parse "[strings]\nspare = 1\n" = .error (.malformed "no document of sizes") ∧
    parse "[strings]\nslots = 1\nslots = 2\n" = .error (.malformed "no document of sizes") ∧
    parse "[strings]\nslots = -1\n" = .error (.malformed "no document of sizes") := by
  obtain ⟨hdecimal, hminus, -, -, hparse⟩ := settings_override
  have hslots : Toml.IsBare "slots" := by decide
  have hzero : Toml.Says "[strings]\nslots = 0\n" _ :=
    says_strings [("slots", .scalar (.integer 0), ['0'])]
      (by simpa using ⟨hslots, hdecimal _ 0 (by decide)⟩) (by decide)
  have hspare : Toml.Says "[strings]\nspare = 1\n" _ :=
    says_strings [("spare", .scalar (.integer 1), ['1'])]
      (by simpa using ⟨by decide, hdecimal _ 1 (by decide)⟩) (by decide)
  have htwice : Toml.Says "[strings]\nslots = 1\nslots = 2\n" _ :=
    says_strings [("slots", .scalar (.integer 1), ['1']), ("slots", .scalar (.integer 2), ['2'])]
      (by simpa using ⟨⟨hslots, hdecimal _ 1 (by decide)⟩, hslots, hdecimal _ 2 (by decide)⟩)
      (by decide)
  have hnegative : Toml.Says "[strings]\nslots = -1\n" _ :=
    says_strings [("slots", .scalar (.integer (-1)), ['-', '1'])]
      (by simpa using ⟨hslots, hminus _ 1 (by decide)⟩) (by decide)
  exact ⟨((hparse mixed _ says_mixed).1 (by decide)).1 (by decide),
    ((hparse _ _ hzero).1 (by decide)).2 .slotsOutOfRange (by decide),
    (hparse _ _ hspare).2.2 _ List.mem_cons_self (.inl (by decide)),
    (hparse _ _ htwice).2.2 _ List.mem_cons_self (.inr (.inl (by decide))),
    (hparse _ _ hnegative).2.2 _ List.mem_cons_self
      (.inr (.inr ⟨_, List.mem_cons_self, -1, by decide, rfl⟩))⟩

end Sizing

end FixedArena
