import FixedArena.Proofs.Text.Catalog

/-!
Runs of calls to a text pool, with handles of any origin and texts of any kind. The pool of bytes
and flags does, call by call, what a map from slots to texts does: every call gets the answer of
the map, and the pool comes to the map that is left.

Main facts:
* `Call`, `Call.spec`: the calls, and what they do to the map;
* `Tidy.comesTo`: one call does to a tidy pool what it does to the map;
* `calls_refined`: after any run the pool comes to the map of the run, reads as the map says, and
  goes on as the map does.
-/

namespace FixedArena

namespace TextPool

variable {p : TextPool} {h : TextHandle} {i : Nat} {e : Entry} {m : Catalog}

/-! ### Entries of handles -/

/-- The state of a slot with this entry. -/
def Entry.state (e : Entry) : SlotState := if e.owned then .owned else .lent

theorem Entry.state_ne_free (e : Entry) : e.state ≠ .free := by
  unfold Entry.state
  split <;> decide

theorem entryOf_eq_some_iff {t : String} {state : SlotState} :
    entryOf t state = some e ↔ state = e.state ∧ t = e.text := by
  obtain ⟨text, owned⟩ := e
  cases state <;> cases owned <;> simp [entryOf, Entry.state]

theorem entryOf_state (e : Entry) (text : String) :
    entryOf text e.state = some { e with text } := by
  rw [entryOf_eq_some_iff]
  exact ⟨rfl, rfl⟩

theorem entries_eq_some_iff :
    p.catalog.entries i = some e ↔ p.slots[i]? = some e.state ∧ p.spelled i = e.text := by
  cases hs : p.slots[i]? with
  | none => simp [catalog, hs]
  | some state => simp [entries_of_slot hs, entryOf_eq_some_iff]

/-- The pool accepts the handles that have an entry. -/
theorem locate_eq (p : TextPool) (h : TextHandle) :
    p.locate h = match p.catalog.find h with
      | some _ => .ok h.index.toNat
      | none => .error (.notAllocated h.index) := by
  unfold locate Catalog.find
  by_cases hid : h.pool = p.id
  · rw [if_neg (not_not.2 hid)]
    change _ = match if h.pool = p.id then p.catalog.entries h.index.toNat else none with
      | some _ => _
      | none => _
    rw [if_pos hid]
    cases hs : p.slots[h.index.toNat]? with
    | none => simp [catalog, hs]
    | some state => cases state <;> simp [entries_of_slot hs, entryOf]
  · rw [if_pos hid]
    change _ = match if h.pool = p.id then p.catalog.entries h.index.toNat else none with
      | some _ => _
      | none => _
    rw [if_neg hid]

/-- An operation that starts with its handle goes on if the handle has an entry. -/
theorem locate_bind_some {β : Type} (hf : p.catalog.find h = some e)
    (g : Nat → Act Error TextPool β) :
    (Act.read (fun p : TextPool => p.locate h) >>= g) p = g h.index.toNat p :=
  Act.read_bind_ok (f := fun p : TextPool => p.locate h) (by rw [locate_eq, hf])

theorem locate_bind_none {β : Type} (hf : p.catalog.find h = none)
    (g : Nat → Act Error TextPool β) :
    (Act.read (fun p : TextPool => p.locate h) >>= g) p =
      ⟨.error (.notAllocated h.index), p, []⟩ :=
  Act.read_bind_error (f := fun p : TextPool => p.locate h) (by rw [locate_eq, hf])

/-! ### Handles without an entry -/

theorem assign_missing (hf : p.catalog.find h = none) (t : String) :
    assign h t p = ⟨.error (.notAllocated h.index), p, []⟩ :=
  (Act.get_bind _ p).trans (locate_bind_none hf _)

theorem append_missing (hf : p.catalog.find h = none) (t : String) :
    append h t p = ⟨.error (.notAllocated h.index), p, []⟩ :=
  (Act.get_bind _ p).trans (locate_bind_none hf _)

theorem copy_missing_target (hf : p.catalog.find h = none) (source : TextHandle) :
    copy h source p = ⟨.error (.notAllocated h.index), p, []⟩ :=
  (Act.get_bind _ p).trans (locate_bind_none hf _)

theorem copy_missing_source {source : TextHandle} (hf : p.catalog.find h = some e)
    (hf' : p.catalog.find source = none) :
    copy h source p = ⟨.error (.notAllocated source.index), p, []⟩ :=
  (Act.get_bind _ p).trans ((locate_bind_some hf _).trans (locate_bind_none hf' _))

/-! ### Handles with an entry -/

theorem entries_of_find (hf : m.find h = some e) : m.entries h.index.toNat = some e := by
  unfold Catalog.find at hf
  split at hf
  · exact hf
  · cases hf

theorem Tidy.content_eq_bytes (hp : p.Tidy) (hi : p.catalog.entries i = some e) :
    p.content i = Text.bytes e.text := by
  rw [hp.content_eq (hi ▸ Option.some_ne_none e), (entries_eq_some_iff.1 hi).2]

/-- **A slot reads as its entry says.** -/
theorem Tidy.text_eq (hp : p.Tidy) (h : TextHandle) :
    p.text h = match p.catalog.find h with
      | some e => .ok e.text
      | none => .error (.notAllocated h.index) := by
  unfold text
  rw [locate_eq]
  cases hf : p.catalog.find h with
  | none => rfl
  | some e =>
    dsimp only [Except.bind, bind]
    rw [hp.content_eq_bytes (entries_of_find hf), Text.ofBytes?_bytes]

theorem Tidy.textLen_eq (hp : p.Tidy) (h : TextHandle) :
    p.textLen h = match p.catalog.find h with
      | some e => .ok (Text.bytes e.text).length
      | none => .error (.notAllocated h.index) := by
  unfold textLen
  rw [locate_eq]
  cases hf : p.catalog.find h with
  | none => rfl
  | some e =>
    dsimp only [Except.bind, bind]
    rw [hp.content_eq_bytes (entries_of_find hf)]
    rfl

/-- The slot that is handed out is the lowest number without an entry. -/
theorem firstFree_eq (p : TextPool) : p.catalog.firstFree = p.slots.findIdx? (· = .free) := by
  have hnone : ∀ i, (hi : i < p.slots.size) →
      (p.catalog.entries i).isNone = decide (p.slots[i] = .free) := by
    intro i hi
    rw [entries_of_slot (Array.getElem?_eq_getElem hi)]
    cases p.slots[i] <;> rfl
  cases hf : p.slots.findIdx? (· = .free) with
  | none =>
    rw [Array.findIdx?_eq_none_iff] at hf
    rw [Catalog.firstFree, List.find?_range_eq_none]
    intro i hi
    rw [hnone i hi, hf _ (Array.getElem_mem hi)]
    rfl
  | some i =>
    obtain ⟨hlt, hfree, hmin⟩ := Array.findIdx?_eq_some_iff_getElem.1 hf
    rw [Catalog.firstFree, List.find?_range_eq_some]
    refine ⟨(hnone i hlt).trans hfree, List.mem_range.2 hlt, fun j hj => ?_⟩
    rw [hnone j (Nat.lt_trans hj hlt), Bool.eq_false_iff.2 (hmin j hj)]
    rfl

/-! ### The calls -/

/-- A call to a pool. -/
inductive Call where
  | allocate
  | free (h : TextHandle)
  | assign (h : TextHandle) (t : String)
  | append (h : TextHandle) (t : String)
  | copy (target source : TextHandle)
  | own (h : TextHandle)
  | disown (h : TextHandle)
  | reclaim (h : TextHandle)

/-- The answer to a call. -/
inductive Answer where
  | handle (h : TextHandle)
  | freed (known : Bool)
  | length (n : Nat)
  | done
  deriving DecidableEq

namespace Call

/-- What a pool does. -/
def act : Call → Act Error TextPool Answer
  | allocate => .handle <$> TextPool.allocate
  | free h => .freed <$> TextPool.free h
  | assign h t => .length <$> TextPool.assign h t
  | append h t => .length <$> TextPool.append h t
  | copy target source => .length <$> TextPool.copy target source
  | own h => (fun _ => .done) <$> TextPool.own h
  | disown h => (fun _ => .done) <$> TextPool.disown h
  | reclaim h => .freed <$> TextPool.reclaim h

/-- The slot that a call may change. -/
def slot (m : Catalog) : Call → Option Nat
  | allocate => m.firstFree
  | free h | assign h _ | append h _ | copy h _ | own h | disown h | reclaim h =>
    some h.index.toNat

/-- What a call does to the map, and the answer to it. -/
def spec (m : Catalog) : Call → Except Error Answer × Catalog
  | allocate =>
    match m.firstFree with
    | some i => (.ok (.handle ⟨m.id, UInt16.ofNat i⟩), m.put i (some ⟨"", false⟩))
    | none => (.error (.full kind m.capacity), m)
  | free h =>
    match m.find h with
    | some ⟨_, false⟩ => (.ok (.freed true), m.put h.index.toNat none)
    | some ⟨_, true⟩ | none => (.ok (.freed false), m)
  | assign h t =>
    match m.find h with
    | some e =>
      let text := Text.clip t m.maxLen
      (.ok (.length (Text.bytes text).length), m.put h.index.toNat (some { e with text }))
    | none => (.error (.notAllocated h.index), m)
  | append h t =>
    match m.find h with
    | some e =>
      let text := e.text ++ Text.clip t (m.maxLen - (Text.bytes e.text).length)
      (.ok (.length (Text.bytes text).length), m.put h.index.toNat (some { e with text }))
    | none => (.error (.notAllocated h.index), m)
  | copy target source =>
    match m.find target, m.find source with
    | some e, some ⟨text, _⟩ =>
      (.ok (.length (Text.bytes text).length), m.put target.index.toNat (some { e with text }))
    | none, _ => (.error (.notAllocated target.index), m)
    | some _, none => (.error (.notAllocated source.index), m)
  | own h =>
    match m.find h with
    | some ⟨t, false⟩ => (.ok .done, m.put h.index.toNat (some ⟨t, true⟩))
    | some ⟨_, true⟩ => (.error (.alreadyOwned h.index), m)
    | none => (.error (.notAllocated h.index), m)
  | disown h =>
    match m.find h with
    | some e => (.ok .done, m.put h.index.toNat (some { e with owned := false }))
    | none => (.ok .done, m)
  | reclaim h =>
    match m.find h with
    | some _ => (.ok (.freed true), m.put h.index.toNat none)
    | none => (.ok (.freed false), m)

end Call

/-! ### One call -/

/-- **An outcome comes to an answer and a map**: the answer is the same, the pool that is left is
tidy and comes to the map, and the bytes of one slot at most are others than before. -/
structure ComesTo (p : TextPool) (out : Outcome Error TextPool Answer)
    (spec : Except Error Answer × Catalog) (slot : Option Nat) : Prop where
  result : out.result = spec.1
  tidy : out.state.Tidy
  catalog : out.state.catalog = spec.2
  content : ∀ j, slot ≠ some j → out.state.content j = p.content j

theorem comesTo_refl (hp : p.Tidy) (r : Except Error Answer) (log : List Event)
    (slot : Option Nat) : ComesTo p ⟨r, p, log⟩ (r, p.catalog) slot :=
  ⟨rfl, hp, rfl, fun _ _ => rfl⟩

theorem Changes.comesTo {p' : TextPool} {old state : SlotState} {t : String}
    (hc : Changes p i old state t p') (hp : p.Tidy) (r : Except Error Answer) (log : List Event) :
    ComesTo p ⟨r, p', log⟩ (r, p.catalog.put i (entryOf t state)) (some i) :=
  ⟨rfl, hc.tidy hp, hc.catalog_eq hp,
    fun _ hj => hc.content_of_ne hp.width fun h => hj (congrArg some h.symm)⟩

section Found

variable (hp : p.Tidy) (hf : p.catalog.find h = some e)

include hf

theorem slot_of_find : p.slots[h.index.toNat]? = some e.state :=
  (entries_eq_some_iff.1 (entries_of_find hf)).1

theorem spelled_of_find : p.spelled h.index.toNat = e.text :=
  (entries_eq_some_iff.1 (entries_of_find hf)).2

include hp

theorem length_text_le : (Text.bytes e.text).length ≤ p.maxLen := by
  rw [← hp.content_eq_bytes (entries_of_find hf)]
  exact hp.length_content_le _

theorem noNul_text : '\x00' ∉ e.text.toList := by
  rw [← Text.zero_mem_bytes_iff, ← hp.content_eq_bytes (entries_of_find hf)]
  exact hp.zero_notMem_content _

/-- The cell of a slot in use is its text, a zero byte, and some rest. -/
theorem cell_of_find :
    ∃ rest, p.slab.cell h.index.toNat = Text.bytes e.text ++ 0 :: rest := by
  have hlt : h.index.toNat < p.capacity := (Array.getElem?_eq_some_iff.1 (slot_of_find hf)).1
  obtain ⟨rest, hrest⟩ := exists_rest (List.mem_of_getElem? (hp.ended _ hlt))
  rw [← content_eq_before hp.width, hp.content_eq_bytes (entries_of_find hf)] at hrest
  exact ⟨rest, hrest⟩

/-- **A text written behind the first bytes of a slot's text.** -/
theorem writeBytes_found (offset : Nat) (s t : String)
    (hs : (p.slab.cell h.index.toNat).take offset = Text.bytes s)
    (hnul : '\x00' ∉ (s ++ t).toList) (hfit : offset + (Text.bytes t).length ≤ p.maxLen) :
    ∃ p', writeBytes h.index.toNat offset (Text.bytes t ++ [0]) p = ⟨.ok (), p', []⟩ ∧
      Changes p h.index.toNat e.state e.state (s ++ t) p' := by
  have hold := slot_of_find hf
  have hlt : h.index.toNat < p.capacity := (Array.getElem?_eq_some_iff.1 hold).1
  have hwidth := hp.maxLen_lt
  have hw : offset + (Text.bytes t ++ [0]).length ≤ p.slab.width := by
    rw [List.length_append, List.length_singleton]
    omega
  exact ⟨_, writeBytes_ok hlt hw, changes_putText hp hold hs hnul hfit⟩

theorem assign_found (t : String) :
    ∃ p', assign h t p = ⟨.ok (Text.bytes (Text.clip t p.maxLen)).length, p', []⟩ ∧
      Changes p h.index.toNat e.state e.state (Text.clip t p.maxLen) p' := by
  have hfit := Text.length_bytes_clip_le t p.maxLen
  obtain ⟨p', hw, hc⟩ := writeBytes_found hp hf 0 "" (Text.clip t p.maxLen)
    (by rw [List.take_zero, Text.bytes_empty])
    (by rw [String.empty_append]; exact Text.clip_noNul t _) (by omega)
  rw [String.empty_append] at hc
  refine ⟨p', ?_, hc⟩
  refine (Act.get_bind _ p).trans ((locate_bind_some hf _).trans ?_)
  exact Act.bind_ok hw

theorem append_found (t : String) :
    let text := e.text ++ Text.clip t (p.maxLen - (Text.bytes e.text).length)
    ∃ p', append h t p = ⟨.ok (Text.bytes text).length, p', []⟩ ∧
      Changes p h.index.toNat e.state e.state text p' := by
  intro text
  have hle := length_text_le hp hf
  have hfit := Text.length_bytes_clip_le t (p.maxLen - (Text.bytes e.text).length)
  obtain ⟨rest, hrest⟩ := cell_of_find hp hf
  obtain ⟨p', hw, hc⟩ := writeBytes_found hp hf (Text.bytes e.text).length e.text
    (Text.clip t (p.maxLen - (Text.bytes e.text).length))
    (by rw [hrest, List.take_left' rfl])
    (by
      rw [String.toList_append, List.mem_append, not_or]
      exact ⟨noNul_text hp hf, Text.clip_noNul t _⟩)
    (by omega)
  refine ⟨p', ?_, hc⟩
  refine (Act.get_bind _ p).trans ((locate_bind_some hf _).trans ?_)
  rw [hp.content_eq_bytes (entries_of_find hf), Text.bytes_append, List.length_append]
  exact Act.bind_ok hw

/-- The bytes of a slot's text, and the zero byte that ends it. -/
theorem read_found : p.slab.read h.index.toNat 0 ((Text.bytes e.text).length + 1) =
    .ok (Text.bytes e.text ++ [0]) := by
  have hle := length_text_le hp hf
  have hwidth := hp.maxLen_lt
  obtain ⟨rest, hrest⟩ := cell_of_find hp hf
  have hlt : h.index.toNat < p.slab.count := by
    rw [← p.size_slots]
    exact (Array.getElem?_eq_some_iff.1 (slot_of_find hf)).1
  rw [Slab.read_eq_ok hlt (by omega), List.drop_zero, hrest, List.take_length_add_append]
  rfl

/-- A text is copied with the zero byte that ends it, and with nothing of what follows. -/
theorem copy_writes {source : TextHandle} {e' : Entry} {p' : TextPool}
    (hf' : p.catalog.find source = some e')
    (hw : writeBytes h.index.toNat 0 (Text.bytes e'.text ++ [0]) p = ⟨.ok (), p', []⟩) :
    copy h source p = ⟨.ok (Text.bytes e'.text).length, p', []⟩ := by
  refine (Act.get_bind _ p).trans ((locate_bind_some hf _).trans
    ((locate_bind_some hf' _).trans ?_))
  rw [hp.content_eq_bytes (entries_of_find hf')]
  rw [Act.read_bind_ok (f := fun p : TextPool => p.slab.read source.index.toNat 0 _)
    (read_found hp hf')]
  exact Act.bind_ok hw

theorem copy_found {source : TextHandle} {e' : Entry} (hf' : p.catalog.find source = some e') :
    ∃ p', copy h source p = ⟨.ok (Text.bytes e'.text).length, p', []⟩ ∧
      Changes p h.index.toNat e.state e.state e'.text p' := by
  have hle := length_text_le hp hf'
  obtain ⟨p', hw, hc⟩ := writeBytes_found hp hf 0 "" e'.text
    (by rw [List.take_zero, Text.bytes_empty])
    (by rw [String.empty_append]; exact noNul_text hp hf') (by omega)
  rw [String.empty_append] at hc
  exact ⟨p', copy_writes hp hf hf' hw, hc⟩

theorem setState_found (state : SlotState) (hu : state ≠ .free) :
    Changes p h.index.toNat e.state state e.text (p.setState h.index.toNat state) := by
  have hc := changes_setState hp (slot_of_find hf) e.state_ne_free hu
  rwa [spelled_of_find hf] at hc

theorem takeBack_found :
    0 < p.live ∧ Changes p h.index.toNat e.state .free e.text (p.takeBack h.index.toNat) := by
  have hc := changes_takeBack hp (slot_of_find hf) e.state_ne_free
  rwa [spelled_of_find hf] at hc

end Found

/-! ### Every call -/

namespace Tidy

variable (hp : p.Tidy)

include hp

theorem comesTo_allocate :
    ComesTo p (Call.act .allocate p) (Call.spec p.catalog .allocate) (Call.slot p.catalog .allocate) := by
  unfold Call.act Call.spec Call.slot
  dsimp only
  rw [Act.map_apply, firstFree_eq]
  cases hf : p.slots.findIdx? (· = .free) with
  | none =>
    rw [allocate_full p hf]
    exact comesTo_refl hp _ _ _
  | some i =>
    rw [allocate_ok p hf]
    exact (changes_lend hp (free_of_findIdx? hf)).comesTo hp _ _

theorem comesTo_free (h : TextHandle) :
    ComesTo p (Call.act (.free h) p) (Call.spec p.catalog (.free h)) (some h.index.toNat) := by
  unfold Call.act Call.spec
  dsimp only
  rw [Act.map_apply, free, locate_eq]
  cases hf : p.catalog.find h with
  | none => exact comesTo_refl hp _ _ _
  | some e =>
    have hs := slot_of_find hf
    obtain ⟨text, owned⟩ := e
    cases owned with
    | true =>
      have ho : p.slots[h.index.toNat]? = some .owned := hs
      simp only [if_pos ho]
      exact comesTo_refl hp _ _ _
    | false =>
      have ho : p.slots[h.index.toNat]? ≠ some .owned := by
        rw [hs]
        simp [Entry.state]
      simp only [if_neg ho]
      exact (takeBack_found hp hf).2.comesTo hp _ _

theorem comesTo_assign (h : TextHandle) (t : String) :
    ComesTo p (Call.act (.assign h t) p) (Call.spec p.catalog (.assign h t))
      (some h.index.toNat) := by
  unfold Call.act Call.spec
  dsimp only
  rw [Act.map_apply]
  cases hf : p.catalog.find h with
  | none =>
    rw [assign_missing hf]
    exact comesTo_refl hp _ _ _
  | some e =>
    obtain ⟨p', ha, hc⟩ := assign_found hp hf t
    have hcomes := hc.comesTo hp (.ok (.length (Text.bytes (Text.clip t p.maxLen)).length)) []
    rw [entryOf_state] at hcomes
    rw [ha]
    exact hcomes

theorem comesTo_append (h : TextHandle) (t : String) :
    ComesTo p (Call.act (.append h t) p) (Call.spec p.catalog (.append h t))
      (some h.index.toNat) := by
  unfold Call.act Call.spec
  dsimp only
  rw [Act.map_apply]
  cases hf : p.catalog.find h with
  | none =>
    rw [append_missing hf]
    exact comesTo_refl hp _ _ _
  | some e =>
    obtain ⟨p', ha, hc⟩ := append_found hp hf t
    have hcomes := hc.comesTo hp (.ok (.length
      (Text.bytes (e.text ++ Text.clip t (p.maxLen - (Text.bytes e.text).length))).length)) []
    rw [entryOf_state] at hcomes
    rw [ha]
    exact hcomes

theorem comesTo_copy (target source : TextHandle) :
    ComesTo p (Call.act (.copy target source) p) (Call.spec p.catalog (.copy target source))
      (some target.index.toNat) := by
  unfold Call.act Call.spec
  dsimp only
  rw [Act.map_apply]
  cases hf : p.catalog.find target with
  | none =>
    rw [copy_missing_target hf]
    exact comesTo_refl hp _ _ _
  | some e =>
    cases hf' : p.catalog.find source with
    | none =>
      rw [copy_missing_source hf hf']
      exact comesTo_refl hp _ _ _
    | some e' =>
      obtain ⟨p', ha, hc⟩ := copy_found hp hf hf'
      have hcomes := hc.comesTo hp (.ok (.length (Text.bytes e'.text).length)) []
      rw [entryOf_state] at hcomes
      rw [ha]
      exact hcomes

theorem comesTo_own (h : TextHandle) :
    ComesTo p (Call.act (.own h) p) (Call.spec p.catalog (.own h)) (some h.index.toNat) := by
  unfold Call.act Call.spec
  dsimp only
  rw [Act.map_apply, own, locate_eq]
  cases hf : p.catalog.find h with
  | none => exact comesTo_refl hp _ _ _
  | some e =>
    have hs := slot_of_find hf
    obtain ⟨text, owned⟩ := e
    cases owned with
    | true =>
      have ho : p.slots[h.index.toNat]? = some .owned := hs
      simp only [if_pos ho]
      exact comesTo_refl hp _ _ _
    | false =>
      have ho : p.slots[h.index.toNat]? ≠ some .owned := by
        rw [hs]
        simp [Entry.state]
      simp only [if_neg ho]
      exact (setState_found hp hf _ (by decide)).comesTo hp _ _

theorem comesTo_disown (h : TextHandle) :
    ComesTo p (Call.act (.disown h) p) (Call.spec p.catalog (.disown h)) (some h.index.toNat) := by
  unfold Call.act Call.spec
  dsimp only
  rw [Act.map_apply, disown, locate_eq]
  cases hf : p.catalog.find h with
  | none => exact comesTo_refl hp _ _ _
  | some e => exact (setState_found hp hf _ (by decide)).comesTo hp _ _

theorem comesTo_reclaim (h : TextHandle) :
    ComesTo p (Call.act (.reclaim h) p) (Call.spec p.catalog (.reclaim h))
      (some h.index.toNat) := by
  unfold Call.act Call.spec
  dsimp only
  rw [Act.map_apply, reclaim, locate_eq]
  cases hf : p.catalog.find h with
  | none => exact comesTo_refl hp _ _ _
  | some e => exact (takeBack_found hp hf).2.comesTo hp _ _

/-- **A call to a tidy pool** does what it does to the map. -/
theorem comesTo (c : Call) :
    ComesTo p (c.act p) (c.spec p.catalog) (c.slot p.catalog) := by
  cases c with
  | allocate => exact hp.comesTo_allocate
  | free h => exact hp.comesTo_free h
  | assign h t => exact hp.comesTo_assign h t
  | append h t => exact hp.comesTo_append h t
  | copy target source => exact hp.comesTo_copy target source
  | own h => exact hp.comesTo_own h
  | disown h => exact hp.comesTo_disown h
  | reclaim h => exact hp.comesTo_reclaim h

end Tidy

/-! ### Runs of calls -/

namespace Catalog

/-- No slot in use. -/
def empty (id : UInt16) (capacity maxLen : Nat) : Catalog := ⟨id, capacity, maxLen, fun _ => none⟩

/-- The map after some calls, the first call first. -/
def run (m : Catalog) (calls : List Call) : Catalog := calls.foldl (fun m c => (c.spec m).2) m

end Catalog

/-- The pool after some calls, the first call first. -/
def run (p : TextPool) (calls : List Call) : TextPool := calls.foldl (fun p c => (c.act p).state) p

theorem catalog_fresh (id : UInt16) (slots maxLen : Nat) :
    (fresh id slots maxLen).catalog = Catalog.empty id slots maxLen := by
  refine Catalog.ext rfl (by simp [catalog, fresh, capacity, Catalog.empty]) ?_ (funext fun i => ?_)
  · simp [catalog, fresh, TextPool.maxLen, Slab.zeros, Catalog.empty]
  · refine entries_eq_none_iff.2 fun state hs => ?_
    simp only [fresh, Array.getElem?_replicate] at hs
    split at hs
    · exact (Option.some.inj hs).symm
    · cases hs

/-- A pool of sizes in range is tidy. -/
theorem tidy_of_checkSizes (id : UInt16) {slots maxLen : Nat} (hc : checkSizes slots maxLen = .ok ()) :
    (fresh id slots maxLen).Tidy := by
  unfold checkSizes at hc
  split_ifs at hc
  exact tidy_fresh id (by omega)

theorem tidy_run (hp : p.Tidy) (calls : List Call) : (run p calls).Tidy := by
  induction calls generalizing p with
  | nil => exact hp
  | cons c calls ih => exact ih (hp.comesTo c).tidy

theorem catalog_run (hp : p.Tidy) (calls : List Call) :
    (run p calls).catalog = p.catalog.run calls := by
  induction calls generalizing p with
  | nil => rfl
  | cons c calls ih =>
    have hc := hp.comesTo c
    change (run (c.act p).state calls).catalog = (c.spec p.catalog).2.run calls
    rw [ih hc.tidy, hc.catalog]

/-- **A pool reads as a map.** Every slot ends with a zero byte; the bytes of a slot in use are those
of its text, which has no NUL and fits; and no count or length is beyond its bound. -/
structure Reads (p : TextPool) (m : Catalog) : Prop where
  catalog : p.catalog = m
  ended : ∀ i < p.capacity, (p.slab.cell i)[p.maxLen]? = some 0
  content : ∀ i e, m.entries i = some e →
    p.content i = Text.bytes e.text ∧ '\x00' ∉ e.text.toList ∧ (Text.bytes e.text).length ≤ p.maxLen
  text : ∀ h, p.text h = match m.find h with
    | some e => .ok e.text
    | none => .error (.notAllocated h.index)
  textLen : ∀ h, p.textLen h = match m.find h with
    | some e => .ok (Text.bytes e.text).length
    | none => .error (.notAllocated h.index)
  live_le : p.live ≤ p.capacity
  length_le : ∀ i, (p.content i).length ≤ p.maxLen

theorem Tidy.reads (hp : p.Tidy) : Reads p p.catalog where
  catalog := rfl
  ended := hp.ended
  content i e hi := by
    have hc := hp.content_eq_bytes hi
    refine ⟨hc, ?_, hc ▸ hp.length_content_le i⟩
    rw [← Text.zero_mem_bytes_iff, ← hc]
    exact hp.zero_notMem_content i
  text := hp.text_eq
  textLen := hp.textLen_eq
  live_le := hp.live_le
  length_le := hp.length_content_le

theorem spec_ne_pastEnd (m : Catalog) (c : Call) (stop length : Nat) :
    (c.spec m).1 ≠ .error (.pastEnd stop length) := by
  unfold Call.spec
  split <;> split <;> simp

/-- A slot is taken back only while some slot is counted. -/
theorem Tidy.live_pos (hp : p.Tidy) {c : Call} (hc : (c.act p).result = .ok (.freed true)) :
    0 < p.live := by
  rw [(hp.comesTo c).result] at hc
  have hfound : ∀ h, p.catalog.find h ≠ none → 0 < p.live := by
    intro h hne
    obtain ⟨e, hf⟩ := Option.ne_none_iff_exists'.1 hne
    exact (takeBack_found hp hf).1
  cases c with
  | free h =>
    refine hfound h fun hf => ?_
    simp [Call.spec, hf] at hc
  | reclaim h =>
    refine hfound h fun hf => ?_
    simp [Call.spec, hf] at hc
  | allocate | assign h t | append h t | copy target source | own h | disown h =>
    simp only [Call.spec] at hc
    split at hc <;> cases hc

/-- **A pool refines a map from slots to texts**, over every run of calls with any handles and any
texts: it reads as the map of the run, and the next call, whatever it is, is answered as by the map
and comes to the map that is left. A call changes the bytes of one slot at most, reaches past no
slot's end, and takes a slot back only if some slot is counted. -/
theorem calls_refined (id : UInt16) {slots maxLen : Nat} (hc : checkSizes slots maxLen = .ok ())
    (calls : List Call) :
    let p := run (fresh id slots maxLen) calls
    let m := (Catalog.empty id slots maxLen).run calls
    Reads p m ∧
    ∀ c : Call,
      (c.act p).result = (c.spec m).1 ∧ Reads (c.act p).state (c.spec m).2 ∧
      (∀ i, c.slot m ≠ some i → (c.act p).state.content i = p.content i) ∧
      (∀ stop length, (c.act p).result ≠ .error (.pastEnd stop length)) ∧
      ((c.act p).result = .ok (.freed true) → 0 < p.live) := by
  intro p m
  have hfresh : (fresh id slots maxLen).Tidy := tidy_of_checkSizes id hc
  have hp : p.Tidy := tidy_run hfresh calls
  have hm : p.catalog = m := by
    rw [catalog_run hfresh, catalog_fresh]
  refine ⟨hm ▸ hp.reads, fun c => ?_⟩
  have hcomes := hp.comesTo c
  rw [hm] at hcomes
  refine ⟨hcomes.result, hcomes.catalog ▸ hcomes.tidy.reads, hcomes.content, fun stop length => ?_,
    hp.live_pos⟩
  rw [hcomes.result]
  exact spec_ne_pastEnd m c stop length

/-- A text ends at its first NUL, and is cut before the first character that does not fit whole. -/
theorem calls_refined_cut :
    checkSizes 2 4 = .ok () ∧
      (run (fresh 7 2 4) [.allocate, .assign ⟨7, 0⟩ "ab\x00z", .append ⟨7, 0⟩ "cßd"]).text ⟨7, 0⟩ =
        .ok "abc" := by
  have hc : checkSizes 2 4 = .ok () := rfl
  refine ⟨hc, ?_⟩
  have hreads :=
    (calls_refined 7 hc [.allocate, .assign ⟨7, 0⟩ "ab\x00z", .append ⟨7, 0⟩ "cßd"]).1
  rw [hreads.text]
  decide +kernel

end TextPool

end FixedArena
