import FixedArena.Proofs.Block.Bytes
import FixedArena.Proofs.Ring.Fields

/-!
Nodes as records. A block in use that is wide enough for a node bears a record of two links and a value, and a
write to a field updates this record: it changes the bytes of its field and no other byte of the arena. So writes to
different fields do not get in each other's way, in whatever order they are made.

Main facts:
* `exists_bears`: there is a record in every block in use that is wide enough;
* `FieldWrite.write_ok`, `Bears.put`: a write succeeds and updates the record;
* `writes_ok`: so does a run of writes;
* `updateAll_of_perm`: the order of writes to all three fields is of no account.
-/

namespace FixedArena.Ring

open BlockArena (Rewrites)

/-! ### Records and their updates -/

/-- What a node says: where the next one is, where the one before, and its value. -/
structure Record (α : Type) where
  next : UInt32
  prev : UInt32
  value : α

/-- A field of a node, and what is written to it. -/
inductive FieldWrite (α : Type) where
  | link (field : Link) (target : UInt32)
  | value (v : α)

/-- The record with a field replaced. -/
def FieldWrite.update {α : Type} : FieldWrite α → Record α → Record α
  | .link .next target, n => { n with next := target }
  | .link .prev target, n => { n with prev := target }
  | .value v, n => { n with value := v }

/-- The record after one write after the other. -/
def FieldWrite.updateAll {α : Type} (ws : List (FieldWrite α)) (n : Record α) : Record α :=
  ws.foldl (fun n w => w.update n) n

variable {α : Type}

/-- **The order of writes to all three fields is of no account.** -/
theorem updateAll_of_perm {ws : List (FieldWrite α)} {x y : UInt32} {v : α}
    (hp : ws.Perm [.link .next x, .link .prev y, .value v]) (n : Record α) :
    FieldWrite.updateAll ws n = ⟨x, y, v⟩ := by
  have hcomm : ∀ w ∈ ws, ∀ w' ∈ ws, ∀ n : Record α, w'.update (w.update n) = w.update (w'.update n) := by
    intro w hw w' hw' n
    have hm := hp.mem_iff.1 hw
    have hm' := hp.mem_iff.1 hw'
    simp only [List.mem_cons, List.not_mem_nil, or_false] at hm hm'
    rcases hm with rfl | rfl | rfl <;> rcases hm' with rfl | rfl | rfl <;> rfl
  exact hp.foldl_eq' hcomm n

variable [Element α] {a b : BlockArena} {i : UInt32} {n : Record α} {w : FieldWrite α}

namespace FieldWrite

/-! ### Writing a field -/

/-- The operation that writes the field. -/
def write (w : FieldWrite α) (i : UInt32) : Act Error BlockArena Unit :=
  match w with
  | .link field target => setLink i field target
  | .value v => setValue i v

/-- Where the field stands in a node. -/
def offset : FieldWrite α → Nat
  | .link field _ => field.offset
  | .value _ => linkBytes

/-- The bytes that are written. -/
def image : FieldWrite α → List UInt8
  | .link _ target => Element.encode target
  | .value v => Element.encode v

/-- The byte of this number belongs to the field. -/
def Covers (w : FieldWrite α) (k : Nat) : Prop := w.offset ≤ k ∧ k < w.offset + w.image.length

/-- A field ends inside the node. -/
theorem stop_le (w : FieldWrite α) : w.offset + w.image.length ≤ nodeSize α := by
  cases w with
  | link field target =>
    have hlen : (Element.encode target).length = 4 := Element.length_encode target
    have hstop := offset_add_le field
    simp only [offset, image, hlen, nodeSize]
    omega
  | value v => simp [offset, image, nodeSize]

theorem Covers.lt_nodeSize {k : Nat} (hk : w.Covers k) : k < nodeSize α :=
  Nat.lt_of_lt_of_le hk.2 w.stop_le

/-- A write to a node in use succeeds, and writes the bytes of its field. -/
theorem write_ok (w : FieldWrite α) (hu : a.InUse i) (hw : nodeSize α ≤ a.blockSize) :
    w.write i a = ⟨.ok (), a.put i w.offset w.image, []⟩ := by
  cases w with
  | link field target => exact setLink_ok hu (linkBytes_le hw)
  | value v => exact setValue_ok hu hw

/-- **A write changes the bytes of its field**, and nothing else of the arena. -/
theorem rewrites (w : FieldWrite α) (hw : nodeSize α ≤ a.blockSize) :
    Rewrites (fun j k => j = i ∧ w.Covers k) a (a.put i w.offset w.image) :=
  BlockArena.rewrites_put (Nat.le_trans w.stop_le hw)

end FieldWrite

/-! ### The record of a block -/

/-- The record is what is read from the block in use at a slot. -/
structure Bears (a : BlockArena) (i : UInt32) (n : Record α) : Prop where
  next : linkOf a i .next = .ok n.next
  prev : linkOf a i .prev = .ok n.prev
  value : valueOf a i = .ok n.value

/-- There is a record in every block in use that is wide enough. -/
theorem exists_bears (hu : a.InUse i) (hw : nodeSize α ≤ a.blockSize) :
    ∃ n : Record α, Bears a i n := by
  have hlink : ∀ field : Link, ∃ target, linkOf a i field = .ok target := fun field =>
    ⟨_, congrArg (Except.map _) (nodeBytes_ok hu (Nat.le_trans (offset_add_le field) (linkBytes_le hw)))⟩
  have hvalue : ∃ v : α, valueOf a i = .ok v := ⟨_, congrArg (Except.map _) (nodeBytes_ok hu hw)⟩
  obtain ⟨next, hnext⟩ := hlink .next
  obtain ⟨prev, hprev⟩ := hlink .prev
  obtain ⟨v, hv⟩ := hvalue
  exact ⟨⟨next, prev, v⟩, hnext, hprev, hv⟩

/-- **A write updates the record**: what it replaces is read back, and the other two fields are as before. -/
theorem Bears.put (hn : Bears a i n) (hu : a.InUse i) (hw : nodeSize α ≤ a.blockSize)
    (w : FieldWrite α) : Bears (a.put i w.offset w.image) i (w.update n) := by
  cases w with
  | link field target =>
    have hself : linkOf (a.putLink i field target) i field = .ok target :=
      (linkOf_putLink hu (linkBytes_le hw)).trans (if_pos ⟨rfl, rfl⟩)
    have hother : ∀ field' ≠ field, linkOf (a.putLink i field target) i field' = linkOf a i field' :=
      fun _ hne => (linkOf_putLink hu (linkBytes_le hw)).trans (if_neg fun h => hne h.2)
    have hvalue : valueOf (a.putLink i field target) i = .ok n.value :=
      (valueOf_putLink hu hw).trans hn.value
    cases field with
    | next => exact ⟨hself, (hother .prev nofun).trans hn.prev, hvalue⟩
    | prev => exact ⟨(hother .next nofun).trans hn.next, hself, hvalue⟩
  | value v =>
    have hlink : ∀ field, linkOf (a.putValue i v) i field = linkOf a i field :=
      fun _ => linkOf_putValue hu hw
    have hvalue : valueOf (a.putValue i v) i = .ok v := (valueOf_putValue hu hw).trans (if_pos rfl)
    exact ⟨(hlink .next).trans hn.next, (hlink .prev).trans hn.prev, hvalue⟩

/-! ### Runs of writes -/

/-- **A run of writes to a node in use succeeds.** Its record is updated by one write after the other, and no byte
outside the node changes. -/
theorem writes_ok (ws : List (FieldWrite α)) (hn : Bears a i n) (hu : a.InUse i)
    (hw : nodeSize α ≤ a.blockSize) : ∃ b, ws.forM (·.write i) a = ⟨.ok (), b, []⟩ ∧
      Bears b i (FieldWrite.updateAll ws n) ∧
      Rewrites (fun j k => j = i ∧ k < nodeSize α) a b := by
  induction ws generalizing a n with
  | nil => exact ⟨a, rfl, hn, refl_of _ a⟩
  | cons w ws ih =>
    have hput : Rewrites (fun j k => j = i ∧ k < nodeSize α) a (a.put i w.offset w.image) :=
      (w.rewrites hw).mono fun j k hk => ⟨hk.1, hk.2.lt_nodeSize⟩
    obtain ⟨b, hb, hbears, hrest⟩ := ih (hn.put hu hw w) (BlockArena.inUse_put.2 hu) hw
    refine ⟨b, (Act.bind_ok (w.write_ok hu hw)).trans ?_, hbears, trans_of _ hput hrest⟩
    rw [hb]
    rfl

/-- **The fields of a node are independent.** After one write to each of the three, in any order, each is read
back, and only bytes of the node changed. A write to one of them puts its bytes at the field's place, leaves the
other two fields as they were, and changes no other byte, of the block or of another one, and nothing else of the
arena. -/
theorem fields_independent (t : ElementType) (hu : a.InUse i) (hw : nodeSize t.Value ≤ a.blockSize) :
    (∀ (x y : UInt32) (v : t.Value) (ws : List (FieldWrite t.Value)),
      ws.Perm [.link .next x, .link .prev y, .value v] →
      ∃ b, ws.forM (·.write i) a = ⟨.ok (), b, []⟩ ∧ linkOf b i .next = .ok x ∧
        linkOf b i .prev = .ok y ∧ valueOf b i = .ok v ∧
        Rewrites (fun j k => j = i ∧ k < nodeSize t.Value) a b) ∧
    ∀ w : FieldWrite t.Value, ∃ n b, Bears a i n ∧ w.write i a = ⟨.ok (), b, []⟩ ∧
      Bears b i (w.update n) ∧ nodeBytes b i w.offset w.image.length = .ok w.image ∧
      Rewrites (fun j k => j = i ∧ w.Covers k) a b ∧
      ∀ k, nodeSize t.Value ≤ k → b.byte? i k = a.byte? i k := by
  obtain ⟨n, hn⟩ : ∃ n : Record t.Value, Bears a i n := exists_bears hu hw
  refine ⟨fun x y v ws hp => ?_, fun w => ⟨n, _, hn, w.write_ok hu hw, hn.put hu hw w, ?_, ?_, ?_⟩⟩
  · obtain ⟨b, hb, hbears, hrest⟩ := writes_ok ws hn hu hw
    rw [updateAll_of_perm hp] at hbears
    exact ⟨b, hb, hbears.next, hbears.prev, hbears.value, hrest⟩
  · exact nodeBytes_put_self hu (Nat.le_trans w.stop_le hw)
  · exact w.rewrites hw
  · intro k hk
    exact (w.rewrites hw).byte?_eq i k fun hin => Nat.not_lt_of_le hk hin.2.lt_nodeSize

/-- A value of sixteen bytes, all bits set, fills the block of its node to the end. Its fields are written last one
first, and the value once more alone. -/
theorem fields_independent_widest :
    let a := (BlockArena.allocate (BlockArena.fresh 1 2 24)).state
    let v : (ElementType.signed 16).Value := BitVec.allOnes 128
    (a.InUse 0 ∧ nodeSize (ElementType.signed 16).Value ≤ a.blockSize) ∧
      (∃ b, [FieldWrite.value v, .link .prev 7, .link .next 5].forM (·.write 0) a = ⟨.ok (), b, []⟩ ∧
        linkOf b 0 .next = .ok 5 ∧ linkOf b 0 .prev = .ok 7 ∧ valueOf b 0 = .ok v ∧
        Rewrites (fun j k => j = 0 ∧ k < 24) a b) ∧
      ∃ b, setValue 0 v a = ⟨.ok (), b, []⟩ ∧ linkOf b 0 .next = .ok 0 ∧
        nodeBytes b 0 8 16 = .ok (List.replicate 16 255) := by
  intro a v
  have hu : a.InUse 0 := by decide +kernel
  have hw : nodeSize (ElementType.signed 16).Value ≤ a.blockSize := by decide +kernel
  have hnext : linkOf a 0 .next = .ok 0 := by decide +kernel
  obtain ⟨hall, hone⟩ := fields_independent (.signed 16) hu hw
  obtain ⟨n, b, hn, hb, hbears, hbytes, -⟩ := hone (.value v)
  have hzero : n.next = 0 := Except.ok.inj (hn.next.symm.trans hnext)
  have himage : (FieldWrite.value v).image = List.replicate 16 255 := by decide +kernel
  have horder := List.reverse_perm [FieldWrite.link .next 5, .link .prev 7, .value v]
  refine ⟨⟨hu, hw⟩, hall 5 7 v _ horder, b, hb, ?_, himage ▸ hbytes⟩
  rw [hbears.next]
  exact congrArg Except.ok hzero

end FixedArena.Ring
