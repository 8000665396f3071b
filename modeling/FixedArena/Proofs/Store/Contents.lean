import FixedArena.Proofs.Store.Run

/-!
The bytes of the blocks that callers hold. A block is all zeros when it is handed out. From then on
its bytes are changed by writes through its own handle only, whatever is done to the rings on the
arena, through other handles, or by handing out and taking back other blocks.

Main facts:
* `Run.writes`: what was written through a handle since its block was handed out;
* `Run.cell_cons`: a step lays over the block of a live handle what it writes through this handle;
* `Run.block_written`: the block of a live handle is zeros with those writes laid over them, and the
  blocks of two live handles have no byte in common.
-/

namespace FixedArena

namespace BlockArena

variable {a : BlockArena} {h h' : BlockHandle} {offset : Nat} {bs : List UInt8} {e : Error}

/-! ### Whole blocks -/

/-- The addresses of the bytes of a handle's block. -/
def addresses (a : BlockArena) (h : BlockHandle) : List Nat :=
  (List.range a.blockSize).map (a.slab.address h.index.toNat)

theorem map_get_addresses :
    (a.addresses h).map a.slab.bytes.get = a.slab.cell h.index.toNat := by
  rw [addresses, List.map_map, Slab.cell, Memory.slice]
  rfl

theorem disjoint_addresses (hne : h.index ≠ h'.index) :
    (a.addresses h).Disjoint (a.addresses h') := by
  intro p hp hp'
  obtain ⟨m, hm, rfl⟩ := List.mem_map.1 hp
  obtain ⟨m', hm', heq⟩ := List.mem_map.1 hp'
  have hidx : h'.index.toNat ≠ h.index.toNat := fun heq => hne (UInt32.toNat_inj.1 heq).symm
  exact Slab.address_ne hidx (List.mem_range.1 hm') (List.mem_range.1 hm) heq

theorem block_eq (ha : a.Accepts h) : a.block h = .ok (a.slab.cell h.index.toNat) := by
  have hlen : (a.slab.cell h.index.toNat).length = a.blockSize := Slab.length_cell
  rw [block, read_ok ha (by omega), List.drop_zero, ← hlen, List.take_length]

/-- A block is handed out all zeros. -/
theorem cell_allocate (hr : (allocate a).result = .ok h) :
    (allocate a).state.slab.cell h.index.toNat =
      List.replicate (allocate a).state.blockSize 0 := by
  rcases hn : a.freeList.next? with _ | ⟨i, rest⟩
  · rw [allocate_full a hn] at hr
    cases hr
  · rw [allocate_ok a hn] at hr ⊢
    obtain rfl := Except.ok.inj hr
    exact Slab.cell_clear.trans (if_pos rfl)

/-- A write is carried out inside the block, or refused. -/
theorem write_done_or_refused (h : BlockHandle) (offset : Nat) (bs : List UInt8) (a : BlockArena) :
    (a.Accepts h ∧ offset + bs.length ≤ a.blockSize ∧
      write h offset bs a = ⟨.ok (), a.put h.index offset bs, []⟩) ∨
    ∃ e, write h offset bs a = ⟨.error e, a, []⟩ := by
  cases hl : a.locate h with
  | error e => exact .inr ⟨e, by simp [write, hl]⟩
  | ok slot =>
    have ha := accepts_of_locate hl
    by_cases hw : offset + bs.length ≤ a.blockSize
    · exact .inl ⟨ha, hw, write_ok ha hw⟩
    · refine .inr ⟨.pastEnd (offset + bs.length) a.blockSize, ?_⟩
      have hin : ¬a.slab.Inside slot offset bs.length := fun hin => hw hin.2
      simp [write, hl, Slab.write, hin, blockSize]

end BlockArena

namespace Store

variable {s t : Store} {k n : Nat} {c : Command} {h : BlockHandle} {a b : BlockArena}

/-! ### What a command writes -/

/-- **What a command writes through a handle of an arena**: from where on, and which bytes. A refused
command writes nothing. -/
def wrote (s : Store) (k : Nat) (h : BlockHandle) (c : Command) : Option (Nat × List UInt8) :=
  match c, (step c s).result with
  | .arena n (.write h' offset bs), .ok _ => if n = k ∧ h' = h then some (offset, bs) else none
  | .arena n (.fill h' b), .ok _ =>
    if n = k ∧ h' = h then (s.arenaAt k).map fun a => (0, List.replicate a.blockSize b) else none
  | _, _ => none

/-- A direct write is carried out inside the block, or refused. -/
theorem step_writing {offset : Nat} {f : BlockArena → List UInt8}
    (hstep : step c s =
      ((fun _ => Reply.done) <$> writeArena n fun a => BlockArena.write h offset (f a) a) s) :
    (∃ e log, step c s = ⟨.error e, s, log⟩) ∨
    ∃ t log a, step c s = ⟨.ok .done, t, log⟩ ∧ s.arenaAt n = some a ∧
      offset + (f a).length ≤ a.blockSize ∧
      t.arenaAt n = some (a.put h.index offset (f a)) := by
  rw [Act.map_apply] at hstep
  obtain ⟨e, log, hw⟩ | ⟨g, hg, hw⟩ :=
    writeArena_cases n (fun a => BlockArena.write h offset (f a) a) s
  · rw [hw] at hstep
    exact .inl ⟨e, log, hstep⟩
  · obtain ⟨-, hfits, hput⟩ | ⟨e, hput⟩ :=
      BlockArena.write_done_or_refused h offset (f g.value) g.value
    · rw [hw, hput] at hstep
      refine .inr ⟨_, _, g.value, hstep, arenaAt_of_get hg, hfits, ?_⟩
      rw [arenaAt_of_set hg rfl, if_pos rfl]
    · rw [hw, hput] at hstep
      simp only [set_back hg] at hstep
      exact .inl ⟨_, _, hstep⟩

/-- A block that a command hands out is all zeros after it. -/
theorem cell_handed (hh : s.handed k c = some h)
    (hb : (step c s).state.arenaAt k = some b) :
    b.slab.cell h.index.toNat = List.replicate b.blockSize 0 := by
  unfold handed at hh
  split at hh
  case h_2 => cases hh
  next n h' hr =>
    split at hh
    case isFalse => cases hh
    next hk =>
      obtain rfl := Option.some.inj hh
      subst hk
      rw [step, arenaStep, Act.map_apply] at hr hb
      obtain ⟨e, log, hw⟩ | ⟨g, hg, hw⟩ := writeArena_cases n BlockArena.allocate s
      · rw [hw] at hr
        cases hr
      · rw [hw] at hr hb
        rw [arenaAt_of_set hg rfl, if_pos rfl] at hb
        obtain rfl := Option.some.inj hb
        cases halloc : (BlockArena.allocate g.value).result with
        | error e =>
          rw [halloc] at hr
          cases hr
        | ok h =>
          rw [halloc] at hr
          cases hr
          exact BlockArena.cell_allocate halloc

/-- A command that does not name the block of a handle writes nothing through it. -/
theorem wrote_eq_none (hne : c.changed? ≠ some (k, h)) : s.wrote k h c = none := by
  unfold wrote
  split
  · next n h' offset bs _ _ =>
    refine if_neg ?_
    rintro ⟨rfl, rfl⟩
    exact hne rfl
  · next n h' b _ _ =>
    refine if_neg ?_
    rintro ⟨rfl, rfl⟩
    exact hne rfl
  · rfl

/-- **What a command makes of the block of a handle that it names**, while the handle lives. -/
theorem cell_of_changed (hs : ∀ j, s.Settled j) (hc : c.changed? = some (k, h))
    (ha : s.arenaAt k = some a) (hb : (step c s).state.arenaAt k = some b) (hh : b.Accepts h) :
    b.slab.cell h.index.toNat = (s.wrote k h c).elim (a.slab.cell h.index.toNat)
      fun w => Slab.patched (a.slab.cell h.index.toNat) w.1 w.2 := by
  have hrefused : ∀ {e log}, step c s = ⟨.error e, s, log⟩ → s.wrote k h c = none →
      b.slab.cell h.index.toNat = (s.wrote k h c).elim (a.slab.cell h.index.toNat)
        fun w => Slab.patched (a.slab.cell h.index.toNat) w.1 w.2 := by
    intro e log hstep hnone
    rw [hstep] at hb
    obtain rfl := Option.some.inj (ha.symm.trans hb)
    rw [hnone]
    rfl
  have hwritten : ∀ {offset bs}, offset + bs.length ≤ a.blockSize →
      b = a.put h.index offset bs → s.wrote k h c = some (offset, bs) →
      b.slab.cell h.index.toNat = (s.wrote k h c).elim (a.slab.cell h.index.toNat)
        fun w => Slab.patched (a.slab.cell h.index.toNat) w.1 w.2 := by
    intro offset bs hfits hput hsome
    rw [hsome, hput]
    exact (Slab.cell_overwriteCell hfits).trans (if_pos rfl)
  cases c with
  | arena n c =>
    cases c with
    | free h' =>
      cases hc
      obtain ⟨e, log, hstep⟩ | ⟨t, log, a', b', hstep, -, -, hb', hout, -⟩ := step_free hs k h
      · exact hrefused hstep rfl
      · rw [hstep, hb'] at hb
        obtain rfl := Option.some.inj hb
        exact absurd hh.inUse hout
    | write h' offset bs =>
      cases hc
      obtain ⟨e, log, hstep⟩ | ⟨t, log, a', hstep, ha', hfits, hput⟩ :=
        step_writing (f := fun _ => bs) (h := h) (s := s) (c := .arena k (.write h offset bs)) rfl
      · exact hrefused hstep (by simp [wrote, hstep])
      · obtain rfl := Option.some.inj (ha.symm.trans ha')
        rw [hstep, hput] at hb
        exact hwritten hfits (Option.some.inj hb).symm (by simp [wrote, hstep])
    | fill h' x =>
      cases hc
      obtain ⟨e, log, hstep⟩ | ⟨t, log, a', hstep, ha', hfits, hput⟩ :=
        step_writing (f := fun a => List.replicate a.blockSize x) (h := h) (s := s)
          (c := .arena k (.fill h x)) rfl
      · exact hrefused hstep (by simp [wrote, hstep])
      · obtain rfl := Option.some.inj (ha.symm.trans ha')
        rw [hstep, hput] at hb
        exact hwritten hfits (Option.some.inj hb).symm (by simp [wrote, hstep, ha])
    | _ => cases hc
  | _ => cases hc

/-- An exchange leaves alone what is not exchanged. -/
theorem Exchanges.sameBlocks {r : Nat} {l l' rest : List UInt32} (h : Exchanges k s r l t l')
    (ha : s.arenaAt k = some a) (hb : t.arenaAt k = some b)
    (hc : a.Covered (s.ringSlots k ++ (l ++ rest))) : a.SameBlocks b rest := by
  obtain ⟨n, hns, hr⟩ : ∃ n, s.containers.size ≤ n ∧ r < n :=
    ⟨s.containers.size + (r + 1), by omega, by omega⟩
  obtain ⟨b', hb', -, hturns⟩ := h.arena a ha
  obtain rfl := Option.some.inj (hb.symm.trans hb')
  have hsame := (hturns.covered _ (hc.perm (perm_ring_first hns hr l rest))).2
  exact ⟨hsame.id, hsame.capacity, hsame.blockSize,
    fun i hi => hsame.slots i (List.mem_append_right _ hi),
    fun i hi => hsame.bytes i (List.mem_append_right _ hi)⟩

end Store

namespace Run

variable {past : Run} {c : Command} {k : Nat} {a b : BlockArena} {h : BlockHandle}

/-! ### Histories of writes -/

/-- What was written through a handle of an arena since the handle was issued, the latest write
first. -/
def writes (k : Nat) (h : BlockHandle) : Run → List (Nat × List UInt8)
  | [] => []
  | c :: past => if (store past).handed k c = some h then [] else
      ((store past).wrote k h c).toList ++ writes k h past

/-- So many zeros with everything laid over them, in order, that was written through a handle. -/
def written (k : Nat) (h : BlockHandle) (size : Nat) (run : Run) : List UInt8 :=
  (writes k h run).foldr (fun w bytes => Slab.patched bytes w.1 w.2) (List.replicate size 0)

theorem written_handed {size : Nat} (hh : (store past).handed k c = some h) :
    written k h size (c :: past) = List.replicate size 0 := by
  rw [written, writes, if_pos hh, List.foldr_nil]

theorem written_cons {size : Nat} (hh : (store past).handed k c ≠ some h) :
    written k h size (c :: past) = ((store past).wrote k h c).elim (written k h size past)
      fun w => Slab.patched (written k h size past) w.1 w.2 := by
  rw [written, writes, if_neg hh, List.foldr_append]
  cases (store past).wrote k h c <;> rfl

/-! ### One step -/

/-- A command that does not name the block of a live handle leaves it alone. -/
theorem cell_of_not_changed (hio : InOrder past) (hc : Ordinary (c :: past))
    (ha : (store past).arenaAt k = some a) (hb : (store (c :: past)).arenaAt k = some b)
    (hm : h ∈ live k past) (hne : c.changed? ≠ some (k, h)) :
    b.slab.cell h.index.toNat = a.slab.cell h.index.toNat := by
  have hcov := (hio.accounts k a ha).covered
  have hmem : h.index ∈ (live k past).map BlockHandle.index ++ lost k past :=
    List.mem_append_left _ (List.mem_map_of_mem hm)
  have herase : ∀ {h'}, c.changed? = some (k, h') →
      h.index ∈ ((live k past).erase h').map BlockHandle.index ++ lost k past := by
    intro h' hc'
    refine List.mem_append_left _ (List.mem_map_of_mem ((List.mem_erase_of_ne ?_).2 hm))
    rintro rfl
    exact hne hc'
  cases Store.step_turn hc.2.1 hio.settled k with
  | container hnone hturn => exact (hturn.sameBlocks ha hb hcov).bytes _ hmem
  | handed hsome hleft hb' hh hturn => exact (hturn.sameBlocks ha hb hcov).bytes _ hmem
  | written hnone hleft hpres ha' hh hturn =>
    obtain rfl := Option.some.inj (ha.symm.trans ha')
    have hcov' := hcov.perm (perm_live (mem_live_of_changed hc ha hpres hh) _)
    exact (hturn.sameBlocks ha hb hcov').bytes _ (herase hpres)
  | freed hnone hleft hpres ha' hh hb' hout hturn =>
    obtain rfl := Option.some.inj (ha.symm.trans ha')
    have hcov' := hcov.perm (perm_live (mem_live_of_changed hc ha hpres hh) _)
    exact (hturn.sameBlocks ha hb hcov').bytes _ (herase hpres)

theorem blockSize_cons (hio : InOrder past) (hc : Ordinary (c :: past))
    (ha : (store past).arenaAt k = some a) (hb : (store (c :: past)).arenaAt k = some b) :
    b.blockSize = a.blockSize := by
  obtain ⟨l, l', rest, hturn, hcov⟩ := exists_exchange hio hc ha
  exact (hturn.sameBlocks ha hb hcov).blockSize

/-- **A step lays over the block of a live handle what it writes through the handle**, and changes
it in no other way. -/
theorem cell_cons (hio : InOrder past) (hc : Ordinary (c :: past))
    (ha : (store past).arenaAt k = some a) (hb : (store (c :: past)).arenaAt k = some b)
    (hm : h ∈ live k past) (hh : b.Accepts h) :
    b.slab.cell h.index.toNat = ((store past).wrote k h c).elim (a.slab.cell h.index.toNat)
      fun w => Slab.patched (a.slab.cell h.index.toNat) w.1 w.2 := by
  by_cases hch : c.changed? = some (k, h)
  · exact Store.cell_of_changed hio.settled hch ha hb hh
  · rw [Store.wrote_eq_none hch]
    exact cell_of_not_changed hio hc ha hb hm hch

/-! ### Whole runs -/

/-- The block of a live handle is what was written to it. -/
theorem cell_eq_written {run : Run} (h : Ordinary run) (hy : Young run)
    (ha : (store run).arenaAt k = some a) :
    ∀ g ∈ live k run, a.slab.cell g.index.toNat = written k g a.blockSize run := by
  induction run generalizing a with
  | nil => exact fun g hg => nomatch hg
  | cons c past ih =>
    intro g hg
    obtain ⟨hissued, hacc⟩ := (mem_live_iff ha).1 hg
    by_cases hh : (store past).handed k c = some g
    · rw [written_handed hh]
      exact Store.cell_handed hh ha
    have hio := inOrder h.1 hy.tail
    have hpast : g ∈ issued k past := by
      rw [issued, List.mem_append, Option.mem_toList] at hissued
      exact hissued.resolve_left hh
    cases ha₀ : (store past).arenaAt k with
    | none =>
      rw [(hio.absent k ha₀).1] at hpast
      cases hpast
    | some a₀ =>
      obtain ⟨a', ha', hages⟩ := Store.step_ages h.2.1 (store past) k a₀ ha₀
      obtain rfl := Option.some.inj (ha.symm.trans ha')
      have hacc₀ := ((accepts_cons (hio.accounts k a₀ ha₀) hy.recent hages ha₀ ha hpast).1 hacc).1
      have hg₀ := (mem_live_iff ha₀).2 ⟨hpast, hacc₀⟩
      rw [cell_cons hio h ha₀ ha hg₀ hacc, written_cons hh, ih h.1 hy.tail ha₀ g hg₀,
        blockSize_cons hio h ha₀ ha]

/-- **The blocks of callers hold what was written to them.** The block of a live handle has the
arena's block size; its bytes are zeros with all that was written through the handle since it was
issued laid over them in order; and no byte of it is a byte of another live handle's block. -/
theorem block_written {run : Run} (h : Ordinary run) (hy : Young run) {k : Nat} {a : BlockArena}
    (ha : (store run).arenaAt k = some a) : ∀ g ∈ live k run,
    a.block g = .ok (written k g a.blockSize run) ∧
    (written k g a.blockSize run).length = a.blockSize ∧
    (a.addresses g).map a.slab.bytes.get = written k g a.blockSize run ∧
    ∀ g' ∈ live k run, g' ≠ g → (a.addresses g).Disjoint (a.addresses g') := by
  intro g hg
  have hcell := cell_eq_written h hy ha g hg
  refine ⟨?_, ?_, ?_, fun g' hg' hne => ?_⟩
  · rw [BlockArena.block_eq ((mem_live_iff ha).1 hg).2, hcell]
  · rw [← hcell]
    exact Slab.length_cell
  · rw [BlockArena.map_get_addresses, hcell]
  · -- live handles name different blocks, since the account of blocks names none twice
    have hcov := ((inOrder h hy).accounts k a ha).covered
    have hnd := (List.nodup_append.1 (List.nodup_append.1 hcov.nodup).2.1).1
    exact BlockArena.disjoint_addresses fun heq =>
      hne (List.inj_on_of_nodup_map hnd hg hg' heq).symm

/-- A block that was written to, given back and handed out again, beside a ring and another caller's
block. One of the writes would reach past the end of the block. -/
def rewritten : Run :=
  [.ring 0 (.push .back ⟨.unsigned 1, (9 : BitVec 8)⟩), .arena 0 (.write ⟨1, 2, 1⟩ 2 [6]),
    .arena 0 (.write ⟨1, 2, 1⟩ 11 [7, 8]), .arena 0 (.write ⟨1, 2, 1⟩ 1 [4, 5]),
    .arena 0 .allocate, .arena 0 (.free ⟨1, 2, 0⟩), .arena 0 (.fill ⟨1, 3, 0⟩ 255),
    .arena 0 .allocate, .arena 0 (.fill ⟨1, 2, 0⟩ 1), .arena 0 .allocate,
    .ring 0 (.push .back ⟨.unsigned 1, (7 : BitVec 8)⟩), .newRing (.unsigned 1) 0,
    .reserveArena 5 12]

theorem ordinary_rewritten : Ordinary rewritten := by
  refine ⟨⟨⟨⟨⟨⟨⟨⟨⟨⟨⟨⟨⟨trivial, ?_⟩, ?_⟩, ?_⟩, ?_⟩, ?_⟩, ?_⟩, ?_⟩, ?_⟩, ?_⟩, ?_⟩, ?_⟩, ?_⟩, ?_⟩
  all_goals refine ⟨nofun, fun k h hc => ?_⟩
  all_goals cases hc
  all_goals exact .inl (by decide +kernel)

/-- A write was laid over another one, and nothing is left of what was in the block before. -/
theorem block_written_rewritten : Ordinary rewritten ∧ Young rewritten ∧
    live 0 rewritten = [⟨1, 2, 1⟩, ⟨1, 3, 0⟩] ∧
    ∃ a, (store rewritten).arenaAt 0 = some a ∧ a.blockSize = 12 ∧
      a.block ⟨1, 2, 1⟩ = .ok [0, 4, 6, 0, 0, 0, 0, 0, 0, 0, 0, 0] ∧
      (a.addresses ⟨1, 2, 1⟩).Disjoint (a.addresses ⟨1, 3, 0⟩) := by
  have hy : Young rewritten := young_of_length (by decide)
  have hlive : live 0 rewritten = [⟨1, 2, 1⟩, ⟨1, 3, 0⟩] := by decide +kernel
  have hsize : ((store rewritten).arenaAt 0).map BlockArena.blockSize = some 12 := by
    decide +kernel
  obtain ⟨a, ha, hsize⟩ := Option.map_eq_some_iff.1 hsize
  have hwritten : written 0 ⟨1, 2, 1⟩ 12 rewritten = [0, 4, 6, 0, 0, 0, 0, 0, 0, 0, 0, 0] := by
    decide +kernel
  obtain ⟨hblock, -, -, hapart⟩ :=
    block_written ordinary_rewritten hy ha ⟨1, 2, 1⟩ (by simp [hlive])
  rw [hsize, hwritten] at hblock
  exact ⟨ordinary_rewritten, hy, hlive, a, ha, hsize, hblock,
    hapart ⟨1, 3, 0⟩ (by simp [hlive]) (by decide)⟩

end Run

end FixedArena
