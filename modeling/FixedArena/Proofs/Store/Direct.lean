import FixedArena.Proofs.Store.Containers
import FixedArena.Proofs.Store.Reserving

/-!
Commands that hand blocks to callers and take them back, and commands that reserve arenas.

Main facts:
* `step_allocate`, `step_free`, `step_write`, `step_fill`: the direct commands to an arena;
* `exchanges_reserveArena`, `exchanges_reserve`: reserving leaves what was there.
-/

namespace FixedArena

namespace Store

variable {α : Type} {s t : Store} {k : Nat}

/-! ### Direct commands to an arena -/

section Direct

variable {n : Nat} {h : BlockHandle}

/-- A direct change of an arena, which nobody holds then, or a refusal. -/
theorem writeArena_cases (n : Nat) (x : Act Error BlockArena α) (s : Store) :
    (∃ e log, writeArena n x s = ⟨.error e, s, log⟩) ∨
    ∃ g, s.arenas[n]? = some g ∧ writeArena n x s = ⟨(x g.value).result.mapError .refused,
      { s with arenas := s.arenas.setIfInBounds n { g with value := (x g.value).state } },
      (x g.value).events⟩ := by
  unfold writeArena
  cases hg : s.arenas[n]? with
  | none => exact .inl ⟨.unknown, [], onArena_none hg _⟩
  | some g =>
    rw [onArena_some hg]
    by_cases hf : g.hold = .free
    · refine .inr ⟨g, rfl, ?_⟩
      rw [Guarded.writing_free _ _ g hf]
      rfl
    · refine .inl ⟨.held, [], ?_⟩
      simp only [Guarded.writing_busy _ _ g hf, set_back hg]

/-- What a direct command does to all arenas: on one of them the callers turn blocks over. -/
def Hands (s : Store) (n : Nat) (l : List UInt32) (t : Store) (l' : List UInt32) : Prop :=
  ∀ k, Exchanges k s s.containers.size (if k = n then l else []) t (if k = n then l' else [])

/-- A direct change of an arena that turns blocks of the callers over. -/
theorem writeArena_hands {x : Act Error BlockArena α} {l : List UInt32} {l' : α → List UInt32}
    {Q : α → BlockArena → BlockArena → Prop}
    (hx : ∀ a, a.Sound → (∃ e log, x a = ⟨.error e, a, log⟩) ∨
      ∃ v b log, x a = ⟨.ok v, b, log⟩ ∧ Q v a b ∧ a.Turns l b (l' v))
    (hs : ∀ j, s.Settled j) (n : Nat) :
    (∃ e log, writeArena n x s = ⟨.error e, s, log⟩) ∨
    ∃ v t log a b, writeArena n x s = ⟨.ok v, t, log⟩ ∧ s.arenaAt n = some a ∧
      t.arenaAt n = some b ∧ Q v a b ∧ s.Hands n l t (l' v) := by
  obtain ⟨e, log, hw⟩ | ⟨g, hg, hw⟩ := writeArena_cases n x s
  · exact .inl ⟨e, log, hw⟩
  · have hgn := arenaAt_of_get hg
    obtain ⟨e, log, he⟩ | ⟨v, b, log, hv, hq, hturns⟩ := hx g.value ((hs n).sound _ hgn)
    · rw [he] at hw
      simp only [set_back hg] at hw
      exact .inl ⟨.refused e, log, hw⟩
    · rw [hv] at hw
      refine .inr ⟨v, _, log, g.value, b, hw, hgn, ?_, hq, ?_⟩
      · rw [arenaAt_of_set hg rfl, if_pos rfl]
      · exact exchanges_of_arena hg rfl (Nat.le_refl _) rfl hturns

/-- **A caller is handed a block, or refused.** -/
theorem step_allocate (hs : ∀ j, s.Settled j) (n : Nat) :
    (∃ e log, step (.arena n .allocate) s = ⟨.error e, s, log⟩) ∨
    ∃ h t log b, step (.arena n .allocate) s = ⟨.ok (.block h), t, log⟩ ∧
      t.arenaAt n = some b ∧ b.Accepts h ∧ s.Hands n [] t [h.index] := by
  rw [step, arenaStep, Act.map_apply]
  obtain ⟨e, log, hw⟩ | ⟨h, t, log, a, b, hw, -, hb, hq, hhands⟩ :=
    writeArena_hands (Q := fun h _ b => b.Accepts h) BlockArena.allocate_cases hs n
  · rw [hw]
    exact .inl ⟨e, log, rfl⟩
  · rw [hw]
    exact .inr ⟨h, t, log, b, rfl, hb, hq, hhands⟩

/-- **A caller gives a block back, or is refused.** -/
theorem step_free (hs : ∀ j, s.Settled j) (n : Nat) (h : BlockHandle) :
    (∃ e log, step (.arena n (.free h)) s = ⟨.error e, s, log⟩) ∨
    ∃ t log a b, step (.arena n (.free h)) s = ⟨.ok .done, t, log⟩ ∧
      s.arenaAt n = some a ∧ a.Accepts h ∧ t.arenaAt n = some b ∧ ¬b.InUse h.index ∧
      s.Hands n [h.index] t [] := by
  rw [step, arenaStep, Act.map_apply]
  obtain ⟨e, log, hw⟩ | ⟨u, t, log, a, b, hw, ha, hb, hq, hhands⟩ :=
    writeArena_hands (Q := fun _ a b => a.Accepts h ∧ ¬b.InUse h.index)
      (BlockArena.free_cases h) hs n
  · rw [hw]
    exact .inl ⟨e, log, rfl⟩
  · rw [hw]
    exact .inr ⟨t, log, a, b, rfl, ha, hq.1, hb, hq.2, hhands⟩

/-- **A caller writes into a block, or is refused.** -/
theorem step_write (hs : ∀ j, s.Settled j) (n : Nat) (h : BlockHandle) (offset : Nat)
    (bs : List UInt8) : (∃ e log, step (.arena n (.write h offset bs)) s = ⟨.error e, s, log⟩) ∨
    ∃ t log a, step (.arena n (.write h offset bs)) s = ⟨.ok .done, t, log⟩ ∧
      s.arenaAt n = some a ∧ a.Accepts h ∧ s.Hands n [h.index] t [h.index] := by
  rw [step, arenaStep, Act.map_apply]
  obtain ⟨e, log, hw⟩ | ⟨u, t, log, a, b, hw, ha, -, hq, hhands⟩ :=
    writeArena_hands (Q := fun _ a _ => a.Accepts h)
      (fun a _ => BlockArena.write_cases h offset bs a) hs n
  · rw [hw]
    exact .inl ⟨e, log, rfl⟩
  · rw [hw]
    exact .inr ⟨t, log, a, rfl, ha, hq, hhands⟩

/-- **A caller fills a block, or is refused.** -/
theorem step_fill (hs : ∀ j, s.Settled j) (n : Nat) (h : BlockHandle) (c : UInt8) :
    (∃ e log, step (.arena n (.fill h c)) s = ⟨.error e, s, log⟩) ∨
    ∃ t log a, step (.arena n (.fill h c)) s = ⟨.ok .done, t, log⟩ ∧
      s.arenaAt n = some a ∧ a.Accepts h ∧ s.Hands n [h.index] t [h.index] := by
  rw [step, arenaStep, Act.map_apply]
  obtain ⟨e, log, hw⟩ | ⟨u, t, log, a, b, hw, ha, -, hq, hhands⟩ :=
    writeArena_hands (Q := fun _ a _ => a.Accepts h)
      (fun a _ => BlockArena.write_cases h 0 (List.replicate a.blockSize c) a) hs n
  · refine .inl ⟨e, log, ?_⟩
    have hw' : writeArena n (BlockArena.fill h c) s = ⟨.error e, s, log⟩ := hw
    rw [hw']
    rfl
  · refine .inr ⟨t, log, a, ?_, ha, hq, hhands⟩
    have hw' : writeArena n (BlockArena.fill h c) s = ⟨.ok (), t, log⟩ := hw
    rw [hw']
    rfl

end Direct

/-! ### Reserving -/

theorem exchanges_push {b : BlockArena} (hb : b.New)
    (ht : t.arenas = s.arenas.push { value := b }) (hc : t.containers = s.containers)
    (hpools : s.pools.size ≤ t.pools.size) (hs : s.Settled k) (r : Nat) :
    Exchanges k s r [] t [] := by
  have hsame : ∀ r', t.containerAt r' = s.containerAt r' := by
    intro r'
    rw [containerAt, hc, containerAt]
  have hplaced : ∀ r', t.placedAt r' = s.placedAt r' := fun r' => placedAt_congr (hsame r')
  have harena := arenaAt_of_push ht k
  have hgrown : s.Grown t := ⟨by simp [ht], hpools⟩
  refine ⟨fun r' _ => hsame r', hgrown, fun p hp => ?_, fun ha => ?_, fun a ha => ?_⟩
  · exact (hs.homed r p (hplaced r ▸ hp)).grown hgrown
  · rw [harena]
    split
    · exact .inr ⟨b, rfl, hb, hplaced r⟩
    · exact .inl ha
  · have hk := (lt_size_of_arenaAt ha).ne
    have hta : t.arenaAt k = some a := by rw [harena, if_neg hk, ha]
    have hslots : t.slotsAt k r = s.slotsAt k r := by
      unfold slotsAt
      rw [hplaced, hta, ha]
    refine ⟨a, hta, fun p hp => hs.valid a ha r p (hplaced r ▸ hp), ?_⟩
    rw [hslots]
    exact .refl a _

/-- **Reserving an arena leaves what was there.** -/
theorem exchanges_reserveArena (capacity blockSize : Nat) (hs : s.Settled k) (r : Nat) :
    Exchanges k s r [] (step (.reserveArena capacity blockSize) s).state [] := by
  rw [step, Act.map_apply]
  obtain h | ⟨hroom, h⟩ := addArena_cases capacity blockSize s
  · rw [h]
    exact exchanges_refl hs r
  · have hnew : (BlockArena.fresh s.nextArena capacity blockSize).New :=
      ⟨_, _, _, rfl, (BlockArena.room_eq_ok_iff.1 hroom).2.2.1⟩
    rw [h]
    refine exchanges_push hnew ?_ ?_ ?_ hs r
    · rfl
    · rfl
    · exact Nat.le_refl _

/-- **Reserving an arena and a pool leaves what was there**, also if there is room for one only. -/
theorem exchanges_reserve (sizing : Sizing) (hs : s.Settled k) (r : Nat) :
    Exchanges k s r [] (step (.reserve sizing) s).state [] := by
  rw [step, Act.map_apply]
  obtain h | h | ⟨hroom, -, h⟩ := addArenas_cases sizing s
  · rw [h]
    exact exchanges_refl hs r
  · rw [h]
    refine exchanges_of_quiet ?_ hs r
    exact quiet_of_eq rfl rfl (Nat.le_refl _)
  · have hnew : (BlockArena.fresh s.nextArena (blocksOf sizing) (widthOf sizing)).New :=
      ⟨_, _, _, rfl, (BlockArena.room_eq_ok_iff.1 hroom).2.2.1⟩
    rw [h]
    refine exchanges_push hnew ?_ ?_ ?_ hs r
    · rfl
    · rfl
    · simp

end Store

end FixedArena
