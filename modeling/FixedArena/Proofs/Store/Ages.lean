import FixedArena.Proofs.Ring.Ages
import FixedArena.Proofs.Store.Direct

/-!
Generations count frees in every run. Whatever the state of a store, no command but the exchange of
two arenas both hands out blocks of an arena and takes blocks back, so a command raises the
generation of a block by one if it takes the block out of use, and leaves it otherwise.

Main facts:
* `grows_or_releases`: every command is of one kind or the other;
* `step_ages`: generations count frees.
-/

namespace FixedArena

open BlockArena (Ages Grows Releases)

namespace Store

variable {α : Type} {R : BlockArena → BlockArena → Prop} {s t : Store} {k : Nat}

/-- An arena is there still, and related to what it was. -/
def On (R : BlockArena → BlockArena → Prop) (k : Nat) (s t : Store) : Prop :=
  ∀ a, s.arenaAt k = some a → ∃ b, t.arenaAt k = some b ∧ R a b

theorem On.imp {R' : BlockArena → BlockArena → Prop} (h : On R k s t)
    (hR : ∀ a b, R a b → R' a b) : On R' k s t := by
  intro a ha
  obtain ⟨b, hb, hab⟩ := h a ha
  exact ⟨b, hb, hR a b hab⟩

section Preorder

variable [IsPreorder BlockArena R]

instance : IsPreorder Store (On R k) where
  refl _ a ha := ⟨a, ha, refl_of R a⟩
  trans _ _ _ h₁ h₂ a ha := by
    obtain ⟨b, hb, hab⟩ := h₁ a ha
    obtain ⟨c, hc, hbc⟩ := h₂ b hb
    exact ⟨c, hc, trans_of R hab hbc⟩

theorem on_of_quiet {x : StoreAct α} (hx : Act.Within Quiet x) : Act.Within (On R k) x :=
  fun s a ha => ⟨a, ((hx s).arenaAt k).trans ha, refl_of R a⟩

theorem on_of_set {g g' : Guarded BlockArena} {n : Nat} (hg : s.arenas[n]? = some g)
    (ht : t.arenas = s.arenas.setIfInBounds n g') (h : R g.value g'.value) : On R k s t := by
  intro a ha
  rw [arenaAt_of_set hg ht]
  by_cases hk : k = n
  · have hgn := arenaAt_of_get hg
    rw [hk, hgn] at ha
    rw [if_pos hk]
    exact ⟨g'.value, rfl, Option.some.inj ha ▸ h⟩
  · rw [if_neg hk]
    exact ⟨a, ha, refl_of R a⟩

theorem on_onArena {x : Act Failure (Guarded BlockArena) α}
    (hx : Act.Within (fun g g' => R g.value g'.value) x) (n : Nat) :
    Act.Within (On R k) (onArena n x) := by
  intro s
  cases hg : s.arenas[n]? with
  | none =>
    rw [onArena_none hg]
    exact refl_of (On R k) s
  | some g =>
    rw [onArena_some hg]
    exact on_of_set hg rfl (hx g)

theorem on_writeArena {x : Act Error BlockArena α} (hx : Act.Within R x) (n : Nat) :
    Act.Within (On R k) (writeArena n x) :=
  on_onArena ((Guarded.within_writing (hx.mapError _) _).imp fun _ _ h => h.1) n

theorem on_onRing {type : ElementType} {x : Act Error (Ring.Site type.Value) α}
    (hx : Act.Within (Ring.Site.On R) x) (r : Nat) (ring : Ring type.Value) (n : Nat) :
    Act.Within (On R k) (onRing r ring n x) := by
  intro s
  cases hg : s.arenas[n]? with
  | none =>
    rw [onRing_none r ring hg]
    exact refl_of (On R k) s
  | some g =>
    rw [onRing_some r ring hg]
    exact on_of_set hg rfl (hx ⟨ring, g⟩)

theorem on_onTextRing {x : Act Error TextRing.Site α} (hx : Act.Within (TextRing.Site.On R) x)
    (r : Nat) (ring : TextRing) (n pool : Nat) :
    Act.Within (On R k) (onTextRing r ring n pool x) := by
  intro s
  obtain ⟨-, h⟩ | ⟨g, p, hg, -, h⟩ := onTextRing_cases r ring pool n x s
  · rw [h]
    exact refl_of (On R k) s
  · rw [h]
    exact on_of_set hg rfl (hx ⟨ring, g, p⟩)

theorem on_addContainer (c : Container) : Act.Within (On R k) (addContainer c) :=
  fun _ a ha => ⟨a, ha, refl_of R a⟩

theorem on_without (r : Nat) (s : Store) : On R k s (without r s) :=
  fun a ha => ⟨a, ha, refl_of R a⟩

theorem on_of_push {g : Guarded BlockArena} (ht : t.arenas = s.arenas.push g) : On R k s t := by
  intro a ha
  have hk := (lt_size_of_arenaAt ha).ne
  refine ⟨a, ?_, refl_of R a⟩
  rw [arenaAt_of_push ht, if_neg hk, ha]

end Preorder

/-! ### Commands -/

/-- From every store the operation takes no block back, or hands none out. -/
def OneWay (k : Nat) (x : StoreAct α) : Prop :=
  ∀ s, On Grows k s (x s).state ∨ On Releases k s (x s).state

theorem OneWay.grows {x : StoreAct α} (hx : Act.Within (On Grows k) x) : OneWay k x :=
  fun s => .inl (hx s)

theorem OneWay.releases {x : StoreAct α} (hx : Act.Within (On Releases k) x) : OneWay k x :=
  fun s => .inr (hx s)

theorem oneWay_ringStep {type : ElementType} (r : Nat) (ring : Ring type.Value) (n : Nat)
    (c : RingCommand type.Value) : OneWay k (ringStep r ring n c) := by
  cases c with
  | push side v => exact .grows ((on_onRing (Ring.grows_push side v) r ring n).map _)
  | pop side => exact .releases ((on_onRing (Ring.releases_pop side) r ring n).map _)
  | peek side => exact .grows ((on_onRing (Ring.on_same (Ring.state_peek side)) r ring n).map _)
  | get index => exact .grows ((on_onRing (Ring.on_same (Ring.state_get index)) r ring n).map _)
  | set index v => exact .grows ((on_onRing (Ring.grows_set index v) r ring n).map _)
  | clear => exact .releases ((on_onRing Ring.releases_clear r ring n).map _)
  | size => exact .grows (Act.within_pure _)
  | toList => exact .grows ((on_onRing (Act.within_read _) r ring n).map _)
  | scan steps => exact .grows ((on_onRing (Ring.on_same (Ring.state_scan steps)) r ring n).map _)
  | describe => exact .grows (Act.within_pure _)

theorem oneWay_textRingStep (r : Nat) (ring : TextRing) (n pool : Nat) (c : TextRingCommand) :
    OneWay k (textRingStep r ring n pool c) := by
  have hread : ∀ {β : Type} {x : Act Error TextRing.Site β},
      Act.Within (TextRing.Site.On Grows) x →
      Act.Within (On Grows k) (onTextRing r ring n pool x) :=
    fun hx => on_onTextRing hx r ring n pool
  have hhandles : ∀ {β : Type} {x : Act Error (Ring.Site TextHandle) β}, (∀ s, (x s).state = s) →
      Act.Within (TextRing.Site.On Grows) (TextRing.onHandles x) :=
    fun hx => TextRing.on_onHandles (Ring.on_same hx)
  cases c with
  | push side h => exact .grows ((hread (TextRing.grows_push side h)).map _)
  | pushText t => exact .grows ((hread (TextRing.grows_pushText t)).map _)
  | pop side => exact .releases ((on_onTextRing (TextRing.releases_pop side) r ring n pool).map _)
  | peek side => exact .grows ((hread (hhandles (Ring.state_peek side))).map _)
  | get index => exact .grows ((hread (hhandles (Ring.state_get index))).map _)
  | text index =>
    refine .grows ((hread ?_).map _)
    exact (hhandles (Ring.state_get index)).bind fun _ => TextRing.on_onPool _
  | position t => exact .grows ((hread (Act.within_read _)).map _)
  | size => exact .grows (Act.within_pure _)
  | toList => exact .grows ((hread (Act.within_read _)).map _)
  | scan steps => exact .grows ((hread (hhandles (Ring.state_scan steps))).map _)
  | clear => exact .releases ((on_onTextRing TextRing.releases_clear r ring n pool).map _)
  | describe => exact .grows ((hread (Act.within_read _)).map _)
  | describeLong => exact .grows ((hread (Act.within_read _)).map _)
  | intoTexts =>
    have hdrop : Act.Within (TextRing.Site.On Releases) TextRing.intoTexts := by
      intro s
      rw [TextRing.state_intoTexts]
      exact TextRing.releases_drop s
    exact .releases (((on_onTextRing hdrop r ring n pool).afterwards (on_without r)).map _)
  | livesIn k => exact .grows (Act.within_pure _)

theorem releases_dropContainer (r : Nat) (c : Container) :
    Act.Within (On Releases k) (dropContainer r c) := by
  unfold dropContainer
  refine Act.Within.afterwards ?_ (on_without r)
  cases c with
  | ring type ring n => exact on_onRing Ring.releases_drop r ring n
  | textRing ring n pool => exact on_onTextRing TextRing.releases_drop r ring n pool
  | text h pool => exact on_of_quiet (quiet_onPool pool _)

theorem grows_create (type : ElementType) (n : Nat) : Act.Within (On Grows k)
    (onArena n ((Ring.create (α := type.Value)).mapError .refused)) :=
  on_onArena (Ring.grows_create.mapError _) n

theorem grows_addArena (capacity blockSize : Nat) :
    Act.Within (On Grows k) (addArena capacity blockSize) := by
  intro s
  obtain h | ⟨-, h⟩ := addArena_cases capacity blockSize s
  · rw [h]
    exact refl_of (On Grows k) s
  · rw [h]
    exact on_of_push rfl

theorem grows_addArenas (sizing : Sizing) : Act.Within (On Grows k) (addArenas sizing) := by
  intro s
  obtain h | h | ⟨-, -, h⟩ := addArenas_cases sizing s
  · rw [h]
    exact refl_of (On Grows k) s
  · rw [h]
    exact fun a ha => ⟨a, ha, refl_of Grows a⟩
  · rw [h]
    exact on_of_push rfl

theorem oneWay_ring (r : Nat) (c : RingCommand Datum) : OneWay k (step (.ring r c)) := by
  intro s
  obtain h | ⟨type, ring, n, d, -, -, h⟩ := ring_cases r c s
  · rw [h]
    exact .inl (refl_of (On Grows k) s)
  · rw [h]
    exact oneWay_ringStep r ring n d s

theorem oneWay_textRing (r : Nat) (c : TextRingCommand) : OneWay k (step (.textRing r c)) := by
  intro s
  obtain ⟨-, h⟩ | ⟨tr, n, pool, -, h⟩ := textRing_cases r c s
  · rw [h]
    exact .inl (refl_of (On Grows k) s)
  · rw [h]
    exact oneWay_textRingStep r tr n pool c s

/-- **No command but the exchange of two arenas both hands out blocks and takes blocks back.** -/
theorem grows_or_releases {c : Command} (hc : ∀ i j, c ≠ .swapArenas i j) : OneWay k (step c) := by
  cases c with
  | reserveArena capacity blockSize => exact .grows ((grows_addArena capacity blockSize).map _)
  | reserve sizing => exact .grows ((grows_addArenas sizing).map _)
  | newRing type n =>
    exact .grows ((grows_create type n).bind fun _ => (on_addContainer _).map _)
  | newTextRing n pool =>
    exact .grows ((Act.within_read _).bind fun _ =>
      (grows_create .handle n).bind fun _ => (on_addContainer _).map _)
  | drop r =>
    exact .releases ((Act.within_read _).bind fun c => (releases_dropContainer r c).bind fun _ =>
      Act.within_pure _)
  | swapArenas i j => exact absurd rfl (hc i j)
  | arena n c =>
    cases c with
    | allocate => exact .grows ((on_writeArena BlockArena.grows_allocate n).map _)
    | free h => exact .releases ((on_writeArena (BlockArena.releases_free h) n).map _)
    | write h offset bs =>
      exact .grows ((on_writeArena (BlockArena.grows_write h offset bs) n).map _)
    | fill h b =>
      refine .grows ((on_writeArena (fun a => ?_) n).map _)
      exact BlockArena.grows_write h 0 (List.replicate a.blockSize b) a
    | _ => exact .grows (on_of_quiet (quiet_of_calm (calm_arena n trivial)))
  | ring r c => exact oneWay_ring r c
  | textRing r c => exact oneWay_textRing r c
  | newText pool content =>
    refine .grows ((on_of_quiet (quiet_onPool pool _)).bind fun h => ?_)
    cases content with
    | none => exact (on_addContainer _).map _
    | some t => exact (on_of_quiet (quiet_onPool pool _)).bind fun _ => (on_addContainer _).map _
  | text r c =>
    by_cases hclone : c = .clone
    · subst hclone
      exact .grows ((on_of_quiet (quiet_of_calm (calm_textAt r))).bind fun _ =>
        (on_of_quiet (quiet_onPool _ _)).bind fun _ =>
        (on_of_quiet (quiet_of_calm (calm_assignFrom _ _ _ _))).bind fun _ =>
        (on_addContainer _).map _)
    · exact .grows (on_of_quiet (quiet_of_calm (calm_step hclone)))
  | _ => exact .grows (on_of_quiet (quiet_of_calm (calm_step trivial)))

/-- **Generations count frees.** -/
theorem step_ages {c : Command} (hc : ∀ i j, c ≠ .swapArenas i j) (s : Store) (k : Nat) :
    On Ages k s (step c s).state := by
  obtain hgrows | hreleases := grows_or_releases (k := k) hc s
  · exact hgrows.imp fun _ _ => Grows.ages
  · exact hreleases.imp fun _ _ h => h.toAges

end Store

end FixedArena
