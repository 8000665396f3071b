import FixedArena.Proofs.Store.Containers

/-!
Where rings come from. Only the command that makes rings adds one; all others leave a container the
ring that it was, turn it into nothing, or add a container of another kind.

Main facts:
* `older_step`: a ring that is there after any other command was there before.
-/

namespace FixedArena

/-- The container is a ring, other than a text ring. -/
def Container.IsRing : Container → Prop
  | .ring .. => True
  | .textRing .. | .text .. => False

namespace Store

variable {α : Type} {s t : Store} {r : Nat}

/-- The container with this number is a ring. -/
def HasRing (s : Store) (r : Nat) : Prop := ∃ c, s.containerAt r = some c ∧ c.IsRing

/-- If there is a ring with this number then there was one before. -/
def Older (r : Nat) (s t : Store) : Prop := t.HasRing r → s.HasRing r

instance : IsPreorder Store (Older r) where
  refl _ := id
  trans _ _ _ hst htu h := hst (htu h)

theorem older_of_containers (h : t.containers = s.containers) : Older r s t := by
  rintro ⟨c, hc, hring⟩
  refine ⟨c, ?_, hring⟩
  rw [containerAt, ← h]
  exact hc

theorem older_of_quiet {x : StoreAct α} (hx : Act.Within Quiet x) : Act.Within (Older r) x :=
  fun s => older_of_containers (hx s).containers

/-- One container is set to something else than a ring. -/
theorem older_of_set {x : Option Container} {r' : Nat}
    (ht : t.containers = s.containers.setIfInBounds r' x) (hx : ∀ c ∈ x, ¬c.IsRing) :
    Older r s t := by
  rintro ⟨c, hc, hring⟩
  unfold containerAt at hc
  rw [ht] at hc
  by_cases hr : r = r'
  · subst hr
    rw [Array.getElem?_setIfInBounds, if_pos rfl] at hc
    split at hc
    · exact absurd hring (hx c hc)
    · cases hc
  · rw [Array.getElem?_setIfInBounds_ne (Ne.symm hr)] at hc
    exact ⟨c, hc, hring⟩

theorem older_without (r' : Nat) (s : Store) : Older r s (without r' s) :=
  older_of_set rfl nofun

theorem older_onArena (n : Nat) (x : Act Failure (Guarded BlockArena) α) :
    Act.Within (Older r) (onArena n x) := by
  intro s
  cases hg : s.arenas[n]? with
  | none =>
    rw [onArena_none hg]
    exact refl_of (Older r) s
  | some g =>
    rw [onArena_some hg]
    exact older_of_containers rfl

theorem older_onTextRing (r' : Nat) (tr : TextRing) (n pool : Nat) (x : Act Error TextRing.Site α) :
    Act.Within (Older r) (onTextRing r' tr n pool x) := by
  intro s
  obtain ⟨-, h⟩ | ⟨g, p, -, -, h⟩ := onTextRing_cases r' tr pool n x s
  · rw [h]
    exact refl_of (Older r) s
  · rw [h]
    apply older_of_set rfl
    intro c hc
    exact Option.mem_some_iff.1 hc ▸ id

/-- A ring that is worked on stays a ring. -/
theorem older_onRing {type : ElementType} {ring : Ring type.Value} {n r' : Nat}
    (hc : s.containerAt r' = some (.ring type ring n)) (x : Act Error (Ring.Site type.Value) α) :
    Older r s (onRing r' ring n x s).state := by
  by_cases hr : r = r'
  · exact fun _ => hr ▸ ⟨_, hc, trivial⟩
  · cases hg : s.arenas[n]? with
    | none =>
      rw [onRing_none r' ring hg]
      exact refl_of (Older r) s
    | some g =>
      rw [onRing_some r' ring hg]
      rintro ⟨c, ht, hring⟩
      rw [containerAt_of_set (lt_size_of_containerAt hc) rfl, if_neg hr] at ht
      exact ⟨c, ht, hring⟩

theorem older_addContainer {c : Container} (hc : ¬c.IsRing) :
    Act.Within (Older r) (addContainer c) := by
  rintro s ⟨c', ht, hring⟩
  rw [addContainer_eq, containerAt_of_push (s := s) rfl] at ht
  split at ht
  · exact absurd hring (Option.some.inj ht ▸ hc)
  · exact ⟨c', ht, hring⟩

/-! ### Commands to containers -/

theorem older_ring (r' : Nat) (c : RingCommand Datum) :
    Act.Within (Older r) (step (.ring r' c)) := by
  intro s
  obtain h | ⟨type, ring, n, d, hc, -, h⟩ := ring_cases r' c s
  · rw [h]
    exact refl_of (Older r) s
  · have hon : ∀ {β : Type} (x : Act Error (Ring.Site type.Value) β) (f : β → Reply),
        Older r s ((f <$> onRing r' ring n x) s).state := by
      intro _ x f
      rw [Act.map_apply]
      exact older_onRing hc x
    rw [h]
    cases d with
    | size => exact refl_of (Older r) s
    | describe => exact refl_of (Older r) s
    | _ => exact hon _ _

theorem older_textRing (r' : Nat) (c : TextRingCommand) :
    Act.Within (Older r) (step (.textRing r' c)) := by
  refine (Act.within_read _).bind fun x => ?_
  cases x with
  | ring type ring n => exact Act.within_fail _
  | text h pool => exact Act.within_fail _
  | textRing tr n pool =>
    cases c with
    | size => exact Act.within_pure _
    | livesIn k => exact Act.within_pure _
    | intoTexts =>
      exact ((older_onTextRing r' tr n pool _).afterwards (older_without r')).map _
    | _ => exact (older_onTextRing r' tr n pool _).map _

theorem older_drop (r' : Nat) : Act.Within (Older r) (step (.drop r')) := by
  intro s
  obtain ⟨-, h⟩ | ⟨c, hc, h⟩ := drop_cases r' s
  · rw [h]
    exact refl_of (Older r) s
  · rw [h]
    refine trans_of (Older r) ?_ (older_without r' _)
    cases c with
    | ring type ring n => exact older_onRing hc _
    | textRing tr n pool => exact older_onTextRing r' tr n pool _ s
    | text h pool => exact older_of_quiet (quiet_onPool pool _) s

/-! ### All commands -/

theorem older_addArena (capacity blockSize : Nat) :
    Act.Within (Older r) (addArena capacity blockSize) := by
  intro s
  obtain h | ⟨-, h⟩ := addArena_cases capacity blockSize s
  all_goals
    rw [h]
    exact older_of_containers rfl

theorem older_addArenas (sizing : Sizing) : Act.Within (Older r) (addArenas sizing) := by
  intro s
  obtain h | h | ⟨-, -, h⟩ := addArenas_cases sizing s
  all_goals
    rw [h]
    exact older_of_containers rfl

/-- **Only one command makes rings.** -/
theorem older_step {c : Command} (hc : ∀ type n, c ≠ .newRing type n) :
    Act.Within (Older r) (step c) := by
  cases c with
  | newRing type n => exact absurd rfl (hc type n)
  | reserveArena capacity blockSize => exact (older_addArena capacity blockSize).map _
  | reserve sizing => exact (older_addArenas sizing).map _
  | swapArenas i j =>
    refine (Act.within_read _).bind fun _ => (Act.within_modify fun s => ?_).bind fun _ =>
      Act.within_pure _
    exact older_of_containers rfl
  | newTextRing n pool =>
    exact (Act.within_read _).bind fun _ => (older_onArena n _).bind fun _ =>
      (older_addContainer id).map _
  | drop r' => exact older_drop r'
  | arena n c =>
    cases c with
    | allocate => exact (older_onArena n _).map _
    | free h => exact (older_onArena n _).map _
    | write h offset bs => exact (older_onArena n _).map _
    | fill h b => exact (older_onArena n _).map _
    | _ => exact older_of_quiet (quiet_of_calm (calm_arena n trivial))
  | ring r' c => exact older_ring r' c
  | textRing r' c => exact older_textRing r' c
  | newText pool content =>
    apply (older_of_quiet (quiet_onPool pool _)).bind
    intro h
    cases content with
    | none => exact (older_addContainer id).map _
    | some t =>
      exact (older_of_quiet (quiet_onPool pool _)).bind fun _ => (older_addContainer id).map _
  | text r' c =>
    by_cases hclone : c = .clone
    · subst hclone
      exact (older_of_quiet (quiet_of_calm (calm_textAt r'))).bind fun _ =>
        (older_of_quiet (quiet_onPool _ _)).bind fun _ =>
        (older_of_quiet (quiet_of_calm (calm_assignFrom _ _ _ _))).bind fun _ =>
        (older_addContainer id).map _
    · exact older_of_quiet (quiet_of_calm (calm_step hclone))
  | _ => exact older_of_quiet (quiet_of_calm (calm_step trivial))

end Store

end FixedArena
