import FixedArena.Proofs.Text.Exclusive
import FixedArena.Text.Owned

/-!
Owned texts in the account of a pool: making one adds a handle, giving it up removes the handle,
and everything else leaves the account in order.

Main facts:
* `create_trades`, `drop_trades`: the beginning and the end of an owned text;
* `still_content`, `keeps_assign`, `keeps_append`, `keeps_copy`: what lies between.
-/

namespace FixedArena

namespace TextPool

variable {α : Type} {g : Guarded TextPool} {h : TextHandle}

/-- An operation on a guarded pool keeps the account and the holds. -/
def GuardedKeeps (g g' : Guarded TextPool) : Prop := Keeps g.value g'.value ∧ g'.hold = g.hold

instance : IsPreorder (Guarded TextPool) GuardedKeeps where
  refl g := ⟨refl_of Keeps g.value, rfl⟩
  trans _ _ _ h₁ h₂ := ⟨trans_of Keeps h₁.1 h₂.1, h₂.2.trans h₁.2⟩

theorem keeps_writing {x : Act Error TextPool α} (hx : Act.Within Keeps x) :
    Act.Within GuardedKeeps (writing x) := Guarded.within_writing hx busy

theorem still_reading (f : TextPool → Except Error α) : Act.Still (reading f) := fun _ => rfl

theorem writing_own_cases (h : TextHandle) (g : Guarded TextPool) :
    (∃ p, writing (own h) g = ⟨.ok (), { g with value := p }, []⟩ ∧
      ∀ hs, Trades hs g.value (h :: hs) p) ∨
    ∃ e, writing (own h) g = ⟨.error e, g, []⟩ := by
  by_cases hf : g.hold = .free
  · have hw := Guarded.writing_free busy (own h) g hf
    obtain ⟨p, hown, ht⟩ | ⟨e, hown⟩ := own_cases h g.value
    · rw [hown] at hw
      exact .inl ⟨p, hw, ht⟩
    · rw [hown] at hw
      exact .inr ⟨e, hw⟩
  · exact .inr ⟨busy, Guarded.writing_busy busy (own h) g hf⟩

/-- Giving up a held handle, be it that the pool is held and the slot stays in use. -/
theorem trades_writing {x : Act Error TextPool α}
    (hx : ∀ p hs, Trades (h :: hs) p hs (x p).state) (g : Guarded TextPool) :
    (∀ hs, Trades (h :: hs) g.value hs (writing x g).state.value) ∧
      (writing x g).state.hold = g.hold := by
  by_cases hf : g.hold = .free
  · unfold writing
    rw [Guarded.writing_free busy x g hf]
    exact ⟨hx g.value, rfl⟩
  · unfold writing
    rw [Guarded.writing_busy busy x g hf]
    exact ⟨fun hs => .of_subperm _ (List.sublist_cons_self h hs).subperm, rfl⟩

end TextPool

namespace OwnedText

open TextPool (GuardedAct GuardedKeeps Keeps Trades reading writing)

variable {α : Type} {access : GuardedAct α}

/-- What an access keeps, its report keeps. -/
theorem within_reporting {Q : Guarded TextPool → Guarded TextPool → Prop}
    [IsPreorder (Guarded TextPool) Q] (h : TextHandle) (hx : Act.Within Q access) :
    Act.Within Q (reporting h access) := by
  apply hx.attempt.bind
  intro out
  cases out with
  | ok a => exact Act.within_pure _
  | error e => exact (Act.within_log _).bind fun _ => Act.within_pure _

theorem still_content (h : TextHandle) : Act.Still (content h) :=
  (within_reporting h (TextPool.still_reading _)).bind fun _ => Act.within_pure _

theorem still_compare (h : TextHandle) (t : String) : Act.Still (compare h t) :=
  (still_content h).bind fun _ => Act.within_pure _

theorem still_equals (h : TextHandle) (t : String) : Act.Still (equals h t) :=
  (still_compare h t).bind fun _ => Act.within_pure _

theorem still_length (h : TextHandle) : Act.Still (length h) :=
  (within_reporting h (TextPool.still_reading _)).bind fun _ => Act.within_pure _

theorem still_isEmpty (h : TextHandle) : Act.Still (isEmpty h) :=
  (still_length h).bind fun _ => Act.within_pure _

theorem still_maxLength (h : TextHandle) : Act.Still (maxLength h) :=
  (within_reporting h (TextPool.still_reading _)).bind fun _ => Act.within_pure _

theorem still_describe (h : TextHandle) : Act.Still (describe h) :=
  (still_content h).bind fun _ => Act.within_pure _

theorem keeps_assign (h : TextHandle) (t : String) : Act.Within GuardedKeeps (assign h t) :=
  (within_reporting h (TextPool.keeps_writing (TextPool.keeps_assign h t))).bind fun _ =>
    Act.within_pure _

theorem keeps_append (h : TextHandle) (t : String) : Act.Within GuardedKeeps (append h t) :=
  (within_reporting h (TextPool.keeps_writing (TextPool.keeps_append h t))).bind fun _ =>
    Act.within_pure _

theorem keeps_copy (h source : TextHandle) : Act.Within GuardedKeeps (copy h source) :=
  (within_reporting h (TextPool.keeps_writing (TextPool.keeps_copy h source))).bind fun _ =>
    Act.within_pure _

/-! ### Beginning and end -/

/-- Taking a slot and owning it, on a pool that nobody holds. -/
def take : Act Error TextPool TextHandle := do
  let h ← TextPool.allocate
  match ← Act.attempt (TextPool.own h) with
  | .ok () => return h
  | .error e =>
    let _ ← TextPool.free h
    Act.fail e

/-- The handles that an operation gives its caller to hold. -/
def given {ε : Type} (result : Except ε TextHandle) : List TextHandle := result.toOption.toList

/-- What is refused in the end gives no handle. -/
theorem refused_trades {x : Act Error TextPool α} (hx : Act.Within Keeps x) (e : Error)
    (p : TextPool) (hs : List TextHandle) :
    Trades hs p
      (given ((x >>= fun _ => (Act.fail e : Act Error TextPool TextHandle)) p).result ++ hs)
      ((x >>= fun _ => (Act.fail e : Act Error TextPool TextHandle)) p).state := by
  cases hr : (x p).result with
  | ok a =>
    rw [Act.bind_of_ok hr]
    exact hx p hs
  | error e' =>
    rw [Act.bind_of_error hr]
    exact hx p hs

theorem take_trades (p : TextPool) (hs : List TextHandle) :
    Trades hs p (given (take p).result ++ hs) (take p).state := by
  have halloc := TextPool.keeps_allocate p
  cases hr : (TextPool.allocate p).result with
  | error e =>
    have htake : take p = _ := Act.bind_of_error hr
    rw [htake]
    exact halloc hs
  | ok h =>
    have htake : take p = _ := Act.bind_of_ok hr
    obtain ⟨p', hown, ht⟩ | ⟨e, hown⟩ := TextPool.own_cases h (TextPool.allocate p).state
    · rw [Act.bind_ok (Act.attempt_of_ok hown)] at htake
      rw [htake]
      exact (halloc hs).trans (ht hs)
    · cases he : e.isFault with
      | true =>
        rw [Act.bind_error (Act.attempt_fault (congrArg Outcome.result hown) he), hown] at htake
        rw [htake]
        exact halloc hs
      | false =>
        rw [Act.bind_ok (Act.attempt_of_error hown he)] at htake
        rw [htake]
        exact (halloc hs).trans (refused_trades (TextPool.keeps_free h) e _ hs)

/-- **Making a text gives its holder a handle**, or nothing. -/
theorem create_trades (g : Guarded TextPool) (hs : List TextHandle) :
    Trades hs g.value (given (create g).result ++ hs) (create g).state.value ∧
      (create g).state.hold = g.hold := by
  by_cases hf : g.hold = .free
  · have hcreate : create g = _ := Guarded.writing_free TextPool.busy take g hf
    rw [hcreate]
    exact ⟨take_trades g.value hs, rfl⟩
  · have hcreate : create g = _ := Guarded.writing_busy TextPool.busy take g hf
    rw [hcreate]
    exact ⟨.refl hs g.value, rfl⟩

theorem state_drop (h : TextHandle) (g : Guarded TextPool) :
    (drop h g).state = (writing (TextPool.reclaim h) g).state := by
  unfold drop
  rw [Act.state_bind fun out g => ?_]
  · exact Act.state_attempt _ g
  · cases out <;> rfl

/-- **Giving a text up takes its handle away.** -/
theorem drop_trades (h : TextHandle) (g : Guarded TextPool) (hs : List TextHandle) :
    Trades (h :: hs) g.value hs (drop h g).state.value ∧ (drop h g).state.hold = g.hold := by
  have hreclaim := TextPool.trades_writing (fun p hs => TextPool.trades_reclaim h hs p) g
  rw [state_drop]
  exact ⟨hreclaim.1 hs, hreclaim.2⟩

end OwnedText

end FixedArena
