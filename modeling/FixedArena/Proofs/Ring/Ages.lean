import FixedArena.Proofs.Block.Ages
import FixedArena.Proofs.Text.Ring

/-!
Which operations of rings hand blocks out and which take blocks back. Adding and setting a value and
making a ring take no block back; removing values and giving a ring up hand none out.

Main facts:
* `grows_push`, `grows_set`, `grows_create`, `releases_pop`, `releases_drop`: rings;
* `TextRing.grows_push`, `TextRing.releases_pop`, `TextRing.releases_drop`: text rings.
-/

namespace FixedArena

open BlockArena (Grows Releases)

namespace Ring

variable {α β : Type} {R : BlockArena → BlockArena → Prop}

/-- The arenas of two sites are related. -/
def Site.On (R : BlockArena → BlockArena → Prop) (s t : Site α) : Prop :=
  R s.nodes.value t.nodes.value

instance [IsPreorder BlockArena R] : IsPreorder (Site α) (Site.On R) where
  refl s := refl_of R s.nodes.value
  trans _ _ _ h₁ h₂ := trans_of R h₁ h₂

section Access

variable [IsPreorder BlockArena R]

theorem on_writing {x : Ring α → Act Error BlockArena β} (hx : ∀ r, Act.Within R (x r)) :
    Act.Within (Site.On R) (writing x) := by
  refine Act.within_get.bind fun s => ?_
  refine Act.within_zoom (Guarded.within_writing (hx s.ring) nodesBusy) ?_
  exact fun _ _ h => h.1

theorem on_setLen (f : Nat → Nat) : Act.Within (Site.On (α := α) R) (setLen f) :=
  Act.within_modify fun s => refl_of R s.nodes.value

theorem on_same {x : Act Error (Site α) β} (hx : ∀ s, (x s).state = s) :
    Act.Within (Site.On R) x := by
  intro s
  rw [hx]
  exact refl_of (Site.On R) s

end Access

/-! ### Nodes -/

theorem grows_setNodeBytes (index : UInt32) (offset : Nat) (bs : List UInt8) :
    Act.Within Grows (setNodeBytes index offset bs) :=
  (Act.within_read _).bind fun h => BlockArena.grows_write h offset bs

theorem releases_setNodeBytes (index : UInt32) (offset : Nat) (bs : List UInt8) :
    Act.Within Releases (setNodeBytes index offset bs) :=
  (Act.within_read _).bind fun h => BlockArena.releases_write h offset bs

variable [Element α]

theorem grows_linkIn (prev next : UInt32) (v : α) : Act.Within Grows (linkIn prev next v) := by
  have hnew : Act.Within Grows (newNode prev next) :=
    BlockArena.grows_allocate.bind fun _ => (BlockArena.grows_write _ _ _).bind fun _ =>
      (BlockArena.grows_write _ _ _).bind fun _ => Act.within_pure _
  exact hnew.bind fun _ => (grows_setNodeBytes _ _ _).bind fun _ =>
    (grows_setNodeBytes _ _ _).bind fun _ => grows_setNodeBytes _ _ _

theorem releases_linkOut (head : UInt32) (side : Link) :
    Act.Within Releases (linkOut (α := α) head side) :=
  (Act.within_read _).bind fun _ => (Act.within_read _).bind fun _ =>
    (Act.within_read _).bind fun _ => (Act.within_read _).bind fun _ =>
    (releases_setNodeBytes _ _ _).bind fun _ => (releases_setNodeBytes _ _ _).bind fun _ =>
    (Act.within_read _).bind fun _ => (BlockArena.releases_free _).bind fun _ => Act.within_pure _

theorem grows_newHead : Act.Within Grows newHead :=
  BlockArena.grows_allocate.bind fun _ => (BlockArena.grows_write _ _ _).bind fun _ =>
    (BlockArena.grows_write _ _ _).bind fun _ => Act.within_pure _

/-! ### Rings -/

theorem grows_create : Act.Within (fun g g' : Guarded BlockArena => Grows g.value g'.value)
    (create : Act Error (Guarded BlockArena) (Ring α)) := by
  refine (Guarded.within_writing (Q := Grows) ?_ nodesBusy).imp fun _ _ h => h.1
  refine Act.within_get.bind fun a => ?_
  split
  · exact Act.within_fail _
  · exact grows_newHead.bind fun _ => Act.within_pure _

theorem grows_push (side : Side) (v : α) : Act.Within (Site.On Grows) (push side v) := by
  refine (on_writing fun r => ?_).bind fun _ => on_setLen _
  refine (Act.within_read _).bind fun neighbour => ?_
  cases side with
  | front => exact grows_linkIn _ _ v
  | back => exact grows_linkIn _ _ v

theorem grows_set (index : Nat) (v : α) : Act.Within (Site.On Grows) (set index v) :=
  on_writing fun _ => (Act.within_read _).bind fun _ => grows_setNodeBytes _ _ _

theorem releases_pop (side : Side) : Act.Within (Site.On Releases) (pop (α := α) side) := by
  refine Act.within_get.bind fun s => ?_
  split
  · exact Act.within_pure _
  · apply (on_writing fun r => releases_linkOut _ _).attempt.bind
    intro out
    cases out with
    | ok v => exact (on_setLen _).bind fun _ => Act.within_pure _
    | error e => exact (Act.within_log _).bind fun _ => Act.within_pure _

theorem releases_clear : Act.Within (Site.On Releases) (clear (α := α)) :=
  within_clear (releases_pop .front)

theorem releases_drop : Act.Within (Site.On Releases) (drop (α := α)) := by
  apply releases_clear.bind
  intro _
  apply (on_writing fun r => BlockArena.releases_free _).attempt.bind
  intro out
  cases out with
  | ok v => exact Act.within_pure _
  | error e => exact Act.within_get.bind fun _ => Act.within_log _

end Ring

namespace TextRing

variable {α β : Type} {R : BlockArena → BlockArena → Prop} [IsPreorder BlockArena R]

/-- The arenas of two sites are related. -/
def Site.On (R : BlockArena → BlockArena → Prop) (s t : Site) : Prop :=
  R s.nodes.value t.nodes.value

instance : IsPreorder Site (Site.On R) where
  refl s := refl_of R s.nodes.value
  trans _ _ _ h₁ h₂ := trans_of R h₁ h₂

theorem on_onPool (x : TextPool.GuardedAct α) : Act.Within (Site.On R) (onPool x) :=
  fun s => refl_of R s.nodes.value

omit [IsPreorder BlockArena R] in
theorem on_onHandles {x : Act Error (Ring.Site TextHandle) α}
    (hx : Act.Within (Ring.Site.On R) x) : Act.Within (Site.On R) (onHandles x) :=
  Act.within_zoom hx fun _ _ h => h

theorem grows_push (side : Ring.Side) (h : TextHandle) :
    Act.Within (Site.On Grows) (push side h) := by
  apply (on_onPool _).bind
  intro _
  apply (on_onHandles (Ring.grows_push side h)).attempt.bind
  intro linked
  cases linked with
  | ok v => exact Act.within_pure _
  | error e => exact (on_onPool _).attempt.bind fun _ => Act.within_fail _

theorem grows_pushText (t : String) : Act.Within (Site.On Grows) (pushText t) := by
  refine (on_onPool _).bind fun h => (grows_push .back h).attempt.bind fun pushed => ?_
  cases pushed with
  | ok v => exact Act.within_pure _
  | error e => exact (on_onPool _).attempt.bind fun _ => Act.within_fail _

theorem releases_pop (side : Ring.Side) : Act.Within (Site.On Releases) (pop side) := by
  refine Act.within_get.bind fun s => ?_
  split
  · refine (on_onHandles (Ring.releases_pop side)).bind fun h? => ?_
    cases h? with
    | none => exact Act.within_pure _
    | some h => exact (on_onPool _).bind fun _ => Act.within_pure _
  · exact (Act.within_log _).bind fun _ => Act.within_pure _

theorem releases_clear : Act.Within (Site.On Releases) clear :=
  within_clear (releases_pop .front)

theorem releases_drop : Act.Within (Site.On Releases) drop :=
  releases_clear.bind fun _ => on_onHandles Ring.releases_drop

end TextRing

end FixedArena
