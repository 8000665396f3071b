import FixedArena.Act

/-!
Guarded values: any number of readers may hold one at a time, or a single writer. An operation that
finds the value held in its way is refused at once; nothing ever waits.

Main facts:
* `reading_free`, `writing_free`: an unheld value lets everything through;
* `writing_busy`: a refused access leaves everything as it was.
-/

namespace FixedArena

/-- Who holds a value. -/
inductive Hold where
  /-- So many readers; none means that the value is free. -/
  | readers (count : Nat)
  /-- One writer. -/
  | writer
  deriving DecidableEq, Repr

/-- The two ways to hold a value. -/
inductive Mode where
  | shared
  | exclusive
  deriving DecidableEq, Repr

namespace Hold

/-- Nobody holds the value. -/
abbrev free : Hold := .readers 0

/-- The holds after one more is taken, if it can be. -/
def take? : Mode → Hold → Option Hold
  | .shared, .readers n => some (.readers (n + 1))
  | .exclusive, .readers 0 => some .writer
  | _, _ => none

/-- The holds after one is given back. -/
def release : Mode → Hold → Hold
  | .shared, .readers n => .readers (n - 1)
  | .exclusive, .writer => free
  | _, h => h

/-- One more hold of this mode can be taken. -/
def admits (h : Hold) (m : Mode) : Bool := (h.take? m).isSome

theorem release_take? {m : Mode} {h h' : Hold} (ht : h.take? m = some h') : h'.release m = h := by
  unfold take? at ht
  split at ht <;> simp_all [release] <;> subst ht <;> rfl

end Hold

/-- A value and who holds it. -/
structure Guarded (α : Type) where
  value : α
  hold : Hold := .free

namespace Guarded

variable {ε α β : Type}

/-- The value with one more hold, if it can be taken. -/
def take? (g : Guarded α) (m : Mode) : Option (Guarded α) :=
  (g.hold.take? m).map ({ g with hold := · })

/-- The value with one hold less. -/
def release (g : Guarded α) (m : Mode) : Guarded α := { g with hold := g.hold.release m }

/-- A reader's access: refused with `busy` while a writer holds the value. -/
def reading (busy : ε) (f : α → Except ε β) : Act ε (Guarded α) β :=
  Act.read fun g => if g.hold.admits .shared then f g.value else .error busy

/-- A writer's access: refused with `busy` while anybody holds the value. -/
def writing (busy : ε) (x : Act ε α β) : Act ε (Guarded α) β := fun g =>
  if g.hold.admits .exclusive then
    Act.zoom Guarded.value (fun v g => { g with value := v }) x g
  else
    Act.fail busy g

theorem reading_apply (busy : ε) (f : α → Except ε β) (g : Guarded α) :
    reading busy f g = ⟨if g.hold.admits .shared then f g.value else .error busy, g, []⟩ := rfl

theorem writing_free (busy : ε) (x : Act ε α β) (g : Guarded α) (h : g.hold = .free) :
    writing busy x g = ⟨(x g.value).result, { g with value := (x g.value).state },
      (x g.value).events⟩ := by
  simp [writing, h, Hold.admits, Hold.take?, Act.zoom_apply]

theorem writing_busy (busy : ε) (x : Act ε α β) (g : Guarded α) (h : g.hold ≠ .free) :
    writing busy x g = ⟨.error busy, g, []⟩ := by
  unfold writing
  split
  · next ha =>
    exfalso
    unfold Hold.admits Hold.take? at ha
    split at ha <;> simp_all
  · rfl

theorem reading_free (busy : ε) (f : α → Except ε β) (g : Guarded α) (h : g.hold = .free) :
    reading busy f g = ⟨f g.value, g, []⟩ := by
  simp [reading_apply, h, Hold.admits, Hold.take?]

end Guarded

end FixedArena
