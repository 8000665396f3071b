import FixedArena.Store.Command

/-!
Views: what can be seen of a store without touching it. Looking at a container is never logged.
-/

namespace FixedArena

/-- What can be seen of a thing. -/
inductive View where
  /-- The thing is being written. -/
  | busy
  | arena (capacity blockSize live available peak : Nat) (isFull : Bool)
  | pool (capacity maxLen available owned peak : Nat)
  | ring (len : Nat) (values : List Datum)
  /-- The handles with their texts, as far as those can be read. -/
  | textRing (len : Nat) (entries : List (TextHandle × Option String))
  | text (handle : TextHandle) (content : String)

namespace Store

/-- The view of an arena. -/
def viewArena (s : Store) (k : Nat) : Option View :=
  s.arenas[k]?.map fun g =>
    if g.hold.admits .shared then
      let a := g.value
      .arena a.capacity a.blockSize a.live a.available a.peak a.isFull
    else .busy

/-- The view of a pool. -/
def viewPool (s : Store) (k : Nat) : Option View :=
  s.pools[k]?.map fun g =>
    if g.hold.admits .shared then
      let p := g.value
      .pool p.capacity p.maxLen p.available p.owned p.peak
    else .busy

/-- The view of a ring. Looking at it may meet a fault. -/
def viewRing {type : ElementType} (ring : Ring type.Value) (nodes : Guarded BlockArena) :
    Except Error View := do
  let values ← Ring.toList ⟨ring, nodes⟩
  return .ring ring.len (values.map (Datum.mk type))

/-- The view of a text ring. Looking at it may meet a fault. -/
def viewTextRing (site : TextRing.Site) : Except Error View := do
  let handles ← TextRing.toList site
  return .textRing site.ring.len (handles.mapIdx fun i h =>
    (h, (TextRing.text i site).result.toOption))

/-- The view of a container, or the fault that looking at it meets. -/
def viewContainer (s : Store) (r : Nat) : Option (Except Error View) :=
  match s.containers[r]? with
  | some (some (.ring _ ring nodes)) => s.arenas[nodes]?.map (viewRing ring)
  | some (some (.textRing ring nodes pool)) =>
    match s.arenas[nodes]?, s.pools[pool]? with
    | some g, some p => some (viewTextRing ⟨ring, g, p⟩)
    | _, _ => none
  | some (some (.text h pool)) =>
    s.pools[pool]?.map fun p =>
      .ok (.text h ((OwnedText.content h p).result.toOption.getD ""))
  | _ => none

end Store

end FixedArena
