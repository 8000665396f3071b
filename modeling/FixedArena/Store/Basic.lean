import FixedArena.Text.Ring

/-!
Stores: all arenas, pools and containers of a run. Arenas and pools are guarded and stay where they
are; containers refer to them by number and keep their own number until they are dropped.
-/

namespace FixedArena

/-- A thing that lives on arenas: a ring, a text ring, or a text. -/
inductive Container where
  | ring (type : ElementType) (ring : Ring type.Value) (nodes : Nat)
  | textRing (ring : TextRing) (nodes pool : Nat)
  | text (handle : TextHandle) (pool : Nat)

/-- Why a command did nothing. -/
inductive Failure where
  /-- The operation was refused. -/
  | refused (cause : Error)
  /-- The command needs direct access to an arena that is held. -/
  | held
  /-- An arena of these sizes cannot be reserved. -/
  | unreserved (fault : ReservationFault)
  /-- The command names nothing of the right kind. -/
  | unknown
  deriving DecidableEq, Repr

/-- All arenas, pools and containers. -/
structure Store where
  arenas : Array (Guarded BlockArena) := #[]
  pools : Array (Guarded TextPool) := #[]
  /-- The containers in the order in which they were made; a dropped one leaves its place empty. -/
  containers : Array (Option Container) := #[]
  /-- The identity of the next arena. -/
  nextArena : UInt32 := 1
  /-- The identity of the next pool. -/
  nextPool : UInt16 := 1

namespace Store

/-- An operation on a store. -/
abbrev StoreAct (α : Type) : Type := Act Failure Store α

variable {α : Type}

/-! ### Access to the parts -/

/-- Runs an operation on an arena with its holds. -/
def onArena (k : Nat) (x : Act Failure (Guarded BlockArena) α) : StoreAct α := fun s =>
  match s.arenas[k]? with
  | none => Act.fail .unknown s
  | some g =>
    Act.zoom (fun _ => g) (fun g' s => { s with arenas := s.arenas.setIfInBounds k g' }) x s

/-- Runs an operation on a pool with its holds. -/
def onPool (k : Nat) (x : Act Failure (Guarded TextPool) α) : StoreAct α := fun s =>
  match s.pools[k]? with
  | none => Act.fail .unknown s
  | some g =>
    Act.zoom (fun _ => g) (fun g' s => { s with pools := s.pools.setIfInBounds k g' }) x s

/-- Reads an arena for a direct command. -/
def readArena (k : Nat) (f : BlockArena → Except Error α) : StoreAct α :=
  onArena k (Guarded.reading .held fun a => (f a).mapError .refused)

/-- Changes an arena for a direct command. -/
def writeArena (k : Nat) (x : Act Error BlockArena α) : StoreAct α :=
  onArena k (Guarded.writing .held (x.mapError .refused))

/-- Reads a pool for a direct command. -/
def readPool (k : Nat) (f : TextPool → Except Error α) : StoreAct α :=
  onPool k (Guarded.reading .held fun p => (f p).mapError .refused)

/-- Changes a pool for a direct command. -/
def writePool (k : Nat) (x : Act Error TextPool α) : StoreAct α :=
  onPool k (Guarded.writing .held (x.mapError .refused))

/-- Refuses unless there is a pool of this number. -/
def needPool (k : Nat) : StoreAct Unit :=
  Act.read fun s => if k < s.pools.size then .ok () else .error .unknown

/-- Runs an operation of an owned text on its pool. -/
def onText (pool : Nat) (x : TextPool.GuardedAct α) : StoreAct α :=
  onPool pool (x.mapError .refused)

/-- The container with a number. -/
def container (r : Nat) : StoreAct Container :=
  Act.read fun s =>
    match s.containers[r]? with
    | some (some c) => .ok c
    | _ => .error .unknown

/-- The store without a container. -/
def without (r : Nat) (s : Store) : Store :=
  { s with containers := s.containers.setIfInBounds r none }

/-- Adds a container and answers with its number. -/
def addContainer (c : Container) : StoreAct Nat := do
  let s ← Act.get
  Act.modify fun s => { s with containers := s.containers.push (some c) }
  return s.containers.size

/-- Runs an operation of a ring on its arena. -/
def onRing {type : ElementType} (r : Nat) (ring : Ring type.Value) (nodes : Nat)
    (x : Act Error (Ring.Site type.Value) α) : StoreAct α := fun s =>
  match s.arenas[nodes]? with
  | none => Act.fail .unknown s
  | some g =>
    Act.zoom (fun _ => ⟨ring, g⟩)
      (fun site s => { s with
        arenas := s.arenas.setIfInBounds nodes site.nodes
        containers := s.containers.setIfInBounds r (some (.ring type site.ring nodes)) })
      (x.mapError .refused) s

/-- Runs an operation of a text ring on its arena and its pool. -/
def onTextRing (r : Nat) (ring : TextRing) (nodes pool : Nat) (x : Act Error TextRing.Site α) :
    StoreAct α := fun s =>
  match s.arenas[nodes]?, s.pools[pool]? with
  | some g, some p =>
    Act.zoom (fun _ => ⟨ring, g, p⟩)
      (fun site s => { s with
        arenas := s.arenas.setIfInBounds nodes site.nodes
        pools := s.pools.setIfInBounds pool site.pool
        containers := s.containers.setIfInBounds r (some (.textRing site.ring nodes pool)) })
      (x.mapError .refused) s
  | _, _ => Act.fail .unknown s

/-! ### Reserving -/

/-- Adds an arena and answers with its number. -/
def addArena (capacity blockSize : Nat) : StoreAct Nat := do
  let s ← Act.get
  let a ← (BlockArena.reserve s.nextArena capacity blockSize).mapError .unreserved
  Act.modify fun s =>
    { s with arenas := s.arenas.push { value := a }, nextArena := s.nextArena + 1 }
  return s.arenas.size

/-- The identity after another. Zero is left out. -/
def nextPoolId (id : UInt16) : UInt16 := if id + 1 = 0 then 1 else id + 1

/-- Adds a pool and answers with its number. -/
def addPool (slots maxLen : Nat) : StoreAct Nat := do
  let s ← Act.get
  let p ← (TextPool.reserve s.nextPool slots maxLen).mapError .unreserved
  Act.modify fun s =>
    { s with pools := s.pools.push { value := p }, nextPool := nextPoolId s.nextPool }
  return s.pools.size

/-- Bytes of a block if a sizing does not say: room for a node with a value of eight bytes. -/
def defaultBlockSize : Nat := Ring.nodeSize (BitVec (8 * 8))

/-- Adds the arena and the pool that a sizing describes. If the pool cannot be reserved, the arena
is given up again. -/
def addArenas (s : Sizing) : StoreAct (Nat × Nat) := do
  let blocks := s.nodes.maxLen + s.nodes.maxDeques
  let blockSize := s.nodes.blockSize.getD defaultBlockSize
  Act.log (.reserving blocks blockSize s.strings.slots s.strings.maxStrLen)
  let nodes ← addArena blocks blockSize
  let pool ← Act.onFailure (fun s => { s with arenas := s.arenas.pop })
    (addPool s.strings.slots s.strings.maxStrLen)
  return (nodes, pool)

end Store

end FixedArena
