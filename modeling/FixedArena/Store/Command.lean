import FixedArena.Store.Basic

/-!
Commands: everything that a caller can ask of a store, and what is answered.
-/

namespace FixedArena

/-- A value of any element type. -/
structure Datum where
  type : ElementType
  value : type.Value

namespace Datum

/-- The datum as a value of a given type. -/
def as? (d : Datum) (t : ElementType) : Option t.Value :=
  if h : d.type = t then some (h ▸ d.value) else none

@[simp] theorem as?_self (t : ElementType) (v : t.Value) : (⟨t, v⟩ : Datum).as? t = some v := by
  simp [as?]

/-- A handle as a datum. -/
def ofHandle (h : TextHandle) : Datum := ⟨.handle, h⟩

end Datum

/-! ### What can be asked -/

/-- Direct commands to an arena. -/
inductive ArenaCommand where
  | allocate
  | free (h : BlockHandle)
  | contains (h : BlockHandle)
  | block (h : BlockHandle)
  | write (h : BlockHandle) (offset : Nat) (bs : List UInt8)
  | fill (h : BlockHandle) (b : UInt8)
  | usage
  | layout
  /-- The lines of `usage`, as events. -/
  | logUsage
  /-- The lines of `layout`, as events. -/
  | logLayout
  | describe

/-- Direct commands to a pool. -/
inductive PoolCommand where
  | allocate
  | free (h : TextHandle)
  | assign (h : TextHandle) (t : String)
  | append (h : TextHandle) (t : String)
  | copy (target source : TextHandle)
  | text (h : TextHandle)
  | length (h : TextHandle)
  | compare (h : TextHandle) (t : String)
  | state (h : TextHandle)
  | usage
  | logUsage
  | describe

/-- Commands to a ring with values of type `α`. -/
inductive RingCommand (α : Type) where
  | push (side : Ring.Side) (v : α)
  | pop (side : Ring.Side)
  | peek (side : Ring.Side)
  | get (index : Nat)
  | set (index : Nat) (v : α)
  | clear
  | size
  | toList
  | scan (steps : List Ring.ScanStep)
  | describe

/-- Commands to a text ring. -/
inductive TextRingCommand where
  | push (side : Ring.Side) (h : TextHandle)
  | pushText (t : String)
  | pop (side : Ring.Side)
  | peek (side : Ring.Side)
  | get (index : Nat)
  | text (index : Nat)
  | position (t : String)
  | size
  | toList
  | scan (steps : List Ring.ScanStep)
  | clear
  | describe
  | describeLong
  /-- Gives the ring up for the list of its texts. -/
  | intoTexts
  | livesIn (pool : Nat)

/-- Commands to a text. Other texts are given by their container's number. -/
inductive TextCommand where
  | assign (t : String)
  | append (t : String)
  | assignFrom (other : Nat)
  /-- Assigns the content of another text while that text's pool is being read. -/
  | assignReading (other : Nat)
  | compare (t : String)
  | equals (other : Nat)
  /-- Equality with a text, asked twice. -/
  | equalsText (t : String)
  | measure
  | content
  | describe
  | handle
  | livesIn (pool : Nat)
  | clone

/-- An arena or a pool, by its number. -/
inductive Target where
  | arena (k : Nat)
  | pool (k : Nat)
  deriving DecidableEq, Repr

/-- Everything that can be asked of a store. -/
inductive Command where
  | reserveArena (capacity blockSize : Nat)
  | reservePool (slots maxLen : Nat)
  | reserve (sizing : Sizing)
  | newRing (type : ElementType) (nodes : Nat)
  | newTextRing (nodes pool : Nat)
  | newText (pool : Nat) (content : Option String)
  | drop (container : Nat)
  | hold (target : Target) (mode : Mode)
  | release (target : Target) (mode : Mode)
  | swapArenas (i j : Nat)
  | swapPools (i j : Nat)
  | arena (k : Nat) (c : ArenaCommand)
  | pool (k : Nat) (c : PoolCommand)
  | ring (r : Nat) (c : RingCommand Datum)
  | textRing (r : Nat) (c : TextRingCommand)
  | text (r : Nat) (c : TextCommand)
  /-- The counts of an arena and a pool together. -/
  | usageBoth (nodes pool : Nat)
  | logUsageBoth (nodes pool : Nat)
  | describeBoth (nodes pool : Nat)

/-! ### What is answered -/

/-- The answer to a command that was carried out. -/
inductive Reply where
  | done
  | arena (k : Nat)
  | pool (k : Nat)
  | both (nodes pool : Nat)
  | container (r : Nat)
  | block (h : BlockHandle)
  | handle (h : TextHandle)
  | poppedHandle (h : Option TextHandle)
  | handles (hs : List TextHandle)
  | flag (b : Bool)
  | flags (a b : Bool)
  | number (n : Nat)
  | position (n : Option Nat)
  | size (len : Nat) (isEmpty : Bool)
  | measure (len : Nat) (isEmpty : Bool) (maxLen : Nat)
  | order (o : Ordering)
  | slotState (inUse owned : Bool)
  | bytes (bs : List UInt8)
  | text (t : String)
  | lines (ls : List String)
  | texts (ts : List String)
  | value (d : Datum)
  | popped (d : Option Datum)
  | values (ds : List Datum)
  | scanned (answers : List (Ring.ScanAnswer Datum))

/-- The command with every value read as one of the given type. -/
def RingCommand.as? (c : RingCommand Datum) (t : ElementType) : Option (RingCommand t.Value) :=
  match c with
  | .push side d => (d.as? t).map (.push side)
  | .set index d => (d.as? t).map (.set index)
  | .pop side => some (.pop side)
  | .peek side => some (.peek side)
  | .get index => some (.get index)
  | .clear => some .clear
  | .size => some .size
  | .toList => some .toList
  | .scan steps => some (.scan steps)
  | .describe => some .describe

/-- The answer with every value turned into a datum. -/
def Ring.ScanAnswer.map {α β : Type} (f : α → β) : Ring.ScanAnswer α → Ring.ScanAnswer β
  | .value v => .value (v.map f)
  | .hint lower upper => .hint lower upper
  | .values vs => .values (vs.map f)
  | .text t => .text t
  | .flag b => .flag b

end FixedArena
