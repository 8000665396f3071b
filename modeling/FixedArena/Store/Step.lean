import FixedArena.Store.Command

/-!
Steps of a store: what each command does and answers. A command that names nothing of the right
kind changes nothing.
-/

namespace FixedArena

namespace Store

/-! ### Arenas and pools -/

/-- Logs the lines of a report. -/
def logLines (ls : List String) : StoreAct Unit := ls.forM fun l => Act.log (.report l)

/-- Carries out a direct command to an arena. -/
def arenaStep (k : Nat) : ArenaCommand → StoreAct Reply
  | .allocate => .block <$> writeArena k BlockArena.allocate
  | .free h => (fun _ => .done) <$> writeArena k (BlockArena.free h)
  | .contains h => .flag <$> readArena k fun a => .ok (a.contains h)
  | .block h => .bytes <$> readArena k (·.block h)
  | .write h offset bs => (fun _ => .done) <$> writeArena k (BlockArena.write h offset bs)
  | .fill h b => (fun _ => .done) <$> writeArena k (BlockArena.fill h b)
  | .usage => .lines <$> readArena k fun a => .ok a.usage
  | .layout => .lines <$> readArena k fun a => .ok a.layout
  | .logUsage => do
    logLines (← readArena k fun a => .ok a.usage)
    return .done
  | .logLayout => do
    logLines (← readArena k fun a => .ok a.layout)
    return .done
  | .describe => .text <$> readArena k fun a => .ok a.describe

/-- Carries out a direct command to a pool. -/
def poolStep (k : Nat) : PoolCommand → StoreAct Reply
  | .allocate => .handle <$> writePool k TextPool.allocate
  | .free h => .flag <$> writePool k (TextPool.free h)
  | .assign h t => .number <$> writePool k (TextPool.assign h t)
  | .append h t => .number <$> writePool k (TextPool.append h t)
  | .copy target source => .number <$> writePool k (TextPool.copy target source)
  | .text h => .text <$> readPool k (·.text h)
  | .length h => .number <$> readPool k (·.textLen h)
  | .compare h t => .order <$> readPool k (·.compare h t)
  | .state h => readPool k fun p => .ok (.slotState (p.inUse h) (p.isOwned h))
  | .usage => .lines <$> readPool k fun p => .ok p.usage
  | .logUsage => do
    logLines (← readPool k fun p => .ok p.usage)
    return .done
  | .describe => .text <$> readPool k fun p => .ok p.describe

/-- Takes one more hold of an arena or a pool. -/
def takeHold (target : Target) (mode : Mode) : StoreAct Unit :=
  match target with
  | .arena k => onArena k (hold mode)
  | .pool k => onPool k (hold mode)
where
  hold {α : Type} (mode : Mode) : Act Failure (Guarded α) Unit := do
    let g ← Act.get
    match g.take? mode with
    | some g => Act.modify fun _ => g
    | none => Act.fail .held

/-- The store with one hold less of an arena or a pool. -/
def released (target : Target) (mode : Mode) (s : Store) : Store :=
  match target with
  | .arena k => { s with arenas := s.arenas.modify k (·.release mode) }
  | .pool k => { s with pools := s.pools.modify k (·.release mode) }

/-- Exchanges two guarded values; the holds stay. Both must be free. -/
def swapValues {α : Type} (xs : Array (Guarded α)) (i j : Nat) :
    Except Failure (Array (Guarded α)) :=
  match xs[i]?, xs[j]? with
  | some a, some b =>
    if i ≠ j ∧ a.hold = .free ∧ b.hold = .free then
      .ok ((xs.setIfInBounds i { a with value := b.value }).setIfInBounds j
        { b with value := a.value })
    else .error .held
  | _, _ => .error .unknown

/-! ### Containers -/

/-- Carries out a command to a ring. -/
def ringStep {type : ElementType} (r : Nat) (ring : Ring type.Value) (nodes : Nat) :
    RingCommand type.Value → StoreAct Reply
  | .push side v => (fun _ => .done) <$> onRing r ring nodes (Ring.push side v)
  | .pop side => (fun v => .popped (v.map (Datum.mk type))) <$> onRing r ring nodes (Ring.pop side)
  | .peek side => (fun v => .value ⟨type, v⟩) <$> onRing r ring nodes (Ring.peek side)
  | .get index => (fun v => .value ⟨type, v⟩) <$> onRing r ring nodes (Ring.get index)
  | .set index v => (fun _ => .done) <$> onRing r ring nodes (Ring.set index v)
  | .clear => (fun _ => .done) <$> onRing r ring nodes Ring.clear
  | .size => return .size ring.len ring.isEmpty
  | .toList => (fun vs => .values (vs.map (Datum.mk type))) <$>
      onRing r ring nodes (Act.read Ring.toList)
  | .scan steps => (fun answers => .scanned (answers.map (·.map (Datum.mk type)))) <$>
      onRing r ring nodes (Ring.scan steps)
  | .describe => return .text ring.describe

/-- Carries out a command to a text ring. -/
def textRingStep (r : Nat) (ring : TextRing) (nodes pool : Nat) :
    TextRingCommand → StoreAct Reply
  | .push side h => (fun _ => .done) <$> on (TextRing.push side h)
  | .pushText t => .handle <$> on (TextRing.pushText t)
  | .pop side => .poppedHandle <$> on (TextRing.pop side)
  | .peek side => .handle <$> on (TextRing.peek side)
  | .get index => .handle <$> on (TextRing.get index)
  | .text index => .text <$> on (TextRing.text index)
  | .position t => .position <$> on (Act.read (TextRing.position t))
  | .size => return .size ring.len ring.handles.isEmpty
  | .toList => .handles <$> on (Act.read TextRing.toList)
  | .scan steps => (fun answers => .scanned (answers.map (·.map Datum.ofHandle))) <$>
      on (TextRing.onHandles (Ring.scan steps))
  | .clear => (fun _ => .done) <$> on TextRing.clear
  | .describe => .text <$> on (Act.read TextRing.describe)
  | .describeLong => .text <$> on (Act.read TextRing.describeLong)
  | .intoTexts => .texts <$> Act.afterwards (without r) (on TextRing.intoTexts)
  | .livesIn k => return .flag (pool == k)
where
  on {α : Type} (x : Act Error TextRing.Site α) : StoreAct α := onTextRing r ring nodes pool x

/-- The handle and the pool of a text. -/
def textAt (r : Nat) : StoreAct (TextHandle × Nat) := do
  match ← container r with
  | .text h pool => return (h, pool)
  | _ => Act.fail .unknown

/-- Makes a text, which is empty. -/
def newText (pool : Nat) : StoreAct TextHandle := onText pool OwnedText.create

/-- Copies the content of a text to another. Inside one pool the bytes are copied; between pools
the content is read first, and counts as empty if it cannot be read. -/
def assignFrom (h : TextHandle) (pool : Nat) (source : TextHandle) (sourcePool : Nat) :
    StoreAct Unit :=
  if pool = sourcePool then onText pool (OwnedText.copy h source)
  else do
    let t ← onText sourcePool (OwnedText.content source)
    onText pool (OwnedText.assign h t)

/-- Runs an operation while a pool is being read, if it can be. -/
def whileReading {α : Type} (pool : Nat) (x : StoreAct α) : StoreAct α := do
  match ← Act.settled (takeHold (.pool pool) .shared) with
  | .ok () => Act.afterwards (released (.pool pool) .shared) x
  | .error _ => x

/-- Carries out a command to a text. -/
def textStep (h : TextHandle) (pool : Nat) : TextCommand → StoreAct Reply
  | .assign t => (fun _ => .done) <$> onText pool (OwnedText.assign h t)
  | .append t => (fun _ => .done) <$> onText pool (OwnedText.append h t)
  | .assignFrom other => do
    let (source, sourcePool) ← textAt other
    assignFrom h pool source sourcePool
    return .done
  | .assignReading other => do
    let (source, sourcePool) ← textAt other
    let t ← onText sourcePool (OwnedText.content source)
    whileReading sourcePool (onText pool (OwnedText.assign h t))
    return .done
  | .compare t => .order <$> onText pool (OwnedText.compare h t)
  | .equals other => do
    let (source, sourcePool) ← textAt other
    let t ← onText sourcePool (OwnedText.content source)
    .flag <$> onText pool (OwnedText.equals h t)
  | .equalsText t => do
    let first ← onText pool (OwnedText.equals h t)
    let second ← onText pool (OwnedText.equals h t)
    return .flags first second
  | .measure => do
    let len ← onText pool (OwnedText.length h)
    let isEmpty ← onText pool (OwnedText.isEmpty h)
    let maxLen ← onText pool (OwnedText.maxLength h)
    return .measure len isEmpty maxLen
  | .content => .text <$> onText pool (OwnedText.content h)
  | .describe => .text <$> onText pool (OwnedText.describe h)
  | .handle => return .handle h
  | .livesIn k => return .flag (pool == k)
  | .clone => do
    let copy ← newText pool
    assignFrom copy pool h pool
    .container <$> addContainer (.text copy pool)

/-- Gives up what a container holds. The container is gone even if a fault cuts this short. -/
def dropContainer (r : Nat) (c : Container) : StoreAct Unit :=
  Act.afterwards (without r) <|
    match c with
    | .ring _ ring nodes => onRing r ring nodes Ring.drop
    | .textRing ring nodes pool => onTextRing r ring nodes pool TextRing.drop
    | .text h pool => onText pool (OwnedText.drop h)

/-! ### An arena and a pool together -/

/-- The counts of an arena and a pool; a part that is being written is busy. -/
def usageBoth (nodes pool : Nat) : StoreAct (List String) :=
  Act.read fun s =>
    match s.arenas[nodes]?, s.pools[pool]? with
    | some a, some p =>
      .ok ((if a.hold.admits .shared then a.value.usage else ["Allocator: busy"]) ++
        (if p.hold.admits .shared then p.value.usage else ["StringPool: busy"]))
    | _, _ => .error .unknown

/-- The text of a guarded value; one that is being written is not shown. -/
def describeGuarded {α : Type} (describe : α → String) (g : Guarded α) : String :=
  Text.record "RefCell"
    [("value", if g.hold.admits .shared then describe g.value else "<borrowed>")] .whole

/-- An arena and a pool with their counts. -/
def describeBoth (nodes pool : Nat) : StoreAct String :=
  Act.read fun s =>
    match s.arenas[nodes]?, s.pools[pool]? with
    | some a, some p =>
      .ok (Text.record "Arenas" [("nodes", describeGuarded BlockArena.describe a),
        ("strings", describeGuarded TextPool.describe p)] .whole)
    | _, _ => .error .unknown

/-! ### All commands -/

/-- Carries out a command. -/
def step : Command → StoreAct Reply
  | .reserveArena capacity blockSize => .arena <$> addArena capacity blockSize
  | .reservePool slots maxLen => .pool <$> addPool slots maxLen
  | .reserve sizing => (fun (nodes, pool) => .both nodes pool) <$> addArenas sizing
  | .newRing type nodes => do
    let ring : Ring type.Value ← onArena nodes (Ring.create.mapError .refused)
    .container <$> addContainer (.ring type ring nodes)
  | .newTextRing nodes pool => do
    needPool pool
    let handles ← onArena nodes (Ring.create.mapError .refused)
    .container <$> addContainer (.textRing ⟨handles⟩ nodes pool)
  | .newText pool content => do
    let h ← newText pool
    match content with
    | none => pure ()
    | some t => onText pool (OwnedText.assign h t)
    .container <$> addContainer (.text h pool)
  | .drop r => do
    dropContainer r (← container r)
    return .done
  | .hold target mode => (fun _ => .done) <$> takeHold target mode
  | .release target mode => do
    Act.modify (released target mode)
    return .done
  | .swapArenas i j => do
    let arenas ← Act.read fun s => swapValues s.arenas i j
    Act.modify ({ · with arenas })
    return .done
  | .swapPools i j => do
    let pools ← Act.read fun s => swapValues s.pools i j
    Act.modify ({ · with pools })
    return .done
  | .arena k c => arenaStep k c
  | .pool k c => poolStep k c
  | .ring r c => do
    match ← container r with
    | .ring type ring nodes =>
      match c.as? type with
      | some c => ringStep r ring nodes c
      | none => Act.fail .unknown
    | _ => Act.fail .unknown
  | .textRing r c => do
    match ← container r with
    | .textRing ring nodes pool => textRingStep r ring nodes pool c
    | _ => Act.fail .unknown
  | .text r c => do
    let (h, pool) ← textAt r
    textStep h pool c
  | .usageBoth nodes pool => .lines <$> usageBoth nodes pool
  | .logUsageBoth nodes pool => do
    logLines (← usageBoth nodes pool)
    return .done
  | .describeBoth nodes pool => .text <$> describeBoth nodes pool

/-- Ends a run: every hold is given back, then the containers that are left are dropped in the
order in which they were made; a fault in one leaves the others be. -/
def close : StoreAct Unit := do
  Act.modify fun s => { s with
    arenas := s.arenas.map ({ · with hold := .free })
    pools := s.pools.map ({ · with hold := .free }) }
  let s ← Act.get
  (List.range s.containers.size).forM fun r => do
    match s.containers[r]? with
    | some (some c) =>
      let _ ← Act.settled (dropContainer r c)
    | _ => pure ()

end Store

end FixedArena
