import FixedArena.Proofs.Store.Alike

/-!
Holds do no harm. At any moment, whatever is held, a command to a container goes as if nothing were
held, or it gives its answer for a hold and leaves everything as it was.

Main facts:
* `Command.Withstands`: the commands that this holds of;
* `Store.Rebuffs`: their answers for a hold;
* `Store.yields_ring`, `Store.yields_textRing`, `Store.yields_text`, `Store.alike_or_undone`: one
  command;
* `Store.alike_reads`: reads beside readers;
* `Run.holds_harmless`: all of this at every moment of every run.
-/

namespace FixedArena

open Act

/-! ### Commands -/

/-- A script that takes no hold and describes nothing on its way. -/
def RingCommand.Withstands {α : Type} : RingCommand α → Prop
  | .scan steps => ∀ step ∈ steps, step.Plain
  | _ => True

def TextRingCommand.Withstands : TextRingCommand → Prop
  | .scan steps => ∀ step ∈ steps, step.Plain
  | .describe | .describeLong | .intoTexts => False
  | _ => True

def TextCommand.Withstands : TextCommand → Prop
  | .assignFrom _ | .assignReading _ | .describe => False
  | _ => True

/-- **The command makes or uses a container**: it does not give one up, describe its texts, turn it into
a list, or assign one text to another. -/
def Command.Withstands : Command → Prop
  | .newRing .. | .newTextRing .. | .newText .. => True
  | .ring _ d => d.Withstands
  | .textRing _ d => d.Withstands
  | .text _ d => d.Withstands
  | _ => False

theorem Command.Withstands.usesContainer {c : Command} (hc : c.Withstands) : c.UsesContainer := by
  cases c with
  | newRing | newTextRing | newText | ring | textRing | text => trivial
  | _ => exact hc.elim

theorem Command.Withstands.not_holdsPool {c : Command} (hc : c.Withstands) : ¬c.HoldsPool := by
  cases c with
  | text r d =>
    cases d with
    | assignReading o => exact hc.elim
    | _ => exact not_false
  | _ => exact not_false

/-- The command only looks at the ring. -/
def RingCommand.Reads {α : Type} : RingCommand α → Prop
  | .peek _ | .get _ | .size | .toList | .scan _ | .describe => True
  | .push .. | .pop _ | .set .. | .clear => False

def TextRingCommand.Reads : TextRingCommand → Prop
  | .peek _ | .get _ | .text _ | .position _ | .size | .toList | .scan _ | .livesIn _ => True
  | .push .. | .pushText _ | .pop _ | .clear | .describe | .describeLong | .intoTexts => False

def TextCommand.Reads : TextCommand → Prop
  | .compare _ | .equals _ | .equalsText _ | .measure | .content | .handle | .livesIn _ => True
  | .assign _ | .append _ | .assignFrom _ | .assignReading _ | .describe | .clone => False

/-- **The command only looks at its container.** -/
def Command.Reads : Command → Prop
  | .ring _ d => d.Reads
  | .textRing _ d => d.Reads
  | .text _ d => d.Reads
  | _ => False

/-! ### Answers for a hold -/

/-- **What a command to a ring answers for a hold.** -/
def RingCommand.Rebuffs {α : Type} : RingCommand α → Except Failure Reply → Prop
  | .push .., out | .peek _, out | .get _, out | .set .., out =>
    out = .error (.refused Ring.nodesBusy)
  | .pop _, out => out = .ok (.popped none)
  | .clear, out => out = .ok .done
  | .toList, out => out = .ok (.values [])
  | .scan _, out => ∃ as, out = .ok (.scanned as) ∧ ∀ a ∈ as, a.Blank
  | .size, _ | .describe, _ => False

/-- **What a command to a text ring answers for a hold.** -/
def TextRingCommand.Rebuffs : TextRingCommand → Except Failure Reply → Prop
  | .push .., out | .pushText _, out | .text _, out =>
    out = .error (.refused Ring.nodesBusy) ∨ out = .error (.refused TextPool.busy)
  | .peek _, out | .get _, out => out = .error (.refused Ring.nodesBusy)
  | .pop _, out => out = .ok (.poppedHandle none)
  | .position _, out => out = .ok (.position none)
  | .toList, out => out = .ok (.handles [])
  | .scan _, out => ∃ as, out = .ok (.scanned as) ∧ ∀ a ∈ as, a.Blank
  | .clear, out => out = .ok .done
  | .size, _ | .livesIn _, _ | .describe, _ | .describeLong, _ | .intoTexts, _ => False

namespace Store

variable {α β : Type} {s : Store} {k r n pool o : Nat} {tr : TextRing} {h : TextHandle} {t : String}

/-- Somebody writes to the pool of a text. -/
def Written (s : Store) (r : Nat) : Prop :=
  ∃ h k g, s.containerAt r = some (.text h k) ∧ s.pools[k]? = some g ∧ g.hold = .writer

/-- What a text reads as at the moment. -/
def ReadsAs (s : Store) (r : Nat) (t : String) : Prop :=
  (step (.text r .content) s).result = .ok (.text t)

/-- **What a command to a text answers for a hold**: a text that cannot be read counts as empty. -/
def RebuffsText (s : Store) (r : Nat) : TextCommand → Except Failure Reply → Prop
  | .assign _, out | .append _, out => out = .ok .done
  | .compare t, out => out = .ok (.order (Text.compareBytes (Text.bytes "") (Text.bytes t)))
  | .equals o, out => (s.Written r ∨ s.Written o) ∧ ∃ t u, s.ReadsAs r t ∧ s.ReadsAs o u ∧
    out = .ok (.flag (Text.compareBytes (Text.bytes t) (Text.bytes u) == .eq))
  | .equalsText t, out =>
    let same := Text.compareBytes (Text.bytes "") (Text.bytes t) == .eq
    out = .ok (.flags same same)
  | .measure, out => out = .ok (.measure 0 true 0)
  | .content, out => out = .ok (.text "")
  | .clone, out => out = .error (.refused TextPool.busy)
  | .assignFrom _, _ | .assignReading _, _ | .describe, _ | .handle, _ | .livesIn _, _ => False

/-- **What a command to a container answers for a hold.** -/
def Rebuffs (s : Store) : Command → Except Failure Reply → Prop
  | .newRing .., out | .newTextRing .., out => out = .error (.refused Ring.nodesBusy)
  | .newText .., out => out = .error (.refused TextPool.busy)
  | .ring _ d, out => d.Rebuffs out
  | .textRing _ d, out => d.Rebuffs out
  | .text r d, out => s.RebuffsText r d out
  | _, _ => False

/-! ### Rings -/

theorem blank_map {f : α → β} {as : List (Ring.ScanAnswer α)} (h : ∀ a ∈ as, a.Blank) :
    ∀ a ∈ as.map (·.map f), a.Blank := by
  rw [List.forall_mem_map]
  intro a ha
  have hblank := h a ha
  cases a with
  | value v =>
    obtain rfl : v = none := hblank
    rfl
  | values vs =>
    obtain rfl : vs = [] := hblank
    rfl
  | hint lower upper => trivial
  | text t => trivial
  | flag b => trivial

theorem yields_ringStep {type : ElementType} {ring : Ring type.Value}
    (hc : s.containerAt r = some (.ring type ring n)) {d : RingCommand type.Value}
    (hd : d.Withstands) : Yields unheld d.Rebuffs (ringStep r ring n d) s := by
  have hon : ∀ {β : Type} {x : Act Error (Ring.Site type.Value) β} {busy : Except Error β → Prop}
      {busy' : Except Failure Reply → Prop} (f : β → Reply), (∀ t, Yields Ring.Site.unheld busy x t) →
      (∀ res, busy res → busy' ((res.mapError .refused).map f)) →
      Yields unheld busy' (f <$> onRing r ring n x) s :=
    fun f hx h => (yields_onRing hc fun g _ => hx ⟨ring, g⟩).map (refusing_map h)
  cases d with
  | push side v => exact hon _ (Ring.yields_push side v) fun _ h => h ▸ rfl
  | pop side => exact hon _ (Ring.yields_pop side) fun _ h => h ▸ rfl
  | peek side => exact hon _ (Ring.yields_peek side) fun _ h => h ▸ rfl
  | get index => exact hon _ (Ring.yields_get index) fun _ h => h ▸ rfl
  | set index v => exact hon _ (Ring.yields_set index v) fun _ h => h ▸ rfl
  | clear => exact hon _ Ring.yields_clear fun _ h => h ▸ rfl
  | toList => exact hon _ Ring.yields_toList fun _ h => h ▸ rfl
  | scan steps =>
    refine hon _ (Ring.yields_scan hd) fun _ h => ?_
    obtain ⟨as, rfl, hblank⟩ := h
    exact ⟨_, rfl, blank_map hblank⟩
  | size => exact .inl (alike_pure _ _ _)
  | describe => exact .inl (alike_pure _ _ _)

/-- Values of a type do not change what a command is. -/
theorem withstands_as? {type : ElementType} {d : RingCommand Datum} {d' : RingCommand type.Value}
    (h : d.as? type = some d') :
    (d.Withstands → d'.Withstands) ∧ (d.Reads → d'.Reads) ∧ d'.Rebuffs = d.Rebuffs := by
  cases d with
  | push side v =>
    obtain ⟨v', -, rfl⟩ := Option.map_eq_some_iff.1 h
    exact ⟨id, id, rfl⟩
  | set index v =>
    obtain ⟨v', -, rfl⟩ := Option.map_eq_some_iff.1 h
    exact ⟨id, id, rfl⟩
  | _ =>
    obtain rfl := Option.some.inj h
    exact ⟨id, id, rfl⟩

/-- **A command to a ring goes as if nothing were held, or finds the arena held.** -/
theorem yields_ring {d : RingCommand Datum} (hd : d.Withstands) :
    Yields unheld d.Rebuffs (step (.ring r d)) s := by
  refine yields_read_bind rfl fun c hc => ?_
  have hc' := containerAt_of_ok hc
  cases c with
  | textRing tr n pool => exact .inl (alike_fail _ _ _)
  | text h pool => exact .inl (alike_fail _ _ _)
  | ring type ring n =>
    cases has : d.as? type with
    | none =>
      simp only [has]
      exact .inl (alike_fail _ _ _)
    | some d' =>
      obtain ⟨hd', -, hrebuffs⟩ := withstands_as? has
      simp only [has]
      exact hrebuffs ▸ yields_ringStep hc' (hd' hd)

/-! ### Text rings -/

/-- A text ring that finds something held says what it was. -/
theorem busy_refused {res : Except Error β} (h : TextRing.Busy res) (f : β → Reply) :
    (res.mapError Failure.refused).map f = .error (.refused Ring.nodesBusy) ∨
      (res.mapError Failure.refused).map f = .error (.refused TextPool.busy) := by
  obtain rfl | rfl := h
  · exact .inl rfl
  · exact .inr rfl

theorem yields_textRingStep (hc : s.containerAt r = some (.textRing tr n pool))
    {d : TextRingCommand} (hd : d.Withstands) (hpush : ∀ t, d ≠ .pushText t) :
    Yields unheld d.Rebuffs (textRingStep r tr n pool d) s := by
  have hon : ∀ {β : Type} {x : Act Error TextRing.Site β} {busy : Except Error β → Prop}
      {busy' : Except Failure Reply → Prop} (f : β → Reply), (∀ t, Yields TextRing.Site.unheld busy x t) →
      (∀ res, busy res → busy' ((res.mapError .refused).map f)) →
      Yields unheld busy' (f <$> onTextRing r tr n pool x) s :=
    fun f hx h => (yields_onTextRing hc fun g p _ _ => hx ⟨tr, g, p⟩).map (refusing_map h)
  cases d with
  | push side h => exact hon _ (TextRing.yields_push side h) fun _ h => busy_refused h _
  | pushText t => exact absurd rfl (hpush t)
  | pop side => exact hon _ (TextRing.yields_pop side) fun _ h => h ▸ rfl
  | peek side => exact hon _ (TextRing.yields_peek side) fun _ h => h ▸ rfl
  | get index => exact hon _ (TextRing.yields_get index) fun _ h => h ▸ rfl
  | text index => exact hon _ (TextRing.yields_text index) fun _ h => busy_refused h _
  | position t => exact hon _ (TextRing.yields_position t) fun _ h => h ▸ rfl
  | toList => exact hon _ TextRing.yields_toList fun _ h => h ▸ rfl
  | scan steps =>
    refine hon _ (fun t => TextRing.yields_onHandles (Ring.yields_scan hd t.handles)) fun _ h => ?_
    obtain ⟨as, rfl, hblank⟩ := h
    exact ⟨_, rfl, blank_map hblank⟩
  | clear => exact hon _ TextRing.yields_clear fun _ h => h ▸ rfl
  | size => exact .inl (alike_pure _ _ _)
  | livesIn k => exact .inl (alike_pure _ _ _)
  | describe => exact hd.elim
  | describeLong => exact hd.elim
  | intoTexts => exact hd.elim

/-- **A command to a text ring goes as if nothing were held, or finds something held.** -/
theorem yields_textRing {d : TextRingCommand} (hd : d.Withstands) (hpush : ∀ t, d ≠ .pushText t) :
    Yields unheld d.Rebuffs (step (.textRing r d)) s := by
  refine yields_read_bind rfl fun c hc => ?_
  have hc' := containerAt_of_ok hc
  cases c with
  | ring type ring n => exact .inl (alike_fail _ _ _)
  | text h pool => exact .inl (alike_fail _ _ _)
  | textRing tr n pool => exact yields_textRingStep hc' hd hpush

/-- The text ring, its arena and its pool are as they were, but for bytes of free slots and for the
most slots that were ever in use. -/
def Undone (s : Store) (r : Nat) (t : Store) : Prop :=
  ∃ tr n k g p, s.containerAt r = some (.textRing tr n k) ∧ s.pools[k]? = some g ∧
    g.value.Restored p ∧ t = { s with pools := s.pools.setIfInBounds k { g with value := p } }

theorem alike_or_undone_pushText (hs : s.Kept fun _ => TextPool.Tidy)
    (hc : s.containerAt r = some (.textRing tr n pool))
    (t : String) : Alike unheld (textRingStep r tr n pool (.pushText t)) s ∨
      (TextRingCommand.pushText t).Rebuffs (textRingStep r tr n pool (.pushText t) s).result ∧
      s.Undone r (textRingStep r tr n pool (.pushText t) s).state := by
  by_cases hall : ∀ g p, s.arenas[n]? = some g → s.pools[pool]? = some p →
      Alike TextRing.Site.unheld (TextRing.pushText t) ⟨tr, g, p⟩
  · exact .inl ((alike_onTextRing hall).map _)
  · push Not at hall
    obtain ⟨g, p, hg, hp, hnot⟩ := hall
    have htidy : p.value.Tidy := hs.of_mem (mem_poolList hp)
    obtain ⟨hbusy, p', hstate, hrestored⟩ :=
      (TextRing.pushText_alike (s := ⟨tr, g, p⟩) htidy t).resolve_left hnot
    have hc' : s.containers[r]? = some (some (.textRing tr n pool)) := Option.join_eq_some_iff.1 hc
    simp only [textRingStep, textRingStep.on, map_apply, onTextRing_some r tr hg hp]
    refine .inr ⟨busy_refused hbusy _, ?_⟩
    refine ⟨tr, n, pool, p, p', hc, hp, hrestored, ?_⟩
    simp only [hstate, TextRing.Site.withPool, set_back hg, set_back hc']

/-- **A text is added as if nothing were held, or its slot is free again.** -/
theorem alike_or_undone (hs : s.Kept fun _ => TextPool.Tidy) (r : Nat) (t : String) :
    Alike unheld (step (.textRing r (.pushText t))) s ∨
      (TextRingCommand.pushText t).Rebuffs (step (.textRing r (.pushText t)) s).result ∧
      s.Undone r (step (.textRing r (.pushText t)) s).state := by
  obtain ⟨hnone, hstep⟩ | ⟨tr, n, pool, hc, hstep⟩ := textRing_cases r (.pushText t) s
  · obtain ⟨-, hstep'⟩ | ⟨tr, n, pool, hc, -⟩ := textRing_cases r (.pushText t) s.unheld
    · exact .inl (alike_of_eq hstep hstep')
    · exact absurd hc (hnone tr n pool)
  · obtain halike | hbusy := alike_or_undone_pushText hs hc t
    · exact .inl (halike.congr hstep (step_textRing (s := s.unheld) hc _))
    · exact .inr (hstep ▸ hbusy)

/-! ### Texts -/

/-- Nobody writes to the pool. -/
def Readable (s : Store) (k : Nat) : Prop :=
  ∀ g, s.pools[k]? = some g → g.hold.admits .shared = true

theorem writer_of_not_admits {hold : Hold} (h : ¬hold.admits .shared = true) : hold = .writer := by
  cases hold with
  | readers m => exact absurd rfl h
  | writer => rfl

theorem admits_of_ne_writer {hold : Hold} (h : hold ≠ .writer) : hold.admits .shared = true :=
  not_not.1 fun hn => h (writer_of_not_admits hn)

theorem written_of_not_readable (hc : s.containerAt r = some (.text h pool))
    (hr : ¬s.Readable pool) : s.Written r := by
  unfold Readable at hr
  push Not at hr
  obtain ⟨g, hg, hheld⟩ := hr
  exact ⟨h, pool, g, hc, hg, writer_of_not_admits hheld⟩

/-- **Texts are read beside readers as if nothing were held.** -/
theorem alike_textStep {d : TextCommand} (hd : d.Reads) (hpool : s.Readable pool)
    (hother : ∀ o h' k, d = .equals o → s.containerAt o = some (.text h' k) → s.Readable k) :
    Alike unheld (textStep h pool d) s := by
  have hequals : ∀ t, Alike unheld (onText pool (OwnedText.equals h t)) s := fun t =>
    alike_onText fun g hg => OwnedText.alike_equals (hpool g hg) h t
  have hstill : ∀ t, Still (onText pool (OwnedText.equals h t)) := fun t =>
    still_onText pool (OwnedText.still_equals h t)
  cases d with
  | compare t =>
    exact (alike_onText fun g hg => OwnedText.alike_compare (hpool g hg) h t).map _
  | equals o =>
    refine (alike_textAt o).bind_still (still_textAt o) fun (source, k) ho => ?_
    obtain hnone | ⟨h', k', hc⟩ := textAt_cases o s
    · rw [hnone] at ho
      cases ho
    · rw [textAt_ok hc] at ho
      obtain ⟨rfl, rfl⟩ := Prod.mk.inj (Except.ok.inj ho)
      have hread := hother o h' k' rfl hc
      refine Alike.bind_still ?_ (still_onText k' (OwnedText.still_content h')) fun t _ =>
        (hequals t).map _
      exact alike_onText fun g hg => OwnedText.alike_content (hread g hg) h'
  | equalsText t =>
    exact (hequals t).bind_still (hstill t) fun _ _ => (hequals t).bind_still (hstill t) fun _ _ =>
      alike_pure _ _ _
  | measure =>
    refine Alike.bind_still ?_ (still_onText pool (OwnedText.still_length h)) fun _ _ =>
      Alike.bind_still ?_ (still_onText pool (OwnedText.still_isEmpty h)) fun _ _ =>
      Alike.bind_still ?_ (still_onText pool (OwnedText.still_maxLength h)) fun _ _ =>
      alike_pure _ _ _
    · exact alike_onText fun g hg => OwnedText.alike_length (hpool g hg) h
    · exact alike_onText fun g hg => OwnedText.alike_isEmpty (hpool g hg) h
    · exact alike_onText fun g hg => OwnedText.alike_maxLength (hpool g hg) h
  | content => exact (alike_onText fun g hg => OwnedText.alike_content (hpool g hg) h).map _
  | handle => exact alike_pure _ _ _
  | livesIn k => exact alike_pure _ _ _
  | _ => exact hd.elim

theorem says_onText {x : TextPool.GuardedAct α} {a : α} {g : Guarded TextPool}
    (hg : s.pools[pool]? = some g) (hx : Says x g a) : Says (onText pool x) s a := by
  obtain ⟨log, hx⟩ := hx
  exact ⟨log, onText_same hg hx⟩

/-- A text reads as something, held or not. -/
theorem exists_content (hs : s.Kept fun _ => TextPool.Tidy)
    (hc : s.containerAt r = some (.text h pool)) :
    ∃ g t, s.pools[pool]? = some g ∧ Says (OwnedText.content h) g t ∧ s.ReadsAs r t := by
  have hlt : pool < s.pools.size := hs.housed r _ hc pool rfl
  have hg : s.pools[pool]? = some s.pools[pool] := Array.getElem?_eq_getElem hlt
  obtain ⟨t, ht⟩ := OwnedText.exists_content (hs.of_mem (mem_poolList hg)) h
  obtain ⟨log, hread⟩ := (says_onText hg ht).map Reply.text
  refine ⟨_, t, hg, ht, ?_⟩
  rw [ReadsAs, step_text hc, textStep, hread]

/-- **Two texts are compared as if nothing were held, or as they read at the moment.** -/
theorem yields_equals (hs : s.Kept fun _ => TextPool.Tidy)
    (hc : s.containerAt r = some (.text h pool)) (o : Nat) :
    Yields unheld (s.RebuffsText r (.equals o)) (textStep h pool (.equals o)) s := by
  by_cases hread : s.Readable pool ∧ ∀ h' k, s.containerAt o = some (.text h' k) → s.Readable k
  · refine .inl (alike_textStep (d := .equals o) trivial hread.1 fun o' h' k ho' => ?_)
    obtain rfl := TextCommand.equals.inj ho'
    exact hread.2 h' k
  · obtain hnone | ⟨h', k, ho⟩ := textAt_cases o s
    · refine .inl ((alike_textAt o).bind fun a ha => ?_)
      rw [hnone] at ha
      cases ha
    · have hwritten : s.Written r ∨ s.Written o := by
        by_cases hpool : s.Readable pool
        · refine .inr (written_of_not_readable ho fun hk => hread ⟨hpool, fun h'' k' ho' => ?_⟩)
          obtain ⟨rfl, rfl⟩ := Container.text.inj (Option.some.inj (ho.symm.trans ho'))
          exact hk
        · exact .inl (written_of_not_readable hc hpool)
      obtain ⟨g, t, hg, ht, hreads⟩ := exists_content hs hc
      obtain ⟨g', u, hg', hu, hreads'⟩ := exists_content hs ho
      have hequals : Says (OwnedText.equals h u) g
          (Text.compareBytes (Text.bytes t) (Text.bytes u) == .eq) := by
        obtain ⟨log, ht⟩ := ht
        exact ⟨_, bind_ok (bind_ok ht)⟩
      have hanswer : Says (textStep h pool (.equals o)) s _ :=
        Says.bind ⟨[], textAt_ok ho⟩ ((says_onText hg' hu).bind ((says_onText hg hequals).map _))
      exact yields_of_says hanswer ⟨hwritten, t, u, hreads, hreads', rfl⟩

theorem yields_textStep (hs : s.Kept fun _ => TextPool.Tidy)
    (hc : s.containerAt r = some (.text h pool))
    {d : TextCommand} (hd : d.Withstands) :
    Yields unheld (s.RebuffsText r d) (textStep h pool d) s := by
  have hon : ∀ {β : Type} {x : TextPool.GuardedAct β} {busy : Except Error β → Prop}
      {busy' : Except Failure Reply → Prop} (f : β → Reply), (∀ g, Yields Guarded.unheld busy x g) →
      (∀ res, busy res → busy' ((res.mapError .refused).map f)) →
      Yields unheld busy' (f <$> onText pool x) s :=
    fun f hx h => (yields_onText hx).map (refusing_map h)
  cases d with
  | assign t => exact hon _ (OwnedText.yields_assign h t) fun _ h => h ▸ rfl
  | append t => exact hon _ (OwnedText.yields_append h t) fun _ h => h ▸ rfl
  | compare t => exact hon _ (OwnedText.yields_compare h t) fun _ h => h ▸ rfl
  | content => exact hon _ (OwnedText.yields_content h) fun _ h => h ▸ rfl
  | equals o => exact yields_equals hs hc o
  | equalsText t =>
    by_cases hread : s.Readable pool
    · exact .inl (alike_textStep (d := .equalsText t) trivial hread nofun)
    · unfold Readable at hread
      push Not at hread
      obtain ⟨g, hg, hheld⟩ := hread
      have hequals := says_onText hg ⟨_, OwnedText.equals_held h hheld t⟩
      exact yields_of_says (hequals.bind (hequals.bind (says_pure _ s))) rfl
  | measure =>
    by_cases hread : s.Readable pool
    · exact .inl (alike_textStep (d := .measure) trivial hread nofun)
    · unfold Readable at hread
      push Not at hread
      obtain ⟨g, hg, hheld⟩ := hread
      have hlength := says_onText hg ⟨_, OwnedText.length_held h hheld⟩
      have hempty := says_onText hg ⟨_, OwnedText.isEmpty_held h hheld⟩
      have hmax := says_onText hg ⟨_, OwnedText.maxLength_held h hheld⟩
      exact yields_of_says (hlength.bind (hempty.bind (hmax.bind (says_pure _ s)))) rfl
  | clone =>
    rw [textStep_clone]
    exact yields_make (yields_onText (OwnedText.yields_make fun copy =>
      OwnedText.within_copy TextPool.acrossCalls_hold.edits copy h))
  | handle => exact .inl (alike_pure _ _ _)
  | livesIn k => exact .inl (alike_pure _ _ _)
  | _ => exact hd.elim

/-- **A command to a text goes as if nothing were held, or finds a pool held.** -/
theorem yields_text (hs : s.Kept fun _ => TextPool.Tidy) {d : TextCommand} (hd : d.Withstands) :
    Yields unheld (s.RebuffsText r d) (step (.text r d)) s := by
  obtain hnone | ⟨h, pool, hc⟩ := textAt_cases r s
  · refine .inl ((alike_textAt r).bind fun a ha => ?_)
    rw [hnone] at ha
    cases ha
  · obtain halike | hbusy := yields_textStep hs hc hd
    · exact .inl (halike.congr (step_text hc d) (step_text (s := s.unheld) hc d))
    · exact .inr (step_text hc d ▸ hbusy)

/-! ### Making -/

theorem yields_create {γ : Type} [Element γ] (n : Nat) (make : Ring γ → Container) :
    Yields unheld (· = .error (.refused Ring.nodesBusy))
      (onArena n (Ring.create.mapError .refused) >>= fun ring =>
        Reply.container <$> addContainer (make ring)) s :=
  yields_make (yields_onArena fun g _ =>
    (Guarded.yields_writing Ring.nodesBusy _ g).mapError fun r hr => ⟨r, hr, rfl⟩)

theorem yields_newTextRing (n pool : Nat) :
    Yields unheld (· = .error (.refused Ring.nodesBusy)) (step (.newTextRing n pool)) s := by
  refine yields_read_bind ?_ fun _ _ => yields_create n fun handles => .textRing ⟨handles⟩ n pool
  simp [unheld]

theorem yields_newText (pool : Nat) (content : Option String) :
    Yields unheld (· = .error (.refused TextPool.busy)) (step (.newText pool content)) s := by
  cases content with
  | none =>
    rw [step_newText]
    exact yields_make (yields_onText (OwnedText.yields_make fun _ => within_pure ()))
  | some t =>
    rw [step_newText_with]
    exact yields_make (yields_onText (OwnedText.yields_make fun h =>
      OwnedText.within_assign TextPool.acrossCalls_hold.edits h t))

/-! ### All commands -/

/-- **What is left after an answer for a hold**: everything is as it was. Where a slot was taken for a
text, it is free again. -/
def Untouched (s : Store) : Command → Store → Prop
  | .textRing r (.pushText _), t => s.Undone r t
  | _, t => t = s

/-- **A command to a container goes as if nothing were held, or answers for a hold and leaves everything
as it was.** -/
theorem alike_or_untouched {c : Command} (hs : s.Kept fun _ => TextPool.Tidy) (hc : c.Withstands) :
    Alike unheld (step c) s ∨ s.Rebuffs c (step c s).result ∧ s.Untouched c (step c s).state := by
  cases c with
  | newRing type n => exact yields_create n fun ring => .ring type ring n
  | newTextRing n pool => exact yields_newTextRing n pool
  | newText pool content => exact yields_newText pool content
  | ring r d => exact yields_ring hc
  | text r d => exact yields_text hs hc
  | textRing r d =>
    cases d with
    | pushText t => exact alike_or_undone hs r t
    | _ => exact yields_textRing hc nofun
  | _ => exact hc.elim

/-- Nobody writes to an arena or to a pool. -/
structure NotWritten (s : Store) : Prop where
  arenas : ∀ g ∈ s.arenas, g.hold ≠ .writer
  pools : ∀ g ∈ s.pools, g.hold ≠ .writer

instance (s : Store) : Decidable s.NotWritten :=
  decidable_of_iff ((∀ g ∈ s.arenas, g.hold ≠ .writer) ∧ ∀ g ∈ s.pools, g.hold ≠ .writer)
    ⟨fun h => ⟨h.1, h.2⟩, fun h => ⟨h.1, h.2⟩⟩

section Readers

variable (hn : s.NotWritten)

include hn

theorem NotWritten.arena {g : Guarded BlockArena} (hg : s.arenas[k]? = some g) :
    g.hold.admits .shared = true :=
  admits_of_ne_writer (hn.arenas g (Array.mem_of_getElem? hg))

theorem NotWritten.readable (k : Nat) : s.Readable k :=
  fun g hg => admits_of_ne_writer (hn.pools g (Array.mem_of_getElem? hg))

theorem alike_ringReads {type : ElementType} {ring : Ring type.Value} {d : RingCommand type.Value}
    (hd : d.Withstands) (hr : d.Reads) : Alike unheld (ringStep r ring n d) s := by
  have hon : ∀ {β : Type} {x : Act Error (Ring.Site type.Value) β} (f : β → Reply),
      (∀ g, g.hold.admits .shared = true → Alike Ring.Site.unheld x ⟨ring, g⟩) →
      Alike unheld (f <$> onRing r ring n x) s :=
    fun f hx => (alike_onRing fun g hg => hx g (hn.arena hg)).map f
  cases d with
  | peek side => exact hon _ fun g ha => Ring.alike_peek ha side
  | get index => exact hon _ fun g ha => Ring.alike_get ha index
  | toList => exact hon _ fun g ha => Ring.alike_toList ha
  | scan steps => exact hon _ fun g ha => Ring.alike_scan hd ha
  | size => exact alike_pure _ _ _
  | describe => exact alike_pure _ _ _
  | _ => exact hr.elim

theorem alike_textRingReads {d : TextRingCommand} (hd : d.Withstands) (hr : d.Reads) :
    Alike unheld (textRingStep r tr n pool d) s := by
  have hon : ∀ {β : Type} {x : Act Error TextRing.Site β} (f : β → Reply),
      (∀ g p, g.hold.admits .shared = true → p.hold.admits .shared = true →
        Alike TextRing.Site.unheld x ⟨tr, g, p⟩) →
      Alike unheld (f <$> onTextRing r tr n pool x) s :=
    fun f hx => (alike_onTextRing fun g p hg hp =>
      hx g p (hn.arena hg) (hn.readable pool p hp)).map f
  cases d with
  | peek side => exact hon _ fun g p ha _ => TextRing.alike_peek ha side
  | get index => exact hon _ fun g p ha _ => TextRing.alike_get ha index
  | text index => exact hon _ fun g p ha ha' => TextRing.alike_text ha ha' index
  | position t => exact hon _ fun g p ha ha' => TextRing.alike_position ha ha' t
  | toList => exact hon _ fun g p ha _ => TextRing.alike_toList ha
  | scan steps =>
    exact hon _ fun g p ha _ => TextRing.alike_onHandles (s := ⟨tr, g, p⟩) (Ring.alike_scan hd ha)
  | size => exact alike_pure _ _ _
  | livesIn k => exact alike_pure _ _ _
  | _ => exact hr.elim

/-- **Reads beside readers go as if nothing were held.** -/
theorem alike_reads {c : Command} (hc : c.Withstands) (hr : c.Reads) : Alike unheld (step c) s := by
  cases c with
  | ring r d =>
    refine (alike_read rfl).bind fun c _ => ?_
    cases c with
    | textRing tr n pool => exact alike_fail _ _ _
    | text h pool => exact alike_fail _ _ _
    | ring type ring n =>
      cases has : d.as? type with
      | none =>
        simp only [has]
        exact alike_fail _ _ _
      | some d' =>
        obtain ⟨hwithstands, hreads, -⟩ := withstands_as? has
        simp only [has]
        exact alike_ringReads hn (hwithstands hc) (hreads hr)
  | textRing r d =>
    refine (alike_read rfl).bind fun c _ => ?_
    cases c with
    | ring type ring n => exact alike_fail _ _ _
    | text h pool => exact alike_fail _ _ _
    | textRing tr n pool => exact alike_textRingReads hn hc hr
  | text r d =>
    exact (alike_textAt r).bind_still (still_textAt r) fun (h, pool) _ =>
      alike_textStep hr (hn.readable pool) fun _ _ k _ _ => hn.readable k
  | _ => exact hr.elim

end Readers

/-! ### Other holds -/

/-- Who holds the arenas, and who holds the pools. -/
def holds (s : Store) : Array Hold × Array Hold :=
  (s.arenas.map Guarded.hold, s.pools.map Guarded.hold)

theorem poolList_unheld (s : Store) : s.unheld.poolList = s.poolList := by
  simp [poolList, unheld, Function.comp_def, Guarded.unheld]

/-- Holds have no part in what is kept. -/
theorem kept_of_unheld {P : Nat → TextPool → Prop} {u : Store} (hu : u.Kept P) (h : s.unheld = u.unheld) :
    s.Kept P := by
  have hkept : u.unheld.Kept P := hu.of_eq (poolList_unheld u) rfl rfl
  rw [← h] at hkept
  exact hkept.of_eq (poolList_unheld s).symm rfl rfl

end Store

namespace Run

/-- **Holds do no harm.** Take the store of any run, with any holds on its arenas and its pools, and any
command that makes or uses a container; only those that assign one text to another, describe texts, or
give a container up are left out. The command leaves all holds. It answers, logs and does the same as if
nothing were held; or it gives its answer for a hold, and leaves everything as it was, but for bytes of
slots that are free and for the most slots that were ever in use. Where nobody writes, what is read is
the same as if nothing were held. A cursor goes on beside readers, and stays where it is beside a
writer. -/
theorem holds_harmless (run : Run) {s : Store} (hs : s.unheld = (store run).unheld) {c : Command}
    (hc : c.Withstands) :
    (Store.step c s).state.holds = s.holds ∧
    (Alike Store.unheld (Store.step c) s ∨
      s.Rebuffs c (Store.step c s).result ∧ s.Untouched c (Store.step c s).state) ∧
    (s.NotWritten → c.Reads → Alike Store.unheld (Store.step c) s) ∧
    ∀ (type : ElementType) (cursor : Ring.Cursor type.Value), ∀ g ∈ s.arenas,
      (g.hold ≠ .writer → cursor.next g.unheld = cursor.next g ∧ cursor.rest g.unheld = cursor.rest g) ∧
      (g.hold = .writer → cursor.next g = .ok (none, cursor) ∧ cursor.rest g = .ok ([], cursor)) := by
  have hkept := Store.kept_of_unheld (kept TextPool.lasting_tidy run) hs
  refine ⟨?_, Store.alike_or_untouched hkept hc, fun hn hr => Store.alike_reads hn hc hr,
    fun type cursor g _ => ⟨fun hg => ?_, fun hg => ?_⟩⟩
  · have hkeeping := Store.keeping_step (s := s) (fun _ => TextPool.lasting_tidy.outlasts)
      (fun _ _ => trivial) hc.usesContainer hc.not_holdsPool
    exact Prod.ext hkeeping.arenas hkeeping.pools
  · have ha := Store.admits_of_ne_writer hg
    exact ⟨Ring.Cursor.next_unheld ha cursor, Ring.Cursor.rest_unheld ha cursor⟩
  · have ha : ¬g.hold.admits .shared = true := hg ▸ nofun
    have hnext := Ring.Cursor.next_held ha cursor
    exact ⟨hnext, Ring.Cursor.rest_of_next hnext⟩

/-- A text ring and a text, while somebody writes to the arena and somebody reads the pool. -/
def besieged : Run :=
  [.hold (.arena 0) .exclusive, .newText 0 (some "a"), .newTextRing 0 0, .reservePool 4 8,
    .reserveArena 8 32]

/-- The same, while the arena and the pool are only read. -/
def visited : Run :=
  [.hold (.arena 0) .shared, .hold (.pool 0) .shared, .newText 0 (some "a"), .newTextRing 0 0,
    .reservePool 4 8, .reserveArena 8 32]

/-- A text that finds the arena held is not added, and its slot is free again; a text is read beside
readers. -/
theorem holds_harmless_besieged :
    (Command.textRing 0 (.pushText "b")).Withstands ∧
    (TextRingCommand.pushText "b").Rebuffs
      (Store.step (.textRing 0 (.pushText "b")) (store besieged)).result ∧
    (store besieged).Undone 0 (Store.step (.textRing 0 (.pushText "b")) (store besieged)).state ∧
    (Command.text 1 .content).Withstands ∧ (store visited).NotWritten ∧ (Command.text 1 .content).Reads ∧
    Alike Store.unheld (Store.step (.text 1 .content)) (store visited) := by
  have hbusy : (Store.step (.textRing 0 (.pushText "b")) (store besieged)).result.isOk = false := by
    decide +kernel
  have hfree : (Store.step (.textRing 0 (.pushText "b")) (store besieged).unheld).result.isOk = true := by
    decide +kernel
  have hvisited : (store visited).NotWritten := by decide +kernel
  obtain ⟨-, hpush, -⟩ := holds_harmless besieged rfl (c := .textRing 0 (.pushText "b")) trivial
  obtain ⟨-, -, hread, -⟩ := holds_harmless visited rfl (c := .text 1 .content) trivial
  obtain halike | ⟨hrebuffs, hundone⟩ := hpush
  · rw [halike.result, hfree] at hbusy
    cases hbusy
  · exact ⟨trivial, hrebuffs, hundone, trivial, hvisited, trivial, hread hvisited trivial⟩

end Run

end FixedArena
