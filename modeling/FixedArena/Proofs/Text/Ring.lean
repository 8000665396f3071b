import FixedArena.Proofs.Ring.Walk
import FixedArena.Proofs.Text.Owned
import FixedArena.Text.Ring

/-!
Text rings own the slots of their handles. A handle on its way into a ring or out of it is held by
the operation; with it the account of the pool stays in order, however the operation ends.

Main facts:
* `Site.Trades`: what an operation does to a ring, to its blocks, and to the account of its pool;
* `keeps_push`, `keeps_pushText`, `keeps_pop`, `keeps_clear`: no operation disturbs any of them;
* `drop_trades`: what is left of a ring that is given up.
-/

namespace FixedArena

namespace TextRing

variable {α : Type} {s t u : Site} {F F' F'' : List TextHandle} {ns : List UInt32}
  {vs : List TextHandle} {h : TextHandle}

/-- From one site to another, the ring and the operation turned their blocks and their handles
over. The operation holds the handles `F` before and `F'` after. -/
def Site.Trades (F : List TextHandle) (s : Site) (F' : List TextHandle) (t : Site) : Prop :=
  s.nodes.value.Sound → ∀ ns vs, s.handles.Holds ns vs → ∃ ns' vs',
    t.handles.Holds ns' vs' ∧ s.handles.Moves ns t.handles ns' ∧ t.pool.hold = s.pool.hold ∧
    TextPool.Trades (F ++ vs) s.pool.value (F' ++ vs') t.pool.value

namespace Site.Trades

theorem refl (F : List TextHandle) (s : Site) : Trades F s F s :=
  fun _ ns vs h => ⟨ns, vs, h, .refl s.handles ns, rfl, .refl _ _⟩

theorem trans (h₁ : Trades F s F' t) (h₂ : Trades F' t F'' u) : Trades F s F'' u := by
  intro hs ns vs h
  obtain ⟨ns', vs', h', hm, hhold, ht⟩ := h₁ hs ns vs h
  obtain ⟨ns'', vs'', h'', hm', hhold', ht'⟩ := h₂ (hm.turns.sound hs) ns' vs' h'
  exact ⟨ns'', vs'', h'', hm.trans hm', hhold'.trans hhold, ht.trans ht'⟩

/-- A change of the pool alone. -/
theorem of_pool {g : Guarded TextPool} (hhold : g.hold = s.pool.hold)
    (ht : ∀ hs, TextPool.Trades (F ++ hs) s.pool.value (F' ++ hs) g.value) :
    Trades F s F' { s with pool := g } :=
  fun _ ns vs h => ⟨ns, vs, h, .refl s.handles ns, hhold, ht vs⟩

end Site.Trades

/-- The operation holds no handle, neither before nor after. -/
def Site.Keeps (s t : Site) : Prop := s.Trades [] [] t

instance : IsPreorder Site Site.Keeps where
  refl s := .refl [] s
  trans _ _ _ := .trans

theorem keeps_onPool {x : TextPool.GuardedAct α} (hx : Act.Within TextPool.GuardedKeeps x) :
    Act.Within Site.Keeps (onPool x) :=
  fun s => .of_pool (hx s.pool).2 (hx s.pool).1

theorem state_onHandles {x : Act Error (Ring.Site TextHandle) α} (hx : ∀ s, (x s).state = s)
    (s : Site) : (onHandles x s).state = s := by
  unfold onHandles
  rw [Act.zoom_apply, hx s.handles]
  rfl

theorem keeps_onHandles {x : Act Error (Ring.Site TextHandle) α} (hx : ∀ s, (x s).state = s) :
    Act.Within Site.Keeps (onHandles x) := by
  intro s
  rw [state_onHandles hx]
  exact refl_of Site.Keeps s

/-! ### Adding -/

/-- The site with another ring on another arena. -/
def Site.withHandles (s : Site) (t : Ring.Site TextHandle) : Site :=
  { s with ring := ⟨t.ring⟩, nodes := t.nodes }

theorem onHandles_eq {x : Act Error (Ring.Site TextHandle) α} {result : Except Error α}
    {t : Ring.Site TextHandle} {log : List Event} (hx : x s.handles = ⟨result, t, log⟩) :
    onHandles x s = ⟨result, s.withHandles t, log⟩ := by
  unfold onHandles
  rw [Act.zoom_apply, hx]
  rfl

theorem trades_disown (h : TextHandle) (s : Site) :
    s.Trades [h] [] (onPool (TextPool.writing (TextPool.disown h)) s).state := by
  have hd := TextPool.trades_writing (fun p hs => TextPool.trades_disown h hs p) s.pool
  exact .of_pool hd.2 hd.1

theorem trades_reclaim (h : TextHandle) (s : Site) :
    s.Trades [h] [] (onPool (TextPool.writing (TextPool.reclaim h)) s).state := by
  have hd := TextPool.trades_writing (fun p hs => TextPool.trades_reclaim h hs p) s.pool
  exact .of_pool hd.2 hd.1

/-- A handle in the hands of the operation goes into the ring, or back. -/
theorem trades_link (side : Ring.Side) (h : TextHandle) (s : Site) : s.Trades [h] []
    ((Act.attempt (onHandles (Ring.push side h)) >>= fun linked =>
      match linked with
      | .ok () => pure ()
      | .error e => do
        let _ ← Act.attempt (onPool (TextPool.writing (TextPool.disown h)))
        (Act.fail e : Act Error Site Unit)) s).state := by
  intro hs ns vs hh
  obtain ⟨i, t, log, hpush, ht, hm⟩ | ⟨e, log, hpush⟩ := Ring.push_cases hh hs side h
  · have hlink := onHandles_eq hpush
    rw [Act.bind_ok (Act.attempt_of_ok hlink)]
    refine ⟨_, _, ht, hm, rfl, .of_subperm _ ?_⟩
    exact (side.perm_add (x := h) (l := vs)).symm.subperm
  · have hlink := onHandles_eq hpush
    have hback : s.withHandles s.handles = s := rfl
    rw [hback] at hlink
    cases he : e.isFault with
    | false =>
      rw [Act.bind_ok (Act.attempt_of_error hlink he)]
      have hstate := Act.state_bind (f := fun _ => (Act.fail e : Act Error Site Unit))
        (fun _ _ => rfl) (x := Act.attempt (onPool (TextPool.writing (TextPool.disown h)))) s
      rw [Act.state_attempt] at hstate
      exact hstate ▸ trades_disown h s hs ns vs hh
    | true =>
      rw [Act.bind_error (Act.attempt_fault (congrArg Outcome.result hlink) he), hlink]
      exact ⟨ns, vs, hh, .refl _ ns, rfl,
        .of_subperm _ (List.sublist_cons_self h vs).subperm⟩

/-- **A push keeps the account in order, however it ends.** -/
theorem keeps_push (side : Ring.Side) (h : TextHandle) : Act.Within Site.Keeps (push side h) := by
  intro s
  unfold push
  obtain ⟨p, hown, hp⟩ | ⟨e, hown⟩ := TextPool.writing_own_cases h s.pool
  · have hfirst : onPool (TextPool.writing (TextPool.own h)) s =
        ⟨.ok (), { s with pool := { s.pool with value := p } }, []⟩ := by
      unfold onPool
      rw [Act.zoom_apply, hown]
    have htake : s.Trades [] [h] { s with pool := { s.pool with value := p } } := .of_pool rfl hp
    rw [Act.bind_ok hfirst]
    exact htake.trans (trades_link side h _)
  · have hfirst : onPool (TextPool.writing (TextPool.own h)) s = ⟨.error e, s, []⟩ := by
      unfold onPool
      rw [Act.zoom_apply, hown]
    rw [Act.bind_error hfirst]
    exact refl_of Site.Keeps s

theorem keeps_pushText (text : String) : Act.Within Site.Keeps (pushText text) := by
  have halloc : Act.Within TextPool.Keeps (do
      let h ← TextPool.allocate
      let _ ← TextPool.assign h text
      return h) :=
    TextPool.keeps_allocate.bind fun h => (TextPool.keeps_assign h text).bind fun _ =>
      Act.within_pure h
  apply (keeps_onPool (TextPool.keeps_writing halloc)).bind
  intro h
  apply (keeps_push .back h).attempt.bind
  intro pushed
  match pushed with
  | .ok () => exact Act.within_pure h
  | .error e =>
    apply (keeps_onPool (TextPool.keeps_writing (TextPool.keeps_free h))).attempt.bind
    intro _
    exact Act.within_fail e

/-! ### Removing -/

/-- **A pop keeps the account in order, however it ends.** -/
theorem keeps_pop (side : Ring.Side) : Act.Within Site.Keeps (pop side) := by
  intro s hs ns vs hh
  unfold pop
  rw [Act.get_bind]
  by_cases hp : s.pool.hold.admits .exclusive = true
  · rw [if_pos hp]
    obtain ⟨i, ns', v, vs', t, rfl, rfl, hpop, ht, hm⟩ | ⟨log, hpop⟩ := Ring.pop_cases hh side
    · rw [Act.bind_ok (onHandles_eq hpop)]
      have hstate := Act.state_bind (f := fun _ => (pure (some v) : Act Error Site _))
        (fun _ _ => rfl) (x := onPool (TextPool.writing (TextPool.reclaim v))) (s.withHandles t)
      obtain ⟨ns'', vs'', h'', hm', hhold, ht'⟩ :=
        trades_reclaim v (s.withHandles t) (hm.turns.sound hs) ns' vs' ht
      have hout : TextPool.Trades (side.add v vs') s.pool.value (v :: vs') s.pool.value :=
        .of_subperm _ (side.perm_add).subperm
      exact hstate ▸ ⟨ns'', vs'', h'', hm.trans hm', hhold, hout.trans ht'⟩
    · rw [Act.bind_ok (onHandles_eq hpop)]
      exact ⟨ns, vs, hh, .refl _ ns, rfl, .refl _ _⟩
  · rw [if_neg hp]
    exact ⟨ns, vs, hh, .refl _ ns, rfl, .refl _ _⟩

/-- What every removal keeps, the removal of all handles keeps. -/
theorem within_drain {Q : Site → Site → Prop} [IsPreorder Site Q]
    (hpop : Act.Within Q (pop .front)) (n : Nat) : Act.Within Q (drain n) := by
  induction n with
  | zero => exact hpop.bind fun _ => Act.within_pure ()
  | succ n ih =>
    refine hpop.bind fun h? => ?_
    cases h? with
    | none => exact Act.within_pure ()
    | some h => exact ih

theorem within_clear {Q : Site → Site → Prop} [IsPreorder Site Q]
    (hpop : Act.Within Q (pop .front)) : Act.Within Q clear :=
  Act.within_get.bind fun s => within_drain hpop s.ring.len

theorem keeps_clear : Act.Within Site.Keeps clear := within_clear (keeps_pop .front)

/-! ### Giving up -/

theorem result_pop (hh : s.handles.Holds ns vs) (side : Ring.Side) :
    ∃ r, (pop side s).result = .ok r := by
  unfold pop
  rw [Act.get_bind]
  by_cases hp : s.pool.hold.admits .exclusive = true
  · rw [if_pos hp]
    obtain ⟨i, ns', v, vs', t, rfl, rfl, hpop, ht, hm⟩ | ⟨log, hpop⟩ := Ring.pop_cases hh side
    · have hfree : (s.withHandles t).pool.hold = .free := Guarded.hold_of_admits hp
      obtain ⟨b, hb⟩ : ∃ b, (TextPool.reclaim v s.pool.value).result = .ok b := by
        unfold TextPool.reclaim
        split <;> exact ⟨_, rfl⟩
      have hreclaim : (onPool (TextPool.writing (TextPool.reclaim v)) (s.withHandles t)).result =
          .ok b := by
        unfold onPool TextPool.writing
        rw [Act.zoom_apply, Guarded.writing_free _ _ _ hfree]
        exact hb
      rw [Act.bind_ok (onHandles_eq hpop)]
      exact ⟨some v, congrArg Outcome.result (Act.bind_of_ok hreclaim)⟩
    · rw [Act.bind_ok (onHandles_eq hpop)]
      exact ⟨none, rfl⟩
  · rw [if_neg hp]
    exact ⟨none, rfl⟩

theorem result_drain (n : Nat) (hs : s.nodes.value.Sound) (hh : s.handles.Holds ns vs) :
    (drain n s).result = .ok () := by
  induction n generalizing s ns vs with
  | zero =>
    obtain ⟨r, hr⟩ := result_pop hh .front
    exact congrArg Outcome.result (Act.bind_of_ok hr)
  | succ n ih =>
    obtain ⟨r, hr⟩ := result_pop hh .front
    obtain ⟨ns', vs', hh', hm, -⟩ := keeps_pop .front s hs ns vs hh
    unfold drain
    rw [Act.bind_of_ok hr]
    cases r with
    | none => rfl
    | some h => exact ih (hm.turns.sound hs) hh'

theorem result_clear (hs : s.nodes.value.Sound) (hh : s.handles.Holds ns vs) :
    (clear s).result = .ok () := by
  unfold clear
  rw [Act.get_bind]
  exact result_drain s.ring.len hs hh

/-- While the arena is held a ring gives nothing away. -/
theorem pop_busy (side : Ring.Side) (hf : s.nodes.hold ≠ .free) :
    ∃ log, pop side s = ⟨.ok none, s, log⟩ := by
  unfold pop
  rw [Act.get_bind]
  by_cases hp : s.pool.hold.admits .exclusive = true
  · obtain ⟨log, hpop⟩ : ∃ log, Ring.pop side s.handles = ⟨.ok none, s.handles, log⟩ := by
      by_cases h0 : s.handles.ring.len = 0
      · exact ⟨_, Ring.pop_empty side h0⟩
      · exact ⟨_, Ring.pop_busy side h0 hf⟩
    rw [if_pos hp, Act.bind_ok (onHandles_eq hpop)]
    exact ⟨_, rfl⟩
  · rw [if_neg hp]
    exact ⟨_, rfl⟩

theorem state_clear_busy (hf : s.nodes.hold ≠ .free) : (clear s).state = s := by
  obtain ⟨log, hpop⟩ := pop_busy .front hf
  unfold clear
  rw [Act.get_bind]
  cases s.ring.len with
  | zero => exact congrArg Outcome.state (Act.bind_ok hpop)
  | succ n => exact congrArg Outcome.state (Act.bind_ok hpop)

/-- **What is left of a text ring that is given up.** The account of the pool is in order without
its handles. Its blocks are given back, unless the arena is held; then they are as they were. -/
theorem drop_trades (hs : s.nodes.value.Sound) (hh : s.handles.Holds ns vs) :
    let t := (drop s).state
    t.nodes.hold = s.nodes.hold ∧ t.pool.hold = s.pool.hold ∧
    TextPool.Trades vs s.pool.value [] t.pool.value ∧
    (s.nodes.hold = .free →
      s.nodes.value.Turns (s.handles.ring.head.index :: ns) t.nodes.value []) ∧
    (s.nodes.hold ≠ .free → t.nodes = s.nodes) := by
  have hforget : ∀ vs (p : TextPool), TextPool.Trades vs p [] p :=
    fun vs p => .of_subperm p (List.nil_subperm)
  obtain ⟨ns', vs', hh', hm, hhold, ht⟩ := keeps_clear s hs ns vs hh
  intro t
  have hdrop : t = (onHandles Ring.drop (clear s).state).state := by
    change ((clear >>= fun _ => onHandles Ring.drop) s).state = _
    rw [Act.bind_of_ok (result_clear hs hh)]
  by_cases hf : s.nodes.hold = .free
  · obtain ⟨u, hu, hfu, hturns⟩ := Ring.drop_ok hh' (hm.hold.trans hf)
    rw [onHandles_eq hu] at hdrop
    rw [hdrop]
    refine ⟨hfu.trans hf.symm, hhold, ht.trans (hforget _ _), fun _ => hm.turns.trans hturns, ?_⟩
    exact fun hn => absurd hf hn
  · rw [state_clear_busy hf, onHandles_eq (Ring.drop_busy hf)] at hdrop
    rw [hdrop]
    exact ⟨rfl, rfl, hforget vs _, fun hn => absurd hn hf, fun _ => rfl⟩

/-! ### Reading -/

theorem keeps_peek (side : Ring.Side) : Act.Within Site.Keeps (peek side) :=
  keeps_onHandles (Ring.state_peek side)

theorem keeps_get (index : Nat) : Act.Within Site.Keeps (get index) :=
  keeps_onHandles (Ring.state_get index)

theorem keeps_text (index : Nat) : Act.Within Site.Keeps (text index) :=
  (keeps_get index).bind fun _ => keeps_onPool (TextPool.still_reading _).within

theorem state_text (index : Nat) (s : Site) : (text index s).state = s := by
  unfold text
  rw [Act.state_bind fun _ _ => rfl]
  exact state_onHandles (Ring.state_get index) s

theorem state_texts (s : Site) : (texts s).state = s := by
  unfold texts
  rw [Act.get_bind]
  split
  · cases hl : toList s with
    | ok handles => rw [Act.read_bind_ok hl]; rfl
    | error e => rw [Act.read_bind_error hl]
  · rfl

/-- A ring that is turned into its texts is given up. -/
theorem state_intoTexts (s : Site) : (intoTexts s).state = (drop s).state := by
  unfold intoTexts
  have hsettled : Act.settled texts s = ⟨.ok (texts s).result, s, (texts s).events⟩ := by
    rw [Act.settled, state_texts]
  rw [Act.bind_ok hsettled]
  exact Act.state_bind (fun _ _ => rfl) s

end TextRing

end FixedArena
