import FixedArena.Proofs.Text.Posting

/-!
An owned text as a variable, on a pool that nobody writes to. Reads answer with its content, writes
replace it, and nothing is logged; no other slot of the pool sees a change.

Main facts:
* `TextPool.Puts.find_self`, `TextPool.Puts.find_of_ne`: the entries after one slot got another one;
* `OwnedText.content_eq`, `OwnedText.equals_eq`, `OwnedText.length_eq`: what is read;
* `OwnedText.assign_eq`, `OwnedText.append_eq`, `OwnedText.copy_eq`: what is written;
* `OwnedText.make_eq`, `OwnedText.drop_eq`: the beginning and the end of the variable.
-/

namespace FixedArena

namespace Text

/-! ### Texts that fit -/

theorem takeFitting_eq_self {cs : List Char} {room : Nat}
    (h : (cs.flatMap String.utf8EncodeChar).length ≤ room) : takeFitting room cs = cs := by
  induction cs generalizing room with
  | nil => rfl
  | cons c cs ih =>
    rw [List.flatMap_cons, List.length_append, String.length_utf8EncodeChar] at h
    rw [takeFitting, if_pos (by omega), ih (by omega)]

/-- All characters of a text without NUL stand before the first NUL, whatever follows. -/
theorem ne_nul_of_notMem {cs : List Char} (hnul : '\x00' ∉ cs) :
    ∀ c ∈ cs, decide (c ≠ '\x00') = true :=
  fun _ hc => decide_eq_true fun h0 => hnul (h0 ▸ hc)

/-- Nothing is cut off a text without NUL that fits. -/
theorem clip_eq_self {t : String} {room : Nat} (hnul : '\x00' ∉ t.toList)
    (hfit : (bytes t).length ≤ room) : clip t room = t := by
  have hall : t.toList.takeWhile (· ≠ '\x00') = t.toList :=
    List.takeWhile_eq_self_iff.2 (ne_nul_of_notMem hnul)
  rw [clip, hall, takeFitting_eq_self hfit, String.ofList_toList]

end Text

namespace TextPool

variable {p p' p'' : TextPool} {h g : TextHandle} {e e' : Entry} {t : String}

/-! ### One slot gets another entry -/

namespace Puts

theorem find_self (hp : Puts h e p p') : p'.catalog.find h = some e := by
  rw [hp.catalog]
  exact Catalog.find_put_self hp.pool

theorem find_of_ne (hp : Puts h e p p') (hg : g ≠ h) : p'.catalog.find g = p.catalog.find g := by
  rw [hp.catalog]
  exact Catalog.find_put_of_ne hp.pool hg

theorem maxLen_eq (hp : Puts h e p p') : p'.maxLen = p.maxLen := by
  have hmax := congrArg Catalog.maxLen hp.catalog
  exact hmax

theorem trans (hp : Puts h e p p') (hp' : Puts h e' p' p'') : Puts h e' p p'' := by
  refine ⟨hp.pool, hp'.tidy, ?_⟩
  rw [hp'.catalog, hp.catalog, Catalog.put_put]

/-- The entry that is there may be put there again. -/
theorem again (hp : Puts h e p p') : Puts h e p' p' := by
  refine ⟨hp.pool.trans (congrArg Catalog.id hp.catalog).symm, hp.tidy, ?_⟩
  rw [hp.catalog, Catalog.put_put]

end Puts

/-- A change of a slot's text alone. -/
theorem Changes.puts (hc : Changes p h.index.toNat e.state e.state t p') (hp : p.Tidy)
    (he : p.catalog.find h = some e) : Puts h { e with text := t } p p' := by
  refine ⟨Catalog.pool_of_find he, hc.tidy hp, ?_⟩
  rw [hc.catalog_eq hp, entryOf_state]

end TextPool

namespace OwnedText

open TextPool (Entry GuardedAct Puts reading writing)

variable {α : Type} {g g' : Guarded TextPool} {h source : TextHandle} {e e' : Entry}
  {access : GuardedAct α} {a : α} {log : List Event}

theorem reporting_ok (hx : access g = ⟨.ok a, g', log⟩) :
    reporting h access g = ⟨.ok (some a), g', log⟩ := by
  unfold reporting
  rw [Act.bind_ok (Act.attempt_of_ok hx)]
  simp

/-! ### Reading -/

section Read

variable (ha : g.hold.admits .shared = true)

include ha

theorem reading_eq {f : TextPool → Except Error α} (hr : f g.value = .ok a) :
    reading f g = ⟨.ok a, g, []⟩ := by
  unfold TextPool.reading
  rw [Guarded.reading_apply, if_pos ha, hr]

theorem maxLength_eq : maxLength h g = ⟨.ok g.value.maxLen, g, []⟩ := by
  unfold maxLength
  rw [Act.bind_ok (reporting_ok (reading_eq (f := fun p => .ok p.maxLen) ha rfl))]
  rfl

variable (hp : g.value.Tidy) (he : g.value.catalog.find h = some e)

include hp he

/-- **The content is the text of the entry.** -/
theorem content_eq : content h g = ⟨.ok e.text, g, []⟩ := by
  have htext : g.value.text h = .ok e.text := by
    rw [hp.text_eq, he]
  unfold content
  rw [Act.bind_ok (reporting_ok (reading_eq ha htext))]
  rfl

theorem compare_eq (t : String) :
    compare h t g = ⟨.ok (Text.compareBytes (Text.bytes e.text) (Text.bytes t)), g, []⟩ := by
  unfold compare
  rw [Act.bind_ok (content_eq ha hp he)]
  rfl

theorem equals_eq (t : String) : equals h t g =
    ⟨.ok (Text.compareBytes (Text.bytes e.text) (Text.bytes t) == .eq), g, []⟩ := by
  unfold equals
  rw [Act.bind_ok (compare_eq ha hp he t)]
  rfl

theorem length_eq : length h g = ⟨.ok (Text.bytes e.text).length, g, []⟩ := by
  have hlen : g.value.textLen h = .ok (Text.bytes e.text).length := by
    rw [hp.textLen_eq, he]
  unfold length
  rw [Act.bind_ok (reporting_ok (reading_eq ha hlen))]
  rfl

theorem isEmpty_eq : isEmpty h g = ⟨.ok ((Text.bytes e.text).length == 0), g, []⟩ := by
  unfold isEmpty
  rw [Act.bind_ok (length_eq ha hp he)]
  rfl

theorem describe_eq : ∃ t, describe h g = ⟨.ok t, g, []⟩ := by
  unfold describe
  rw [Act.bind_ok (content_eq ha hp he)]
  exact ⟨_, rfl⟩

end Read

/-! ### Writing -/

section Write

variable (hfree : g.hold = .free)

include hfree

theorem writing_eq {x : Act Error TextPool α} {result : Except Error α} {p : TextPool}
    (hx : x g.value = ⟨result, p, log⟩) : writing x g = ⟨result, { g with value := p }, log⟩ := by
  unfold TextPool.writing
  rw [Guarded.writing_free _ _ _ hfree, hx]

variable (hp : g.value.Tidy)

include hp

section Found

variable (he : g.value.catalog.find h = some e)

include he

/-- **As much of a text as fits becomes the content.** -/
theorem assign_eq (t : String) : ∃ p, assign h t g = ⟨.ok (), { g with value := p }, []⟩ ∧
    Puts h { e with text := Text.clip t g.value.maxLen } g.value p := by
  obtain ⟨p, hassign, hc⟩ := TextPool.assign_found hp he t
  refine ⟨p, ?_, hc.puts hp he⟩
  unfold assign
  rw [Act.bind_ok (reporting_ok (writing_eq hfree hassign))]
  rfl

/-- **As much of a text as fits is added to the content.** -/
theorem append_eq (t : String) : ∃ p, append h t g = ⟨.ok (), { g with value := p }, []⟩ ∧
    Puts h { e with text :=
      e.text ++ Text.clip t (g.value.maxLen - (Text.bytes e.text).length) } g.value p := by
  obtain ⟨p, happend, hc⟩ := TextPool.append_found hp he t
  refine ⟨p, ?_, hc.puts hp he⟩
  unfold append
  rw [Act.bind_ok (reporting_ok (writing_eq hfree happend))]
  rfl

/-- **The text of another slot becomes the content.** -/
theorem copy_eq (he' : g.value.catalog.find source = some e') :
    ∃ p, copy h source g = ⟨.ok (), { g with value := p }, []⟩ ∧
      Puts h { e with text := e'.text } g.value p := by
  obtain ⟨p, hcopy, hc⟩ := TextPool.copy_found hp he he'
  refine ⟨p, ?_, hc.puts hp he⟩
  unfold copy
  rw [Act.bind_ok (reporting_ok (writing_eq hfree hcopy))]
  rfl

/-- **A text that is given up leaves its slot free**, and nothing is logged. -/
theorem drop_eq : ∃ p, drop h g = ⟨.ok (), { g with value := p }, []⟩ ∧ p.Tidy ∧
    p.catalog = g.value.catalog.put h.index.toNat none := by
  have hreclaim : TextPool.reclaim h g.value =
      ⟨.ok true, g.value.takeBack h.index.toNat, []⟩ := by
    unfold TextPool.reclaim
    rw [TextPool.locate_eq, he]
  have hc := (TextPool.takeBack_found hp he).2
  refine ⟨_, ?_, hc.tidy hp, hc.catalog_eq hp⟩
  unfold drop
  rw [Act.bind_ok (Act.attempt_of_ok (writing_eq hfree hreclaim))]
  rfl

end Found

/-- **A text is made with a content of its own**, or no slot is free. -/
theorem make_eq {y : TextHandle → GuardedAct Unit} {t : String}
    (hy : ∀ h p, g.value.catalog.find h = none → Puts h ⟨"", true⟩ g.value p →
      ∃ p', y h { g with value := p } = ⟨.ok (), { g with value := p' }, []⟩ ∧
        Puts h ⟨t, true⟩ p p') :
    (∃ h p log, make y g = ⟨.ok h, { g with value := p }, log⟩ ∧
      g.value.catalog.find h = none ∧ Puts h ⟨t, true⟩ g.value p) ∨
    g.value.catalog.firstFree = none ∧ make y g =
      ⟨.error (.full TextPool.kind g.value.capacity), g, [.slotsExhausted g.value.capacity]⟩ := by
  unfold make
  obtain ⟨h, p, log, hcreate, hnone, hputs⟩ | ⟨hfull, hcreate⟩ := create_eq hfree hp
  · obtain ⟨p', hedit, hputs'⟩ := hy h p hnone hputs
    rw [Act.bind_ok hcreate, Act.map_apply, hedit]
    exact .inl ⟨h, p', _, rfl, hnone, hputs.trans hputs'⟩
  · rw [Act.bind_error hcreate]
    exact .inr ⟨hfull, rfl⟩

end Write

end OwnedText

end FixedArena
