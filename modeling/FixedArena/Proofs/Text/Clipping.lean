import FixedArena.Proofs.Text.Appends
import Mathlib.Data.List.Infix
import Mathlib.Order.Bounds.Basic

/-!
What a slot keeps of a text. Of all beginnings of the text that hold no NUL and fit the room it is the longest,
and every other is a beginning of it. It can as well be found from the far end: go back from the room's end,
byte by byte, to the first place at which a character begins.

Main facts:
* `isBoundary_iff`: the bytes alone tell where a text may be cut;
* `isGreatest_boundaryBack`: the search backwards always stops, at the last such place in the room;
* `keepable_clip`, `Keepable.isPrefix_clip`: what is kept may be kept, and no more may be;
* `cutBack?_eq`: both ways to cut a text leave the same bytes.
-/

namespace FixedArena.Text

variable {t s : String} {cs ds : List Char} {bs : List UInt8} {room k : Nat}

/-! ### Boundaries -/

/-- The byte goes on with a character that began before it. -/
def continues (b : UInt8) : Bool := 128 ≤ b && b < 192

/-- The text with these bytes may be cut at this place: a character begins there, or the text ends. -/
def isBoundary (bs : List UInt8) (k : Nat) : Bool :=
  k = 0 || match bs[k]? with
    | some b => !continues b
    | none => k = bs.length

theorem continues_iff (b : UInt8) : continues b = true ↔ 128 ≤ b.toNat ∧ b.toNat < 192 := by
  simp [continues, UInt8.le_iff_toNat_le, UInt8.lt_iff_toNat_lt]

/-- A character begins with a byte of its own and goes on with others. -/
theorem exists_utf8EncodeChar_eq (c : Char) : ∃ b rest, String.utf8EncodeChar c = b :: rest ∧
    ¬continues b = true ∧ ∀ b' ∈ rest, continues b' = true := by
  have hlt := toNat_val_lt c
  unfold String.utf8EncodeChar
  dsimp only
  split_ifs with h₁ h₂ h₃ <;>
    refine ⟨_, _, rfl, ?_, ?_⟩ <;>
    simp only [List.mem_cons, List.not_mem_nil, or_false, false_implies, implies_true,
      forall_eq_or_imp, forall_eq, continues_iff, UInt8.toNat_ofNat'] <;>
    omega

@[simp] theorem isBoundary_zero : isBoundary bs 0 = true := rfl

theorem isBoundary_of_getElem? {b : UInt8} (hb : bs[k]? = some b) (hzero : k = 0 → ¬continues b = true) :
    isBoundary bs k = true ↔ ¬continues b = true := by
  by_cases hk : k = 0
  · simp [isBoundary, hk, hzero hk]
  · simp [isBoundary, hb, hk]

theorem isBoundary_of_le (hle : bs.length ≤ k) : isBoundary bs k = true ↔ k = bs.length := by
  simp only [isBoundary, List.getElem?_eq_none hle, Bool.or_eq_true, decide_eq_true_eq]
  omega

/-- The image of a text does not begin inside a character. -/
theorem not_continues_head {b : UInt8} (hb : (cs.flatMap String.utf8EncodeChar)[0]? = some b) :
    ¬continues b = true := by
  cases cs with
  | nil => simp at hb
  | cons c cs =>
    obtain ⟨b', rest, hc, hfirst, -⟩ := exists_utf8EncodeChar_eq c
    rw [List.flatMap_cons, hc] at hb
    obtain rfl : b' = b := by simpa using hb
    exact hfirst

/-- There is no boundary inside a character. -/
theorem not_isBoundary_inside {c : Char} (hk : 0 < k) (hlt : k < c.utf8Size) (bs : List UInt8) :
    ¬isBoundary (String.utf8EncodeChar c ++ bs) k = true := by
  obtain ⟨b, rest, hc, -, hrest⟩ := exists_utf8EncodeChar_eq c
  obtain ⟨j, rfl⟩ := Nat.exists_eq_add_of_le' hk
  have hj : j < rest.length := by
    have hlen := String.length_utf8EncodeChar c
    rw [hc, List.length_cons] at hlen
    omega
  have hget : (String.utf8EncodeChar c ++ bs)[j + 1]? = some rest[j] := by
    rw [hc, List.cons_append, List.getElem?_cons_succ, List.getElem?_append_left hj,
      List.getElem?_eq_getElem hj]
  rw [isBoundary_of_getElem? hget nofun, Decidable.not_not]
  exact hrest _ (List.getElem_mem hj)

/-- The boundaries of a text with one more character in front: its beginning, and those behind the
character. -/
theorem isBoundary_cons (c : Char) : isBoundary ((c :: cs).flatMap String.utf8EncodeChar) k = true ↔
    k = 0 ∨ c.utf8Size ≤ k ∧ isBoundary (cs.flatMap String.utf8EncodeChar) (k - c.utf8Size) = true := by
  rcases Nat.eq_zero_or_pos k with rfl | hk
  · simp
  rw [List.flatMap_cons, or_iff_right (Nat.ne_of_gt hk)]
  rcases Nat.lt_or_ge k c.utf8Size with hlt | hge
  · exact iff_of_false (not_isBoundary_inside hk hlt _) fun h => Nat.not_le_of_lt hlt h.1
  have hlen := String.length_utf8EncodeChar c
  have hget : (String.utf8EncodeChar c ++ cs.flatMap String.utf8EncodeChar)[k]? =
      (cs.flatMap String.utf8EncodeChar)[k - c.utf8Size]? := by
    rw [List.getElem?_append_right (by omega), hlen]
  rw [and_iff_right hge]
  cases hb : (cs.flatMap String.utf8EncodeChar)[k - c.utf8Size]? with
  | some b =>
    -- Alone, the rest begins at a boundary whatever its first byte is; behind a character the byte has to tell.
    rw [isBoundary_of_getElem? (hget.trans hb) fun h0 => absurd h0 (Nat.ne_of_gt hk),
      isBoundary_of_getElem? hb fun h0 => not_continues_head (h0 ▸ hb)]
  | none =>
    rw [isBoundary_of_le (List.getElem?_eq_none_iff.1 (hget.trans hb)),
      isBoundary_of_le (List.getElem?_eq_none_iff.1 hb), List.length_append]
    omega

/-- **The bytes alone tell where a text may be cut**: at the ends of its beginnings. -/
theorem isBoundary_iff : isBoundary (cs.flatMap String.utf8EncodeChar) k = true ↔
    ∃ ds, ds <+: cs ∧ (ds.flatMap String.utf8EncodeChar).length = k := by
  induction cs generalizing k with
  | nil =>
    simp only [List.prefix_nil, exists_eq_left, List.flatMap_nil, List.length_nil]
    rw [isBoundary_of_le (Nat.zero_le k), List.length_nil, eq_comm]
  | cons c cs ih =>
    simp only [isBoundary_cons, ih, List.prefix_cons_iff]
    constructor
    · rintro (rfl | ⟨hle, ds, hds, hlen⟩)
      · exact ⟨[], .inl rfl, rfl⟩
      · refine ⟨c :: ds, .inr ⟨ds, rfl, hds⟩, ?_⟩
        rw [List.flatMap_cons, List.length_append, hlen, String.length_utf8EncodeChar]
        omega
    · rintro ⟨-, rfl | ⟨ds, rfl, hds⟩, rfl⟩
      · exact .inl rfl
      · rw [List.flatMap_cons, List.length_append, String.length_utf8EncodeChar]
        exact .inr ⟨by omega, ds, hds, by omega⟩

/-! ### The search backwards -/

/-- The last boundary up to a place, looked for backwards. There is none if the search went on beyond the first
byte. -/
def boundaryBack? (bs : List UInt8) : Nat → Option Nat
  | 0 => if isBoundary bs 0 then some 0 else none
  | k + 1 => if isBoundary bs (k + 1) then some (k + 1) else boundaryBack? bs k

/-- **The search always stops, at the last boundary up to the place.** The beginning of the bytes is a boundary,
so it is never left. -/
theorem isGreatest_boundaryBack (bs : List UInt8) (k : Nat) : ∃ stop, boundaryBack? bs k = some stop ∧
    IsGreatest {j | j ≤ k ∧ isBoundary bs j = true} stop := by
  induction k with
  | zero => exact ⟨0, rfl, ⟨Nat.le_refl 0, isBoundary_zero⟩, fun j hj => hj.1⟩
  | succ k ih =>
    by_cases hb : isBoundary bs (k + 1) = true
    · exact ⟨k + 1, if_pos hb, ⟨Nat.le_refl _, hb⟩, fun j hj => hj.1⟩
    · obtain ⟨stop, hstop, ⟨hle, hbound⟩, hmax⟩ := ih
      refine ⟨stop, (if_neg hb).trans hstop, ⟨Nat.le_succ_of_le hle, hbound⟩, fun j hj => ?_⟩
      have hne : j ≠ k + 1 := fun h => hb (h ▸ hj.2)
      exact hmax ⟨Nat.le_of_lt_succ (Nat.lt_of_le_of_ne hj.1 hne), hj.2⟩

/-! ### The longest beginning that fits -/

/-- A text that a slot may keep of another one: a beginning of it without NUL that fits the room. -/
structure Keepable (t : String) (room : Nat) (s : String) : Prop where
  isPrefix : s.toList <+: t.toList
  noNul : '\x00' ∉ s.toList
  fits : (bytes s).length ≤ room

/-- The part of a text before its first NUL. -/
def beforeNul (t : String) : String := String.ofList (t.toList.takeWhile (· ≠ '\x00'))

theorem toList_beforeNul (t : String) : (beforeNul t).toList = t.toList.takeWhile (· ≠ '\x00') :=
  String.toList_ofList

theorem toList_clip (t : String) (room : Nat) :
    (clip t room).toList = takeFitting room (beforeNul t).toList := by
  rw [clip, String.toList_ofList, toList_beforeNul]

/-- Every beginning that fits is a beginning of the longest. -/
theorem isPrefix_takeFitting (h : ds <+: cs) (hfit : (ds.flatMap String.utf8EncodeChar).length ≤ room) :
    ds <+: takeFitting room cs := by
  obtain ⟨rest, rfl⟩ := h
  rw [takeFitting_append hfit]
  exact List.prefix_append ds _

/-- A beginning without NUL ends before the first one. -/
theorem isPrefix_beforeNul (h : s.toList <+: t.toList) (hnul : '\x00' ∉ s.toList) :
    s.toList <+: (beforeNul t).toList := by
  obtain ⟨rest, hrest⟩ := h
  rw [toList_beforeNul, ← hrest, List.takeWhile_append_of_pos (ne_nul_of_notMem hnul)]
  exact List.prefix_append _ _

/-- **What is kept may be kept.** -/
theorem keepable_clip (t : String) (room : Nat) : Keepable t room (clip t room) :=
  ⟨clip_isPrefix t room, clip_noNul t room, length_bytes_clip_le t room⟩

namespace Keepable

/-- **No more may be kept**: whatever may be is a beginning of what is. -/
theorem isPrefix_clip (h : Keepable t room s) : s.toList <+: (clip t room).toList := by
  rw [toList_clip]
  exact isPrefix_takeFitting (isPrefix_beforeNul h.isPrefix h.noNul) h.fits

theorem length_le (h : Keepable t room s) : (bytes s).length ≤ (bytes (clip t room)).length :=
  (h.isPrefix_clip.flatMap _).length_le

/-- What may be kept and has all that may be kept for its beginnings is what is kept. -/
theorem eq_clip (h : Keepable t room s) (hmax : ∀ u, Keepable t room u → u.toList <+: s.toList) :
    s = clip t room := by
  have hlen := (hmax _ (keepable_clip t room)).length_le
  exact String.toList_inj.1 (h.isPrefix_clip.eq_of_length_le hlen)

end Keepable

/-- **Keeping some of what was kept** is keeping what fits the smaller room. -/
theorem clip_clip (t : String) (room room' : Nat) : clip (clip t room) room' = clip t (min room room') := by
  have hkept := keepable_clip t room
  have hkept' := keepable_clip (clip t room) room'
  have hle : (bytes (clip (clip t room) room')).length ≤ (bytes (clip t room)).length :=
    (hkept'.isPrefix.flatMap _).length_le
  refine Keepable.eq_clip ⟨hkept'.isPrefix.trans hkept.isPrefix, hkept'.noNul, ?_⟩ fun u hu => ?_
  · exact Nat.le_min.2 ⟨hle.trans hkept.fits, hkept'.fits⟩
  · have hu' : Keepable t room u := ⟨hu.isPrefix, hu.noNul, hu.fits.trans (Nat.min_le_left ..)⟩
    exact Keepable.isPrefix_clip ⟨hu'.isPrefix_clip, hu.noNul, hu.fits.trans (Nat.min_le_right ..)⟩

/-- The room that is left over is less than a character needs, if something was left out. -/
theorem room_lt_takeFitting (h : room < (cs.flatMap String.utf8EncodeChar).length) :
    room < ((takeFitting room cs).flatMap String.utf8EncodeChar).length + 4 := by
  induction cs generalizing room with
  | nil => simp at h
  | cons c cs ih =>
    have hsize := c.utf8Size_le_four
    unfold takeFitting
    split
    · next hle =>
      rw [List.flatMap_cons, List.length_append, String.length_utf8EncodeChar] at h ⊢
      have hrest : room - c.utf8Size < (cs.flatMap String.utf8EncodeChar).length := by omega
      have hleft := ih hrest
      omega
    · next hgt =>
      rw [List.flatMap_nil, List.length_nil]
      omega

/-! ### The cut from the far end -/

/-- The bytes that a slot keeps of a text, found from the far end: all bytes before the first NUL if they fit the
room, and otherwise those up to the last boundary in the room. There are none if the search for it fails. -/
def cutBack? (t : String) (room : Nat) : Option (List UInt8) :=
  let kept := bytes (beforeNul t)
  if kept.length ≤ room then some kept else (boundaryBack? kept room).map kept.take

/-- What fits ends at the last boundary in the room. -/
theorem isGreatest_length_takeFitting (room : Nat) (cs : List Char) :
    IsGreatest {k | k ≤ room ∧ isBoundary (cs.flatMap String.utf8EncodeChar) k = true}
      ((takeFitting room cs).flatMap String.utf8EncodeChar).length := by
  refine ⟨⟨length_flatMap_takeFitting_le room cs, ?_⟩, ?_⟩
  · exact isBoundary_iff.2 ⟨_, takeFitting_isPrefix room cs, rfl⟩
  · rintro k ⟨hk, hb⟩
    obtain ⟨ds, hds, rfl⟩ := isBoundary_iff.1 hb
    exact ((isPrefix_takeFitting hds hk).flatMap _).length_le

/-- **Both ways to cut a text leave the same bytes**, so that the cut from the far end never fails. -/
theorem cutBack?_eq (t : String) (room : Nat) : cutBack? t room = some (bytes (clip t room)) := by
  unfold cutBack? bytes
  rw [toList_clip]
  generalize (beforeNul t).toList = cs
  dsimp only
  split
  · next hfit => rw [takeFitting_eq_self hfit]
  · next hlong =>
    obtain ⟨stop, hstop, hgreatest⟩ := isGreatest_boundaryBack (cs.flatMap String.utf8EncodeChar) room
    obtain rfl := hgreatest.unique (isGreatest_length_takeFitting room cs)
    have hprefix := (takeFitting_isPrefix room cs).flatMap String.utf8EncodeChar
    rw [hstop, Option.map_some, ← List.prefix_iff_eq_take.1 hprefix]

/-- **A slot keeps the longest part of a text that it may keep**, and the search from the far end finds it. If
something was cut off for want of room, fewer than four bytes of the room are left; what was kept may be cut
again, as if the smaller room had been there from the start; and a text without NUL that fits is kept whole. -/
theorem clip_longest (t : String) (room : Nat) :
    (Keepable t room (clip t room) ∧
      ∀ s, Keepable t room s → (bytes s).length ≤ (bytes (clip t room)).length) ∧
    cutBack? t room = some (bytes (clip t room)) ∧
    (room < (bytes (beforeNul t)).length → room < (bytes (clip t room)).length + 4) ∧
    (∀ room', clip (clip t room) room' = clip t (min room room')) ∧
    ('\x00' ∉ t.toList → (bytes t).length ≤ room → clip t room = t) := by
  refine ⟨⟨keepable_clip t room, fun s hs => hs.length_le⟩, cutBack?_eq t room, fun hlong => ?_,
    clip_clip t room, clip_eq_self⟩
  rw [bytes, toList_clip]
  exact room_lt_takeFitting hlong

/-- The room ends inside a character of four bytes, and before a NUL: all of the character is left out, so that
three bytes of the room stay free, and no more could. -/
theorem clip_longest_split :
    let t := "aß😀b\x00c"
    (Keepable t 6 "aß" ∧ 3 ≤ (bytes (clip t 6)).length) ∧ cutBack? t 6 = some [97, 195, 159] ∧
      (6 < (bytes (beforeNul t)).length ∧ 6 < (bytes (clip t 6)).length + 4) ∧
      clip (clip t 6) 2 = clip t 2 ∧ clip "aß" 3 = "aß" := by
  intro t
  have hs : Keepable t 6 "aß" := ⟨by decide, by decide, by decide⟩
  have hlong : 6 < (bytes (beforeNul t)).length := by decide
  have hbytes : bytes (clip t 6) = [97, 195, 159] := by decide
  obtain ⟨⟨-, hmax⟩, hback, hfull, hagain, -⟩ := clip_longest t 6
  have hwhole := (clip_longest "aß" 3).2.2.2.2
  exact ⟨⟨hs, hmax _ hs⟩, hbytes ▸ hback, ⟨hlong, hfull hlong⟩, hagain 2,
    hwhole (by decide) (by decide)⟩

end FixedArena.Text
