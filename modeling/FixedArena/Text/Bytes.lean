/-!
Texts as bytes: the UTF-8 image of a text and its reading back, the byte order, and the part of a
text that a slot of a given length can keep.

Main facts:
* `ofBytes?_bytes`: a text is read back from its image;
* `bytes_append`: the image of a concatenation is the concatenation of the images;
* `length_bytes_clip_le`, `clip_isPrefix`, `clip_noNul`: what a slot keeps is a prefix that fits it.
-/

namespace FixedArena.Text

/-! ### The image of a text -/

/-- The UTF-8 bytes of a text. -/
def bytes (t : String) : List UInt8 := t.toList.flatMap String.utf8EncodeChar

/-- The text with the given image, if the bytes are the image of one. -/
def ofBytes? (bs : List UInt8) : Option String := String.fromUTF8? bs.toByteArray

/-- The bytewise order of two images. -/
def compareBytes : List UInt8 → List UInt8 → Ordering
  | [], [] => .eq
  | [], _ :: _ => .lt
  | _ :: _, [] => .gt
  | a :: as, b :: bs => (compare a b).then (compareBytes as bs)

theorem toByteArray_bytes (t : String) : (bytes t).toByteArray = t.toByteArray := by
  rw [bytes, ← List.utf8Encode, String.utf8Encode_toList]

theorem ofBytes?_bytes (t : String) : ofBytes? (bytes t) = some t := by
  unfold ofBytes?
  rw [toByteArray_bytes]
  simp only [String.fromUTF8?, Option.dite_none_right_eq_some]
  exact ⟨t.isValidUTF8, rfl⟩

theorem bytes_append (s t : String) : bytes (s ++ t) = bytes s ++ bytes t := by
  simp [bytes]

theorem bytes_empty : bytes "" = [] := by
  simp [bytes]

/-! ### What fits a slot -/

/-- The longest prefix whose image has at most `room` bytes. -/
def takeFitting : Nat → List Char → List Char
  | _, [] => []
  | room, c :: cs => if c.utf8Size ≤ room then c :: takeFitting (room - c.utf8Size) cs else []

/-- What a slot with room for `room` bytes keeps of a text: the text up to its first NUL, cut
after the last character that still fits whole. -/
def clip (t : String) (room : Nat) : String :=
  String.ofList (takeFitting room (t.toList.takeWhile (· ≠ '\x00')))

theorem takeFitting_isPrefix (room : Nat) (cs : List Char) : takeFitting room cs <+: cs := by
  induction cs generalizing room with
  | nil => simp [takeFitting]
  | cons c cs ih =>
    unfold takeFitting
    split
    · exact List.cons_prefix_cons.2 ⟨rfl, ih _⟩
    · exact List.nil_prefix

theorem length_flatMap_takeFitting_le (room : Nat) (cs : List Char) :
    ((takeFitting room cs).flatMap String.utf8EncodeChar).length ≤ room := by
  induction cs generalizing room with
  | nil => simp [takeFitting]
  | cons c cs ih =>
    unfold takeFitting
    split
    · next h =>
      have := ih (room - c.utf8Size)
      simp only [List.flatMap_cons, List.length_append, String.length_utf8EncodeChar]
      omega
    · simp

theorem clip_isPrefix (t : String) (room : Nat) : (clip t room).toList <+: t.toList := by
  simp only [clip, String.toList_ofList]
  exact (takeFitting_isPrefix _ _).trans <| List.takeWhile_prefix _

theorem clip_noNul (t : String) (room : Nat) : '\x00' ∉ (clip t room).toList := by
  intro h
  simp only [clip, String.toList_ofList] at h
  have hall := List.all_takeWhile (p := fun c => decide (c ≠ '\x00')) (l := t.toList)
  have := List.all_eq_true.1 hall _ ((takeFitting_isPrefix _ _).subset h)
  simp at this

theorem length_bytes_clip_le (t : String) (room : Nat) : (bytes (clip t room)).length ≤ room := by
  simp only [bytes, clip, String.toList_ofList]
  exact length_flatMap_takeFitting_le _ _

end FixedArena.Text
