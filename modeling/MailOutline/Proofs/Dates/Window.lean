import MailOutline.Proofs.Bounds.Dates

/-!
# How much of a date is looked at

The widest layout takes 31 bytes, so no more than these matter, even where the last of them lies
inside a character.

* `Text.bytesOf`: the bytes of characters. They begin like others exactly if the characters do
  (`Text.isPrefix_bytesOf_iff`).
* `Text.isPrefix_cut_iff`: which beginnings of a text a cut keeps. So a cut depends on as many bytes
  as it is wide (`Text.cut_congr`).
* `Timestamp.ofText?_window`: dates, and how a text is cut to the width of a layout.
-/

namespace MailOutline.Text

variable {front text other : List Char} {width : Nat}

/-! ## Characters and their bytes -/

/-- The UTF-8 bytes of characters. -/
def bytesOf (chars : List Char) : List UInt8 := bytes (String.ofList chars)

theorem bytesOf_cons (c : Char) (rest : List Char) :
    bytesOf (c :: rest) = String.utf8EncodeChar c ++ bytesOf rest := bytes_ofList_cons c rest

theorem bytesOf_append (front back : List Char) :
    bytesOf (front ++ back) = bytesOf front ++ bytesOf back := by
  unfold bytesOf
  rw [String.ofList_append, bytes_append]

theorem length_bytesOf (chars : List Char) : (bytesOf chars).length = sizeOfChars chars := by
  induction chars with
  | nil => rfl
  | cons c rest ih =>
    rw [bytesOf_cons, List.length_append, ih, String.length_utf8EncodeChar]
    rfl

/-- **Bytes begin like others** exactly if the characters do: none stands for two characters. -/
theorem isPrefix_bytesOf_iff : bytesOf front <+: bytesOf text ↔ front <+: text := by
  constructor
  · rintro ⟨more, hmore⟩
    refine List.isPrefix_of_utf8Encode_append_eq_utf8Encode ⟨more.toArray⟩ (ByteArray.ext ?_)
    unfold bytesOf bytes at hmore
    rw [String.toByteArray_ofList, String.toByteArray_ofList] at hmore
    rw [ByteArray.data_append, ← Array.toList_inj, Array.toList_append, ← hmore]
  · rintro ⟨more, rfl⟩
    rw [bytesOf_append]
    exact List.prefix_append _ _

/-! ## Cuts -/

/-- **What a cut keeps**: the beginnings of the text that fit. -/
theorem isPrefix_cut_iff :
    front <+: cut width text ↔ front <+: text ∧ (bytesOf front).length ≤ width := by
  rw [length_bytesOf]
  constructor
  · intro h
    refine ⟨h.trans (cut_isPrefix width text), ?_⟩
    obtain ⟨more, hmore⟩ := h
    have hsize := size_cut_le width text
    rw [← hmore, Checked.sizeOfChars_append] at hsize
    omega
  · rintro ⟨hbegins, hfits⟩
    refine List.prefix_of_prefix_length_le hbegins (cut_isPrefix width text) ?_
    exact Nat.le_of_not_lt fun hlonger => Nat.not_lt.2 hfits (size_lt_of_isPrefix hbegins hlonger)

/-- **A cut depends on the bytes that it may keep**, and on no others. -/
theorem cut_congr {window : Nat} (hwidth : width ≤ window)
    (h : (bytesOf text).take window = (bytesOf other).take window) :
    cut width text = cut width other := by
  have hbegins : ∀ {front chars : List Char}, (bytesOf front).length ≤ width →
      (front <+: chars ↔ bytesOf front <+: (bytesOf chars).take window) := by
    intro front chars hfits
    rw [← isPrefix_bytesOf_iff, List.prefix_take_iff]
    exact ⟨fun hbegins => ⟨hbegins, Nat.le_trans hfits hwidth⟩, fun hbegins => hbegins.1⟩
  have hsame : ∀ front, front <+: cut width text ↔ front <+: cut width other := by
    intro front
    rw [isPrefix_cut_iff, isPrefix_cut_iff]
    exact and_congr_left fun hfits => by rw [hbegins hfits, hbegins hfits, h]
  exact ((hsame _).1 List.prefix_rfl).eq_of_length_le ((hsame _).2 List.prefix_rfl).length_le

end MailOutline.Text

namespace MailOutline.Calendar

open Text (bytesOf)

/-! ## Dates -/

theorem Layout.width_le {layout : Layout} (h : layout ∈ Layout.all) : layout.width ≤ 31 := by
  revert layout
  decide

/-- A layout looks at no more than its width. -/
theorem Layout.read?_congr {layout : Layout} {text other : List Char}
    (h : Text.cut layout.width text = Text.cut layout.width other) :
    layout.read? text = layout.read? other := by
  unfold Layout.read?
  rw [h]

/-- **A date shows in 31 bytes.** Two texts whose forms without the white space around them begin
with the same 31 bytes, or are the same shorter ones, denote the same date. And where a text is cut,
from the end of a width backwards to a place between two characters, its longest beginning is left
that takes at most so many bytes. -/
theorem Timestamp.ofText?_window :
    (∀ text other : String,
      (bytesOf (Text.trim text.toList)).take 31 = (bytesOf (Text.trim other.toList)).take 31 →
        Timestamp.ofText? text = Timestamp.ofText? other) ∧
    ∀ width text, Checked.truncate? width text = some (Text.cut width text) ∧
      Text.cut width text <+: text ∧ (bytesOf (Text.cut width text)).length ≤ width ∧
      ∀ front, front <+: text → (bytesOf front).length ≤ width → front <+: Text.cut width text := by
  constructor
  · intro text other h
    have hreads : (Layout.all.map fun layout => layout.read? (Text.trim text.toList)) =
        Layout.all.map fun layout => layout.read? (Text.trim other.toList) :=
      List.map_congr_left fun layout hlayout =>
        Layout.read?_congr (Text.cut_congr (Layout.width_le hlayout) h)
    have hfirst : ∀ text : String, Timestamp.ofText? text =
        (Layout.all.map fun layout => layout.read? (Text.trim text.toList)).findSome? id := by
      intro text
      rw [List.findSome?_map]
      rfl
    rw [hfirst, hfirst, hreads]
  · intro width text
    refine ⟨Checked.truncate?_eq width text, Text.cut_isPrefix width text, ?_, ?_⟩
    · rw [Text.length_bytesOf]
      exact Text.size_cut_le width text
    · exact fun front hbegins hfits => Text.isPrefix_cut_iff.2 ⟨hbegins, hfits⟩

/-- A date of 30 bytes, with a day of one digit. -/
def shortDay : List Char := "Mon, 2 Jan 2006 15:04:05 -0700".toList

/-- Of a character of two bytes behind this date, the first one is looked at. -/
theorem take_bytesOf_shortDay {c : Char} {first second : UInt8}
    (h : String.utf8EncodeChar c = [first, second]) (rest : List Char) :
    (bytesOf (shortDay ++ c :: rest)).take 31 = bytesOf shortDay ++ [first] := by
  have hlength : (bytesOf shortDay).length = 30 := by
    rw [Text.length_bytesOf]
    rfl
  rw [Text.bytesOf_append, Text.bytesOf_cons, h, List.take_append, hlength]
  exact congrArg (· ++ [first]) (List.take_of_length_le (by rw [hlength]; decide))

/-- The letters `é` and `è` have the same first byte. Behind a date of 30 bytes it makes no
difference which of them stands there, and a cut to 31 bytes leaves it out. -/
theorem Timestamp.ofText?_window_accent :
    Timestamp.ofText? (String.ofList (shortDay ++ ['é'])) =
        Timestamp.ofText? (String.ofList (' ' :: shortDay ++ ['è', '!'])) ∧
      Text.cut 31 (shortDay ++ ['é']) = shortDay ∧
      ∀ front, front <+: shortDay ++ ['é'] → (bytesOf front).length ≤ 31 → front <+: shortDay := by
  obtain ⟨hdates, hcuts⟩ := Timestamp.ofText?_window
  have htrim : Text.trim (String.ofList (shortDay ++ ['é'])).toList = shortDay ++ ['é'] := by
    rw [String.toList_ofList]
    rfl
  have htrim' : Text.trim (String.ofList (' ' :: shortDay ++ ['è', '!'])).toList =
      shortDay ++ ['è', '!'] := by
    rw [String.toList_ofList]
    rfl
  have hcut : Text.cut 31 (shortDay ++ ['é']) = shortDay := rfl
  have hlongest := (hcuts 31 (shortDay ++ ['é'])).2.2.2
  rw [hcut] at hlongest
  refine ⟨hdates _ _ ?_, hcut, hlongest⟩
  rw [htrim, htrim', take_bytesOf_shortDay rfl, take_bytesOf_shortDay rfl]
  rfl

end MailOutline.Calendar
