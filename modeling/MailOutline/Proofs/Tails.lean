import MailOutline.Proofs.Containment

/-!
# Extension data may stop anywhere and may go on

The extension data of a part may be cut off behind any of its attributes, and more of it may be sent
than is known. What is cut off is absent from the part, and nothing else changes; what stands behind
the last known attribute changes nothing.

* `Leaf.keep`, `Multipart.keep`, `Part.keep`: a part with the first attributes of its extension data
  only. This is what a tail that is cut off gives (`Leaf.extend_take`, `Multipart.extend_take`).
* `Decoder.tailStart`: where the extension data begins, which depends on the type and, for texts and
  messages, on the length.
* `Decoder.OpenEnded`: what is claimed of a list and one way to decode it. Bodies and multiparts
  have it (`Decoder.openEnded_leaf?`, `Decoder.openEnded_multipart`), so it holds at the root and
  for the parts of a multipart (`Decoder.part?_openEnded`).
-/

namespace MailOutline

variable {α : Type} {tail : List Field}

/-- What is read at a position of a tail that is cut off, where there is nothing by default. -/
theorem getD_take (read : Field → Option α) (tail : List Field) (count i : Nat) :
    ((tail.take count)[i]?.map read).getD none =
      if i < count then (tail[i]?.map read).getD none else none := by
  rw [List.getElem?_take]
  split <;> rfl

/-! ## Bodies -/

namespace Leaf

variable {leaf : Leaf}

/-- The body with the first `count` attributes of its extension data, and without the others. -/
def keep (count : Nat) (leaf : Leaf) : Leaf :=
  { leaf with
    md5 := if 0 < count then leaf.md5 else none
    disposition := if 1 < count then leaf.disposition else none
    language := if 2 < count then leaf.language else none
    location := if 3 < count then leaf.location else none }

/-- **A tail that is cut off** gives the attributes in front of the cut. -/
theorem extend_take (h : leaf.keep 0 = leaf) (tail : List Field) (count : Nat) :
    leaf.extend (tail.take count) = (leaf.extend tail).keep count := by
  have hmd5 : leaf.md5 = none := (congrArg md5 h).symm
  have hdisposition : leaf.disposition = none := (congrArg disposition h).symm
  have hlanguage : leaf.language = none := (congrArg language h).symm
  have hlocation : leaf.location = none := (congrArg location h).symm
  simp only [extend, keep, hmd5, hdisposition, hlanguage, hlocation, getD_take]

/-- Behind the location there is nothing to be read. -/
theorem extend_append (leaf : Leaf) (h : 4 ≤ tail.length) (more : List Field) :
    leaf.extend (tail ++ more) = leaf.extend tail := by
  have hget (i : Nat) (hi : i < 4) : (tail ++ more)[i]? = tail[i]? :=
    List.getElem?_append_left (Nat.lt_of_lt_of_le hi h)
  simp only [extend, hget 0 (by decide), hget 1 (by decide), hget 2 (by decide),
    hget 3 (by decide)]

end Leaf

/-! ## Multiparts -/

namespace Multipart

variable {multipart : Multipart}

/-- The multipart with the first `count` attributes of its extension data, and without the
others. -/
def keep (count : Nat) (multipart : Multipart) : Multipart :=
  { multipart with
    params := if 0 < count then multipart.params else none
    disposition := if 1 < count then multipart.disposition else none
    language := if 2 < count then multipart.language else none }

/-- **A tail that is cut off** gives the attributes in front of the cut. -/
theorem extend_take (h : multipart.keep 0 = multipart) (tail : List Field) (count : Nat) :
    multipart.extend (tail.take count) = (multipart.extend tail).keep count := by
  have hparams : multipart.params = none := (congrArg params h).symm
  have hdisposition : multipart.disposition = none := (congrArg disposition h).symm
  have hlanguage : multipart.language = none := (congrArg language h).symm
  simp only [extend, keep, hparams, hdisposition, hlanguage, getD_take]

/-- Behind the language there is nothing to be read. -/
theorem extend_append (multipart : Multipart) (h : 3 ≤ tail.length) (more : List Field) :
    multipart.extend (tail ++ more) = multipart.extend tail := by
  have hget (i : Nat) (hi : i < 3) : (tail ++ more)[i]? = tail[i]? :=
    List.getElem?_append_left (Nat.lt_of_lt_of_le hi h)
  simp only [extend, hget 0 (by decide), hget 1 (by decide), hget 2 (by decide)]

/-- The subtype is not part of the tail. -/
theorem ofBehind_take (specifier : String) (behind : List Field) (count : Nat) :
    ofBehind specifier (behind.take (count + 1)) = (ofBehind specifier behind).keep count := by
  cases behind with
  | nil => rw [List.take_nil, ofBehind, List.tail_nil, ← extend_take rfl, List.take_nil]
  | cons subtype tail => exact extend_take rfl tail count

theorem ofBehind_append (specifier : String) {behind : List Field} (h : 4 ≤ behind.length)
    (more : List Field) :
    ofBehind specifier (behind ++ more) = ofBehind specifier behind := by
  cases behind with
  | nil => exact absurd h (by decide)
  | cons subtype tail => exact extend_append _ (Nat.le_of_succ_le_succ h) more

end Multipart

/-- The part with the first `count` attributes of its extension data, and without the others. -/
def Part.keep (count : Nat) : Part → Part
  | leaf info embedded => leaf (info.keep count) embedded
  | multipart info parts => multipart (info.keep count) parts

namespace Decoder

variable {embedded : Field → Traced (Option Part)} {leaf : Leaf} {items : List Field} {k : Nat}

/-! ## Where the extension data begins -/

/-- The position of the first extension data of a body whose list has `length` elements: behind the
lines of a text or of a message, if its list comes to them, and else behind the size. -/
def bodyTailStart (mediaType subtype : String) (length : Nat) : Nat :=
  if Text.sameLetters mediaType "text" ∧ 8 ≤ length then 8
  else if (Text.sameLetters mediaType "message" && Text.sameLetters subtype "rfc822") ∧
    10 ≤ length then 10
  else 7

theorem bodyTailStart_text {length : Nat} (h : leaf.isText = true ∧ 8 ≤ length) :
    bodyTailStart leaf.mediaType leaf.subtype length = 8 := if_pos h

theorem bodyTailStart_message {length : Nat} (h : leaf.isMessage = true ∧ 10 ≤ length) :
    bodyTailStart leaf.mediaType leaf.subtype length = 10 := by
  have htext : ¬(leaf.isText = true ∧ 8 ≤ length) := fun ht =>
    Bool.false_ne_true ((Leaf.isText_of_isMessage h.1).symm.trans ht.1)
  exact (if_neg htext).trans (if_pos h)

theorem bodyTailStart_plain {length : Nat} (ht : ¬(leaf.isText = true ∧ 8 ≤ length))
    (hm : ¬(leaf.isMessage = true ∧ 10 ≤ length)) :
    bodyTailStart leaf.mediaType leaf.subtype length = 7 :=
  (if_neg ht).trans (if_neg hm)

theorem seven_le_bodyTailStart (mediaType subtype : String) (length : Nat) :
    7 ≤ bodyTailStart mediaType subtype length := by
  unfold bodyTailStart
  repeat' split
  all_goals decide

/-- The position of the first extension data in a list: in a multipart, behind the parts and the
subtype. -/
def tailStart (items : List Field) : Nat :=
  if isMultipart items then (items.takeWhile Field.isList).length + 1
  else bodyTailStart ((items[0]?.map Field.asText).getD "") ((items[1]?.map Field.asText).getD "")
    items.length

/-- The number of attributes that extension data may hold. -/
def tailLimit (items : List Field) : Nat := if isMultipart items then 3 else 4

/-! ## Bodies -/

/-- **A body that is cut off** in its extension data has the attributes in front of the cut. -/
theorem value_leafTail_take (h : leaf.keep 0 = leaf)
    (hk : bodyTailStart leaf.mediaType leaf.subtype (tail.length + 7) ≤ k + 7) :
    (leafTail embedded leaf (tail.take k)).value = (leafTail embedded leaf tail).value.keep
      (k + 7 - bodyTailStart leaf.mediaType leaf.subtype (tail.length + 7)) := by
  by_cases ht : leaf.isText = true ∧ 8 ≤ tail.length + 7
  · rw [bodyTailStart_text ht] at hk ⊢
    obtain ⟨htext, hlength⟩ := ht
    match tail, hlength, k, hk with
    | lines :: rest, _, k + 1, _ =>
      rw [List.take_succ_cons, value_leafTail_text htext, value_leafTail_text htext,
        Leaf.extend_take (congrArg (fun leaf => { leaf with lineCount := some lines.asNumber }) h)]
      rfl
  · by_cases hm : leaf.isMessage = true ∧ 10 ≤ tail.length + 7
    · rw [bodyTailStart_message hm] at hk ⊢
      obtain ⟨hmessage, hlength⟩ := hm
      match tail, hlength, k, hk with
      | envelope :: inner :: lines :: rest, _, k + 3, _ =>
        simp only [List.take_succ_cons, value_leafTail_message hmessage]
        rw [Leaf.extend_take (congrArg (fun leaf => { leaf with
          envelope := (Envelope.ofField? envelope).value
          lineCount := some lines.asNumber }) h)]
        rfl
    · have hlength : (tail.take k).length ≤ tail.length := List.length_take_le' ..
      rw [bodyTailStart_plain ht hm, value_leafTail_short ht hm, value_leafTail_short
        (fun hcut => ht ⟨hcut.1, by omega⟩) (fun hcut => hm ⟨hcut.1, by omega⟩),
        Leaf.extend_take h]
      rfl

/-- **A body that goes on** behind its location is the same body. -/
theorem value_leafTail_append
    (h : bodyTailStart leaf.mediaType leaf.subtype (tail.length + 7) + 4 ≤ tail.length + 7)
    (more : List Field) :
    (leafTail embedded leaf (tail ++ more)).value = (leafTail embedded leaf tail).value := by
  by_cases ht : leaf.isText = true ∧ 8 ≤ tail.length + 7
  · rw [bodyTailStart_text ht] at h
    match tail, h with
    | lines :: rest, h =>
      rw [List.cons_append, value_leafTail_text ht.1, value_leafTail_text ht.1,
        Leaf.extend_append _ (by simp only [List.length_cons] at h; omega)]
  · by_cases hm : leaf.isMessage = true ∧ 10 ≤ tail.length + 7
    · rw [bodyTailStart_message hm] at h
      match tail, h with
      | envelope :: inner :: lines :: rest, h =>
        simp only [List.cons_append, value_leafTail_message hm.1]
        rw [Leaf.extend_append _ (by simp only [List.length_cons] at h; omega)]
    · -- A text or a message of this length would have its lines.
      rw [bodyTailStart_plain ht hm] at h
      have htext : leaf.isText = false := Bool.eq_false_iff.2 fun htext => ht ⟨htext, by omega⟩
      have hmessage : leaf.isMessage = false :=
        Bool.eq_false_iff.2 fun hmessage => hm ⟨hmessage, by omega⟩
      rw [value_leafTail_basic htext hmessage, value_leafTail_basic htext hmessage,
        Leaf.extend_append _ (by omega)]

/-! ## Either kind of part -/

/-- **The extension data may stop anywhere and may go on**, for one list and one way to decode it:
cut off behind the start of the tail, the list gives the same part with the attributes in front of
the cut, and with more elements behind all known attributes it gives the same part. No multipart has
a location. -/
structure OpenEnded (decode : List Field → Option Part) (items : List Field) (part : Part) :
    Prop where
  decoded : decode items = some part
  cut : ∀ k, tailStart items ≤ k → decode (items.take k) = some (part.keep (k - tailStart items))
  surplus : tailStart items + tailLimit items ≤ items.length →
    ∀ more, decode (items ++ more) = some part
  location : ∀ info parts, part = .multipart info parts → info.location = none

/-- Two ways to decode need to agree only on lists of the same kind. -/
theorem OpenEnded.congr {decode other : List Field → Option Part} {part : Part}
    (h : OpenEnded decode items part) (hne : items ≠ [])
    (heq : ∀ list, isMultipart list = isMultipart items → other list = decode list) :
    OpenEnded other items part where
  decoded := (heq items rfl).trans h.decoded
  cut k hk := by
    have hpos : 0 < tailStart items := by
      unfold tailStart
      split
      · exact Nat.succ_pos _
      · exact Nat.lt_of_lt_of_le (by decide) (seven_le_bodyTailStart ..)
    refine (heq _ ?_).trans (h.cut k hk)
    rw [isMultipart, List.head?_take, if_neg (by omega), isMultipart]
  surplus hlength more := by
    refine (heq _ ?_).trans (h.surplus hlength more)
    cases items with
    | nil => exact absurd rfl hne
    | cons first rest => rfl
  location := h.location

theorem openEnded_leaf? (embedded : Field → Traced (Option Part)) (specifier : String)
    (h : isMultipart items = false) (hlength : 7 ≤ items.length) :
    ∃ part, OpenEnded (fun items => (leaf? embedded specifier items).value) items part := by
  match items, hlength with
  | mediaType :: subtype :: params :: id :: description :: encoding :: size :: tail, _ =>
    let leaf := Leaf.ofFixed specifier mediaType.asText subtype.asText
      (Params.ofPairs (Params.pairsOf params.asList)) id.asText description.asText encoding.asText
      size.asNumber
    have hstart : tailStart (mediaType :: subtype :: params :: id :: description :: encoding ::
        size :: tail) = bodyTailStart leaf.mediaType leaf.subtype (tail.length + 7) := by
      rw [tailStart, h, if_neg Bool.false_ne_true]
      rfl
    have hlimit : tailLimit (mediaType :: subtype :: params :: id :: description :: encoding ::
        size :: tail) = 4 := by
      rw [tailLimit, h, if_neg Bool.false_ne_true]
    refine ⟨(leafTail embedded leaf tail).value, value_leaf?_cons .., ?_, ?_, ?_⟩
    · intro k hk
      rw [hstart] at hk ⊢
      have hseven := seven_le_bodyTailStart leaf.mediaType leaf.subtype (tail.length + 7)
      obtain ⟨j, rfl⟩ : ∃ j, k = j + 7 := ⟨k - 7, by omega⟩
      exact (value_leaf?_cons ..).trans (congrArg some (value_leafTail_take rfl hk))
    · intro hlength more
      rw [hstart, hlimit] at hlength
      exact (value_leaf?_cons ..).trans (congrArg some (value_leafTail_append hlength more))
    · intro info parts heq
      obtain ⟨info, inner, hleaf, -⟩ := value_leafTail_eq_leaf embedded leaf tail
      rw [hleaf] at heq
      cases heq

theorem openEnded_multipart (maxDepth levels : Nat) (stem : String)
    (h : isMultipart items = true)
    (hlength : (items.takeWhile Field.isList).length < items.length) :
    ∃ part, OpenEnded (fun items => (structure? maxDepth (levels + 1) stem items).value) items
      part := by
  have hstart : tailStart items = (items.takeWhile Field.isList).length + 1 := if_pos h
  have hlimit : tailLimit items = 3 := if_pos h
  obtain ⟨lists, behind, rfl, htake, hne, hlists, hbehind⟩ := exists_append_of_isMultipart h
  rw [htake] at hlength hstart
  have hsubtype : behind ≠ [] := by
    rintro rfl
    simp at hlength
  refine ⟨_, value_structure?_append hne hlists hbehind, ?_, ?_, ?_⟩
  · intro k hk
    rw [hstart] at hk ⊢
    obtain ⟨j, rfl⟩ : ∃ j, k = lists.length + (j + 1) := ⟨k - lists.length - 1, by omega⟩
    have hcut : isMultipart (behind.take (j + 1)) = false := by
      rw [isMultipart, List.head?_take, if_neg (Nat.succ_ne_zero j)]
      exact hbehind
    rw [List.take_length_add_append, value_structure?_append hne hlists hcut,
      Multipart.ofBehind_take, ← Nat.add_assoc, Nat.add_right_comm, Nat.add_sub_cancel_left]
    rfl
  · intro hlong more
    rw [hstart, hlimit, List.length_append] at hlong
    have hmore : isMultipart (behind ++ more) = false := by
      cases behind with
      | nil => exact absurd rfl hsubtype
      | cons subtype rest => exact hbehind
    rw [List.append_assoc, value_structure?_append hne hlists hmore,
      Multipart.ofBehind_append _ (by omega)]
  · intro info parts heq
    cases heq
    rfl

/-- A body at the root is decoded as a body whose specifier is `1`. -/
theorem value_part?_body (decoder : Decoder) (h : isMultipart items = false) :
    (decoder.part? (.list items)).value =
      (leaf? (inside (structure? decoder.maxDepth decoder.maxDepth "")) "1" items).value := by
  cases items with
  | nil => rfl
  | cons first rest =>
    rw [value_part?, Field.asList, if_neg (List.cons_ne_nil first rest)]
    exact value_structure?_leaf h

/-- **The extension data of a part may stop anywhere and may go on**, at the root and in a multipart
that may nest. -/
theorem part?_openEnded (hbody : isMultipart items = false → 7 ≤ items.length)
    (hmultipart : isMultipart items = true →
      (items.takeWhile Field.isList).length < items.length) :
    (∀ decoder : Decoder,
      ∃ part, OpenEnded (fun items => (decoder.part? (.list items)).value) items part) ∧
    ∀ (maxDepth levels : Nat) (specifier : String), (isMultipart items = true → 0 < levels) →
      ∃ part, OpenEnded (fun items => (child? maxDepth levels specifier items).value) items
        part := by
  cases h : isMultipart items with
  | false =>
    have hne : items ≠ [] := List.ne_nil_of_length_pos (Nat.lt_of_lt_of_le (by decide) (hbody h))
    refine ⟨fun decoder => ?_, fun maxDepth levels specifier _ => ?_⟩
    · obtain ⟨part, hpart⟩ := openEnded_leaf? _ "1" h (hbody h)
      exact ⟨part, hpart.congr hne fun list hlist => value_part?_body decoder (hlist.trans h)⟩
    · obtain ⟨part, hpart⟩ := openEnded_leaf? _ specifier h (hbody h)
      refine ⟨part, hpart.congr hne fun list hlist => ?_⟩
      rw [child?, hlist.trans h, if_neg Bool.false_ne_true]
  | true =>
    have hne := ne_nil_of_isMultipart h
    refine ⟨fun decoder => ?_, fun maxDepth levels specifier hlevels => ?_⟩
    · obtain ⟨part, hpart⟩ := openEnded_multipart _ _ "" h (hmultipart h)
      exact ⟨part, hpart.congr hne fun list hlist =>
        value_part?_list (ne_nil_of_isMultipart (hlist.trans h))⟩
    · obtain ⟨below, rfl⟩ := Nat.exists_eq_add_of_lt (hlevels rfl)
      obtain ⟨part, hpart⟩ := openEnded_multipart _ below (specifier ++ ".") h (hmultipart h)
      refine ⟨part, hpart.congr hne fun list hlist => ?_⟩
      rw [child?, hlist.trans h, if_pos rfl, Nat.zero_add]

/-- A text with all four attributes of its extension data and one that is not known. -/
def translatedFields : List Field :=
  [.atom "Text", .atom "plain", .nil, .nil, .nil, .atom "8bit", .number 12, .number 1,
    .atom "Q2hlY2s=", .list [.atom "inline", .nil], .list [.atom "en", .atom "fr"],
    .atom "letter.txt", .atom "surplus"]

/-- The text without its language and what follows, and with still more behind it; the forwarded
message with parameters behind the subtype, and without them. -/
theorem part?_openEnded_translated :
    (∃ part, ((Decoder.mk 0).part? (.list translatedFields)).value = some part ∧
      ((Decoder.mk 0).part? (.list (translatedFields.take 10))).value = some (part.keep 2) ∧
      ((Decoder.mk 0).part? (.list (translatedFields ++ [.nil]))).value = some part) ∧
    ∃ part, (child? 2 1 "2" (forwardFields ++ [.list [.atom "boundary", .atom "b"]])).value =
        some part ∧
      (child? 2 1 "2" forwardFields).value = some (part.keep 0) := by
  have htext : Text.sameLetters "Text" "text" = true := by
    rw [Text.sameLetters_iff_toList]
    decide
  have hbody : tailStart translatedFields = bodyTailStart "Text" "plain" 13 := if_neg (by decide)
  have hstart : tailStart translatedFields = 8 := hbody.trans (if_pos ⟨htext, by decide⟩)
  have hlimit : tailLimit translatedFields = 4 := if_neg (by decide)
  obtain ⟨hroot, -⟩ := @part?_openEnded translatedFields (fun _ => by decide)
    fun h => absurd h (by decide)
  obtain ⟨part, hpart⟩ := hroot (Decoder.mk 0)
  obtain ⟨-, hchild⟩ := @part?_openEnded
    (forwardFields ++ [.list [.atom "boundary", .atom "b"]]) (fun h => absurd h (by decide))
    fun _ => by decide
  obtain ⟨mixed, hmixed⟩ := hchild 2 1 "2" fun _ => by decide
  have hcut := hpart.cut 10
  have hlong := hpart.surplus
  rw [hstart] at hcut hlong
  rw [hlimit] at hlong
  exact ⟨⟨part, hpart.decoded, hcut (by decide), hlong (by decide) _⟩,
    mixed, hmixed.decoded, hmixed.cut 4 (by decide)⟩

end Decoder

end MailOutline
