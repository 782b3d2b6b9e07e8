import MailOutline.Proofs.Bounds.Reader
import MailOutline.Proofs.Bounds.Structure

/-!
# Nothing stops a program

The programs of `MailOutline.Checked` carry out every slice, index, sum and difference as a machine
does, and would stop at the first that cannot be carried out. Put together, the results about them
say that none ever stops, whatever it is given. There is memory enough for what it is given: the
bytes of a text and the values of a field can be counted by a word, and the calls inside each other
find room.

* `nothing_stops`: reading, decoding, looking up and parsing dates run to their end, with the answer
  and the events of the total functions.
-/

namespace MailOutline.Checked

open MailOutline.Calendar (Timestamp)

/-- **Nothing stops a program.** Any number of calls of a reader, with any limit, answer what the
total reader answers; and any field, list, key and text is decoded, looked up and read as the total
functions do. So every slice is in bounds, in a date between two characters, every index is that of
an element, and every sum and difference is a number of its type. -/
theorem nothing_stops :
    (∀ (input : List UInt8) (limit count : Nat), input.length < UInt64.size →
      calls input limit count 0 =
        some ((Reader.readMany count (Reader.ofBytes limit input)).map fun call =>
          (call.1, call.2.position))) ∧
    (∀ (maxDepth : Nat) (field : Field), field.count < UInt64.size →
      bodyStructure maxDepth field = liftM (Decoder.part? ⟨maxDepth⟩ field)) ∧
    (∀ field, envelope field = liftM (Envelope.ofField? field)) ∧
    (∀ field, address field = liftM (Address.ofField field)) ∧
    (∀ items, attributePairs items = liftM (Params.ofFields items)) ∧
    (∀ params key, valuesAt? params key = some (params.valuesOf key)) ∧
    (∀ items, disposition items = liftM (Disposition.ofFields? items)) ∧
    (∀ field, languages? field = some (languagesOf? field)) ∧
    ∀ text, parseDate? text = some (Timestamp.ofText? text) :=
  ⟨fun _ limit count hword => calls_eq_readMany limit count (Nat.zero_le _) hword,
    fun maxDepth _ hcount => bodyStructure_eq maxDepth hcount, envelope_eq, address_eq,
    attributePairs_eq, valuesAt?_eq, disposition_eq, languages?_eq, parseDate?_eq⟩

/-- A literal of the largest size there is, and one byte. -/
def hugeLiteral : List UInt8 :=
  [0x7B, 0x31, 0x38, 0x34, 0x34, 0x36, 0x37, 0x34, 0x34, 0x30, 0x37, 0x33, 0x37, 0x30, 0x39, 0x35,
    0x35, 0x31, 0x36, 0x31, 0x35, 0x7D, 0x0D, 0x0A, 0x78]

/-- A multipart with four elements of extension data, one more than there are names for. -/
def longTail : Field :=
  .list [.list [], .atom "mixed", .nil, .nil, .nil, .nil]

theorem whole_hugeLiteral : Field.whole 0 hugeLiteral = Field.fail .literalIncomplete [0x78] := by
  have hall : ((hugeLiteral.drop 1).take 20).all Field.isDigit = true := by decide
  have hhead : Field.literalHead (hugeLiteral.drop 1) =
      ((hugeLiteral.drop 1).take 20, false, hugeLiteral.drop 21) := rfl
  have hsize : Field.literalSize ((hugeLiteral.drop 1).take 20) = .ok 0xFFFFFFFFFFFFFFFF :=
    (Field.literalSize_eq_ok_iff hall).2 ⟨by decide, hall, by decide, rfl⟩
  have hread : Field.literal (hugeLiteral.drop 1) = Field.fail .literalIncomplete [0x78] := by
    unfold Field.literal
    rw [hhead]
    simp only [hsize]
    rfl
  have hvalue : Field.Reading.toStep (Field.value 0 0 (Field.skipSpace hugeLiteral)) =
      Field.fail .literalIncomplete [0x78] :=
    (Field.toStep_value_literal 0 0 (hugeLiteral.drop 1)).trans (by rw [hread]; rfl)
  rw [Field.whole_eq, hvalue]
  rfl

/-- The size of the literal is only compared with what is left, and the elements behind the last
known extension are counted. -/
theorem nothing_stops_extremes :
    hugeLiteral.length < UInt64.size ∧
      calls hugeLiteral 0 1 0 = some [(.error (.malformed 24 .literalIncomplete), 24)] ∧
      longTail.count < UInt64.size ∧
      bodyStructure 0 longTail = liftM (Decoder.part? ⟨0⟩ longTail) ∧
      (Decoder.part? ⟨0⟩ longTail).events =
        [.shortBody 0 "1", .droppedPart "1", @Event.extensionData "parameters" .nil,
          @Event.extensionData "disposition" .nil, @Event.extensionData "language" .nil,
          .unknownExtensions 1] := by
  obtain ⟨hcalls, hstructure, -⟩ := nothing_stops
  have hlength : hugeLiteral.length < UInt64.size := by decide
  have hcount : longTail.count < UInt64.size := by decide
  refine ⟨hlength, ?_, hcount, hstructure 0 longTail hcount, rfl⟩
  rw [hcalls hugeLiteral 0 1 hlength, Reader.readMany, Field.read_ofBytes, whole_hugeLiteral]
  rfl

end MailOutline.Checked
