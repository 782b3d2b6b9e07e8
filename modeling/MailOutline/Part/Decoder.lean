import MailOutline.Part.Extension

/-!
# Decoding a body structure

A body structure is a list. If its first element is a list, it is a multipart: the leading lists are
its parts, then come the subtype and the extension data. Any other list is a body, of at least seven
elements.

Parts are numbered from one, and the numbers on the way from the root to a part, with points between
them, are its specifier. That of a multipart has `TEXT` at the end. An embedded message starts anew,
and a message that is a single body is its part `1`.

Multiparts inside multiparts and embedded messages take a level each. Where there are none left, the
structure is left out and reported.

Model of `Decoder` and its configuration with `body_structure`, `structure`, `within_limit`,
`multipart` and `body_part`.

* `Decoder`: how many levels there are.
* `Decoder.structureAt?`: the part that a list at some depth denotes.
* `Decoder.part?`: the part that a field denotes. What is no list, or an empty one, has no part and
  is reported.
-/

namespace MailOutline

namespace Leaf

/-- The body with the attributes at its first seven positions. -/
def ofFixed (specifier mediaType subtype : String) (params : Params)
    (id description encoding : String) (size : UInt32) : Leaf :=
  { mediaType, subtype, params, id, description, encoding, size, specifier
    lineCount := none
    envelope := none
    md5 := none
    disposition := none
    language := none
    location := none }

/-- Whether the body is a text. -/
def isText (leaf : Leaf) : Bool := Text.sameLetters leaf.mediaType "text"

/-- Whether the body is a message. -/
def isMessage (leaf : Leaf) : Bool :=
  Text.sameLetters leaf.mediaType "message" && Text.sameLetters leaf.subtype "rfc822"

end Leaf

/-- How body structures are decoded. -/
structure Decoder where
  /-- How deep multiparts and embedded messages may nest below the root. -/
  maxDepth : Nat
deriving DecidableEq, Repr

namespace Decoder

/-- How deep structures may nest unless another limit is asked for. -/
def defaultMaxDepth : Nat := 32

/-- The decoder with the limit that is asked for, if there is one. -/
def build (maxDepth : Option Nat) : Decoder := ⟨maxDepth.getD defaultMaxDepth⟩

/-! ## Bodies -/

/-- The attributes of a body behind its seventh: those of its type, then the extension data. The
structure of an embedded message is read with `embedded`. -/
def leafTail (embedded : Field → Traced (Option Part)) (leaf : Leaf) (tail : List Field) :
    Traced Part := do
  match leaf.isText, leaf.isMessage, tail with
  | true, _, lines :: tail =>
    let leaf ← Extension.readAll Leaf.extensions tail { leaf with lineCount := lines.asNumber }
    return .leaf leaf none
  | false, true, envelope :: inner :: lines :: tail =>
    let envelope ← Envelope.ofField? envelope
    let inner ← embedded inner
    let leaf ← Extension.readAll Leaf.extensions tail
      { leaf with envelope, lineCount := lines.asNumber }
    return .leaf leaf inner
  | _, _, tail =>
    let leaf ← Extension.readAll Leaf.extensions tail leaf
    return .leaf leaf none

/-- The body that a list denotes. -/
def leaf? (embedded : Field → Traced (Option Part)) (specifier : String) :
    List Field → Traced (Option Part)
  | mediaType :: subtype :: params :: id :: description :: encoding :: size :: tail => do
    let params ← Params.ofFields params.asList
    let leaf := Leaf.ofFixed specifier mediaType.asText subtype.asText params
      id.asText description.asText encoding.asText size.asNumber
    some <$> leafTail embedded leaf tail
  | items => do
    .report (.shortBody items.length specifier)
    return none

/-! ## Multiparts -/

/-- Whether a list is a multipart: its first element is a list. -/
def isMultipart (items : List Field) : Bool := items.head?.any Field.isList

/-- The parts that some lists denote, numbered from `first` with `stem` in front of the number. What
denotes no part is left out and reported. -/
def parts (one : String → List Field → Traced (Option Part)) (stem : String) :
    (first : Nat) → List Field → Traced (List Part)
  | _, [] => return []
  | first, child :: rest => do
    let specifier := stem ++ Nat.repr first
    match ← one specifier child.asList with
    | some part =>
      let others ← parts one stem (first + 1) rest
      return part :: others
    | none =>
      .report (.droppedPart specifier)
      parts one stem (first + 1) rest

/-- The multipart that a list denotes, whose parts are read with `one`. -/
def multipart (one : String → List Field → Traced (Option Part)) (stem : String)
    (items : List Field) : Traced Part := do
  let children ← parts one stem 1 (items.takeWhile Field.isList)
  let behind := items.dropWhile Field.isList
  let info ← Extension.readAll Multipart.extensions behind.tail
    { subtype := (behind.head?.map Field.asText).getD ""
      params := none
      disposition := none
      language := none
      location := none
      specifier := stem ++ "TEXT" }
  return .multipart info children

/-! ## Structures -/

/-- The structure inside a field, which has to be a list that is not empty. -/
def inside (structure? : List Field → Traced (Option Part)) (field : Field) :
    Traced (Option Part) :=
  match field.asList with
  | [] => do
    .report (@Event.notAStructure field)
    return none
  | items => structure? items

/-- The part of a multipart that a list denotes. What lies a level deeper is read with `below`, for
specifiers that begin with its first argument. -/
def childWith? (below : String → List Field → Traced (Option Part)) (specifier : String)
    (child : List Field) : Traced (Option Part) :=
  if isMultipart child then below (specifier ++ ".") child
  else leaf? (inside (below "")) specifier child

/-- The part that a list at `depth` denotes, with `levels` levels left, the specifiers inside which
begin with `stem`. -/
def structureAt? (maxDepth : Nat) : (levels depth : Nat) → (stem : String) → List Field →
    Traced (Option Part)
  | 0, depth, _, _ => do
    .report (.tooDeep depth maxDepth)
    return none
  | levels + 1, depth, stem, items =>
    let below := structureAt? maxDepth levels (depth + 1)
    if isMultipart items then some <$> multipart (childWith? below) stem items
    else leaf? (inside (below "")) (stem ++ "1") items

/-- The part that a list denotes, at the depth that leaves `levels` levels. -/
def structure? (maxDepth levels : Nat) : (stem : String) → List Field → Traced (Option Part) :=
  structureAt? maxDepth levels (maxDepth + 1 - levels)

/-- The part that a field denotes. The root takes the first level. -/
def part? (decoder : Decoder) (field : Field) : Traced (Option Part) :=
  inside (structure? decoder.maxDepth (decoder.maxDepth + 1) "") field

end Decoder

end MailOutline
