import MailOutline.Attribute.Params

/-!
# Dispositions and languages

A disposition tells whether a part is to be shown or to be saved, and under which file name. A
language is told by a list of tags.

Model of `Disposition`, `decode_disposition` and `decode_language`.

* `Disposition.isAttachment`: whether the part is to be saved.
* `Disposition.ofFields?`: decodes the pair of a kind and an attribute list. Of `NIL` and the empty
  list there is nothing to decode; every other list that is not such a pair is reported
  (`Disposition.reported_of_ofFields?_eq_none`).
* `languagesOf?`: the language tags of a field, one for each element of a list. A single tag may
  stand without a list; no tag at all is written as the absent value or as an empty string.
-/

namespace MailOutline

/-! ## Dispositions -/

/-- How a part is to be presented. -/
structure Disposition where
  /-- The kind, such as `attachment` or `inline`, as it was written. -/
  kind : String
  /-- The attributes, such as `filename`. -/
  attributes : Params
deriving DecidableEq, Repr, Inhabited

namespace Disposition

/-- Whether the part is to be saved, not shown. -/
def isAttachment (disposition : Disposition) : Bool :=
  Text.sameLetters disposition.kind "attachment"

/-- The disposition that a list of a kind and attributes denotes. -/
def ofFields? : List Field → Traced (Option Disposition)
  | [] => return none
  | [kind, attributes] => do
    if attributes.isList || attributes.isNil then
      let params ← Params.ofFields attributes.asList
      return some ⟨kind.asText, params⟩
    else
      .report .dispositionAttributes
      return none
  | items => do
    .report (.malformedDisposition items.length)
    return none

theorem reported_of_ofFields?_eq_none {items : List Field} (hne : items ≠ [])
    (h : (ofFields? items).value = none) :
    (ofFields? items).events = [.dispositionAttributes] ∨
      (ofFields? items).events = [.malformedDisposition items.length] := by
  unfold ofFields? at h ⊢
  split at h
  · exact absurd rfl hne
  · split at h
    · simp at h
    next hl => simp [hl]
  · simp

end Disposition

/-! ## Languages -/

/-- The language tags that a field denotes. -/
def languagesOf? : Field → Option (List String)
  | .list items => some (items.map Field.asText)
  | field => if field.asText = "" then none else some [field.asText]

end MailOutline
