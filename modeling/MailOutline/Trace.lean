import MailOutline.Field.Basic

/-!
# What decoding reports

Decoding never fails. Where it drops or skips something it says so in an event, and a decoded value
comes with the events in the order in which they happened. An event that tells of one field carries
this field, as an implicit argument, since patterns on events look at the other arguments only.

Model of the events that `structure`, `within_limit`, `multipart`, `body_part`, `decode_extensions`,
`decode_attribute_pairs`, `decode_disposition`, `decode_address` and `decode_envelope` emit.

* `Event`: what may be reported, with its `level` and its `message`.
* `Traced`: a value with its events. Running one step after the other joins their events
  (`Traced.value_bind`, `Traced.events_bind`).
-/

namespace MailOutline

/-- How much an event matters. -/
inductive Level where
  /-- Expected in ordinary operation. -/
  | trace
  /-- Of interest when a result surprises. -/
  | debug
  /-- Something was lost. -/
  | warn
deriving DecidableEq, Repr

namespace Level

/-- The name of a level. -/
def name : Level → String
  | trace => "TRACE"
  | debug => "DEBUG"
  | warn => "WARN"

end Level

/-- Something that decoding reports. -/
inductive Event where
  /-- The field is no body structure, since it is not a list, or an empty one. -/
  | notAStructure {field : Field}
  /-- A structure at `depth` was left out, since no more than `maxDepth` is wanted. -/
  | tooDeep (depth maxDepth : Nat)
  /-- A body part of `len` elements has too few of them. -/
  | shortBody (len : Nat) (specifier : String)
  /-- A part of a multipart was left out. -/
  | droppedPart (specifier : String)
  /-- The extension with this name is decoded next, from the field. -/
  | extensionData (name : String) {field : Field}
  /-- So many elements follow the last known extension. -/
  | unknownExtensions (ignored : Nat)
  /-- An attribute list of `len` elements ends with a key that has no value. -/
  | oddAttributes (len : Nat)
  /-- A disposition of `len` elements, which is not two. -/
  | malformedDisposition (len : Nat)
  /-- The attributes of a disposition are neither a list nor absent. -/
  | dispositionAttributes
  /-- The field has too few elements for an address. -/
  | shortAddress {field : Field}
  /-- An envelope of `len` elements has too few of them. -/
  | shortEnvelope (len : Nat)
  /-- The date of an envelope has no known layout. -/
  | unknownDate (date : String)
deriving DecidableEq, Repr

namespace Event

/-- How much an event matters: a lost structure the most, then a date that could not be read. -/
def level : Event → Level
  | tooDeep .. => .warn
  | unknownDate _ => .debug
  | _ => .trace

/-- The wording of an event. -/
def message : Event → String
  | notAStructure => "body structure is not a non-empty list"
  | tooDeep .. => "body structure nested too deeply, truncating"
  | shortBody .. => "short body part"
  | droppedPart _ => "dropping undecodable part"
  | extensionData _ => "extension data"
  | unknownExtensions _ => "ignoring unknown extension data"
  | oddAttributes _ => "odd-length attribute list, dropping last"
  | malformedDisposition _ => "malformed disposition"
  | dispositionAttributes => "disposition attributes are not a list"
  | shortAddress => "short address structure"
  | shortEnvelope _ => "short envelope structure"
  | unknownDate _ => "unrecognized envelope date"

end Event

/-- A value, and the events that were reported on the way to it. -/
structure Traced (α : Type) where
  /-- The value. -/
  value : α
  /-- The events, in order. -/
  events : List Event
deriving DecidableEq, Repr

namespace Traced

variable {α β : Type}

instance : Monad Traced where
  pure a := ⟨a, []⟩
  bind x f :=
    let y := f x.value
    ⟨y.value, x.events ++ y.events⟩

/-- Reports an event. -/
def report (event : Event) : Traced Unit := ⟨(), [event]⟩

@[simp] theorem value_pure (a : α) : (pure a : Traced α).value = a := rfl

@[simp] theorem events_pure (a : α) : (pure a : Traced α).events = [] := rfl

@[simp] theorem value_bind (x : Traced α) (f : α → Traced β) :
    (x >>= f).value = (f x.value).value := rfl

@[simp] theorem events_bind (x : Traced α) (f : α → Traced β) :
    (x >>= f).events = x.events ++ (f x.value).events := rfl

@[simp] theorem events_report (event : Event) : (report event).events = [event] := rfl

instance : LawfulMonad Traced := LawfulMonad.mk' Traced
  (fun x => by cases x; simp [Functor.map])
  (fun _ _ => by simp [Bind.bind, Pure.pure])
  (fun _ _ _ => by simp [Bind.bind, List.append_assoc])

@[simp] theorem value_map (f : α → β) (x : Traced α) : (f <$> x).value = f x.value := rfl

@[simp] theorem events_map (f : α → β) (x : Traced α) : (f <$> x).events = x.events := by
  simp [Functor.map]

end Traced

end MailOutline
