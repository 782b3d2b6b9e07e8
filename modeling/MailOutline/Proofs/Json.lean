import MailOutline.Json.Part
import MailOutline.Proofs.Dates.Standard

/-!
# Values survive the way through JSON

Every value is read back from its JSON form as it was, whether or not decoding could produce it:
fields, parameters, dispositions, addresses, envelopes, bodies, multiparts and whole parts, however
deep they nest.

* `Json.members?_object`: a record is read by the names of its members, which are distinct.
* `Json.Restores`: a reader gets back what was written, alone, in an array (`Json.Restores.list`) or
  as a member that may be absent (`Json.Restores.optional`).
* `Json.depth_le_depthMembers`: what a value holds is not deeper. So the depth of a value is enough
  to read all of it.
* `Params.restores`, `Envelope.restores`, `Leaf.ofJson?_toJson`, `Multipart.ofJson?_toJson`: the
  records.
* `Field.readJson?_toJson`, `Part.readJson?_toJson`: values that nest, by induction.
* `Json.restores_all`: all of it together.
-/

namespace MailOutline

namespace Json

variable {α : Type} {read : Json → Option α} {write : α → Json}

/-! ## Members -/

/-- **A record is read by name.** -/
theorem members?_object {names : List String} {members : List (String × Json)}
    (hnames : members.map Prod.fst = names) (h : names.Nodup) :
    members? names (object members) = some (members.map fun member => some member.2) := by
  subst hnames
  rw [members?, List.map_map]
  refine congrArg some (List.map_congr_left fun member hmem => ?_)
  induction members with
  | nil => cases hmem
  | cons first rest ih =>
    obtain ⟨hnew, hrest⟩ := List.nodup_cons.1 h
    rw [Function.comp_apply, List.lookup_cons]
    rcases List.mem_cons.1 hmem with rfl | hmem
    · rw [beq_self_eq_true]
    · have hne : (member.1 == first.1) = false := by
        rw [beq_eq_false_iff_ne]
        intro heq
        exact hnew (heq ▸ List.mem_map_of_mem hmem)
      rw [hne]
      exact ih hrest hmem

/-- A step that finds a value goes on with it. -/
theorem bind_of_eq_some {β : Type} {x : Option α} {a : α} {f : α → Option β} {result : Option β}
    (hx : x = some a) (hf : f a = result) : (x >>= f) = result := by
  rw [hx, Option.bind_eq_bind, Option.bind_some, hf]

/-! ## Readers -/

/-- A reader gets back what was written. What is written is never null, which stands for absence. -/
structure Restores (read : Json → Option α) (write : α → Json) : Prop where
  read_write : ∀ a, read (write a) = some a
  ne_null : ∀ a, write a ≠ null

theorem restores_text : Restores text? text := ⟨text?_text, fun _ => nofun⟩

theorem restores_word : Restores word? ofWord := ⟨word?_ofWord, fun _ => nofun⟩

theorem Restores.list (h : Restores read write) : Restores (listOf? read) (ofList write) :=
  ⟨fun _ => listOf?_ofList fun a _ => h.read_write a, fun _ => nofun⟩

theorem Restores.required (h : Restores read write) (a : α) :
    required? read (some (write a)) = some a := h.read_write a

theorem Restores.optional (h : Restores read write) (value : Option α) :
    optional? read (some (ofOption write value)) = some value :=
  optional?_ofOption (fun a _ => h.read_write a) fun a _ => h.ne_null a

theorem optional?_some_of_ne_null {json : Json} (h : json ≠ null) :
    optional? read (some json) = (read json).map some := by
  cases json with
  | null => exact absurd rfl h
  | _ => rfl

/-! ## Depth -/

theorem depth_le_depthMembers {name : String} {value : Json} {members : List (String × Json)}
    (h : (name, value) ∈ members) : value.depth ≤ depthMembers members := by
  induction members with
  | nil => cases h
  | cons first rest ih =>
    obtain ⟨other, held⟩ := first
    rw [depthMembers]
    rcases List.mem_cons.1 h with heq | h
    · cases heq
      exact Nat.le_max_left ..
    · exact Nat.le_trans (ih h) (Nat.le_max_right ..)

theorem depth_ofVariant (name : String) (held : Json) :
    (ofVariant name held).depth = 1 + held.depth := by
  rw [ofVariant, depth, depthMembers, depthMembers, Nat.max_zero]

end Json

open Json (Restores bind_of_eq_some listOf?_ofList members?_object restores_text restores_word
  text?_text word?_ofWord)

/-! ## Records -/

theorem Params.restores : Restores ofJson? toJson where
  read_write params := by
    have hentry : Restores entryOfJson? entryToJson := by
      refine ⟨fun entry => ?_, fun _ => nofun⟩
      simp only [entryToJson, entryOfJson?, text?_text, restores_text.list.read_write,
        Option.bind_eq_bind, Option.bind_some, Option.pure_def]
    unfold ofJson? toJson
    refine bind_of_eq_some (members?_object rfl (by decide)) ?_
    exact bind_of_eq_some (hentry.list.required params.entries) rfl
  ne_null _ := nofun

theorem Disposition.restores : Restores ofJson? toJson where
  read_write disposition := by
    unfold ofJson? toJson
    refine bind_of_eq_some (members?_object rfl (by decide)) ?_
    refine bind_of_eq_some (restores_text.required disposition.kind) ?_
    exact bind_of_eq_some (Params.restores.required disposition.attributes) rfl
  ne_null _ := nofun

theorem Address.restores : Restores ofJson? toJson where
  read_write address := by
    unfold ofJson? toJson
    refine bind_of_eq_some (members?_object rfl (by decide)) ?_
    refine bind_of_eq_some (restores_text.required address.name) ?_
    refine bind_of_eq_some (restores_text.required address.route) ?_
    refine bind_of_eq_some (restores_text.required address.mailbox) ?_
    refine bind_of_eq_some (restores_text.required address.host) ?_
    exact bind_of_eq_some (restores_text.optional address.spec) rfl
  ne_null _ := nofun

theorem Calendar.Timestamp.restores : Restores ofJson? toJson where
  read_write stamp := by
    rw [toJson, ofJson?, text?_text, Option.bind_some, ofRfc3339?_toRfc3339]
  ne_null _ := nofun

theorem Envelope.restores : Restores ofJson? toJson where
  read_write envelope := by
    unfold ofJson? toJson
    refine bind_of_eq_some (members?_object rfl (by decide)) ?_
    refine bind_of_eq_some (Calendar.Timestamp.restores.optional envelope.date) ?_
    refine bind_of_eq_some (restores_text.required envelope.dateText) ?_
    refine bind_of_eq_some (restores_text.required envelope.subject) ?_
    refine bind_of_eq_some (Address.restores.list.required envelope.authors) ?_
    refine bind_of_eq_some (Address.restores.list.required envelope.sender) ?_
    refine bind_of_eq_some (Address.restores.list.required envelope.replyTo) ?_
    refine bind_of_eq_some (Address.restores.list.required envelope.recipients) ?_
    refine bind_of_eq_some (Address.restores.list.required envelope.cc) ?_
    refine bind_of_eq_some (Address.restores.list.required envelope.bcc) ?_
    refine bind_of_eq_some (restores_text.required envelope.inReplyTo) ?_
    exact bind_of_eq_some (restores_text.required envelope.messageId) rfl
  ne_null _ := nofun

theorem PartKind.restores : Restores ofJson? toJson where
  read_write kind := by cases kind <;> rfl
  ne_null _ := nofun

/-! ## Fields -/

namespace Field

variable {levels : Nat} {held : Json}

theorem readJson?_number :
    readJson? (levels + 1) (.ofVariant "Number" held) = held.word?.map number := rfl

theorem readJson?_list : readJson? (levels + 1) (.ofVariant "List" held) =
    (held.listOf? (readJson? levels)).map list := rfl

mutual

/-- A field is read back if there are more levels than its JSON form is deep. -/
theorem readJson?_toJson : ∀ (field : Field) {levels : Nat}, field.toJson.depth < levels →
    readJson? levels field.toJson = some field
  | .nil, _ + 1, _ => rfl
  | .atom _, _ + 1, _ => rfl
  | .number value, _ + 1, _ => by
    rw [toJson, readJson?_number, word?_ofWord, Option.map_some]
  | .list items, levels + 1, h => by
    rw [toJson, Json.depth_ofVariant, Json.depth] at h
    have hitems : Json.listOf? (readJson? levels) (.array (toJsonAll items)) = some items := by
      rw [toJsonAll_eq_map]
      exact listOf?_ofList (readJson?_of_mem items (by omega))
    rw [toJson, readJson?_list, hitems, Option.map_some]

theorem readJson?_of_mem : ∀ (items : List Field) {levels : Nat},
    Json.depthItems (toJsonAll items) < levels →
      ∀ field ∈ items, readJson? levels field.toJson = some field
  | [], _, _ => fun _ hmem => nomatch hmem
  | first :: rest, levels, h => fun field hmem => by
    rw [toJsonAll, Json.depthItems, Nat.max_lt] at h
    rcases List.mem_cons.1 hmem with heq | hmem
    · rw [heq]
      exact readJson?_toJson first h.1
    · exact readJson?_of_mem rest h.2 field hmem

end

theorem toJson_ne_null (field : Field) : field.toJson ≠ .null := by
  cases field <;> exact nofun

/-- **A field is read back**, however deep it nests. -/
theorem restores : Restores ofJson? toJson :=
  ⟨fun field => readJson?_toJson field (Nat.lt_succ_self _), toJson_ne_null⟩

end Field

/-! ## Parts -/

namespace Leaf

/-- **A body is read back**, if the structure inside it is. -/
theorem ofJson?_toJson {part? : Json → Option Part} {json : Json} {embedded : Option Part}
    (h : Json.optional? part? (some json) = some embedded) (leaf : Leaf) :
    ofJson? part? (leaf.toJson json) = some (leaf, embedded) := by
  unfold ofJson? toJson
  refine bind_of_eq_some (members?_object rfl (by decide)) ?_
  refine bind_of_eq_some (restores_text.required leaf.mediaType) ?_
  refine bind_of_eq_some (restores_text.required leaf.subtype) ?_
  refine bind_of_eq_some (Params.restores.required leaf.params) ?_
  refine bind_of_eq_some (restores_text.required leaf.id) ?_
  refine bind_of_eq_some (restores_text.required leaf.description) ?_
  refine bind_of_eq_some (restores_text.required leaf.encoding) ?_
  refine bind_of_eq_some (restores_word.required leaf.size) ?_
  refine bind_of_eq_some (restores_word.optional leaf.lineCount) ?_
  refine bind_of_eq_some (Envelope.restores.optional leaf.envelope) ?_
  refine bind_of_eq_some (restores_text.optional leaf.md5) ?_
  refine bind_of_eq_some (Disposition.restores.optional leaf.disposition) ?_
  refine bind_of_eq_some (restores_text.list.optional leaf.language) ?_
  refine bind_of_eq_some (restores_text.optional leaf.location) ?_
  refine bind_of_eq_some (restores_text.required leaf.specifier) ?_
  exact bind_of_eq_some h rfl

end Leaf

namespace Multipart

/-- **A multipart is read back**, if its parts are. -/
theorem ofJson?_toJson {part? : Json → Option Part} {parts : List Part}
    (h : ∀ part ∈ parts, part? part.toJson = some part) (multipart : Multipart) :
    ofJson? part? (multipart.toJson (parts.map Part.toJson)) = some (multipart, parts) := by
  have hparts : Json.listOf? part? (.array (parts.map Part.toJson)) = some parts := listOf?_ofList h
  unfold ofJson? toJson
  refine bind_of_eq_some (members?_object rfl (by decide)) ?_
  refine bind_of_eq_some (restores_text.required multipart.subtype) ?_
  refine bind_of_eq_some (Params.restores.optional multipart.params) ?_
  refine bind_of_eq_some (Disposition.restores.optional multipart.disposition) ?_
  refine bind_of_eq_some (restores_text.list.optional multipart.language) ?_
  refine bind_of_eq_some (restores_text.optional multipart.location) ?_
  refine bind_of_eq_some (restores_text.required multipart.specifier) ?_
  exact bind_of_eq_some hparts rfl

end Multipart

namespace Part

theorem toJson_ne_null (part : Part) : part.toJson ≠ .null := by
  match part with
  | leaf info none | leaf info (some inner) | multipart info parts => exact nofun

/-- The structure inside a body lies deeper than the body. -/
theorem depth_lt_leaf (info : Leaf) (inner : Part) :
    inner.toJson.depth + 1 < (leaf info (some inner)).toJson.depth := by
  have hmem : ∃ members, info.toJson inner.toJson = .object members ∧
      ("body_structure", inner.toJson) ∈ members := ⟨_, rfl, by simp⟩
  obtain ⟨members, hobject, hmem⟩ := hmem
  have hle := Json.depth_le_depthMembers hmem
  rw [toJson, Json.depth_ofVariant, hobject, Json.depth]
  omega

theorem depth_lt_multipart (info : Multipart) (parts : List Part) :
    Json.depthItems (toJsonAll parts) + 2 < (multipart info parts).toJson.depth := by
  have hmem : ∃ members, info.toJson (toJsonAll parts) = .object members ∧
      ("parts", .array (toJsonAll parts)) ∈ members := ⟨_, rfl, by simp⟩
  obtain ⟨members, hobject, hmem⟩ := hmem
  have hle := Json.depth_le_depthMembers hmem
  rw [Json.depth] at hle
  rw [toJson, Json.depth_ofVariant, hobject, Json.depth]
  omega

variable {levels : Nat} {held : Json}

theorem readJson?_body : readJson? (levels + 1) (.ofVariant PartKind.body.name held) =
    (Leaf.ofJson? (readJson? levels) held).map fun (info, embedded) => leaf info embedded := rfl

theorem readJson?_multipart : readJson? (levels + 1) (.ofVariant PartKind.multipart.name held) =
    (Multipart.ofJson? (readJson? levels) held).map fun (info, parts) => multipart info parts := rfl

mutual

/-- A part is read back if there are more levels than its JSON form is deep. -/
theorem readJson?_toJson : ∀ (part : Part) {levels : Nat}, part.toJson.depth < levels →
    readJson? levels part.toJson = some part
  | leaf info none, levels + 1, _ => by
    have hnone : Json.optional? (readJson? levels) (some .null) = some none := rfl
    rw [toJson, readJson?_body, Leaf.ofJson?_toJson hnone, Option.map_some]
  | leaf info (some inner), levels + 1, h => by
    have hdepth := depth_lt_leaf info inner
    have hinner : Json.optional? (readJson? levels) (some inner.toJson) = some (some inner) := by
      rw [Json.optional?_some_of_ne_null inner.toJson_ne_null,
        readJson?_toJson inner (by omega), Option.map_some]
    rw [toJson, readJson?_body, Leaf.ofJson?_toJson hinner, Option.map_some]
  | multipart info parts, levels + 1, h => by
    have hdepth := depth_lt_multipart info parts
    have hparts := @readJson?_of_mem parts levels (by omega)
    rw [toJson, readJson?_multipart, toJsonAll_eq_map, Multipart.ofJson?_toJson hparts,
      Option.map_some]

theorem readJson?_of_mem : ∀ (parts : List Part) {levels : Nat},
    Json.depthItems (toJsonAll parts) < levels →
      ∀ part ∈ parts, readJson? levels part.toJson = some part
  | [], _, _ => fun _ hmem => nomatch hmem
  | first :: rest, levels, h => fun part hmem => by
    rw [toJsonAll, Json.depthItems, Nat.max_lt] at h
    rcases List.mem_cons.1 hmem with heq | hmem
    · rw [heq]
      exact readJson?_toJson first h.1
    · exact readJson?_of_mem rest h.2 part hmem

end

/-- **A part is read back**, with everything inside it. -/
theorem restores : Restores ofJson? toJson :=
  ⟨fun part => readJson?_toJson part (Nat.lt_succ_self _), toJson_ne_null⟩

end Part

/-! ## All values -/

/-- **Every value is read back from its JSON form**: fields, addresses, parameters, dispositions,
kinds and envelopes, bodies with the structure inside them, multiparts with their parts, and parts
as a whole. Nothing is asked of the values. -/
theorem Json.restores_all :
    (∀ field : Field, Field.ofJson? field.toJson = some field) ∧
    (∀ address : Address, Address.ofJson? address.toJson = some address) ∧
    (∀ params : Params, Params.ofJson? params.toJson = some params) ∧
    (∀ disposition : Disposition,
      Disposition.ofJson? disposition.toJson = some disposition) ∧
    (∀ kind : PartKind, PartKind.ofJson? kind.toJson = some kind) ∧
    (∀ envelope : Envelope, Envelope.ofJson? envelope.toJson = some envelope) ∧
    (∀ (leaf : Leaf) (embedded : Option Part),
      Leaf.ofJson? Part.ofJson? (leaf.toJson (.ofOption Part.toJson embedded)) =
        some (leaf, embedded)) ∧
    (∀ (multipart : Multipart) (parts : List Part),
      Multipart.ofJson? Part.ofJson? (multipart.toJson (parts.map Part.toJson)) =
        some (multipart, parts)) ∧
    ∀ part : Part, Part.ofJson? part.toJson = some part :=
  ⟨Field.restores.read_write, Address.restores.read_write, Params.restores.read_write,
    Disposition.restores.read_write, PartKind.restores.read_write, Envelope.restores.read_write,
    fun leaf embedded => Leaf.ofJson?_toJson (Part.restores.optional embedded) leaf,
    fun multipart _ => Multipart.ofJson?_toJson (fun part _ => Part.restores.read_write part)
      multipart, Part.restores.read_write⟩

end MailOutline
