import MailOutline.Part.Basic

/-!
# Walking through the parts

Model of `walk`, `collect_into`, `find`, `attachments` and `collect_attachments`.

* `Part.walk`: a part and all parts inside it, in the order of the document. The structure of an
  embedded message is not entered, since its parts are numbered anew.
* `Part.find?`: the first part of the walk with a given specifier (`find?_eq_position?_bind`).
* `Part.saved`: the bodies inside a multipart that are to be saved. `Part.attachments` and
  `Part.directAttachments` are their attributes, at any depth or among the parts alone.
-/

namespace MailOutline.Part

/-! ## The walk -/

mutual

/-- A part and all parts inside it, in the order of the document. -/
def walk : Part → List Part
  | leaf info embedded => [leaf info embedded]
  | multipart info parts => multipart info parts :: walkAll parts

/-- The walks through some parts, one after the other. -/
def walkAll : List Part → List Part
  | [] => []
  | part :: rest => walk part ++ walkAll rest

end

theorem walkAll_eq_flatMap (parts : List Part) : walkAll parts = parts.flatMap walk := by
  induction parts with
  | nil => rfl
  | cons part rest ih => rw [walkAll, ih, List.flatMap_cons]

/-- The place in the walk of the first part with a specifier. -/
def position? (part : Part) (specifier : String) : Option Nat :=
  part.walk.findIdx? fun inner => inner.specifier == specifier

/-- The first part of the walk with a specifier. -/
def find? (part : Part) (specifier : String) : Option Part :=
  part.walk.find? fun inner => inner.specifier == specifier

theorem find?_eq_position?_bind (part : Part) (specifier : String) :
    part.find? specifier = (part.position? specifier).bind fun i => part.walk[i]? := by
  simp only [find?, position?]
  generalize part.walk = parts
  induction parts with
  | nil => rfl
  | cons first rest ih =>
    rw [List.find?_cons, List.findIdx?_cons]
    cases first.specifier == specifier with
    | true => rfl
    | false =>
      rw [ih]
      cases rest.findIdx? _ <;> rfl

/-! ## Attachments -/

mutual

/-- The part itself if it is a body that is to be saved. Of a multipart those inside it, provided
that `recurse` is set. -/
def savedIn (recurse : Bool) : Part → List Part
  | leaf info embedded => if info.isAttachment then [leaf info embedded] else []
  | multipart _ parts => if recurse then saved recurse parts else []

/-- The bodies among some parts that are to be saved, in the order of the document. If `recurse` is
set, the multiparts among the parts are searched too. -/
def saved (recurse : Bool) : List Part → List Part
  | [] => []
  | part :: rest => savedIn recurse part ++ saved recurse rest

end

/-- The bodies among some parts and inside them that are to be saved. -/
def attachments (parts : List Part) : List Leaf := (saved true parts).filterMap leaf?

/-- The bodies among some parts that are to be saved. -/
def directAttachments (parts : List Part) : List Leaf := (saved false parts).filterMap leaf?

end MailOutline.Part
