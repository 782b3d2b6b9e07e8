import MailOutline.Proofs.Reports

/-!
# Nothing is cut off without a warning

What nests beyond the limit is left out, and decoding warns of it. Where it gives no warning, the
limit had no effect: a larger one leads to the same part through the same events. Every warning is
of a structure one level below the limit.

* `Traced.Quiet`: a run without warnings.
* `Traced.Settles`: a run that another one repeats, unless it warns of one certain event. Steps that
  settle one after the other settle together (`Traced.Settles.bind`).
* `Traced.Plain.quiet`: attributes give no warnings, since these are of structures.
* `Decoder.settles_structureAt?`: more levels repeat a run without warnings. The depth and the
  levels that are left have the same sum everywhere, and that is the depth of every warning.
* `Decoder.part?_limit_warned`: the same for the part that a field denotes.
-/

namespace MailOutline

/-- Nothing is warned of but structures that nest too deep. -/
theorem Event.level_ne_warn {event : Event}
    (h : ∀ depth maxDepth, event ≠ .tooDeep depth maxDepth) : event.level ≠ .warn := by
  cases event with
  | tooDeep depth maxDepth => exact absurd rfl (h depth maxDepth)
  | _ => exact Level.noConfusion

namespace Traced

variable {α β : Type} {cause : Event} {x y : Traced α} {f g : α → Traced β}

/-! ## Runs without warnings -/

/-- No event is a warning. -/
def Quiet (x : Traced α) : Prop := ∀ event ∈ x.events, event.level ≠ .warn

@[simp] theorem quiet_pure (a : α) : (pure a : Traced α).Quiet := fun _ h => nomatch h

@[simp] theorem quiet_bind_iff : (x >>= f).Quiet ↔ x.Quiet ∧ (f x.value).Quiet :=
  List.forall_mem_append

@[simp] theorem quiet_map_iff {f : α → β} : (f <$> x).Quiet ↔ x.Quiet := by
  rw [Quiet, events_map, Quiet]

theorem quiet_report {event : Event} (h : ∀ depth maxDepth, event ≠ .tooDeep depth maxDepth) :
    (report event).Quiet :=
  List.forall_mem_singleton.2 (Event.level_ne_warn h)

theorem Quiet.bind (hx : x.Quiet) (hf : ∀ a, (f a).Quiet) : (x >>= f).Quiet :=
  quiet_bind_iff.2 ⟨hx, hf x.value⟩

/-- A run that only reports. -/
theorem quiet_reported {event : Event} (h : ∀ depth maxDepth, event ≠ .tooDeep depth maxDepth)
    (a : α) : (do report event; return a : Traced α).Quiet :=
  (quiet_report h).bind fun _ => quiet_pure a

/-- Whoever tells of no structure gives no warning. -/
theorem Plain.quiet (hx : x.Plain) : x.Quiet := fun event hevent =>
  Event.level_ne_warn fun depth maxDepth heq => by
    rw [heq] at hevent
    exact Bool.noConfusion (hx _ hevent)

/-! ## Runs that settle -/

/-- The run `x` warns of nothing but `cause`, and unless it does, `y` repeats it. -/
structure Settles (cause : Event) (x y : Traced α) : Prop where
  warns : ∀ event ∈ x.events, event.level = .warn → event = cause
  repeats : x.Quiet → y = x

theorem Quiet.settles (hx : x.Quiet) : x.Settles cause x where
  warns event hevent hwarn := absurd hwarn (hx event hevent)
  repeats _ := rfl

theorem Settles.bind (hx : x.Settles cause y) (hf : ∀ a, (f a).Settles cause (g a)) :
    (x >>= f).Settles cause (y >>= g) where
  warns := List.forall_mem_append.2 ⟨hx.warns, (hf x.value).warns⟩
  repeats hquiet := by
    obtain ⟨hfirst, hthen⟩ := quiet_bind_iff.1 hquiet
    rw [hx.repeats hfirst]
    exact congrArg (fun run : Traced β => (⟨run.value, x.events ++ run.events⟩ : Traced β))
      ((hf x.value).repeats hthen)

theorem Settles.map (f : α → β) (hx : x.Settles cause y) :
    (f <$> x).Settles cause (f <$> y) where
  warns := by
    rw [events_map]
    exact hx.warns
  repeats hquiet := congrArg (f <$> ·) (hx.repeats (quiet_map_iff.1 hquiet))

end Traced

namespace Decoder

variable {cause : Event} {embedded other : Field → Traced (Option Part)}
  {one two : String → List Field → Traced (Option Part)} {maxDepth levels depth : Nat}

/-! ## One step -/

theorem settles_leafTail (h : ∀ field, (embedded field).Settles cause (other field)) (leaf : Leaf)
    (tail : List Field) :
    (leafTail embedded leaf tail).Settles cause (leafTail other leaf tail) := by
  have hextensions : ∀ tail leaf, (Extension.readAll Leaf.extensions tail leaf).Settles cause
      (Extension.readAll Leaf.extensions tail leaf) :=
    fun tail leaf => (Leaf.plain_readAll tail leaf).quiet.settles
  unfold leafTail
  split
  · exact (hextensions _ _).bind fun _ => (Traced.quiet_pure _).settles
  · refine (Envelope.plain_ofField? _).quiet.settles.bind fun _ => (h _).bind fun _ => ?_
    exact (hextensions _ _).bind fun _ => (Traced.quiet_pure _).settles
  · exact (hextensions _ _).bind fun _ => (Traced.quiet_pure _).settles

theorem settles_leaf? (h : ∀ field, (embedded field).Settles cause (other field))
    (specifier : String) (items : List Field) :
    (leaf? embedded specifier items).Settles cause (leaf? other specifier items) := by
  unfold leaf?
  split
  · refine (Params.plain_ofFields _).quiet.settles.bind fun _ => ?_
    exact (settles_leafTail h _ _).map some
  · exact (Traced.quiet_reported (by simp) none).settles

theorem settles_parts
    (h : ∀ specifier child, (one specifier child).Settles cause (two specifier child))
    (stem : String) (first : Nat) (children : List Field) :
    (parts one stem first children).Settles cause (parts two stem first children) := by
  induction children generalizing first with
  | nil => exact (Traced.quiet_pure _).settles
  | cons child rest ih =>
    refine (h _ _).bind fun result => ?_
    cases result with
    | some part => exact (ih (first + 1)).bind fun _ => (Traced.quiet_pure _).settles
    | none => exact (Traced.quiet_report (by simp)).settles.bind fun _ => ih (first + 1)

theorem settles_multipart
    (h : ∀ specifier child, (one specifier child).Settles cause (two specifier child))
    (stem : String) (items : List Field) :
    (multipart one stem items).Settles cause (multipart two stem items) := by
  refine (settles_parts h stem 1 _).bind fun _ => ?_
  exact (Multipart.plain_readAll _ _).quiet.settles.bind fun _ => (Traced.quiet_pure _).settles

theorem settles_inside {near far : List Field → Traced (Option Part)}
    (h : ∀ items, (near items).Settles cause (far items)) (field : Field) :
    (inside near field).Settles cause (inside far field) := by
  unfold inside
  split
  · exact (Traced.quiet_reported (by simp) none).settles
  · exact h _

theorem settles_childWith? (h : ∀ stem items, (one stem items).Settles cause (two stem items))
    (specifier : String) (child : List Field) :
    (childWith? one specifier child).Settles cause (childWith? two specifier child) := by
  unfold childWith?
  split
  · exact h _ _
  · exact settles_leaf? (settles_inside (h "")) specifier child

/-! ## All of decoding -/

/-- **A run without warnings is the same with more levels and another limit.** Each step down adds
one to the depth and leaves one level less, so all warnings tell the same depth. -/
theorem settles_structureAt? {limit more : Nat} (h : levels ≤ more) (stem : String)
    (items : List Field) :
    (structureAt? maxDepth levels depth stem items).Settles (.tooDeep (depth + levels) maxDepth)
      (structureAt? limit more depth stem items) := by
  induction levels generalizing more depth stem items with
  | zero =>
    exact {
      warns := List.forall_mem_singleton.2 fun _ => rfl
      repeats := fun hquiet => absurd rfl (hquiet _ List.mem_cons_self) }
  | succ levels ih =>
    obtain ⟨more, rfl⟩ : ∃ below, more = below + 1 := ⟨more - 1, by omega⟩
    have hbelow : ∀ stem items, (structureAt? maxDepth levels (depth + 1) stem items).Settles
        (.tooDeep (depth + (levels + 1)) maxDepth)
        (structureAt? limit more (depth + 1) stem items) := fun stem items => by
      rw [Nat.add_comm levels, ← Nat.add_assoc]
      exact ih (Nat.le_of_succ_le_succ h) stem items
    rw [structureAt?, structureAt?]
    split
    · exact (settles_multipart (settles_childWith? hbelow) stem items).map some
    · exact settles_leaf? (settles_inside (hbelow "")) _ items

/-! ## The limit -/

/-- The root has the depth zero. -/
theorem part?_eq_inside (decoder : Decoder) (field : Field) :
    decoder.part? field =
      inside (structureAt? decoder.maxDepth (decoder.maxDepth + 1) 0 "") field := by
  rw [part?, structure?, Nat.sub_self]

/-- **The limit cuts nothing off without a warning.** Where decoding gives no warning, every larger
limit gives the same part and the same events. Where it gives one, the warning tells the limit and
that a structure one level below it was left out. -/
theorem part?_limit_warned (field : Field) (maxDepth : Nat) :
    (((Decoder.mk maxDepth).part? field).Quiet → ∀ larger, maxDepth ≤ larger →
      (Decoder.mk larger).part? field = (Decoder.mk maxDepth).part? field) ∧
    ∀ event ∈ ((Decoder.mk maxDepth).part? field).events, event.level = .warn →
      event = .tooDeep (maxDepth + 1) maxDepth := by
  have hsettles : ∀ larger, maxDepth ≤ larger → ((Decoder.mk maxDepth).part? field).Settles
      (.tooDeep (maxDepth + 1) maxDepth) ((Decoder.mk larger).part? field) := fun larger h => by
    have hroot : ∀ items, (structureAt? maxDepth (maxDepth + 1) 0 "" items).Settles
        (.tooDeep (0 + (maxDepth + 1)) maxDepth) (structureAt? larger (larger + 1) 0 "" items) :=
      settles_structureAt? (Nat.succ_le_succ h) ""
    rw [Nat.zero_add] at hroot
    rw [part?_eq_inside, part?_eq_inside]
    exact settles_inside hroot field
  exact ⟨fun hquiet larger h => (hsettles larger h).repeats hquiet,
    (hsettles maxDepth (Nat.le_refl _)).warns⟩

/-- A digest inside a digest, whose one note is empty. -/
def nestedDigest : Field :=
  .list [.list [.list [], .atom "digest"], .atom "digest"]

/-- The limit one is enough for the inner digest, and zero is not. -/
theorem part?_limit_warned_digest :
    (Decoder.mk 4).part? nestedDigest = (Decoder.mk 1).part? nestedDigest ∧
      ((Decoder.mk 0).part? nestedDigest).events.filter (·.level = .warn) = [.tooDeep 1 0] ∧
      ∀ event ∈ ((Decoder.mk 0).part? nestedDigest).events, event.level = .warn →
        event = .tooDeep 1 0 := by
  have hquiet : ((Decoder.mk 1).part? nestedDigest).Quiet := by
    unfold Traced.Quiet
    decide
  exact ⟨(part?_limit_warned nestedDigest 1).1 hquiet 4 (by decide), rfl,
    (part?_limit_warned nestedDigest 0).2⟩

end Decoder

end MailOutline
