import TypedMarkup.Diagnostic
import TypedMarkup.Proofs.Markup.Pointing
import TypedMarkup.Proofs.Plan.Fits

/-!
Contract: every error of compiling a unit points into the text of the unit.

Owns: the errors of checking, of output types and of planning, which are none of reading and all
stand at a place of the tree that was read, the theorem on compiling, and what it means for editors:
a range that counts from zero loses nothing and runs forward.

Does not own: the errors of building, which stand at places of a plan.
-/

namespace TypedMarkup

open Markup

variable {tag : Tag} {error : CompileError} {requested : Option String}

/-- An error of compiling a unit that has been read, which points into its text. -/
structure CompileError.BehindReadingIn (source : String) (error : CompileError) : Prop where
  behindReading : error.BehindReading
  points : error.PointsInto source

/-- The same of a failure, if it is an error of the unit. -/
def Failure.BehindReadingIn (source : String) (failure : Failure) : Prop :=
  ∀ error, failure = .compile error → error.BehindReadingIn source

section

variable {source : String} {registry : Registry}

theorem Failure.behindReadingIn_compile (behind : error.BehindReadingIn source) :
    Failure.BehindReadingIn source (.compile error) := by
  rintro _ ⟨⟩
  exact behind

/-! ## Checking -/

theorem violation_behindReadingIn (cause : SchemaCause) {span : Span}
    (points : span.PointsInto source.toList) :
    (violation source cause span).BehindReadingIn source :=
  ⟨rfl, rfl, points, List.forall_mem_nil _, by rintro _ _ ⟨⟩⟩

theorem schemaOf_errors (named : tag.nameSpan.PointsInto source.toList) :
    FailsOnly (CompileError.BehindReadingIn source) (schemaOf registry source tag) := by
  unfold schemaOf
  split
  · exact .ok _
  · exact FailsOnly.error_iff.mpr (violation_behindReadingIn _ named)

theorem sortAttributes_errors {schema : Schema} {attributes : List Attribute}
    (points : ∀ found ∈ attributes, ∀ place ∈ found.places, place.PointsInto source.toList) :
    FailsOnly (CompileError.BehindReadingIn source)
      (sortAttributes source tag schema attributes) := by
  induction attributes with
  | nil => exact .ok _
  | cons found rest ih =>
    obtain ⟨here, further⟩ := List.forall_mem_cons.mp points
    have restSorted := ih further
    rw [sortAttributes]
    split
    · exact .bind restSorted fun _ _ => .pure _
    · exact .bind restSorted fun _ _ => .pure _
    · split
      · exact FailsOnly.error_iff.mpr
          (violation_behindReadingIn _ (here _ List.mem_cons_self))
      · exact .bind restSorted fun _ _ => .pure _

theorem checkRequiredName_errors {expected : String} {index : Nat} {child : Node}
    (points : child.PointsInto source.toList) :
    FailsOnly (CompileError.BehindReadingIn source)
      (checkRequiredName source tag expected index child) := by
  have refused := violation_behindReadingIn
    (.wrongRequired tag.name expected index child.describe) points.span
  unfold checkRequiredName
  dsimp only
  split
  · split
    · exact .ok _
    · exact FailsOnly.error_iff.mpr refused
  · exact FailsOnly.error_iff.mpr refused

theorem checkAccepted_errors {schema : Schema} {child : Node}
    (points : child.PointsInto source.toList) :
    FailsOnly (CompileError.BehindReadingIn source)
      (checkAccepted registry source tag schema child) := by
  unfold checkAccepted
  split
  · exact FailsOnly.error_iff.mpr (violation_behindReadingIn _ points.span)
  · next constraint _ =>
    have decided : ∀ tags : List String, FailsOnly (CompileError.BehindReadingIn source)
        (if tags.contains constraint then pure () else throw (violation source
          (.rejectedChild tag.name constraint child.describe) child.span)) := by
      intro tags
      split
      · exact .pure _
      · exact FailsOnly.throw_iff.mpr (violation_behindReadingIn _ points.span)
    cases child with
    | element childTag below span =>
      have named := (Node.pointsInto_element.mp points).2.1
      exact .bind (schemaOf_errors named).map fun tags _ => decided tags
    | text value span => exact decided textTags
    | block expression => exact decided [constraint]

mutual

/-- A tree that does not satisfy its schemas is reported at one of its places. -/
theorem checkNode_errors (node : Node) (points : node.PointsInto source.toList) :
    FailsOnly (CompileError.BehindReadingIn source) (checkNode registry source node) := by
  cases node with
  | element tag children span =>
    obtain ⟨-, named, attributes, below⟩ := Node.pointsInto_element.mp points
    rw [checkNode]
    refine .bind (schemaOf_errors named) fun schema _ => ?_
    split
    · exact .throw_bind (violation_behindReadingIn _ named)
    · refine .bind (checkChildren_errors tag schema _ 1 children below) fun _ _ => ?_
      exact .bind (sortAttributes_errors attributes) fun _ _ => .pure _
  | text | block => rw [checkNode]; exact .ok _

theorem checkChildren_errors (tag : Tag) (schema : Schema) (expected : List String) (index : Nat)
    (children : List Node) (points : ∀ child ∈ children, child.PointsInto source.toList) :
    FailsOnly (CompileError.BehindReadingIn source)
      (checkChildren registry source tag schema expected index children) := by
  cases children with
  | nil => rw [checkChildren]; exact .ok _
  | cons child rest =>
    obtain ⟨here, further⟩ := List.forall_mem_cons.mp points
    cases expected with
    | cons name names =>
      rw [checkChildren]
      refine .bind (checkRequiredName_errors here) fun _ _ => ?_
      refine .bind (checkNode_errors child here) fun _ _ => ?_
      exact .bind (checkChildren_errors tag schema names _ rest further) fun _ _ => .pure _
    | nil =>
      rw [checkChildren]
      refine .bind (checkAccepted_errors here) fun _ _ => ?_
      refine .bind (checkNode_errors child here) fun _ _ => ?_
      exact .bind (checkChildren_errors tag schema [] _ rest further) fun _ _ => .pure _

end

/-! ## Planning -/

namespace Draft

variable {output : Option OutputType}

theorem planAttribute_errors {element : String} {typed : TypedAttribute}
    (points : ∀ place ∈ typed.written.places, place.PointsInto source.toList) :
    FailsOnly (CompileError.BehindReadingIn source) (planAttribute source element typed) := by
  have valued := points _ (List.mem_cons_of_mem _ List.mem_cons_self)
  unfold planAttribute
  split
  · exact .ok _
  · next written =>
    rw [written] at valued
    split
    · exact .ok _
    · exact FailsOnly.error_iff.mpr
        ⟨rfl, rfl, valued, List.forall_mem_nil _, by rintro _ _ ⟨⟩⟩

theorem planEvent_errors {element : String} {entry : String × Attribute}
    (points : ∀ place ∈ entry.2.places, place.PointsInto source.toList) :
    FailsOnly (CompileError.BehindReadingIn source) (planEvent output source element entry) := by
  have named := points _ List.mem_cons_self
  have valued := points _ (List.mem_cons_of_mem _ List.mem_cons_self)
  unfold planEvent
  split
  · exact FailsOnly.error_iff.mpr ⟨rfl, rfl, named, List.forall_mem_nil _, by rintro _ _ ⟨⟩⟩
  · split
    · exact .ok _
    · next written =>
      rw [written] at valued
      split
      · exact .ok _
      · exact FailsOnly.error_iff.mpr
          ⟨rfl, rfl, valued, List.forall_mem_nil _, by rintro _ _ ⟨⟩⟩

/-- The attributes of an element are planned from its buckets, which hold what is written in its
tag. -/
theorem planTag_errors {head : CheckedTag}
    (divided : head.buckets.Divides head.schema head.tag.attributes)
    (points : ∀ found ∈ head.tag.attributes, ∀ place ∈ found.places,
      place.PointsInto source.toList) :
    FailsOnly (CompileError.BehindReadingIn source) (planTag output source head) := by
  refine .bind (.mapM fun typed member => ?_) fun _ _ => ?_
  · exact planAttribute_errors (points _ (divided.typedOrder.subset (List.mem_map_of_mem member)))
  refine .bind (.mapM fun entry member => ?_) fun _ _ => .pure _
  exact planEvent_errors (points _ (divided.eventOrder.subset (List.mem_map_of_mem member)))

/-- A checked tree that cannot be planned is reported at a place of the tree it was made from. -/
theorem planNode_errors {checked : Checked} (fits : checked.Fits registry)
    (points : checked.erase.PointsInto source.toList) (parent : Option CheckedTag) :
    FailsOnly (CompileError.BehindReadingIn source) (planNode output source parent checked) := by
  induction fits generalizing parent with
  | text | block => rw [planNode]; exact .ok _
  | @element head required optional _ _ _ divided _ _ requiredHypothesis optionalHypothesis =>
    rw [Checked.erase, Node.pointsInto_element, Checked.eraseAll_eq_map, Checked.eraseAll_eq_map,
      List.forall_mem_append, List.forall_mem_map, List.forall_mem_map] at points
    obtain ⟨-, -, attributes, requiredPoint, optionalPoint⟩ := points
    rw [planNode, planAll_eq_mapM, planAll_eq_mapM]
    refine .bind (planTag_errors divided attributes) fun _ _ => ?_
    refine .bind (.mapM fun child member => ?_) fun _ _ => ?_
    · exact requiredHypothesis child member (requiredPoint child member) _
    refine .bind (.mapM fun child member => ?_) fun _ _ => .pure _
    exact optionalHypothesis child member (optionalPoint child member) _

end Draft

/-! ## Compiling -/

/-- An output type that a request contradicts, or that is not known, is reported where it is
written; one that is requested by a wrong name is no error of the unit. -/
theorem resolveOutput_errors {unit : Source}
    (points : ∀ name span, unit.output = some (name, span) → span.PointsInto source.toList) :
    FailsOnly (Failure.BehindReadingIn source) (resolveOutput unit requested source) := by
  have unknown (name : String) : Failure.BehindReadingIn source (.unknownOutput name) := by
    rintro _ ⟨⟩
  unfold resolveOutput
  cases written : unit.output with
  | none =>
    simp only [pure_bind]
    split
    · exact .pure _
    · split
      · exact .pure _
      · exact .throw_bind (unknown _)
  | some declared =>
    have violated (cause : SchemaCause) :
        Failure.BehindReadingIn source (.compile (violation source cause declared.2)) :=
      Failure.behindReadingIn_compile (violation_behindReadingIn _ (points _ _ written))
    dsimp only
    split
    · simp only [pure_bind]
      split
      · exact .pure _
      · split
        · split
          · exact .pure _
          · exact FailsOnly.throw_iff.mpr (violated _)
        · exact .throw_bind (unknown _)
    · exact .throw_bind (violated _)

/-- A unit that has been read is compiled without errors of reading, and what errors it has point
into its text. -/
theorem compileUnit_errors {unit : Source} (parsed : parse source = .ok unit) :
    FailsOnly (Failure.BehindReadingIn source)
      (compileUnit unit source registry requested) := by
  obtain ⟨rootPoints, outputPoints⟩ := parse_pointsInto parsed
  refine .bind (.mapError fun error failed => ?_) fun checked accepted => ?_
  · exact Failure.behindReadingIn_compile (checkNode_errors unit.root rootPoints error failed)
  refine .bind (resolveOutput_errors outputPoints) fun output _ => ?_
  refine .mapError fun error failed => ?_
  obtain ⟨erased, fits⟩ := checkNode_sound unit.root checked (mapError_eq_ok.mp accepted)
  rw [← erased] at rootPoints
  exact Failure.behindReadingIn_compile
    (Draft.planNode_errors fits rootPoints none error (map_eq_error.mp failed))

theorem compile_error (failed : compile source registry requested = .error (.compile error)) :
    error.PointsInto source := by
  rcases bind_eq_error.mp failed with unread | ⟨unit, parsed, failedUnit⟩
  · obtain ⟨_, parseFailed, same⟩ := mapError_eq_error.mp unread
    cases same
    exact (parse_errors source error parseFailed).points
  · exact (compileUnit_errors (mapError_eq_ok.mp parsed) _ failedUnit error rfl).points

end

/-! ## Editors -/

/-- A range shows a span: each of its numbers is one less than the number it stands for, and the
range runs forward. -/
structure EditorRange.Shows (range : EditorRange) (span : Span) : Prop where
  startLine : span.start.line = range.startLine + 1
  startColumn : span.start.column = range.startCharacter + 1
  stopLine : span.stop.line = range.stopLine + 1
  stopColumn : span.stop.column = range.stopCharacter + 1
  forward : range.startLine < range.stopLine ∨
    range.startLine = range.stopLine ∧ range.startCharacter ≤ range.stopCharacter

/-- The ranges of a diagnostic: its own and those of its notes. -/
def EditorDiagnostic.ranges (shown : EditorDiagnostic) : List EditorRange :=
  shown.range :: shown.related.map Prod.fst

theorem Span.PointsInto.shows_editorRange {text : List Char} {span : Span}
    (points : span.PointsInto text) : span.editorRange.Shows span := by
  have startLine := points.start.line
  have startColumn := points.start.column
  have stopLine := points.stop.line
  have stopColumn := points.stop.column
  have downward := points.line_le
  refine ⟨?_, ?_, ?_, ?_, ?_⟩
  · simp only [editorRange]
    omega
  · simp only [editorRange]
    omega
  · simp only [editorRange]
    omega
  · simp only [editorRange]
    omega
  · by_cases oneLine : span.stop.line = span.start.line
    · have across := points.column_stop oneLine
      simp only [editorRange]
      omega
    · simp only [editorRange]
      omega

theorem CompileError.PointsInto.shows_ranges {source : String}
    (points : error.PointsInto source) {diagnostic : Diagnostic}
    (reported : diagnostic ∈ error.diagnostics) {range : EditorRange}
    (shown : range ∈ diagnostic.forEditor.ranges) :
    ∃ span, span.PointsInto source.toList ∧ range.Shows span := by
  cases List.mem_singleton.mp reported
  rw [EditorDiagnostic.ranges, List.mem_cons] at shown
  rcases shown with rfl | related
  · exact ⟨error.span, points.span, points.span.shows_editorRange⟩
  · simp only [Diagnostic.forEditor, List.map_map, List.mem_map, Function.comp_apply] at related
    obtain ⟨note, member, rfl⟩ := related
    have noted := points.notes note member
    exact ⟨note.span, noted, noted.shows_editorRange⟩

/-- Every error of compiling points into the text it is about, and what an editor shows for a
document are ranges of spans of the document, none of them negative or reversed. -/
theorem errors_point_into_their_source (source : String) :
    (∀ registry requested error,
      compile source registry requested = .error (.compile error) → error.PointsInto source) ∧
    ∀ document, ∀ shown ∈ (Publication.ofContent document source).diagnostics,
      ∀ range ∈ shown.ranges, ∃ span, span.PointsInto source.toList ∧ range.Shows span := by
  refine ⟨fun registry requested error => compile_error, ?_⟩
  intro document shown member range ranged
  unfold Publication.ofContent at member
  split at member
  · next error failed =>
    obtain ⟨diagnostic, reported, rfl⟩ := List.mem_map.mp member
    exact (compile_error failed).shows_ranges reported ranged
  · cases member

/-- A computation reports an error that satisfies a test. -/
def reports {α : Type} (test : CompileError → Bool) : Except Failure α → Bool
  | .error (.compile error) => test error
  | _ => false

theorem exists_of_reports {α : Type} {test : CompileError → Bool} {step : Except Failure α}
    (decided : reports test step = true) :
    ∃ error, step = .error (.compile error) ∧ test error = true := by
  unfold reports at decided
  split at decided
  · next error => exact ⟨error, rfl, decided⟩
  · cases decided

/-- A closing tag on another line than the tag it should close: the error stands at the one, its
note at the other, and an editor shows both. -/
theorem mismatch_points_at_both_tags :
    (∃ error, compile "<div>\n  </p>" .html none = .error (.compile error) ∧
      error.cause.notes.map Note.span = [⟨⟨1, 2, 1⟩, ⟨1, 5, 4⟩⟩] ∧
      error.PointsInto "<div>\n  </p>") ∧
    ∃ shown ∈ (Publication.ofContent "page" "<div>\n  </p>").diagnostics,
      shown.ranges = [⟨1, 4, 1, 5⟩, ⟨0, 1, 0, 4⟩] ∧
      ∀ range ∈ shown.ranges,
        ∃ span, span.PointsInto "<div>\n  </p>".toList ∧ range.Shows span := by
  have reported : reports (fun error => error.cause.notes.map Note.span == [⟨⟨1, 2, 1⟩, ⟨1, 5, 4⟩⟩])
      (compile "<div>\n  </p>" .html none) = true := by
    decide +kernel
  have published : (Publication.ofContent "page" "<div>\n  </p>").diagnostics.map
      EditorDiagnostic.ranges = [[⟨1, 4, 1, 5⟩, ⟨0, 1, 0, 4⟩]] := by
    decide +kernel
  obtain ⟨points, shows⟩ := errors_point_into_their_source "<div>\n  </p>"
  obtain ⟨error, failed, noted⟩ := exists_of_reports reported
  refine ⟨⟨error, failed, eq_of_beq noted, points .html none error failed⟩, ?_⟩
  obtain ⟨shown, member, ranges⟩ := List.mem_map.mp (published ▸ List.mem_singleton_self _)
  exact ⟨shown, member, ranges, shows "page" shown member⟩

end TypedMarkup
