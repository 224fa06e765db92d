import TypedMarkup.Program.Text
import TypedMarkup.Proofs.Plan.Leaks
import TypedMarkup.Proofs.Report.Pointing

/-!
Contract: each stage reports errors of its own.

Owns: the proofs that emitting and building never fail with errors of reading a text. Building is a
matter of the scope: a stream may end in any failure, so this is about scopes whose streams end in
failures of host values, and it follows from what building lets out at all.

Does not own: the errors of reading and compiling, which come with the places they stand at, and
those of declarations, where reading and resolving take turns.
-/

namespace TypedMarkup

open Host

/-- A failure that is no error of reading a text. -/
def Failure.BehindReading (failure : Failure) : Prop :=
  ∀ error, failure = .compile error → error.BehindReading

theorem Failure.BehindReading.of_kind {failure : Failure} (kind : failure.kind?.isSome = true) :
    failure.BehindReading := by
  rintro error rfl
  cases kind

theorem Failure.behindReading_compile {error : CompileError}
    (behind : error.BehindReading) : Failure.BehindReading (.compile error) := by
  rintro _ ⟨⟩
  exact behind

/-- A unit that has been read is compiled without errors of reading. -/
theorem compileUnit_behindReading {unit : Markup.Source} {source : String} {registry : Registry}
    {requested : Option String} (parsed : Markup.parse source = .ok unit) :
    FailsOnly Failure.BehindReading (compileUnit unit source registry requested) :=
  fun failure failed error same =>
    (compileUnit_errors parsed failure failed error same).behindReading

/-! ## Emitting -/

theorem term_behindReading (code : String) (span : Span) :
    FailsOnly Failure.BehindReading (Expression.term code span) := by
  intro failure unread
  rcases term_told code span failure unread with ⟨error, rfl, behind⟩ | ⟨rfl, -⟩
  · exact Failure.behindReading_compile (behind trivial)
  · exact .of_kind rfl

theorem codeNames_behindReading (expression : Expression) :
    FailsOnly Failure.BehindReading (Program.codeNames expression) := by
  have named : FailsOnly Failure.BehindReading expression.freeNames := by
    unfold Expression.freeNames
    split
    · exact .ok _
    · exact (term_behindReading _ _).map
  unfold Program.codeNames
  split
  · exact .ok _
  · refine .bind named fun _ _ => ?_
    split
    · exact FailsOnly.throw_iff.mpr (Failure.behindReading_compile rfl)
    · exact .pure _

theorem emit_behindReading (plan : Plan) (filename : String) :
    FailsOnly Failure.BehindReading (plan.emit filename) := by
  refine FailsOnly.map (.bind (.mapM fun expression _ => ?_) fun _ _ => .pure _)
  exact codeNames_behindReading expression

/-! ## Building -/

/-- A compiled plan is built without errors of reading, if no stream of the scope ends in an error
of a unit. -/
theorem build_behindReading {source : String} {registry : Registry} {requested : Option String}
    {plan : Plan} {scope : Scope} (compiled : compile source registry requested = .ok plan)
    (known : ∀ schema ∈ registry.schemas, ∀ entry ∈ schema.attributes, entry.2.Known)
    (safe : @Scope.Safe .host scope) : FailsOnly Failure.BehindReading (plan.build scope) := by
  intro failure failed
  rcases build_accounted compiled (fun _ : True => safe) (fun _ => known) failure failed with
    ⟨error, rfl, behind⟩ | leaks
  · exact Failure.behindReading_compile (behind trivial)
  · exact fun error same => absurd ⟨error, same⟩ leaks.not_told

end TypedMarkup
