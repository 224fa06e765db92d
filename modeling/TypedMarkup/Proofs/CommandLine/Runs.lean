import TypedMarkup.CommandLine.Run
import TypedMarkup.Proofs.CommandLine.Files
import TypedMarkup.Proofs.Report.Stages

/-!
Contract: a run does all or nothing.

Owns: `Delivers` and `Stops`, what a run ends in and where, told by the stages it goes through, the
proof that the work of a run, which also keeps a journal, does exactly this, and `AllOrNothing`:
which code a run returns, where its text goes, and which failures no code stands for.

Does not own: the texts of the journal and of reports.
-/

namespace TypedMarkup.CommandLine

variable {halt : Halt} {registry : Registry} {plan : Plan} {path : Path} {paths : List Path}
  {text : String} {error : CompileError}

/-! ## The stages of a run -/

/-- The registry with the declarations of schema files. -/
inductive Merges (read : ReadFile) : List Path → Registry → Prop where
  | none : Merges read [] .html
  | next {paths : List Path} {path : Path} {source : String} {registry merged : Registry}
      (before : Merges read paths registry) (content : readText read path = .ok source)
      (accepted : registry.merge source = .ok merged) : Merges read (paths ++ [path]) merged

/-- The plan that a run makes of its input. -/
def Compiles (read : ReadFile) (options : Options) (plan : Plan) : Prop :=
  ∃ registry source, Merges read options.schemaFiles registry ∧
    readText read options.inputFile = .ok source ∧
    compile source registry options.outputName = .ok plan

def scopeOf (options : Options) : Scope :=
  .ofTable (options.scope.map fun entry => (entry.1, .text entry.2))

/-- The text that a run makes: none for a check, otherwise that of the program or of the
document. -/
inductive Delivers (read : ReadFile) (options : Options) : String → Prop where
  | checked {plan : Plan} (compiles : Compiles read options plan) (check : options.check = true) :
      Delivers read options ""
  | emitted {plan : Plan} {text : String} (compiles : Compiles read options plan)
      (noCheck : options.check = false) (emit : options.emit = true)
      (emitted : plan.emit options.inputFile.name = .ok text) : Delivers read options text
  | built {plan : Plan} {node : Document.Node} {text : String}
      (compiles : Compiles read options plan) (noCheck : options.check = false)
      (noEmit : options.emit = false) (built : plan.build (scopeOf options) = .ok node)
      (written : node.written = .ok text) : Delivers read options (text ++ "\n")

/-- Why a run makes no text: the first of its stages that fails. -/
inductive Stops (read : ReadFile) (options : Options) : Halt → Prop where
  | schemaUnread {before after : List Path} {path : Path} {registry : Registry} {halt : Halt}
      (files : options.schemaFiles = before ++ path :: after) (merges : Merges read before registry)
      (unread : readText read path = .error halt) : Stops read options halt
  | schemaRefused {before after : List Path} {path : Path} {registry : Registry} {source : String}
      {error : CompileError} (files : options.schemaFiles = before ++ path :: after)
      (merges : Merges read before registry) (content : readText read path = .ok source)
      (refused : registry.merge source = .error error) :
      Stops read options (.failure (.compile error))
  | inputUnread {registry : Registry} {halt : Halt}
      (merges : Merges read options.schemaFiles registry)
      (unread : readText read options.inputFile = .error halt) : Stops read options halt
  | uncompiled {registry : Registry} {source : String} {failure : Failure}
      (merges : Merges read options.schemaFiles registry)
      (content : readText read options.inputFile = .ok source)
      (failed : compile source registry options.outputName = .error failure) :
      Stops read options (.failure failure)
  | unemitted {plan : Plan} {failure : Failure} (compiles : Compiles read options plan)
      (noCheck : options.check = false) (emit : options.emit = true)
      (failed : plan.emit options.inputFile.name = .error failure) :
      Stops read options (.failure failure)
  | unbuilt {plan : Plan} {failure : Failure} (compiles : Compiles read options plan)
      (noCheck : options.check = false) (noEmit : options.emit = false)
      (failed : plan.build (scopeOf options) = .error failure) :
      Stops read options (.failure failure)
  | unwritten {plan : Plan} {node : Document.Node} {failure : Failure}
      (compiles : Compiles read options plan) (noCheck : options.check = false)
      (noEmit : options.emit = false) (built : plan.build (scopeOf options) = .ok node)
      (failed : node.written = .error failure) : Stops read options (.failure failure)

/-! ## Work and its journal -/

/-- Work ends in a result, whatever has been told before it. -/
def Answers {α : Type} (work : Work α) (result : Except Halt α) : Prop :=
  ∀ entries, (work.run entries).1 = result

section

variable {α β : Type} {result : Except Halt α} {next : Unit → Work α} {entry : Entry}

theorem Answers.pure (value : α) : Answers (Pure.pure value) (.ok value) :=
  fun _ => rfl

theorem Answers.orHalt (result : Except Halt α) : Answers (orHalt result) result :=
  fun _ => rfl

theorem Answers.tell (entry : Entry) : Answers (tell entry) (.ok ()) :=
  fun _ => rfl

/-- What follows a step that returns goes on where the step has left the journal. -/
theorem run_bind (work : Work α) (next : α → Work β) (entries : List Entry) :
    (work >>= next).run entries =
      (ExceptT.bindCont next (work.run entries).1).run (work.run entries).2 :=
  rfl

theorem Answers.bind {work : Work α} {next : α → Work β} {further : α → Except Halt β}
    (first : Answers work result) (second : ∀ value, Answers (next value) (further value)) :
    Answers (work >>= next) (result >>= further) := by
  intro entries
  rw [run_bind, first entries]
  cases result with
  | ok value => exact second value _
  | error halt => rfl

theorem Answers.tell_bind (second : Answers (next ()) result) :
    Answers (CommandLine.tell entry >>= next) result :=
  (Answers.tell entry).bind fun _ => second

theorem Answers.tell_if {condition : Prop} [Decidable condition]
    (second : Answers (next ()) result) :
    Answers (if condition then CommandLine.tell entry >>= next else next ()) result := by
  split
  · exact .tell_bind second
  · exact second

end

def mergeFile (read : ReadFile) (registry : Registry) (path : Path) : Except Halt Registry := do
  let source ← readText read path
  (registry.merge source).mapError fun error => .failure (.compile error)

def planOf (read : ReadFile) (options : Options) : Except Halt Plan := do
  let registry ← options.schemaFiles.foldlM (mergeFile read) .html
  let source ← readText read options.inputFile
  (compile source registry options.outputName).mapError .failure

/-- What a run makes of a plan. -/
def textOf (options : Options) (plan : Plan) : Except Halt String :=
  if options.check then .ok ""
  else if options.emit then (plan.emit options.inputFile.name).mapError .failure
  else do
    let node ← (plan.build (scopeOf options)).mapError .failure
    let written ← node.written.mapError .failure
    return written ++ "\n"

section

variable {read : ReadFile} {options : Options}

theorem mergeFiles_answers (registry : Registry) (paths : List Path) :
    Answers (mergeFiles read registry paths) (paths.foldlM (mergeFile read) registry) := by
  induction paths generalizing registry with
  | nil => exact .pure registry
  | cons path rest ih =>
    rw [mergeFiles, List.foldlM_cons, mergeFile, bind_assoc]
    refine (Answers.orHalt _).bind fun source => ?_
    exact (Answers.orHalt _).bind fun merged => .tell_bind (ih merged)

theorem compile_mapError (source : String) (registry : Registry) (requested : Option String) :
    (compile source registry requested).mapError Halt.failure =
      (Markup.parse source).mapError (fun error => .failure (.compile error)) >>= fun unit =>
        (compileUnit unit source registry requested).mapError .failure := by
  unfold compile
  cases Markup.parse source with
  | ok unit => rfl
  | error error => rfl

/-- The work of a run has the result that its stages have. -/
theorem compileInput_answers :
    Answers (compileInput read options) (planOf read options >>= textOf options) := by
  unfold compileInput planOf
  simp only [bind_assoc, compile_mapError]
  refine .tell_bind ?_
  refine (mergeFiles_answers _ _).bind fun registry => ?_
  refine (Answers.orHalt _).bind fun source => ?_
  refine (Answers.orHalt _).bind fun unit => ?_
  refine .tell_if ((Answers.orHalt _).bind fun plan => .tell_bind (.tell_bind ?_))
  unfold textOf
  split
  · exact .pure _
  · split
    · exact .orHalt _
    · refine (Answers.orHalt _).bind fun node => .tell_bind ?_
      exact (Answers.orHalt _).bind fun written => .pure _

/-! ## What the stages come to -/

theorem mergeFile_eq_ok {merged : Registry} :
    mergeFile read registry path = .ok merged ↔
      ∃ source, readText read path = .ok source ∧ registry.merge source = .ok merged := by
  simp only [mergeFile, bind_eq_ok, mapError_eq_ok]

theorem merges_iff :
    paths.foldlM (mergeFile read) .html = .ok registry ↔ Merges read paths registry := by
  constructor
  · intro merged
    -- `Merges` grows at its end, so the last file comes off first.
    induction paths using List.reverseRecOn generalizing registry with
    | nil =>
      cases pure_eq_ok.mp merged
      exact .none
    | append_singleton paths path ih =>
      rw [List.foldlM_append, bind_eq_ok] at merged
      obtain ⟨before, mergedBefore, last⟩ := merged
      rw [List.foldlM_cons, bind_eq_ok] at last
      obtain ⟨reached, mergedLast, same⟩ := last
      cases pure_eq_ok.mp same
      obtain ⟨source, content, accepted⟩ := mergeFile_eq_ok.mp mergedLast
      exact .next (ih mergedBefore) content accepted
  · intro merges
    induction merges with
    | none => rfl
    | next _ content accepted ih =>
      rw [List.foldlM_append, ih]
      refine bind_eq_ok.mpr ⟨_, rfl, ?_⟩
      rw [List.foldlM_cons]
      exact bind_eq_ok.mpr ⟨_, mergeFile_eq_ok.mpr ⟨_, content, accepted⟩, rfl⟩

theorem planOf_ends :
    EndsIn (Compiles read options) (Stops read options) (planOf read options) := by
  unfold planOf
  cases merged : options.schemaFiles.foldlM (mergeFile read) .html with
  | error halt =>
    obtain ⟨before, path, after, registry, files, mergedBefore, failed⟩ := foldlM_eq_error merged
    have merges := merges_iff.mp mergedBefore
    rcases bind_eq_error.mp failed with unread | ⟨source, content, unmerged⟩
    · exact .schemaUnread files merges unread
    · obtain ⟨error, refused, rfl⟩ := mapError_eq_error.mp unmerged
      exact .schemaRefused files merges content refused
  | ok registry =>
    have merges := merges_iff.mp merged
    cases content : readText read options.inputFile with
    | error halt => exact .inputUnread merges content
    | ok source =>
      change EndsIn _ _ ((compile source registry options.outputName).mapError Halt.failure)
      cases compiled : compile source registry options.outputName with
      | error failure => exact .uncompiled merges content compiled
      | ok plan => exact ⟨registry, source, merges, content, compiled⟩

theorem textOf_ends (compiles : Compiles read options plan) :
    EndsIn (Delivers read options) (Stops read options) (textOf options plan) := by
  unfold textOf
  cases check : options.check with
  | true => exact .checked compiles check
  | false =>
    cases emit : options.emit with
    | true =>
      cases emitted : plan.emit options.inputFile.name with
      | ok text => exact .emitted compiles check emit emitted
      | error failure => exact .unemitted compiles check emit emitted
    | false =>
      cases built : plan.build (scopeOf options) with
      | error failure => exact .unbuilt compiles check emit built
      | ok node =>
        change EndsIn _ _ (node.written.mapError Halt.failure >>= _)
        cases written : node.written with
        | ok text => exact .built compiles check emit built written
        | error failure => exact .unwritten compiles check emit built written

/-- A run ends as its stages have it. -/
theorem stages_end :
    EndsIn (Delivers read options) (Stops read options) (planOf read options >>= textOf options) :=
  planOf_ends.bind fun _ => textOf_ends

theorem textOf_of_compiles (compiles : Compiles read options plan) :
    planOf read options >>= textOf options = textOf options plan := by
  obtain ⟨registry, source, merges, content, compiled⟩ := compiles
  have planned : planOf read options = .ok plan := bind_eq_ok.mpr ⟨registry, merges_iff.mpr merges,
    bind_eq_ok.mpr ⟨source, content, mapError_eq_ok.mpr compiled⟩⟩
  rw [planned]
  rfl

theorem textOf_build (noCheck : options.check = false) (noEmit : options.emit = false) :
    textOf options plan = (do
      let node ← (plan.build (scopeOf options)).mapError .failure
      let written ← node.written.mapError .failure
      return written ++ "\n") := by
  rw [textOf, noCheck, noEmit]
  rfl

theorem delivers_iff :
    planOf read options >>= textOf options = .ok text ↔ Delivers read options text := by
  constructor
  · intro made
    have ends : EndsIn (Delivers read options) (Stops read options) _ := stages_end
    rw [made] at ends
    exact ends
  · intro delivers
    cases delivers with
    | checked compiles check => rw [textOf_of_compiles compiles, textOf, if_pos check]
    | emitted compiles noCheck emit emitted =>
      rw [textOf_of_compiles compiles, textOf, noCheck, emit, emitted]
      rfl
    | built compiles noCheck noEmit built written =>
      rw [textOf_of_compiles compiles, textOf_build noCheck noEmit]
      exact bind_eq_ok.mpr ⟨_, mapError_eq_ok.mpr built,
        bind_eq_ok.mpr ⟨_, mapError_eq_ok.mpr written, rfl⟩⟩

theorem planOf_of_file {before after : List Path}
    (files : options.schemaFiles = before ++ path :: after) (merges : Merges read before registry)
    (failed : mergeFile read registry path = .error halt) : planOf read options = .error halt := by
  refine bind_eq_error.mpr (.inl ?_)
  rw [files, List.foldlM_append, merges_iff.mpr merges]
  change mergeFile read registry path >>= _ = _
  rw [failed]
  rfl

theorem planOf_of_merges (merges : Merges read options.schemaFiles registry) :
    planOf read options = (do
      let source ← readText read options.inputFile
      (compile source registry options.outputName).mapError .failure) := by
  rw [planOf, merges_iff.mpr merges]
  rfl

/-- A run stops exactly at the first of its stages that fails. -/
theorem stops_iff :
    planOf read options >>= textOf options = .error halt ↔ Stops read options halt := by
  refine ⟨stages_end.failsOnly halt, fun stops => ?_⟩
  cases stops with
  | schemaUnread files merges unread =>
    rw [planOf_of_file files merges (bind_eq_error.mpr (.inl unread))]
    rfl
  | schemaRefused files merges content refused =>
    rw [planOf_of_file files merges (bind_eq_error.mpr (.inr ⟨_, content,
      mapError_eq_error.mpr ⟨_, refused, rfl⟩⟩))]
    rfl
  | inputUnread merges unread =>
    rw [planOf_of_merges merges, unread]
    rfl
  | uncompiled merges content failed =>
    refine bind_eq_error.mpr (.inl ?_)
    rw [planOf_of_merges merges]
    exact bind_eq_error.mpr (.inr ⟨_, content, mapError_eq_error.mpr ⟨_, failed, rfl⟩⟩)
  | unemitted compiles noCheck emit failed =>
    rw [textOf_of_compiles compiles, textOf, noCheck, emit, failed]
    rfl
  | unbuilt compiles noCheck noEmit failed =>
    rw [textOf_of_compiles compiles, textOf_build noCheck noEmit, failed]
    rfl
  | unwritten compiles noCheck noEmit built failed =>
    rw [textOf_of_compiles compiles, textOf_build noCheck noEmit]
    exact bind_eq_error.mpr (.inr ⟨_, mapError_eq_ok.mpr built,
      bind_eq_error.mpr (.inl (mapError_eq_error.mpr ⟨_, failed, rfl⟩))⟩)

/-! ## Errors of reading -/

/-- The text of a schema file or of the input cannot be read. -/
inductive Unreadable (read : ReadFile) (options : Options) : CompileError → Prop where
  | schema {before after : List Path} {path : Path} {registry : Registry} {source : String}
      {error : CompileError} (files : options.schemaFiles = before ++ path :: after)
      (merges : Merges read before registry) (content : readText read path = .ok source)
      (refused : registry.merge source = .error error) (ofReading : error.OfReading) :
      Unreadable read options error
  | input {registry : Registry} {source : String} {error : CompileError}
      (merges : Merges read options.schemaFiles registry)
      (content : readText read options.inputFile = .ok source)
      (refused : Markup.parse source = .error error) : Unreadable read options error

theorem readText_error :
    readText read path ≠ .error (.failure (.compile error)) := by
  intro failed
  unfold readText at failed
  split at failed
  · cases failed
  · obtain ⟨_, _, never⟩ := mapError_eq_error.mp failed
    cases never

theorem html_known : ∀ schema ∈ Registry.html.schemas, ∀ entry ∈ schema.attributes,
    entry.2.Known := by
  unfold Registry.html
  split
  · next declared => exact fun _ => ofDeclarations_known declared
  · exact List.forall_mem_nil _

theorem merges_known (merges : Merges read paths registry) :
    ∀ schema ∈ registry.schemas, ∀ entry ∈ schema.attributes, entry.2.Known := by
  cases merges with
  | none => exact html_known
  | next _ _ accepted =>
    obtain ⟨_, _, declared⟩ := bind_eq_ok.mp accepted
    exact fun _ => ofDeclarations_known declared

theorem scopeOf_safe : @Scope.Safe .host (scopeOf options) := by
  let _ : Endings := .host
  apply safe_ofTable
  intro entry member
  obtain ⟨given, -, rfl⟩ := List.mem_map.mp member
  exact Host.safe_text given.2

/-- Of the errors that a run stops with, those of reading come from schema files and the input. -/
theorem unreadable_iff :
    Unreadable read options error ↔
      Stops read options (.failure (.compile error)) ∧ error.OfReading := by
  constructor
  · rintro (⟨files, merges, content, refused, ofReading⟩ | ⟨merges, content, refused⟩)
    · exact ⟨.schemaRefused files merges content refused, ofReading⟩
    · refine ⟨.uncompiled merges content ?_, (Markup.parse_errors _ error refused).ofReading⟩
      exact bind_eq_error.mpr (.inl (mapError_eq_error.mpr ⟨error, refused, rfl⟩))
  · rintro ⟨stops, ofReading⟩
    have notBehind : ¬ Failure.BehindReading (.compile error) := by
      intro behind
      exact Bool.false_ne_true ((behind error rfl).symm.trans ofReading)
    -- No stage behind the reading has such an error, which leaves a schema file and the input.
    cases stops with
    | schemaUnread _ _ unread | inputUnread _ unread => exact absurd unread readText_error
    | schemaRefused files merges content refused =>
      exact .schema files merges content refused ofReading
    | uncompiled merges content failed =>
      rcases bind_eq_error.mp failed with unread | ⟨unit, parsed, uncompiled⟩
      · obtain ⟨_, refused, same⟩ := mapError_eq_error.mp unread
        cases same
        exact .input merges content refused
      · exact absurd (compileUnit_behindReading (mapError_eq_ok.mp parsed) _ uncompiled) notBehind
    | unemitted _ _ _ failed => exact absurd (emit_behindReading _ _ _ failed) notBehind
    | unbuilt compiles _ _ failed =>
      obtain ⟨registry, source, merges, -, compiled⟩ := compiles
      exact absurd (build_behindReading compiled (merges_known merges) scopeOf_safe _ failed)
        notBehind
    | unwritten _ _ _ _ failed =>
      exact absurd (.of_kind (written_hostOnly _ _ failed)) notBehind

end

/-! ## Whole runs -/

section

variable {read : ReadFile} {words : List String} {arguments : Arguments}

/-- What a run comes to with a result. -/
def concluded (options : Options) : Except Halt String → Prepared
  | .ok text => .ready options.outputFile text
  | .error (.file _) => .failed 2
  | .error (.failure (.compile error)) => .failed (exitCode error)
  | .error (.failure failure) => .escaped failure

theorem prepare_of_fault (accepted : Arguments.parse words = .ok arguments) {fault : OptionFault}
    (unresolved : Options.resolve read arguments = .error fault) :
    (prepare read words).1 = stopped fault := by
  simp only [prepare, accepted]
  rcases bind_eq_error.mp unresolved with unset | ⟨settings, set, faulty⟩
  · simp only [unset]
  · simp only [set, faulty]

theorem prepare_of_options (accepted : Arguments.parse words = .ok arguments) {options : Options}
    (resolved : Options.resolve read arguments = .ok options) :
    (prepare read words).1 = concluded options (planOf read options >>= textOf options) := by
  obtain ⟨settings, set, made⟩ := bind_eq_ok.mp resolved
  simp only [prepare, accepted, set, made]
  generalize (if settings.isEmpty = true then ([] : List Entry) else _) = begun
  rw [← compileInput_answers begun]
  rcases (compileInput read options).run begun with ⟨result, entries⟩
  cases result with
  | ok text => rfl
  | error halt =>
    cases halt with
    | file fault => rfl
    | failure failure =>
      cases failure with
      | _ => rfl

end

namespace Ending

/-- The code that a run returns, unless a failure escapes from it. -/
def code? : Ending → Option Nat
  | exit code _ => some code
  | _ => none

def printed : Ending → String
  | exit _ text => text
  | _ => ""

end Ending

/-- Where the text of a run goes: it is printed and no file changes, or nothing is printed and it is
the content of one file. -/
inductive Delivered (files : FileTree) (text : String) :
    (destination : Option Path) → (printed : String) → (after : FileTree) → Prop where
  | printed : Delivered files text none text files
  | filed {path : Path} {after : FileTree} (noNull : path.hasNull = false)
      (written : files.write path text = .ok after) (changed : files.Filed path text after) :
      Delivered files text (some path) "" after

/-- The failures that escape from a run: of an option that it does not look at, of a stage that
fails with something other than an error of a unit, and of the destination, once all is done. -/
inductive Escapes (files : FileTree) (arguments : Arguments) : Ending → Prop where
  | option {fault : OptionFault} {failure : Failure}
      (unresolved : Options.resolve files.read arguments = .error fault)
      (unreported : fault.failure? = some failure) : Escapes files arguments (.failed failure)
  | stage {options : Options} {failure : Failure}
      (resolved : Options.resolve files.read arguments = .ok options)
      (stops : Stops files.read options (.failure failure)) (untold : ¬ failure.IsTold) :
      Escapes files arguments (.failed failure)
  | nullInPath {options : Options} {text : String} {path : Path}
      (resolved : Options.resolve files.read arguments = .ok options)
      (delivers : Delivers files.read options text) (destination : options.outputFile = some path)
      (null : path.hasNull = true) : Escapes files arguments (.failed .nullInPath)
  | unwritten {options : Options} {text : String} {path : Path} {fault : FileFault}
      (resolved : Options.resolve files.read arguments = .ok options)
      (delivers : Delivers files.read options text) (destination : options.outputFile = some path)
      (noNull : path.hasNull = false) (refused : files.write path text = .error fault) :
      Escapes files arguments (.unwritten fault)

/-- How a run on files ends, and which files it leaves. -/
inductive Ends (files : FileTree) (arguments : Arguments) : Ending → FileTree → Prop where
  | delivered {options : Options} {text printed : String} {after : FileTree}
      (resolved : Options.resolve files.read arguments = .ok options)
      (delivers : Delivers files.read options text)
      (delivered : Delivered files text options.outputFile printed after) :
      Ends files arguments (.exit 0 printed) after
  | unreadable {options : Options} {error : CompileError}
      (resolved : Options.resolve files.read arguments = .ok options)
      (unreadable : Unreadable files.read options error) : Ends files arguments (.exit 1 "") files
  | unresolved {fault : OptionFault}
      (unresolved : Options.resolve files.read arguments = .error fault)
      (reported : fault.failure? = none) : Ends files arguments (.exit 2 "") files
  | unread {options : Options} {fault : FileFault}
      (resolved : Options.resolve files.read arguments = .ok options)
      (stops : Stops files.read options (.file fault)) : Ends files arguments (.exit 2 "") files
  | refused {options : Options} {error : CompileError}
      (resolved : Options.resolve files.read arguments = .ok options)
      (stops : Stops files.read options (.failure (.compile error)))
      (readable : ¬ Unreadable files.read options error) : Ends files arguments (.exit 2 "") files
  | escapes {ending : Ending} (escapes : Escapes files arguments ending) :
      Ends files arguments ending files

section

variable {files : FileTree} {words : List String} {arguments : Arguments}

/-- The ending and the files that a run comes to once it is prepared. -/
def finish (files : FileTree) : Prepared → Ending × FileTree
  | .rejected stop => (.rejected stop, files)
  | .failed code => (.exit code "", files)
  | .escaped failure => (.failed failure, files)
  | .ready none text => (.exit 0 text, files)
  | .ready (some path) text =>
    if path.hasNull then (.failed .nullInPath, files)
    else
      match files.write path text with
      | .ok written => (.exit 0 "", written)
      | .error fault => (.unwritten fault, files)

theorem run_eq_finish :
    ((run files words).ending, (run files words).files) =
      finish files (prepare files.read words).1 := by
  unfold run
  rcases prepare files.read words with ⟨prepared, told⟩
  cases prepared with
  | ready destination text =>
    cases destination with
    | none => rfl
    | some path =>
      dsimp only [finish]
      cases path.hasNull with
      | true => rfl
      | false =>
        cases files.write path text with
        | ok | error => rfl
  | _ => rfl

theorem exitCode_eq (error : CompileError) :
    exitCode error = if error.cause.isOfReading then 1 else 2 := by
  unfold exitCode
  cases error.cause <;> rfl

/-- A text that is ready is delivered, or its destination lets a failure escape. -/
theorem ends_of_ready {options : Options}
    (resolved : Options.resolve files.read arguments = .ok options)
    (delivers : Delivers files.read options text) :
    Ends files arguments (finish files (.ready options.outputFile text)).1
      (finish files (.ready options.outputFile text)).2 := by
  cases destination : options.outputFile with
  | none =>
    refine .delivered resolved delivers ?_
    rw [destination]
    exact .printed
  | some path =>
    cases null : path.hasNull with
    | true =>
      simp only [finish, null, if_true]
      exact .escapes (.nullInPath resolved delivers destination null)
    | false =>
      cases wrote : files.write path text with
      | ok after =>
        simp only [finish, null, wrote]
        refine .delivered resolved delivers ?_
        rw [destination]
        exact .filed null wrote (FileTree.filed_of_write wrote)
      | error fault =>
        simp only [finish, null, wrote]
        exact .escapes (.unwritten resolved delivers destination null wrote)

/-- A run whose stages stop ends with the code of the error, or the failure escapes. -/
theorem ends_of_stops {options : Options}
    (resolved : Options.resolve files.read arguments = .ok options)
    (stops : Stops files.read options halt) :
    Ends files arguments (finish files (concluded options (.error halt))).1
      (finish files (concluded options (.error halt))).2 := by
  cases halt with
  | file fault => exact .unread resolved stops
  | failure failure =>
    by_cases told : failure.IsTold
    · obtain ⟨error, rfl⟩ := told
      simp only [concluded, finish, exitCode_eq]
      split
      · next ofReading => exact .unreadable resolved (unreadable_iff.mpr ⟨stops, ofReading⟩)
      · next behind =>
        refine .refused resolved stops fun unreadable => ?_
        exact behind (unreadable_iff.mp unreadable).2
    · have escaped : concluded options (.error (.failure failure)) = .escaped failure := by
        cases failure with
        | compile error => exact absurd ⟨error, rfl⟩ told
        | _ => rfl
      rw [escaped]
      exact .escapes (.stage resolved stops told)

theorem ends_of_fault {fault : OptionFault}
    (unresolved : Options.resolve files.read arguments = .error fault) :
    Ends files arguments (finish files (stopped fault)).1 (finish files (stopped fault)).2 := by
  cases own : fault.failure? with
  | none =>
    simp only [stopped, own, finish]
    exact .unresolved unresolved own
  | some failure =>
    simp only [stopped, own, finish]
    exact .escapes (.option unresolved own)

theorem run_ends (accepted : Arguments.parse words = .ok arguments) :
    Ends files arguments (run files words).ending (run files words).files := by
  have same : ((run files words).ending, (run files words).files) = _ := run_eq_finish
  obtain ⟨sameEnding, sameFiles⟩ := Prod.mk.inj same
  rw [sameEnding, sameFiles]
  cases resolved : Options.resolve files.read arguments with
  | error fault =>
    rw [prepare_of_fault accepted resolved]
    exact ends_of_fault resolved
  | ok options =>
    rw [prepare_of_options accepted resolved]
    cases made : planOf files.read options >>= textOf options with
    | ok text => exact ends_of_ready resolved (delivers_iff.mp made)
    | error halt => exact ends_of_stops resolved (stops_iff.mp made)

theorem finish_of_delivered {printed : String} {destination : Option Path}
    {after : FileTree} (delivered : Delivered files text destination printed after) :
    finish files (.ready destination text) = (.exit 0 printed, after) := by
  cases delivered with
  | printed => rfl
  | filed noNull written changed =>
    simp only [finish, noNull, written]
    rfl

theorem finish_of_compile {options : Options} :
    finish files (concluded options (.error (.failure (.compile error)))) =
      (.exit (if error.cause.isOfReading then 1 else 2) "", files) := by
  rw [← exitCode_eq]
  rfl

/-- The ending of a run on files whose options can be resolved. -/
theorem ending_of_options (accepted : Arguments.parse words = .ok arguments) {options : Options}
    (resolved : Options.resolve files.read arguments = .ok options) :
    (run files words).ending =
      (finish files (concluded options (planOf files.read options >>= textOf options))).1 := by
  rw [← prepare_of_options accepted resolved]
  exact congrArg Prod.fst run_eq_finish

end

/-- How a run on files accounts for what its arguments ask for. -/
structure AllOrNothing (files : FileTree) (arguments : Arguments) (outcome : Outcome) : Prop where
  /-- The code is 0 if the options can be resolved and there is a text, which goes to its
  destination. -/
  success : outcome.ending.code? = some 0 ↔
    ∃ options text, Options.resolve files.read arguments = .ok options ∧
      Delivers files.read options text ∧
      Delivered files text options.outputFile outcome.ending.printed outcome.files
  /-- The code is 1 if the input or a schema file cannot be read. -/
  reading : outcome.ending.code? = some 1 ↔
    ∃ options error, Options.resolve files.read arguments = .ok options ∧
      Unreadable files.read options error
  /-- The code is 2 for every other failure that is told: of options, of files, of a unit. -/
  others : outcome.ending.code? = some 2 ↔
    (∃ fault, Options.resolve files.read arguments = .error fault ∧ fault.failure? = none) ∨
      ∃ options, Options.resolve files.read arguments = .ok options ∧
        ((∃ fault, Stops files.read options (.file fault)) ∨
          ∃ error, Stops files.read options (.failure (.compile error)) ∧
            ¬ Unreadable files.read options error)
  /-- There is no code if a failure escapes. -/
  escapes : outcome.ending.code? = none ↔ Escapes files arguments outcome.ending
  /-- There are no other codes. -/
  codes : ∀ code, outcome.ending.code? = some code → code ≤ 2
  /-- Unless the code is 0, nothing is printed and no file changes. -/
  nothing : outcome.ending.code? ≠ some 0 → outcome.ending.printed = "" ∧ outcome.files = files

section

variable {files : FileTree} {arguments : Arguments} {ending : Ending} {after : FileTree}

theorem Escapes.silent (escapes : Escapes files arguments ending) :
    ending.code? = none ∧ ending.printed = "" := by
  cases escapes <;> exact ⟨rfl, rfl⟩

namespace Ends

/-! What a code, or its absence, says about the way a run has ended. -/

section

variable (ends : Ends files arguments ending after)

include ends

theorem of_zero (code : ending.code? = some 0) :
    ∃ options text, Options.resolve files.read arguments = .ok options ∧
      Delivers files.read options text ∧
      Delivered files text options.outputFile ending.printed after := by
  cases ends with
  | delivered resolved delivers delivered => exact ⟨_, _, resolved, delivers, delivered⟩
  | escapes escapes => cases escapes.silent.1.symm.trans code
  | _ => cases code

theorem of_one (code : ending.code? = some 1) :
    ∃ options error, Options.resolve files.read arguments = .ok options ∧
      Unreadable files.read options error := by
  cases ends with
  | unreadable resolved unreadable => exact ⟨_, _, resolved, unreadable⟩
  | escapes escapes => cases escapes.silent.1.symm.trans code
  | _ => cases code

theorem of_two (code : ending.code? = some 2) :
    (∃ fault, Options.resolve files.read arguments = .error fault ∧ fault.failure? = none) ∨
      ∃ options, Options.resolve files.read arguments = .ok options ∧
        ((∃ fault, Stops files.read options (.file fault)) ∨
          ∃ error, Stops files.read options (.failure (.compile error)) ∧
            ¬ Unreadable files.read options error) := by
  cases ends with
  | unresolved unresolved reported => exact .inl ⟨_, unresolved, reported⟩
  | unread resolved stops => exact .inr ⟨_, resolved, .inl ⟨_, stops⟩⟩
  | refused resolved stops readable => exact .inr ⟨_, resolved, .inr ⟨_, stops, readable⟩⟩
  | escapes escapes => cases escapes.silent.1.symm.trans code
  | _ => cases code

theorem of_none (code : ending.code? = none) : Escapes files arguments ending := by
  cases ends with
  | escapes escapes => exact escapes
  | _ => cases code

theorem code_le {code : Nat} (returned : ending.code? = some code) : code ≤ 2 := by
  cases ends with
  | escapes escapes => cases escapes.silent.1.symm.trans returned
  | _ =>
    cases returned
    decide

theorem nothing (code : ending.code? ≠ some 0) : ending.printed = "" ∧ after = files := by
  cases ends with
  | delivered => exact absurd rfl code
  | escapes escapes => exact ⟨escapes.silent.2, rfl⟩
  | _ => exact ⟨rfl, rfl⟩

end

end Ends

end

/-- A unit with a schema of its own in one directory, and an old program in another. -/
def twoDirectories : FileTree :=
  .ofTexts [("in/page.thtml", "<card>\x7b greeting \x7d</card>"),
    ("in/cards", "card in [FlowContent] with FlowContent;"), ("out/page.txt", "old")]

/-- Words that ask for the program to be replaced, by a path that goes up again. -/
def replacing : List String :=
  ["in/page.thtml", "--schema", "in/cards", "--emit", "-o", "in/../out/page.txt"]

end TypedMarkup.CommandLine
