import TypedMarkup.CommandLine.Arguments
import TypedMarkup.CommandLine.FileTree
import TypedMarkup.CommandLine.Options
import TypedMarkup.CommandLine.Path
import TypedMarkup.CommandLine.Run
import TypedMarkup.Compile
import TypedMarkup.CompileError
import TypedMarkup.Diagnostic
import TypedMarkup.Document.Change
import TypedMarkup.Document.Element
import TypedMarkup.Document.Store
import TypedMarkup.Document.View
import TypedMarkup.Event
import TypedMarkup.Host.Arguments
import TypedMarkup.Host.Builtin
import TypedMarkup.Host.CheckedName
import TypedMarkup.Host.Display
import TypedMarkup.Host.Equality
import TypedMarkup.Host.Evaluate
import TypedMarkup.Host.Failure
import TypedMarkup.Host.FreeNames
import TypedMarkup.Host.Grammar
import TypedMarkup.Host.Lexeme
import TypedMarkup.Host.Memory
import TypedMarkup.Host.Numeric
import TypedMarkup.Host.Operation
import TypedMarkup.Host.Pattern
import TypedMarkup.Host.Repetition
import TypedMarkup.Host.Reserved
import TypedMarkup.Host.Scope
import TypedMarkup.Host.Term
import TypedMarkup.Host.Value
import TypedMarkup.Host.WalkOrder
import TypedMarkup.Main
import TypedMarkup.Markup.Basic
import TypedMarkup.Markup.Capture
import TypedMarkup.Markup.Checked
import TypedMarkup.Markup.Grammar
import TypedMarkup.Markup.Outline
import TypedMarkup.Number.Based
import TypedMarkup.Number.Binary64
import TypedMarkup.Number.Places
import TypedMarkup.Number.Reading
import TypedMarkup.Number.Shortest
import TypedMarkup.Output
import TypedMarkup.Plan.Basic
import TypedMarkup.Plan.Build
import TypedMarkup.Plan.Draft
import TypedMarkup.Plan.Splice
import TypedMarkup.Program.Basic
import TypedMarkup.Program.Emission
import TypedMarkup.Program.Text
import TypedMarkup.Proofs.CommandLine.Files
import TypedMarkup.Proofs.CommandLine.Runs
import TypedMarkup.Proofs.Document.Changes
import TypedMarkup.Proofs.Document.Histories
import TypedMarkup.Proofs.Document.Making
import TypedMarkup.Proofs.Document.NameOrder
import TypedMarkup.Proofs.Document.NormalForm
import TypedMarkup.Proofs.Document.Reading
import TypedMarkup.Proofs.Document.RequiredChildren
import TypedMarkup.Proofs.Document.StartTag
import TypedMarkup.Proofs.Document.Unambiguous
import TypedMarkup.Proofs.Document.Validity
import TypedMarkup.Proofs.Failing
import TypedMarkup.Proofs.Host.Distinct
import TypedMarkup.Proofs.Host.Evaluation
import TypedMarkup.Proofs.Host.Failures
import TypedMarkup.Proofs.Host.Operations
import TypedMarkup.Proofs.Host.ReadingOrder
import TypedMarkup.Proofs.Host.Scoping
import TypedMarkup.Proofs.Host.Soundness
import TypedMarkup.Proofs.Host.Traversal
import TypedMarkup.Proofs.Markup.Acceptance
import TypedMarkup.Proofs.Markup.Buckets
import TypedMarkup.Proofs.Markup.Conformance
import TypedMarkup.Proofs.Markup.Correspondence
import TypedMarkup.Proofs.Markup.Derivation
import TypedMarkup.Proofs.Markup.Direct
import TypedMarkup.Proofs.Markup.HostCode
import TypedMarkup.Proofs.Markup.Joining
import TypedMarkup.Proofs.Markup.Likeness
import TypedMarkup.Proofs.Markup.Locality
import TypedMarkup.Proofs.Markup.Parts
import TypedMarkup.Proofs.Markup.PathPairs
import TypedMarkup.Proofs.Markup.Placing
import TypedMarkup.Proofs.Markup.Pointing
import TypedMarkup.Proofs.Markup.Respacing
import TypedMarkup.Proofs.Mirroring
import TypedMarkup.Proofs.Number.Decimal
import TypedMarkup.Proofs.Plan.Blameless
import TypedMarkup.Proofs.Plan.Blocks
import TypedMarkup.Proofs.Plan.DataAttributes
import TypedMarkup.Proofs.Plan.FirstFailure
import TypedMarkup.Proofs.Plan.Fits
import TypedMarkup.Proofs.Plan.Growth
import TypedMarkup.Proofs.Plan.Leaks
import TypedMarkup.Proofs.Plan.Places
import TypedMarkup.Proofs.Plan.Rendering
import TypedMarkup.Proofs.Plan.Splicing
import TypedMarkup.Proofs.Plan.Static
import TypedMarkup.Proofs.Plan.TagNames
import TypedMarkup.Proofs.Plan.Texts
import TypedMarkup.Proofs.Plan.Validity
import TypedMarkup.Proofs.Program.Execution
import TypedMarkup.Proofs.Program.Fragments
import TypedMarkup.Proofs.Program.Hygiene
import TypedMarkup.Proofs.Program.Refinement
import TypedMarkup.Proofs.Program.Tree
import TypedMarkup.Proofs.Report.Pointing
import TypedMarkup.Proofs.Report.Snippet
import TypedMarkup.Proofs.Report.Stages
import TypedMarkup.Proofs.Schema.Coercion
import TypedMarkup.Proofs.Schema.Derivation
import TypedMarkup.Proofs.Schema.Extension
import TypedMarkup.Proofs.Schema.Fitting
import TypedMarkup.Proofs.Schema.LanguageTags
import TypedMarkup.Proofs.Schema.Length
import TypedMarkup.Proofs.Schema.NamedConstraints
import TypedMarkup.Proofs.Schema.OtherWords
import TypedMarkup.Proofs.Schema.Rereading
import TypedMarkup.Proofs.Schema.Resolution
import TypedMarkup.Proofs.Schema.Retraction
import TypedMarkup.Proofs.Schema.SetTexts
import TypedMarkup.Proofs.Schema.SharedNames
import TypedMarkup.Proofs.Schema.Solid
import TypedMarkup.Proofs.Schema.TypeTexts
import TypedMarkup.Proofs.Source.Position
import TypedMarkup.Proofs.Success
import TypedMarkup.Proofs.Table
import TypedMarkup.Proofs.Text.Fields
import TypedMarkup.Proofs.Token.Cursor
import TypedMarkup.Proofs.Token.Faults
import TypedMarkup.Proofs.Token.Language
import TypedMarkup.Proofs.Token.LongestMatch
import TypedMarkup.Proofs.Token.Losslessness
import TypedMarkup.Proofs.Token.Regrouping
import TypedMarkup.Proofs.Token.Relocation
import TypedMarkup.Proofs.Token.SelfContained
import TypedMarkup.Proofs.Token.Tokenizing
import TypedMarkup.Proofs.Token.Words
import TypedMarkup.Report
import TypedMarkup.Schema.AttributeType
import TypedMarkup.Schema.Declaration
import TypedMarkup.Schema.Fit
import TypedMarkup.Schema.Html
import TypedMarkup.Schema.Registry
import TypedMarkup.Source.Position
import TypedMarkup.Table
import TypedMarkup.Text.Blank
import TypedMarkup.Text.Escape
import TypedMarkup.Text.Letter
import TypedMarkup.Text.Lines
import TypedMarkup.Text.Numeral
import TypedMarkup.Text.Printable
import TypedMarkup.Text.Quoted
import TypedMarkup.Text.Ranges
import TypedMarkup.Text.Uppercase
import TypedMarkup.Text.Word
import TypedMarkup.Token.Basic
import TypedMarkup.Token.Character
import TypedMarkup.Token.Cursor
import TypedMarkup.Token.Nesting
import TypedMarkup.Token.Scan
import TypedMarkup.Toml.Basic
import TypedMarkup.Toml.Document
import TypedMarkup.Toml.Value
import TypedMarkup.Vocabulary
