import Runbook.Calendar
import Runbook.Capture
import Runbook.CommandLine.Arguments
import Runbook.CommandLine.Command
import Runbook.CommandLine.Expand
import Runbook.CommandLine.Outcome
import Runbook.CommandLine.Perform
import Runbook.Delivery.Render
import Runbook.Delivery.Write
import Runbook.Document.Field
import Runbook.Document.Finding
import Runbook.Document.Loader
import Runbook.Document.Reader
import Runbook.Document.Step
import Runbook.Expression
import Runbook.FileTree
import Runbook.Json.Basic
import Runbook.Json.Parser
import Runbook.Json.Printer
import Runbook.Json.Stream
import Runbook.Log
import Runbook.Loop.Discovery
import Runbook.Loop.Item
import Runbook.Main
import Runbook.Number.Binary64
import Runbook.Number.Integer
import Runbook.Number.Real
import Runbook.Number.Shortest
import Runbook.Operation.Basic
import Runbook.Operation.Catalogue
import Runbook.Operation.Registry
import Runbook.Path
import Runbook.Proofs.CommandLine.Checking
import Runbook.Proofs.CommandLine.Completion
import Runbook.Proofs.CommandLine.Course
import Runbook.Proofs.CommandLine.ExitCode
import Runbook.Proofs.CommandLine.Expansion
import Runbook.Proofs.CommandLine.Opening
import Runbook.Proofs.CommandLine.Pair
import Runbook.Proofs.Delivery.Absent
import Runbook.Proofs.Delivery.Accounting
import Runbook.Proofs.Delivery.Attempt
import Runbook.Proofs.Delivery.Content
import Runbook.Proofs.Delivery.Display
import Runbook.Proofs.Delivery.Effect
import Runbook.Proofs.Delivery.Format
import Runbook.Proofs.Delivery.Isolation
import Runbook.Proofs.Delivery.Package
import Runbook.Proofs.Delivery.Repetition
import Runbook.Proofs.Document.Acceptance
import Runbook.Proofs.Document.File
import Runbook.Proofs.Document.ForwardReferences
import Runbook.Proofs.Document.Further
import Runbook.Proofs.Document.Meaning
import Runbook.Proofs.Document.Reading
import Runbook.Proofs.Document.Report
import Runbook.Proofs.Document.Spelling
import Runbook.Proofs.Document.Violation
import Runbook.Proofs.Expression.Consultation
import Runbook.Proofs.Expression.Expansion
import Runbook.Proofs.Expression.Token
import Runbook.Proofs.FileTree.Change
import Runbook.Proofs.FileTree.Growth
import Runbook.Proofs.FileTree.Repetition
import Runbook.Proofs.Json.Acceptance
import Runbook.Proofs.Json.Completeness
import Runbook.Proofs.Json.Division
import Runbook.Proofs.Json.Grammar
import Runbook.Proofs.Json.RoundTrip
import Runbook.Proofs.Json.Soundness
import Runbook.Proofs.Json.Stream
import Runbook.Proofs.Json.Surrogate
import Runbook.Proofs.Loop.Discovery
import Runbook.Proofs.Loop.Item
import Runbook.Proofs.Loop.Level
import Runbook.Proofs.Number.Index
import Runbook.Proofs.Number.Literal
import Runbook.Proofs.Path.Collapse
import Runbook.Proofs.Path.ShortName
import Runbook.Proofs.Path.Text
import Runbook.Proofs.Reference.Addressing
import Runbook.Proofs.Reference.Agreement
import Runbook.Proofs.Reference.Determination
import Runbook.Proofs.Reference.Navigation
import Runbook.Proofs.Reference.Occurrence
import Runbook.Proofs.Reference.Overlong
import Runbook.Proofs.Reference.Placeholder
import Runbook.Proofs.Reference.Unreadable
import Runbook.Proofs.Reference.Within
import Runbook.Proofs.Run.Admission
import Runbook.Proofs.Run.Alike
import Runbook.Proofs.Run.Anchoring
import Runbook.Proofs.Run.Breakage
import Runbook.Proofs.Run.Captured
import Runbook.Proofs.Run.Disabled
import Runbook.Proofs.Run.Failure
import Runbook.Proofs.Run.Interference
import Runbook.Proofs.Run.OutputPath
import Runbook.Proofs.Run.Prefix
import Runbook.Proofs.Run.Request
import Runbook.Proofs.Run.Standing
import Runbook.Proofs.Run.Story
import Runbook.Proofs.Run.Turn
import Runbook.Proofs.Text.Replacement
import Runbook.Proofs.Text.Split
import Runbook.Proofs.Text.Utf8
import Runbook.Proofs.Value.Encoding
import Runbook.Proofs.Value.Outline
import Runbook.Proofs.Workflow.Validation
import Runbook.Proofs.Workflow.Violation
import Runbook.Reference.Placeholder
import Runbook.Reference.Pointer
import Runbook.Reference.Substitution
import Runbook.Results
import Runbook.Run.Engine
import Runbook.Run.Record
import Runbook.Run.Step
import Runbook.ShortName
import Runbook.Text.Blank
import Runbook.Text.Cased
import Runbook.Text.Digit
import Runbook.Text.Lowercase
import Runbook.Text.Printable
import Runbook.Text.Quoted
import Runbook.Text.Split
import Runbook.Text.Surrogate
import Runbook.Text.Utf8
import Runbook.TextFile
import Runbook.Value.Basic
import Runbook.Value.Display
import Runbook.Value.Encode
import Runbook.Value.Nesting
import Runbook.Workflow.Basic
import Runbook.Workflow.Validation
import Runbook.Yaml.BlockText
import Runbook.Yaml.Cursor
import Runbook.Yaml.Fault
import Runbook.Yaml.Graph
import Runbook.Yaml.Layout
import Runbook.Yaml.Merge
import Runbook.Yaml.PlainText
import Runbook.Yaml.Property
import Runbook.Yaml.QuotedText
import Runbook.Yaml.Reading
import Runbook.Yaml.Scalar
import Runbook.Yaml.Tag
import Runbook.Yaml.Token
import Runbook.Yaml.Value
