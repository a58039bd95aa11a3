import ScriptAudit.Check.Commands
import ScriptAudit.Check.Issue
import ScriptAudit.Check.Metadata
import ScriptAudit.Check.Naming
import ScriptAudit.Check.Patterns
import ScriptAudit.Check.Phases
import ScriptAudit.Check.Redaction
import ScriptAudit.Check.Review
import ScriptAudit.Check.Rules
import ScriptAudit.CommandLine.Answer
import ScriptAudit.CommandLine.Arguments
import ScriptAudit.CommandLine.Grammar
import ScriptAudit.CommandLine.Task
import ScriptAudit.CommandLine.Usage
import ScriptAudit.Document.Basic
import ScriptAudit.Document.Command
import ScriptAudit.Document.Frontmatter
import ScriptAudit.Document.Identifier
import ScriptAudit.Document.Layout
import ScriptAudit.Document.Metadata
import ScriptAudit.Document.Pattern
import ScriptAudit.Document.Script
import ScriptAudit.Document.Section
import ScriptAudit.Document.Variable
import ScriptAudit.Fault
import ScriptAudit.Files.Access
import ScriptAudit.Files.Path
import ScriptAudit.Files.Tree
import ScriptAudit.Json.Basic
import ScriptAudit.Json.Printer
import ScriptAudit.Json.Reader
import ScriptAudit.Main
import ScriptAudit.Number.Basic
import ScriptAudit.Number.Binary64
import ScriptAudit.Number.Fixed
import ScriptAudit.Number.Numeral
import ScriptAudit.Number.Rounding
import ScriptAudit.Number.Shortest
import ScriptAudit.Output.Analysis
import ScriptAudit.Output.Finding
import ScriptAudit.Output.Ranking
import ScriptAudit.Output.Remedy
import ScriptAudit.Output.Report
import ScriptAudit.Output.Result
import ScriptAudit.Output.Statistics
import ScriptAudit.Output.Trace
import ScriptAudit.Proofs.Text.Lines
import ScriptAudit.Proofs.Text.Words
import ScriptAudit.Proofs.Trace.Nesting
import ScriptAudit.Run.Configuration
import ScriptAudit.Run.Execution
import ScriptAudit.Run.Program
import ScriptAudit.Run.Runner
import ScriptAudit.Run.Session
import ScriptAudit.Suite
import ScriptAudit.Text.Basic
import ScriptAudit.Text.Case
import ScriptAudit.Text.CaseTables
import ScriptAudit.Text.Fill
import ScriptAudit.Text.Letter
import ScriptAudit.Text.Line
import ScriptAudit.Text.Quoted
import ScriptAudit.Text.Scan
import ScriptAudit.Text.Tables
import ScriptAudit.Text.Utf8
import ScriptAudit.Tool.Basic
import ScriptAudit.Tool.Prompt
import ScriptAudit.Yaml.Cursor
import ScriptAudit.Yaml.Loader
import ScriptAudit.Yaml.Node
import ScriptAudit.Yaml.Node.Reader
import ScriptAudit.Yaml.Standard
import ScriptAudit.Yaml.Tag
import ScriptAudit.Yaml.Timestamp
import ScriptAudit.Yaml.Token
import ScriptAudit.Yaml.Token.Block
import ScriptAudit.Yaml.Token.Fold
import ScriptAudit.Yaml.Token.Lexer
import ScriptAudit.Yaml.Token.Plain
import ScriptAudit.Yaml.Token.Quoted
import ScriptAudit.Yaml.Token.Tag
import ScriptAudit.Yaml.Value
import ScriptAudit.Yaml.Value.Meaning
import ScriptAudit.Yaml.Value.Scalar
import ScriptAudit.Proofs.Document.Frontmatter
import ScriptAudit.Proofs.Document.Layout
import ScriptAudit.Proofs.Document.Sections
import ScriptAudit.Proofs.Document.Blocks
import ScriptAudit.Proofs.Document.Boundary
import ScriptAudit.Proofs.Document.Commands
import ScriptAudit.Proofs.Document.Calls
import ScriptAudit.Proofs.Document.LineEnds
import ScriptAudit.Proofs.Text.Letter
import ScriptAudit.Proofs.Trace.Line
import ScriptAudit.Proofs.Trace.Entry
import ScriptAudit.Proofs.Trace.RoundTrip
import ScriptAudit.Proofs.Redaction.Finds
import ScriptAudit.Proofs.Redaction.Credentials
import ScriptAudit.Proofs.Redaction.Secrets
import ScriptAudit.Proofs.Text.Password
import ScriptAudit.Proofs.Veil.Basic
import ScriptAudit.Proofs.Veil.Command
import ScriptAudit.Proofs.Veil.Document
import ScriptAudit.Proofs.Veil.Review
import ScriptAudit.Proofs.Fault
import ScriptAudit.Proofs.Number.Range
import ScriptAudit.Proofs.Output.Reading
import ScriptAudit.Proofs.Output.Entries
import ScriptAudit.Proofs.Output.Answers
import ScriptAudit.Proofs.Text.Search
import ScriptAudit.Proofs.Output.Figures
import ScriptAudit.Proofs.Output.Kinds
import ScriptAudit.Proofs.Output.FailedCalls
import ScriptAudit.Proofs.Output.Echo
import ScriptAudit.Proofs.Output.Verdict
import ScriptAudit.Proofs.Number.Decimal
import ScriptAudit.Proofs.Output.Label
import ScriptAudit.Proofs.Output.Printing
import ScriptAudit.Proofs.Output.ErrorOutput
import ScriptAudit.Proofs.Yaml.Level
import ScriptAudit.Proofs.Yaml.Lawful
import ScriptAudit.Proofs.Check.Answers
import ScriptAudit.Proofs.Check.Codes
import ScriptAudit.Proofs.Check.Agreement
import ScriptAudit.Proofs.Suite
import ScriptAudit.Proofs.Run.Configuration
import ScriptAudit.Proofs.Run.History
import ScriptAudit.Proofs.Run.Rejection
import ScriptAudit.Proofs.Yaml.TypeOnly
import ScriptAudit.Proofs.Yaml.Hexadecimal
import ScriptAudit.Proofs.Document.TypeOnly
import ScriptAudit.Proofs.Check.Metadata
import ScriptAudit.Proofs.Run.Execution
import ScriptAudit.Proofs.Files.Listing
import ScriptAudit.Proofs.CommandLine.Answer
import ScriptAudit.Proofs.Files.Sweep
import ScriptAudit.Proofs.Files.Opening
import ScriptAudit.Proofs.Textual
import ScriptAudit.Proofs.Run.Opening
import ScriptAudit.Proofs.CommandLine.Tasks
import ScriptAudit.Proofs.Surface
import ScriptAudit.Proofs.Trace.Callers
import ScriptAudit.Proofs.Document.Phrase
import ScriptAudit.Proofs.Document.Condition
import ScriptAudit.Proofs.Document.Pattern
import ScriptAudit.Proofs.Check.Patterns
import ScriptAudit.Proofs.Check.Naming
import ScriptAudit.Proofs.Check.Phases
import ScriptAudit.Proofs.Text.WholeWord
import ScriptAudit.Proofs.Document.Heading
import ScriptAudit.Proofs.Check.Contents
import ScriptAudit.Proofs.Json.Strings
import ScriptAudit.Proofs.Json.Layout
import ScriptAudit.Proofs.Json.Reading
import ScriptAudit.Proofs.Json.Places
import ScriptAudit.Proofs.Number.Bits
import ScriptAudit.Proofs.Output.Array
import ScriptAudit.Proofs.Output.Averages
import ScriptAudit.Proofs.Output.SlowCalls
import ScriptAudit.Proofs.Output.Exceptions
import ScriptAudit.Proofs.Output.FileName
import ScriptAudit.Proofs.Redaction.Query
import ScriptAudit.Proofs.Check.Spelling
import ScriptAudit.Proofs.Redaction.Arguments
import ScriptAudit.Proofs.Run.Precedence
import ScriptAudit.Proofs.Run.Quoting
import ScriptAudit.Proofs.Document.Heads
import ScriptAudit.Proofs.Document.Continuation
import ScriptAudit.Proofs.Document.Identifier
import ScriptAudit.Proofs.Document.Variables
import ScriptAudit.Proofs.Document.Fences
import ScriptAudit.Proofs.Document.Inline
import ScriptAudit.Proofs.Document.Comments
import ScriptAudit.Proofs.Document.WellFormed
