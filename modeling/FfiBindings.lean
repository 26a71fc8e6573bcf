import FfiBindings.Binding.Basic
import FfiBindings.Binding.FfiType
import FfiBindings.Binding.Platform
import FfiBindings.Binding.Template
import FfiBindings.Binding.TemplateFile
import FfiBindings.Binding.TypeTable
import FfiBindings.CommandLine.Help
import FfiBindings.CommandLine.Invocation
import FfiBindings.CommandLine.Listing
import FfiBindings.CommandLine.Program
import FfiBindings.CommandLine.Switch
import FfiBindings.CommandLine.Word
import FfiBindings.Config.Basic
import FfiBindings.Config.Load
import FfiBindings.Config.Settings
import FfiBindings.Decimal.Notation
import FfiBindings.Decimal.Shortest
import FfiBindings.Generation.Pool
import FfiBindings.Generation.Run
import FfiBindings.Generation.Task
import FfiBindings.Index.Merge
import FfiBindings.Index.Update
import FfiBindings.Journal
import FfiBindings.Main
import FfiBindings.Path
import FfiBindings.Proofs.Binding.Declared
import FfiBindings.Proofs.Binding.Interpolation
import FfiBindings.Proofs.Binding.Layers
import FfiBindings.Proofs.Binding.Literal
import FfiBindings.Proofs.Binding.Reading
import FfiBindings.Proofs.Binding.TypeTable
import FfiBindings.Proofs.CommandLine.Strict
import FfiBindings.Proofs.Config.Load
import FfiBindings.Proofs.Config.Usable
import FfiBindings.Proofs.Generation.Accounting
import FfiBindings.Proofs.Generation.Again
import FfiBindings.Proofs.Generation.Aliases
import FfiBindings.Proofs.Generation.Alone
import FfiBindings.Proofs.Generation.Complete
import FfiBindings.Proofs.Generation.Distinct
import FfiBindings.Proofs.Generation.Ending
import FfiBindings.Proofs.Generation.Entries
import FfiBindings.Proofs.Generation.Frame
import FfiBindings.Proofs.Generation.Kept
import FfiBindings.Proofs.Generation.KnownText
import FfiBindings.Proofs.Generation.Merging
import FfiBindings.Proofs.Generation.Module
import FfiBindings.Proofs.Generation.Outcome
import FfiBindings.Proofs.Generation.Parallel
import FfiBindings.Proofs.Generation.PastedKey
import FfiBindings.Proofs.Generation.Pool
import FfiBindings.Proofs.Generation.Preview
import FfiBindings.Proofs.Generation.Quiet
import FfiBindings.Proofs.Generation.Reported
import FfiBindings.Proofs.Generation.Run
import FfiBindings.Proofs.Generation.Settled
import FfiBindings.Proofs.Generation.Supported
import FfiBindings.Proofs.Generation.Unsupported
import FfiBindings.Proofs.Generation.Work
import FfiBindings.Proofs.Index.Alike
import FfiBindings.Proofs.Index.Failure
import FfiBindings.Proofs.Index.Frame
import FfiBindings.Proofs.Index.History
import FfiBindings.Proofs.Index.Idempotence
import FfiBindings.Proofs.Index.LineEnding
import FfiBindings.Proofs.Index.Merge
import FfiBindings.Proofs.Index.Update
import FfiBindings.Proofs.Journal
import FfiBindings.Proofs.JournalHistory
import FfiBindings.Proofs.Lengthening
import FfiBindings.Proofs.Path
import FfiBindings.Proofs.Rust.Access
import FfiBindings.Proofs.Rust.Arity
import FfiBindings.Proofs.Rust.BlockHeader
import FfiBindings.Proofs.Rust.Characters
import FfiBindings.Proofs.Rust.Exports
import FfiBindings.Proofs.Rust.Grammar
import FfiBindings.Proofs.Rust.GroupMatching
import FfiBindings.Proofs.Rust.Items
import FfiBindings.Proofs.Rust.Joint
import FfiBindings.Proofs.Rust.Lexeme
import FfiBindings.Proofs.Rust.LineJoin
import FfiBindings.Proofs.Rust.Literal
import FfiBindings.Proofs.Rust.LiteralBlind
import FfiBindings.Proofs.Rust.Lossless
import FfiBindings.Proofs.Rust.Nesting
import FfiBindings.Proofs.Rust.Pattern
import FfiBindings.Proofs.Rust.Places
import FfiBindings.Proofs.Rust.Positions
import FfiBindings.Proofs.Rust.Remainder
import FfiBindings.Proofs.Rust.Respelling
import FfiBindings.Proofs.Rust.ReturnType
import FfiBindings.Proofs.Rust.Signature
import FfiBindings.Proofs.Rust.Splitting
import FfiBindings.Proofs.Rust.Truncation
import FfiBindings.Proofs.Rust.TypeGrammar
import FfiBindings.Proofs.Rust.TypeText
import FfiBindings.Proofs.Rust.WholeLiteral
import FfiBindings.Proofs.Source.Discovery
import FfiBindings.Proofs.Source.Exact
import FfiBindings.Proofs.Source.Excluded
import FfiBindings.Proofs.Source.Module
import FfiBindings.Proofs.Source.Output
import FfiBindings.Proofs.Source.Scan
import FfiBindings.Proofs.Source.Suffix
import FfiBindings.Proofs.Text.Line
import FfiBindings.Proofs.Tree.Change
import FfiBindings.Proofs.Tree.Likeness
import FfiBindings.Proofs.Tree.Making
import FfiBindings.Proofs.Tree.Names
import FfiBindings.Proofs.Tree.Plain
import FfiBindings.Proofs.Tree.Proper
import FfiBindings.Proofs.Tree.Refusal
import FfiBindings.Proofs.Tree.Sight
import FfiBindings.Proofs.Tree.Way
import FfiBindings.Report
import FfiBindings.Rust.Bracket
import FfiBindings.Rust.Item
import FfiBindings.Rust.Lexeme
import FfiBindings.Rust.Signature
import FfiBindings.Rust.SourceError
import FfiBindings.Rust.Spelling
import FfiBindings.Rust.Token
import FfiBindings.Source.IgnoreRule
import FfiBindings.Source.Language
import FfiBindings.Source.Module
import FfiBindings.Source.Scan
import FfiBindings.Text.AsciiQuoted
import FfiBindings.Text.Base64
import FfiBindings.Text.Blank
import FfiBindings.Text.CaseTable
import FfiBindings.Text.CodeRange
import FfiBindings.Text.FloatNumeral
import FfiBindings.Text.Glob
import FfiBindings.Text.HiddenTable
import FfiBindings.Text.Line
import FfiBindings.Text.LowerCase
import FfiBindings.Text.Numeral
import FfiBindings.Text.Quoted
import FfiBindings.Text.Utf8
import FfiBindings.Text.Word
import FfiBindings.Text.WordTable
import FfiBindings.Tree.Basic
import FfiBindings.Tree.Disk
import FfiBindings.Yaml.Cursor
import FfiBindings.Yaml.Document
import FfiBindings.Yaml.Fault
import FfiBindings.Yaml.Node
import FfiBindings.Yaml.Scalar
import FfiBindings.Yaml.Schema
import FfiBindings.Yaml.Timestamp
import FfiBindings.Yaml.Token.Basic
import FfiBindings.Yaml.Token.Lexer
import FfiBindings.Yaml.Token.Scalar
import FfiBindings.Yaml.Token.Tag
import FfiBindings.Yaml.Value
