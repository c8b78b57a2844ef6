import PrototypeScan.CommandLine.Arguments
import PrototypeScan.CommandLine.LogFilter
import PrototypeScan.CommandLine.Request
import PrototypeScan.CommandLine.Run
import PrototypeScan.CommandLine.Session
import PrototypeScan.CommandLine.Snapshot
import PrototypeScan.Concrete.Basic
import PrototypeScan.Concrete.Cursor
import PrototypeScan.Config.Basic
import PrototypeScan.Config.Conversion
import PrototypeScan.Config.Environment
import PrototypeScan.Config.Json
import PrototypeScan.Config.Load
import PrototypeScan.Config.Setting
import PrototypeScan.Config.Validation
import PrototypeScan.Estree.Document
import PrototypeScan.Files.Basic
import PrototypeScan.Files.Json
import PrototypeScan.Files.Listing
import PrototypeScan.Files.Path
import PrototypeScan.Finding.Basic
import PrototypeScan.Finding.Collector
import PrototypeScan.Finding.Json
import PrototypeScan.Grammar.Decision
import PrototypeScan.Grammar.ItemSet
import PrototypeScan.Grammar.Lexeme
import PrototypeScan.Grammar.Parse
import PrototypeScan.Grammar.Pattern
import PrototypeScan.Grammar.Phrase
import PrototypeScan.Grammar.Production
import PrototypeScan.JavaScript.Estree
import PrototypeScan.JavaScript.Grammar
import PrototypeScan.JavaScript.Grammar.Expression
import PrototypeScan.JavaScript.Grammar.Function
import PrototypeScan.JavaScript.Grammar.Markup
import PrototypeScan.JavaScript.Grammar.Module
import PrototypeScan.JavaScript.Grammar.Statement
import PrototypeScan.JavaScript.Layout
import PrototypeScan.JavaScript.Lexical
import PrototypeScan.JavaScript.Literal.Number
import PrototypeScan.JavaScript.Literal.Quoted
import PrototypeScan.Json.Basic
import PrototypeScan.Json.Cursor
import PrototypeScan.Json.Number
import PrototypeScan.Json.Quoted
import PrototypeScan.Json.Reader
import PrototypeScan.Json.Record
import PrototypeScan.Json.Skipped
import PrototypeScan.Json.Writer
import PrototypeScan.Main
import PrototypeScan.Number.Binary64
import PrototypeScan.Number.Decimal
import PrototypeScan.Program.Start
import PrototypeScan.Proofs.Finding.Collected
import PrototypeScan.Proofs.Scan.Reference
import PrototypeScan.Proofs.Tree.Preorder
import PrototypeScan.Provider.Basic
import PrototypeScan.Provider.Espree
import PrototypeScan.Provider.Select
import PrototypeScan.Rule.Basic
import PrototypeScan.Rule.Pollution
import PrototypeScan.Rule.Repository
import PrototypeScan.Scan.Error
import PrototypeScan.Scan.Report
import PrototypeScan.Scan.Scanner
import PrototypeScan.Scan.Tree
import PrototypeScan.Script.Basic
import PrototypeScan.Shell.Command
import PrototypeScan.Shell.Escape
import PrototypeScan.Shell.Reader
import PrototypeScan.Shell.Run
import PrototypeScan.Shell.Token
import PrototypeScan.Text.Escaped
import PrototypeScan.Text.Split
import PrototypeScan.Text.Units
import PrototypeScan.Text.Utf8
import PrototypeScan.Toml.Document
import PrototypeScan.Toml.Moment
import PrototypeScan.Toml.Quoted
import PrototypeScan.Toml.Scalar
import PrototypeScan.Toml.Table
import PrototypeScan.Tree.Basic
import PrototypeScan.Tree.Walk
import PrototypeScan.Proofs.JavaScript.Conversion
import PrototypeScan.Proofs.Estree.Node
import PrototypeScan.Proofs.Estree.Detection
import PrototypeScan.Proofs.Concrete.Subtrees
import PrototypeScan.Proofs.JavaScript.Filled
import PrototypeScan.Proofs.JavaScript.Reached
import PrototypeScan.Proofs.JavaScript.Converted
import PrototypeScan.Proofs.JavaScript.Detection
import PrototypeScan.Proofs.Finding.Filtered
import PrototypeScan.Proofs.Scan.Independence
import PrototypeScan.Proofs.Rule.Sensitive
import PrototypeScan.Proofs.Files.Listed
import PrototypeScan.Proofs.Scan.Directory
import PrototypeScan.Proofs.JavaScript.Spelling
import PrototypeScan.Proofs.Text.ByteOrder
import PrototypeScan.Proofs.Files.Complete
import PrototypeScan.Proofs.CommandLine.ExitCode
import PrototypeScan.Proofs.CommandLine.Formats
import PrototypeScan.Proofs.Config.Items
import PrototypeScan.Proofs.Config.Contributions
import PrototypeScan.Proofs.Config.Layered
import PrototypeScan.Proofs.Number.Numeral
import PrototypeScan.Proofs.JavaScript.Cooked
import PrototypeScan.Proofs.Json.Steps
import PrototypeScan.Proofs.Json.Tokens
import PrototypeScan.Proofs.Json.Written
import PrototypeScan.Proofs.Finding.Text
import PrototypeScan.Proofs.Text.Lines
import PrototypeScan.Proofs.Grammar.Points
import PrototypeScan.Proofs.JavaScript.Places
import PrototypeScan.Proofs.Config.Scalar
import PrototypeScan.Proofs.Config.Verbatim
import PrototypeScan.Proofs.Estree.Rendered
import PrototypeScan.Proofs.Json.TooDeep
import PrototypeScan.Proofs.Estree.Nested
import PrototypeScan.Proofs.JavaScript.Padded
import PrototypeScan.Proofs.JavaScript.Ordered
import PrototypeScan.Proofs.JavaScript.Counterparts
import PrototypeScan.Proofs.Tree.Measured
import PrototypeScan.Proofs.Scan.Limited
import PrototypeScan.Proofs.Finding.Operations
import PrototypeScan.Proofs.Tree.Edits
import PrototypeScan.Proofs.Text.Decoded
import PrototypeScan.Proofs.Text.Columns
import PrototypeScan.Proofs.Number.Spacing
import PrototypeScan.Proofs.Number.Nearest
import PrototypeScan.Proofs.Number.Whole
import PrototypeScan.Proofs.JavaScript.Integer
import PrototypeScan.Proofs.Tree.Yielded
