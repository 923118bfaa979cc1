import LineShell.Assignment
import LineShell.Command
import LineShell.Command.Registry
import LineShell.CommandLine
import LineShell.Config
import LineShell.Config.Store
import LineShell.Console
import LineShell.Decimal.Numeral
import LineShell.Decimal.Shortest
import LineShell.Decimal.Style
import LineShell.Entry
import LineShell.Entry.OfJson
import LineShell.Environment
import LineShell.Error
import LineShell.Expr
import LineShell.Expr.Error
import LineShell.Expr.Eval
import LineShell.Expr.Lexer
import LineShell.Expr.Operator
import LineShell.Expr.Parser
import LineShell.Expr.Token
import LineShell.Expr.Walk
import LineShell.FileSystem
import LineShell.History
import LineShell.Host
import LineShell.IndexedMap
import LineShell.Json
import LineShell.Json.Lexeme
import LineShell.Json.Raw
import LineShell.Json.Reader
import LineShell.LineBuffer
import LineShell.Main
import LineShell.Number
import LineShell.OrderedMap
import LineShell.Outcome
import LineShell.Outcome.OfLine
import LineShell.Path
import LineShell.Path.Expansion
import LineShell.Program
import LineShell.Proofs.Assignment
import LineShell.Proofs.Config.DefaultFile
import LineShell.Proofs.Config.HistoryFile
import LineShell.Proofs.Config.Init
import LineShell.Proofs.Config.KeptHistory
import LineShell.Proofs.Config.Saved
import LineShell.Proofs.Config.Written
import LineShell.Proofs.Console.Keys
import LineShell.Proofs.Console.Transcript
import LineShell.Proofs.Decimal.Shortest
import LineShell.Proofs.Decimal.Written
import LineShell.Proofs.Expr.Agreement
import LineShell.Proofs.Expr.Arithmetic
import LineShell.Proofs.Expr.Chains
import LineShell.Proofs.Expr.CharacterSet
import LineShell.Proofs.Expr.Completeness
import LineShell.Proofs.Expr.Depth
import LineShell.Proofs.Expr.Exactness
import LineShell.Proofs.Expr.Failures
import LineShell.Proofs.Expr.Grammar
import LineShell.Proofs.Expr.Height
import LineShell.Proofs.Expr.Lexemes
import LineShell.Proofs.Expr.Lexing
import LineShell.Proofs.Expr.Mentioned
import LineShell.Proofs.Expr.Numeric
import LineShell.Proofs.Expr.Parts
import LineShell.Proofs.Expr.Paths
import LineShell.Proofs.Expr.Remainder
import LineShell.Proofs.Expr.Renaming
import LineShell.Proofs.Expr.Soundness
import LineShell.Proofs.Expr.Walk
import LineShell.Proofs.Expr.Words
import LineShell.Proofs.FileSystem.Places
import LineShell.Proofs.FileSystem.Writing
import LineShell.Proofs.History
import LineShell.Proofs.History.Recall
import LineShell.Proofs.IndexedMap
import LineShell.Proofs.Json.Texts
import LineShell.Proofs.LineBuffer
import LineShell.Proofs.Machine
import LineShell.Proofs.Number.Canonical
import LineShell.Proofs.Number.Nearest
import LineShell.Proofs.Number.OfDecimal
import LineShell.Proofs.Number.Rank
import LineShell.Proofs.Number.Rounding
import LineShell.Proofs.OrderedMap
import LineShell.Proofs.Path.Steps
import LineShell.Proofs.Registry
import LineShell.Proofs.Sequence
import LineShell.Proofs.Session.Influence
import LineShell.Proofs.Session.Listing
import LineShell.Proofs.Session.Reading
import LineShell.Proofs.Session.Run
import LineShell.Proofs.Session.Submit
import LineShell.Proofs.Shell.Failure
import LineShell.Proofs.Shell.Rendering
import LineShell.Proofs.Shell.Reports
import LineShell.Proofs.Shell.Restart
import LineShell.Proofs.Shell.Run
import LineShell.Proofs.Skin
import LineShell.Proofs.Text.KeptLines
import LineShell.Proofs.Text.Pieces
import LineShell.Proofs.Text.Runs
import LineShell.Proofs.Text.Trimming
import LineShell.Proofs.Toml.Document
import LineShell.Proofs.Toml.Lines
import LineShell.Proofs.Toml.Quoted
import LineShell.Proofs.Toml.Scalars
import LineShell.Proofs.Value.Comparison
import LineShell.Proofs.Value.Floats
import LineShell.Proofs.Value.Literal
import LineShell.Session
import LineShell.Shell
import LineShell.Skin
import LineShell.Text.Blank
import LineShell.Text.CharClass
import LineShell.Text.Hex
import LineShell.Text.Lines
import LineShell.Text.Lowercase
import LineShell.Text.Pieces
import LineShell.Text.Quoted
import LineShell.Text.Utf8
import LineShell.Toml
import LineShell.Toml.Document
import LineShell.Toml.Line
import LineShell.Toml.Quoted
import LineShell.Toml.Quoted.Reader
import LineShell.Toml.Scalar
import LineShell.Value
import LineShell.Value.Json
import LineShell.Value.OfText
import LineShell.Variables
