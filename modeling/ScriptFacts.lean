import ScriptFacts.Arena.Basic
import ScriptFacts.Arena.Display
import ScriptFacts.Arena.Layout
import ScriptFacts.Arena.Node
import ScriptFacts.Arena.Postorder
import ScriptFacts.Arena.Reach
import ScriptFacts.Arena.Renaming
import ScriptFacts.Arena.Signature
import ScriptFacts.Arena.Term
import ScriptFacts.Command.Arguments
import ScriptFacts.Command.Files
import ScriptFacts.Command.Grammar
import ScriptFacts.Command.Log
import ScriptFacts.Command.Path
import ScriptFacts.Command.Run
import ScriptFacts.Fact.Basic
import ScriptFacts.Fact.ByteWriter
import ScriptFacts.Fact.Export
import ScriptFacts.Fact.Exporter
import ScriptFacts.Fact.Numbering
import ScriptFacts.Fact.Preorder
import ScriptFacts.Fact.References
import ScriptFacts.Fact.Sink
import ScriptFacts.Fact.Trace
import ScriptFacts.Main
import ScriptFacts.Program.ArenaReader
import ScriptFacts.Program.Descent
import ScriptFacts.Program.ExprReader
import ScriptFacts.Program.Grammar
import ScriptFacts.Program.Machine
import ScriptFacts.Program.Printer
import ScriptFacts.Program.Refusal
import ScriptFacts.Program.Source
import ScriptFacts.Program.Span
import ScriptFacts.Program.StmtReader
import ScriptFacts.Program.Tree
import ScriptFacts.Proofs.Arena.Depth
import ScriptFacts.Proofs.Arena.Display
import ScriptFacts.Proofs.Arena.Postorder
import ScriptFacts.Proofs.Arena.Readable
import ScriptFacts.Proofs.Arena.Sorts
import ScriptFacts.Proofs.Arena.Unfold
import ScriptFacts.Proofs.Arena.Unquoted
import ScriptFacts.Proofs.Command.Arguments
import ScriptFacts.Proofs.Command.DefaultOutput
import ScriptFacts.Proofs.Command.Files
import ScriptFacts.Proofs.Command.Outcome
import ScriptFacts.Proofs.Command.Path
import ScriptFacts.Proofs.Fact.ByteWriter
import ScriptFacts.Proofs.Fact.Dangling
import ScriptFacts.Proofs.Fact.Determined
import ScriptFacts.Proofs.Fact.Exporter
import ScriptFacts.Proofs.Fact.FromText
import ScriptFacts.Proofs.Fact.Identifiers
import ScriptFacts.Proofs.Fact.Legend
import ScriptFacts.Proofs.Fact.Numbering
import ScriptFacts.Proofs.Fact.Readable
import ScriptFacts.Proofs.Fact.Rebuild
import ScriptFacts.Proofs.Fact.Recursion
import ScriptFacts.Proofs.Fact.References
import ScriptFacts.Proofs.Fact.Renaming
import ScriptFacts.Proofs.Fact.Sharing
import ScriptFacts.Proofs.Fact.Sources
import ScriptFacts.Proofs.Fact.Writing
import ScriptFacts.Proofs.Program.Completeness
import ScriptFacts.Proofs.Program.Derivation
import ScriptFacts.Proofs.Program.Descent
import ScriptFacts.Proofs.Program.ExactGrammar
import ScriptFacts.Proofs.Program.FirstFault
import ScriptFacts.Proofs.Program.Formatting
import ScriptFacts.Proofs.Program.Lookahead
import ScriptFacts.Proofs.Program.Machine
import ScriptFacts.Proofs.Program.NestingLimit
import ScriptFacts.Proofs.Program.OnePass
import ScriptFacts.Proofs.Program.Outcome
import ScriptFacts.Proofs.Program.Parentheses
import ScriptFacts.Proofs.Program.RoundTrip
import ScriptFacts.Proofs.Program.Soundness
import ScriptFacts.Proofs.Token.Cursor
import ScriptFacts.Proofs.Token.Insertion
import ScriptFacts.Proofs.Token.Locations
import ScriptFacts.Proofs.Token.MaximalMunch
import ScriptFacts.Proofs.Token.Newline
import ScriptFacts.Proofs.Token.Places
import ScriptFacts.Proofs.Token.Spelling
import ScriptFacts.Proofs.Token.Splits
import ScriptFacts.Proofs.Token.Written
import ScriptFacts.SyntaxError
import ScriptFacts.Text.Alphanumeric
import ScriptFacts.Text.Blank
import ScriptFacts.Text.CodePoint
import ScriptFacts.Text.Location
import ScriptFacts.Text.Terminal
import ScriptFacts.Token.Basic
import ScriptFacts.Token.Cursor
import ScriptFacts.Token.Grammar
import ScriptFacts.Token.Lexeme
import ScriptFacts.Token.Spacing
import ScriptFacts.Token.Stream
