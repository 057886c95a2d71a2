import ScriptFrontend.Vocabulary
import ScriptFrontend.Span
import ScriptFrontend.Text.Bytes
import ScriptFrontend.Text.Quoted
import ScriptFrontend.Number.Binary64
import ScriptFrontend.Number.Decimal
import ScriptFrontend.Token.Basic
import ScriptFrontend.Token.Lexeme
import ScriptFrontend.Token.Cursor
import ScriptFrontend.Token.Stream
import ScriptFrontend.Token.Reader
import ScriptFrontend.Tree.Basic
import ScriptFrontend.Tree.Equality
import ScriptFrontend.Tree.Nodes
import ScriptFrontend.Tree.Render
import ScriptFrontend.Diagnostic
import ScriptFrontend.Trace
import ScriptFrontend.Proofs.Text.Slice
import ScriptFrontend.Proofs.Lexeme.Grammar
import ScriptFrontend.Proofs.Lexeme.Scan
import ScriptFrontend.Proofs.Lexeme.Shape
import ScriptFrontend.Proofs.Number.Run
import ScriptFrontend.Proofs.Tokenize.Reading
import ScriptFrontend.Proofs.Tokenize.Tiling
import ScriptFrontend.Proofs.Tokenize.MaximalMunch
import ScriptFrontend.Proofs.Diagnostic.Fault
import ScriptFrontend.Proofs.Diagnostic.FaultList
import ScriptFrontend.Proofs.Tokenize.Concatenation
import ScriptFrontend.Proofs.Stream.Upcoming
import ScriptFrontend.Proofs.Tokenize.Quotes
import ScriptFrontend.Proofs.Stream.History
import ScriptFrontend.Proofs.Tokenize.Spelling
import ScriptFrontend.Proofs.Tree.Leaves
import ScriptFrontend.Proofs.Tree.Written
import ScriptFrontend.Proofs.Tree.Rendering
import ScriptFrontend.Proofs.Tree.Forget
import ScriptFrontend.Proofs.Tree.Reader
import ScriptFrontend.Proofs.Tree.Unambiguous
import ScriptFrontend.Proofs.Vocabulary.Agreement
import ScriptFrontend.Proofs.Number.Integer
import ScriptFrontend.Proofs.Tree.Conversion
import ScriptFrontend.Proofs.Tokenize.Continuation
import ScriptFrontend.Proofs.Tree.Relabeling
import ScriptFrontend.Proofs.Number.SignedText
import ScriptFrontend.Proofs.Tree.Brackets
import ScriptFrontend.Proofs.Tokenize.Respacing
import ScriptFrontend.Proofs.Stream.Lookahead
import ScriptFrontend.Proofs.Stream.Resumption
import ScriptFrontend.Proofs.Number.SameNumber
import ScriptFrontend.Proofs.Tree.RelabeledNodes
import ScriptFrontend.Proofs.Tree.Equality
import ScriptFrontend.Proofs.Diagnostic.Exact
import ScriptFrontend.Proofs.Trace.Truth
import ScriptFrontend.Proofs.Stream.Progress
