import Stepwise.Text.Alphabetic
import Stepwise.Text.Quoted
import Stepwise.Number.Numeral
import Stepwise.Prime
import Stepwise.Radical
import Stepwise.Expression.Basic
import Stepwise.Expression.Grammar
import Stepwise.Query.Canonical
import Stepwise.Query.Operation
import Stepwise.Explainer
import Stepwise.Session
import Stepwise.Terminal
import Stepwise.Settings
import Stepwise.Dialogue
import Stepwise.Json.Reader
import Stepwise.Json.Writer
import Stepwise.Document
import Stepwise.CommandLine.Run
import Stepwise.Main
import Stepwise.Proofs.Grammar.Derivation
import Stepwise.Proofs.Grammar.Completeness
import Stepwise.Proofs.Grammar.Expressions
import Stepwise.Proofs.OperationTexts
import Stepwise.Proofs.SingleOperation
import Stepwise.Proofs.Factorization
import Stepwise.Proofs.Simplification
import Stepwise.Proofs.Nearest
import Stepwise.Proofs.Approximation
import Stepwise.Proofs.Literals
import Stepwise.Proofs.Replacement
import Stepwise.Proofs.Rewriting
import Stepwise.Proofs.Routing
import Stepwise.Proofs.Phrasing
import Stepwise.Proofs.CanonicalForm
import Stepwise.Proofs.Cues
import Stepwise.Proofs.Synonyms
import Stepwise.Proofs.CueCoverage
import Stepwise.Proofs.TrialDivision
import Stepwise.Proofs.Outcomes
import Stepwise.Proofs.RootTraces
import Stepwise.Proofs.Finiteness
import Stepwise.Proofs.CompleteTraces
import Stepwise.Proofs.Numerals
import Stepwise.Proofs.HistoryLog
import Stepwise.Proofs.LineRequests
import Stepwise.Proofs.PastReplies
import Stepwise.Proofs.Json.Tokens
import Stepwise.Proofs.Json.Values
import Stepwise.Proofs.Json.Documents
import Stepwise.Proofs.SameNumber
import Stepwise.Proofs.PlainNumerals
import Stepwise.Proofs.Lines
import Stepwise.Proofs.Equations
import Stepwise.Proofs.ShownArithmetic
import Stepwise.Proofs.Replay
import Stepwise.Proofs.Grammar.Integers
import Stepwise.Proofs.IntegerArithmetic
import Stepwise.Proofs.TerminalValues
import Stepwise.Proofs.ExtractedPairs
import Stepwise.Proofs.RootTexts
import Stepwise.Proofs.Quantities
import Stepwise.Proofs.Radicands
import Stepwise.Proofs.Grammar.Prefixes
import Stepwise.Proofs.Respelling
import Stepwise.Proofs.Limits
import Stepwise.Proofs.WhiteSpace
import Stepwise.Proofs.ZeroDivisors
import Stepwise.Proofs.Primality
import Stepwise.Proofs.Reports
import Stepwise.Proofs.CommandLines
import Stepwise.Proofs.Json.Numbers
import Stepwise.Proofs.JsonAnswers
import Stepwise.Proofs.QuestionParts
