import ListLang.Builtin.Apply
import ListLang.Builtin.Signature
import ListLang.Check.Basic
import ListLang.Check.Finding
import ListLang.Check.Infer
import ListLang.Check.Monad
import ListLang.Check.Problems
import ListLang.Diagnostic
import ListLang.Eval.Error
import ListLang.Eval.Evaluate
import ListLang.Eval.Exit
import ListLang.Eval.Session
import ListLang.Eval.Step
import ListLang.Expr
import ListLang.Number.Arithmetic
import ListLang.Number.Binary
import ListLang.Number.Numeral
import ListLang.Number.RealText
import ListLang.Number.Shortest
import ListLang.Optimize.DeadStore
import ListLang.Optimize.Fold
import ListLang.Optimize.Pass
import ListLang.Optimize.Rebound
import ListLang.Parser.Basic
import ListLang.Parser.Error
import ListLang.Parser.Stack
import ListLang.Program
import ListLang.Report
import ListLang.Scope.Basic
import ListLang.Scope.Graph
import ListLang.SpecialForm
import ListLang.Store
import ListLang.Table
import ListLang.Text.Blank
import ListLang.Text.CodeRange
import ListLang.Text.Letter
import ListLang.Text.Printable
import ListLang.Text.Quoted
import ListLang.Text.Similar
import ListLang.Token.Basic
import ListLang.Token.Lexer
import ListLang.Value
import ListLang.Proofs.Related
import ListLang.Proofs.Shape
import ListLang.Proofs.Simulation.Correspondence
import ListLang.Proofs.Simulation.Outcome
import ListLang.Proofs.Simulation.Call
import ListLang.Proofs.Literal
import ListLang.Proofs.Simulation.Step
import ListLang.Proofs.Moment
import ListLang.Proofs.Simulation.Run
import ListLang.Proofs.Quotation
import ListLang.Proofs.Rebound
import ListLang.Proofs.Folding
import ListLang.Proofs.DeadStore
import ListLang.Proofs.Compositional
import ListLang.Proofs.Confined
import ListLang.Proofs.Stopped
import ListLang.Proofs.Elimination
import ListLang.Proofs.Discipline.Basic
import ListLang.Proofs.Discipline.Call
import ListLang.Proofs.Discipline.Step
import ListLang.Proofs.WellUsed
import ListLang.Proofs.Vouch
import ListLang.Proofs.Misuse
import ListLang.Proofs.Frames
import ListLang.Proofs.Grammar
import ListLang.Proofs.Signatures
import ListLang.Proofs.StraightLine
import ListLang.Proofs.Alike
import ListLang.Proofs.Twin
import ListLang.Proofs.Lined
import ListLang.Proofs.Diagnosis
import ListLang.Proofs.Budget
import ListLang.Proofs.Loopless
import ListLang.Proofs.Concatenation
import ListLang.Proofs.Numerals
import ListLang.Proofs.Lexing
import ListLang.Proofs.Tokenizing
import ListLang.Proofs.RoundTrip
import ListLang.Proofs.BoundNames
import ListLang.Proofs.Marks.Basic
import ListLang.Proofs.Marks.Evaluation
import ListLang.Proofs.EvalQuote
import ListLang.Proofs.Failures
import ListLang.Proofs.Binds
import ListLang.Proofs.Globals
import ListLang.Proofs.FixedPoint
import ListLang.Proofs.Places
import ListLang.Proofs.Recovery
import ListLang.Proofs.Requests
import ListLang.Proofs.Links
