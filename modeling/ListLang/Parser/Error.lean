import ListLang.Diagnostic
import ListLang.Parser.Stack

/-!
# Errors of Reading

The ways in which reading an expression fails. A token may be out of place, or
the input may end too early; where it ends decides how that is worded.

## Main definitions

* `ParseError`: The ways in which reading fails.
* `ParseError.atEnd`: The error of an input that ends too early.
* `ParseError.report`: The wording of an error.
* `ParseError.diagnostic`: An error that does not stop the reading.
-/

namespace ListLang

/-- The ways in which reading an expression fails. -/
inductive ParseError where
  /-- A token on a line cannot stand where it stands. -/
  | unexpected (token : Token) (line : Int)
  /-- The input ends, on a line, in a list opened on another. -/
  | unclosedList (opened line : Int)
  /-- The input ends after a quote mark on a line. -/
  | nothingQuoted (line : Int)
  /-- The input ends, on a line, before an expression begins. -/
  | endOfInput (line : Int)
deriving DecidableEq

namespace ParseError

/-- The error of an input that ends on `line` with `stack` begun. -/
def atEnd (line : Int) : List Pending → ParseError
  | [] => .endOfInput line
  | .list opened _ :: _ => .unclosedList opened line
  | .quote mark :: _ => .nothingQuoted mark

/-- The line of the error. -/
def line : ParseError → Int
  | unexpected _ line | unclosedList _ line | nothingQuoted line | endOfInput line => line

/-- What went wrong. -/
def message : ParseError → String
  | unexpected token _ => "Unexpected token '" ++ token.text ++ "'"
  | unclosedList .. => "Missing closing parenthesis"
  | nothingQuoted _ | endOfInput _ => "Unexpected end of input"

/-- The wording of the error. -/
def report (e : ParseError) : Report :=
  match e with
  | unexpected token line =>
      { message := e.message
        received := some ("Token: " ++ token.text ++ " (type: " ++ token.kind ++ ")")
        expected := some "Integer, real, boolean, null, identifier, '(' or '"
        suggestion := some (match token with
          | .unknown _ => "Identifiers may only contain letters"
          | _ => "Remove the extra closing parenthesis")
        line := some line }
  | unclosedList opened line =>
      { message := e.message
        context := some ("List opened on line " ++ toString opened ++ " is never closed")
        suggestion := some "Add ')' to close the list"
        exampleText := some "Correct: (plus 1 2)\nIncorrect: (plus 1 2"
        line := some line }
  | nothingQuoted line =>
      { message := e.message
        received := some "Quote symbol ' with nothing to quote"
        expected := some "Expression after quote symbol"
        exampleText := some "Correct: '(a b c) or 'symbol"
        line := some line }
  | endOfInput line =>
      { message := e.message
        expected := some "An atom, literal, '(' or '"
        line := some line }

/-- The error as a diagnostic. -/
def diagnostic (e : ParseError) : Diagnostic :=
  { line := e.line, message := e.message, stage := readingStage }

end ParseError

end ListLang
