import ListLang.Builtin.Signature
import ListLang.Report
import ListLang.SpecialForm
import ListLang.Value

/-!
# Evaluation Errors

Every way in which evaluation fails, with what is needed to word it. A value
enters an error only through its text and kind, so an error never keeps a
function alive and two errors with equal causes have equal reports.

What an error shows may be impossible to write. Then the error has no words. It
leaves evaluation the way it would have left with them, and whoever reports it
has to say instead that there are none. Builtins do so on the spot.

## Main definitions

* `Shown`: A value as an error shows it.
* `EvalCause`: The ways in which evaluation fails.
* `EvalCause.isWorded`: Whether all that a cause shows could be written.
* `EvalCause.about`: What a builtin has to say about an argument.
* `EvalError`: A cause with the line it is known to belong to.
* `EvalError.report`: The wording of an error.
* `Value.toCode`: A value as an expression, with an error for a function.
-/

namespace ListLang

/-- A value as an error shows it. -/
structure Shown where
  /-- The text of the value, if it can be written. -/
  text : Option String
  /-- The kind of the value. -/
  kind : Kind
deriving DecidableEq

/-- A value as an error shows it. -/
def Value.shown (v : Value) : Shown :=
  ⟨v.text?, v.kind⟩

/-- Text and kind in one line. -/
def Shown.line (s : Shown) : Option String :=
  s.text.map fun text => text ++ " (" ++ s.kind.name ++ ")"

/-- The ways in which evaluation fails. -/
inductive EvalCause where
  /-- Evaluation of an expression would go deeper than the limit. -/
  | tooDeep (limit : Int) (exprText : Option String)
  /-- A name has no value; other names are similar to it. -/
  | undefinedAtom (name : String) (similar : List String)
  /-- A special form is not written as it should be. -/
  | malformed (form : SpecialForm) (exprText : Option String)
  /-- A special form has something other than atoms where it binds names. -/
  | namesExpected (form : SpecialForm) (exprText : Option String)
  /-- The condition of a special form is no truth value. -/
  | conditionKind (form : SpecialForm) (got : Shown)
  /-- The head of a list evaluates to something that cannot be called. -/
  | headNotFunction (got : Shown)
  /-- The name at the head of a list has a value that cannot be called. -/
  | notFunction (name : String) (got : Shown)
  /-- The name at the head of a list has no value; other names are similar. -/
  | undefinedFunction (name : String) (similar : List String)
  /-- A builtin is called with the wrong number of arguments. -/
  | builtinArity (b : Builtin) (args : List (Option String))
  /-- A function is called with the wrong number of arguments. -/
  | functionArity (name : Option String) (params : List String) (args : List (Option String))
  /-- A return left the top level. -/
  | strayReturn
  /-- A break left the top level. -/
  | strayBreak
  /-- A break left the body of a function. -/
  | breakEscaped (functionText : String)
  /-- A list to be evaluated holds a function. -/
  | functionInCode (functionText : String)
  /-- An argument of arithmetic is no number. -/
  | notNumber (op : Arithmetic) (position : Nat) (got : Shown)
  /-- An argument of a comparison is neither number nor truth value. -/
  | notComparable (op : Comparison) (position : Nat) (got : Shown)
  /-- An argument of a builtin on truth values is none. -/
  | notBoolean (b : Builtin) (position : Nat) (got : Shown)
  /-- An argument of a builtin on lists is none. -/
  | notList (b : Builtin) (position : Nat) (got : Shown)
  /-- An integer argument lies beyond the reals. -/
  | integerTooLarge (b : Builtin) (position bits : Nat)
  /-- A division by zero. -/
  | divisionByZero (divisor : Float)
  /-- The head of an empty list was asked for. -/
  | headOfEmpty
  /-- A builtin found no words for what is wrong with an argument. -/
  | builtinUnworded (b : Builtin)
  /-- There were no words for an error in the form with the given text. -/
  | unexpected (exprText : String) (cause : EvalCause)
deriving DecidableEq

/-- Texts separated by blanks, or a remark that there are none. -/
def joinedOrNone (texts : List String) : String :=
  let joined := " ".intercalate texts
  if joined.isEmpty then "(none)" else joined

/-- The arguments of a call as an error shows them. -/
def argumentsText (args : List (Option String)) : Option String :=
  (args.mapM id).map fun texts => "Arguments provided: " ++ joinedOrNone texts

/-- What to do about an error that should not be one of the program. -/
def reportIt : String :=
  "This is an internal error - please report this issue"

/-- A question for similar names, or else the given advice. -/
def didYouMean (similar : List String) (otherwise : String) : String :=
  if similar.isEmpty then otherwise
  else "Did you mean: " ++ ", ".intercalate similar ++ "?"

/-- An argument as an error shows it. -/
def argumentText (position : Nat) (content : String) : String :=
  "Argument " ++ toString position ++ ": " ++ content

/-- The wording of an argument of the wrong kind. -/
def typeMismatch (b : Builtin) (requirement : String) (position : Nat) (got : Shown)
    (expected : String) : Report :=
  { message := "Type mismatch: '" ++ b.name ++ "' requires " ++ requirement
    received := got.line.map (argumentText position)
    expected := some expected
    exampleText := some (usage b.name) }

namespace EvalCause

/-- The wording of a cause. What cannot be written is missing from it. -/
def report : EvalCause → Report
  | tooDeep limit exprText =>
      { message := "Expression too deeply nested (max depth: " ++ toString limit ++ ")"
        context := exprText.map ("While evaluating: " ++ ·)
        suggestion := some
          "Check that recursive functions have a reachable base case, or increase max_depth" }
  | undefinedAtom name similar =>
      { message := "Undefined atom: '" ++ name ++ "'"
        suggestion := some (didYouMean similar
          ("Bind '" ++ name ++ "' with setq before using it, or quote it: '" ++ name))
        exampleText := some ("(setq " ++ name ++ " 5)") }
  | malformed form exprText =>
      { message := "Malformed " ++ form.name ++ " form"
        received := exprText
        expected := some form.shape
        exampleText := some (usage form.name) }
  | namesExpected form exprText =>
      { message := "Malformed " ++ form.name ++ " form"
        received := exprText
        expected := some "A list of atoms"
        exampleText := some (usage form.name) }
  | conditionKind form got =>
      { message := form.name ++ " condition must be a boolean"
        received := got.line.map ("Condition value: " ++ ·)
        expected := some "true or false"
        exampleText := some (usage form.name) }
  | headNotFunction got =>
      { message := "Cannot call non-function value"
        received := got.line.map ("Head evaluated to: " ++ ·)
        expected := some "An expression that evaluates to a function"
        exampleText := some (usage "lambda") }
  | notFunction name got =>
      { message := "'" ++ name ++ "' is not a function"
        received := got.line.map ("'" ++ name ++ "' is bound to " ++ ·)
        expected := some "A function defined with func or lambda, or a builtin" }
  | undefinedFunction name similar =>
      { message := "Undefined function '" ++ name ++ "'"
        suggestion := some (didYouMean similar
          ("Define it first with (func " ++ name ++ " (params) body)"))
        exampleText := some (usage "func") }
  | builtinArity b args =>
      { message := "Function '" ++ b.name ++ "' expects " ++ toString b.arity
          ++ " argument(s), got " ++ toString args.length
        received := argumentsText args
        exampleText := some (usage b.name) }
  | functionArity name params args =>
      { message := "Function '" ++ name.getD "<lambda>" ++ "' expects " ++ toString params.length
          ++ " argument(s), got " ++ toString args.length
        received := argumentsText args
        expected := some ("Parameters expected: " ++ joinedOrNone params)
        suggestion := some ("Provide exactly " ++ toString params.length ++ " argument"
          ++ if params.length = 1 then "" else "s") }
  | strayReturn =>
      { message := "return used outside of prog or function"
        suggestion := some "Only use return inside a prog block or a function body"
        exampleText := some (usage "return") }
  | strayBreak =>
      { message := "break used outside of while"
        suggestion := some "Only use break inside the body of a while loop"
        exampleText := some (usage "break") }
  | breakEscaped functionText =>
      { message := "break used outside of while"
        context := some ("break escaped the body of " ++ functionText)
        suggestion := some "Only use break inside the body of a while loop"
        exampleText := some (usage "break") }
  | functionInCode functionText =>
      { message := "Cannot convert a function value back into an expression"
        received := some ("Value: " ++ functionText)
        expected := some "A list built from atoms, numbers, booleans, null and lists"
        suggestion := some
          "Call the function directly instead of building a list around it for eval"
        exampleText := some (usage "eval") }
  | notNumber op position got =>
      typeMismatch (.arithmetic op) "numeric arguments" position got "Integer or real"
  | notComparable op position got =>
      typeMismatch (.comparison op) "numeric or boolean arguments" position got
        "Integer, real or boolean"
  | notBoolean b position got =>
      typeMismatch b "boolean arguments" position got "true or false"
  | notList b position got => typeMismatch b "a list" position got "List"
  | integerTooLarge b position bits =>
      { message := "Integer too large for '" ++ b.name ++ "'"
        received := some (argumentText position ("an integer of " ++ toString bits ++ " bits"))
        expected := some "A number within the range of a real"
        exampleText := some (usage b.name) }
  | divisionByZero divisor =>
      { message := "Division by zero"
        received := some ("Divisor: " ++ realText divisor)
        suggestion := some "Check the divisor before dividing, e.g. with cond and nonequal"
        exampleText := some "(cond (nonequal d 0) (divide n d) 0)" }
  | headOfEmpty =>
      { message := "Cannot get head of empty list"
        received := some "Empty list: ()"
        suggestion := some "Check the list with islist or compare it before taking its head"
        exampleText := some (usage "head") }
  | builtinUnworded b =>
      { message := "Error in built-in function '" ++ b.name ++ "'"
        context := some digitsRefused
        suggestion := some reportIt }
  | unexpected exprText _ =>
      { message := "Unexpected error during evaluation: " ++ digitsRefused
        context := some ("While evaluating: " ++ exprText)
        suggestion := some reportIt }

/-- Whether all that the cause shows could be written. -/
def isWorded : EvalCause → Bool
  | tooDeep limit exprText => ListLang.isWritable limit && exprText.isSome
  | malformed _ exprText | namesExpected _ exprText => exprText.isSome
  | conditionKind _ got | headNotFunction got | notFunction _ got | notNumber _ _ got
  | notComparable _ _ got | notBoolean _ _ got | notList _ _ got => got.text.isSome
  | builtinArity _ args | functionArity _ _ args => args.all Option.isSome
  | undefinedAtom .. | undefinedFunction .. | strayReturn | strayBreak | breakEscaped _
  | functionInCode _ | integerTooLarge .. | divisionByZero _ | headOfEmpty
  | builtinUnworded _ | unexpected .. => true

/-- What the builtin `b` has to say about an argument that it shows. -/
def about (b : Builtin) (got : Shown) (cause : Shown → EvalCause) : EvalCause :=
  if got.text.isSome then cause got else builtinUnworded b

/-- Whether the cause is the limit on depth, with words for it or without. -/
def isTooDeep : EvalCause → Bool
  | tooDeep .. => true
  | unexpected _ cause => cause.isTooDeep
  | _ => false

end EvalCause

/-- A cause with the line it is known to belong to. -/
structure EvalError where
  /-- What went wrong. -/
  cause : EvalCause
  /-- The line of the program, if it is known. -/
  line : Option Int := none
deriving DecidableEq

/-- A value as an expression. A function in it is an error. -/
def Value.toCode (line : Option Int) (v : Value) : Except EvalCause Expr :=
  (v.toExpr line).mapError fun f => .functionInCode f.text

/-- The wording of an error. -/
def EvalError.report (e : EvalError) : Report :=
  { e.cause.report with line := e.line }

end ListLang
