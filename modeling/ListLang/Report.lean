import ListLang.Expr

/-!
# Reports

What a failure tells the user: a message, and beside it whatever helps to mend
the program. A failure is known to the library by its cause; a report is how
the cause is worded.

## Main definitions

* `Report`: The wording of a failure.
* `Report.text`: A report as text, one remark to a line.
* `usage`: A short example of how to use a name.
-/

namespace ListLang

/-- The wording of a failure. -/
structure Report where
  /-- What went wrong. -/
  message : String
  /-- Where it went wrong, in words. -/
  context : Option String := none
  /-- What should have been there. -/
  expected : Option String := none
  /-- What was there. -/
  received : Option String := none
  /-- What to do about it. -/
  suggestion : Option String := none
  /-- How it is done right. -/
  exampleText : Option String := none
  /-- The line of the program. -/
  line : Option Int := none
deriving DecidableEq

/-- A remark under its heading, unless it is missing or empty. -/
def remark (heading : String) (content : Option String) : List String :=
  match content with
  | some s => if s.isEmpty then [] else [heading ++ ": " ++ s]
  | none => []

/-- A report as text, one remark to a line. Empty remarks are left out. -/
def Report.text (r : Report) : String :=
  "\n".intercalate
    (["Error: " ++ r.message]
      ++ (match r.line with | some n => ["Line: " ++ toString n] | none => [])
      ++ remark "Received" r.received
      ++ remark "Expected" r.expected
      ++ remark "Context" r.context
      ++ remark "Suggestion" r.suggestion
      ++ remark "Example" r.exampleText)

/-- The examples of builtins and special forms. -/
def usages : List (String × String) :=
  [("plus", "(plus 1 2) → 3"),
   ("minus", "(minus 5 2) → 3"),
   ("times", "(times 3 4) → 12"),
   ("divide", "(divide 3 2) → 1.5"),
   ("equal", "(equal 1 1) → true"),
   ("nonequal", "(nonequal 1 2) → true"),
   ("less", "(less 1 2) → true"),
   ("lesseq", "(lesseq 2 2) → true"),
   ("greater", "(greater 3 2) → true"),
   ("greatereq", "(greatereq 3 3) → true"),
   ("and", "(and true false) → false"),
   ("or", "(or true false) → true"),
   ("xor", "(xor true false) → true"),
   ("not", "(not true) → false"),
   ("head", "(head '(a b c)) → a"),
   ("tail", "(tail '(a b c)) → (b c)"),
   ("cons", "(cons 1 '(2 3)) → (1 2 3)"),
   ("isint", "(isint 3) → true"),
   ("isreal", "(isreal 3.0) → true"),
   ("isbool", "(isbool false) → true"),
   ("isnull", "(isnull null) → true"),
   ("isatom", "(isatom 'x) → true"),
   ("islist", "(islist '(1 2)) → true"),
   ("eval", "(eval '(plus 1 2)) → 3"),
   ("quote", "(quote (a b)) → (a b)"),
   ("setq", "(setq x 5) → 5"),
   ("func", "(func inc (x) (plus x 1))"),
   ("lambda", "((lambda (x) (times x x)) 4) → 16"),
   ("prog", "(prog (a) (setq a 1) (plus a 2)) → 3"),
   ("cond", "(cond (less 1 2) 100 200) → 100"),
   ("while", "(while (less i 3) (setq i (plus i 1)))"),
   ("return", "(prog () (return 99) 5) → 99"),
   ("break", "(while true (break)) → null")]

/-- A short example of how to use a name. -/
def usage (name : String) : String :=
  (usages.lookup name).getD ("(" ++ name ++ " ...)")

end ListLang
