import ListLang.Report

/-!
# Diagnostics

A problem found while reading or checking a program, which does not stop the
reading or the checking.

## Main definitions

* `Diagnostic`: A problem with its line and the stage that found it.
* `Diagnostic.text`: A diagnostic as text.
* `Diagnostic.summary`: The report that refuses a program with diagnostics.
-/

namespace ListLang

/-- The stage that reads programs. -/
def readingStage : String := "syntax"

/-- The stage that checks programs. -/
def checkingStage : String := "semantic"

/-- A problem that does not stop the stage that found it. -/
structure Diagnostic where
  /-- The line of the program. -/
  line : Int
  /-- What is wrong. -/
  message : String
  /-- The stage that found it. -/
  stage : String := checkingStage
deriving DecidableEq

/-- A word with its first letter in upper case and the others in lower case.
    Only letters of the basic Latin alphabet have a case here. -/
def capitalized (s : String) : String :=
  match s.toList with
  | [] => ""
  | c :: cs => String.ofList (c.toUpper :: cs.map Char.toLower)

/-- A diagnostic as text. -/
def Diagnostic.text (d : Diagnostic) : String :=
  "Line " ++ toString d.line ++ ": " ++ capitalized d.stage ++ " error: " ++ d.message

/-- The report that refuses a program with diagnostics. -/
def Diagnostic.summary (ds : List Diagnostic) : Report :=
  { message := "Program has " ++ toString ds.length ++ " diagnostic(s)"
    context := some ("\n".intercalate (ds.map text))
    suggestion := some "Fix the reported problems or disable strict mode"
    line := ds.head?.map (·.line) }

end ListLang
