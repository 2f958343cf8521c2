import ListLang.Check.Finding
import ListLang.Scope.Basic

/-!
# The State of a Check

A check keeps the scopes in sight and the problems found so far. Scopes come
and go with the parts of a program that they belong to; problems only pile up.

## Main definitions

* `Surroundings`: What could catch a `return` or a `break`.
* `Checking`: The scopes in sight and the problems found so far.
* `CheckM`: Checking, which changes both.
* `CheckM.note`, `CheckM.noteIf`, `CheckM.noteAll`: Noting problems.
* `CheckM.inScope`: Checking something inside a new scope.
-/

namespace ListLang

/-- What could catch a `return` or a `break` at some place of a program. -/
structure Surroundings where
  /-- A block surrounds the place. -/
  inProg : Bool := false
  /-- A loop surrounds the place. -/
  inWhile : Bool := false
  /-- The body of a function surrounds the place. -/
  inFunc : Bool := false

/-- The surroundings of the body of a function. Nothing outside it matters. -/
def Surroundings.body : Surroundings :=
  { inFunc := true }

/-- The scopes in sight, innermost first, and the problems found so far. -/
structure Checking where
  /-- The scopes in sight. -/
  chain : Chain
  /-- The problems found so far, `none` for one without words. -/
  found : List (Option Diagnostic) := []

/-- Checking changes the scopes in sight and adds to the problems found. -/
abbrev CheckM := StateM Checking

namespace CheckM

/-- Note a problem. -/
def note (line : Int) (f : Finding) : CheckM Unit :=
  modify fun s => { s with found := s.found ++ [f.on line] }

/-- Note a problem if there is one. -/
def noteIf (problem : Bool) (line : Int) (f : Finding) : CheckM Unit :=
  if problem then note line f else pure ()

/-- Note several problems on one line. -/
def noteAll (line : Int) (fs : List Finding) : CheckM Unit :=
  modify fun s => { s with found := s.found ++ fs.map (·.on line) }

/-- The scopes in sight. -/
def sight : CheckM Chain := do
  return (← get).chain

/-- Change the innermost scope. -/
def updateScope (f : Scope → Scope) : CheckM Unit :=
  modify fun s => { s with chain := match s.chain with
    | [] => []
    | scope :: outer => f scope :: outer }

/-- Check something inside a new scope, which is forgotten afterwards. -/
def inScope (scope : Scope) (x : CheckM Unit) : CheckM Unit := do
  modify fun s => { s with chain := scope :: s.chain }
  x
  modify fun s => { s with chain := s.chain.tail }

end CheckM

end ListLang
