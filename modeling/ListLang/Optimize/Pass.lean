import ListLang.Optimize.DeadStore
import ListLang.Optimize.Fold

/-!
# Optimization

The passes over a program before it is run. Each gives one form for one form and
keeps the lines of the forms.

## Main definitions

* `Pass`: The passes.
* `Pass.run`: One pass over a program.
* `Pass.selected`: The passes with the given names.
* `optimize`: Several passes, one after another.
-/

namespace ListLang

/-- The passes over a program. -/
inductive Pass where
  /-- Computing calls on literals in advance. -/
  | constantFolding
  /-- Dropping assignments to names that are never used. -/
  | deadStoreElimination
deriving DecidableEq

namespace Pass

/-- Every pass, in the order in which they are applied. -/
def all : List Pass :=
  [constantFolding, deadStoreElimination]

/-- The name by which a pass is selected. -/
def name : Pass → String
  | constantFolding => "constant_folding"
  | deadStoreElimination => "dead_store_elimination"

/-- The pass with the given name. -/
def ofName? (s : String) : Option Pass :=
  all.find? fun p => p.name == s

/-- The passes with the given names, in the order in which they are applied.
    A name that belongs to none selects none. -/
def selected (names : List String) : List Pass :=
  all.filter fun p => p.name ∈ names

/-- Take a program through a pass. -/
def run : Pass → List Form → List Form
  | constantFolding => foldConstants
  | deadStoreElimination => eliminateDeadStores

end Pass

/-- Apply passes one after another. -/
def optimize (passes : List Pass) (forms : List Form) : List Form :=
  passes.foldl (fun forms pass => pass.run forms) forms

end ListLang
