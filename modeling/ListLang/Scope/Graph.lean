import ListLang.Scope.Basic

/-!
# Scopes with Links

Scopes whose links to an enclosing scope can be set freely, even so that they
lead back to where they came from. A walk along the links remembers the scopes it
has met and ends when it comes to one of them again, so it ends whatever the
links are: with every step there is one scope less that it has not met.

## Main definitions

* `ScopeGraph`: Scopes with links.
* `ScopeGraph.unmet`: The scopes that a walk has not met.
* `ScopeGraph.walk`: The scopes met on a walk.
* `ScopeGraph.chain`: All that can be seen from a scope.
* `ScopeGraph.variableType?`, `ScopeGraph.function?`: Looking a name up.
-/

namespace ListLang

/-- A scope with its link to an enclosing scope. -/
structure LinkedScope where
  /-- The scope. -/
  scope : Scope := {}
  /-- The enclosing scope. -/
  parent : Option Nat := none

/-- Scopes with links. -/
structure ScopeGraph where
  /-- The scopes, oldest first. -/
  scopes : Array LinkedScope := #[]

namespace ScopeGraph

/-- Add an empty scope inside another, if one is given. -/
def add (g : ScopeGraph) (parent : Option Nat) : Nat × ScopeGraph :=
  (g.scopes.size, ⟨g.scopes.push { parent := parent }⟩)

/-- Link a scope to another, or to none. -/
def setParent (g : ScopeGraph) (id : Nat) (parent : Option Nat) : ScopeGraph :=
  ⟨g.scopes.modify id fun l => { l with parent := parent }⟩

/-- Change what is recorded in a scope. -/
def update (g : ScopeGraph) (id : Nat) (f : Scope → Scope) : ScopeGraph :=
  ⟨g.scopes.modify id fun l => { l with scope := f l.scope }⟩

/-- Record a variable in a scope. -/
def defineVariable (g : ScopeGraph) (id : Nat) (name : String) (type : Ty) : ScopeGraph :=
  g.update id fun s => s.defineVariable name type

/-- Record a function in a scope. -/
def defineFunction (g : ScopeGraph) (id : Nat) (name : String) (entry : FunctionEntry) :
    ScopeGraph :=
  g.update id fun s => s.defineFunction name entry

/-- The scopes that a walk has not met, when it has met those in `met`. -/
def unmet (g : ScopeGraph) (met : List Nat) : List Nat :=
  (List.range g.scopes.size).filter fun id => decide (id ∉ met)

/-- A walk that comes to a scope for the first time has fewer scopes left. -/
theorem length_unmet_cons {g : ScopeGraph} {met : List Nat} {id : Nat} {l : LinkedScope}
    (hscope : g.scopes[id]? = some l) (hmet : id ∉ met) :
    (g.unmet (id :: met)).length < (g.unmet met).length := by
  have hlt : id < g.scopes.size := (Array.getElem?_eq_some_iff.mp hscope).1
  have hmem : id ∈ g.unmet met := by
    simp only [unmet, List.mem_filter, List.mem_range, decide_eq_true_eq]
    exact ⟨hlt, hmet⟩
  have hcons : g.unmet (id :: met) = (g.unmet met).filter fun i => decide (i ≠ id) := by
    simp only [unmet, List.filter_filter, List.mem_cons, not_or, Bool.decide_and, ne_eq]
  rw [hcons, List.length_filter_lt_length_iff_exists]
  exact ⟨id, hmem, by simp only [ne_eq, not_true_eq_false, decide_false, Bool.false_eq_true,
    not_false_eq_true]⟩

/-- The scopes met on a walk along the links, when those in `met` were met
    before. The walk ends at a scope that has no link and at one that was met
    before. -/
def walk (g : ScopeGraph) (met : List Nat) (id : Nat) : Chain :=
  if id ∈ met then []
  else match _ : g.scopes[id]? with
    | none => []
    | some ⟨scope, none⟩ => [scope]
    | some ⟨scope, some parent⟩ => scope :: g.walk (id :: met) parent
termination_by (g.unmet met).length
decreasing_by exact length_unmet_cons ‹_› ‹_›

/-- All that can be seen from a scope. -/
def chain (g : ScopeGraph) (id : Nat) : Chain :=
  g.walk [] id

/-- The type of a variable, seen from a scope. -/
def variableType? (g : ScopeGraph) (id : Nat) (name : String) : Option Ty :=
  (g.chain id).typeOf? name

/-- A function, seen from a scope. -/
def function? (g : ScopeGraph) (id : Nat) (name : String) : Option FunctionEntry :=
  (g.chain id).function? name

/-- The names of a scope as text, for debugging. -/
def inspect (g : ScopeGraph) (id : Nat) : String :=
  match g.scopes[id]? with
  | some l => l.scope.inspect
  | none => ""

end ScopeGraph

end ListLang
