import Mathlib.Logic.Basic
import Mathlib.Logic.Relation
import ListLang.Scope.Graph

/-!
# Looking Names Up Along Links

Scopes come about one edit after another: a scope is added, a variable or a
function is recorded in one, a link is set anew. Links may lead in a circle, and a
walk may come to that circle only after a while. A walk that stops at the first
scope it has met before still misses nothing: whatever the scopes it has met lead
to was met as well, or is where the walk stands.

So a name is looked up as if the walk were endless: the answer is what was
recorded last in the first scope on the way that has the name, and there is no
answer only if no scope that the links lead to has it.

## Main definitions

* `ScopeHistory`: The edits that a number of scopes came about by.
* `ScopeHistory.link?`, `ScopeHistory.type?`, `ScopeHistory.function?`: What the
  edits say last of a scope.
* `FoundFirst`: The first entry on an endless walk.
* `IsLookup`: An answer is the right one.
* `ScopeGraph.Passed`: What holds of the scopes that a walk has met.

## Theorems

* `ScopeHistory.parent?_graph`, `ScopeHistory.type_graph`,
  `ScopeHistory.function_graph`: The graph shows what the edits say last.
* `ScopeGraph.foundFirst_of_walk`: What a walk finds is the first entry.
* `ScopeGraph.walk_eq_none_iff`: A walk misses nothing.
* `lookup_along_links`: Looking a name up is right for all edits.
-/

namespace ListLang

/-! ### Endless Walks -/

/-- The scope that is `k` links away. -/
def ancestor? (link : Nat → Option Nat) : (k : Nat) → Nat → Option Nat
  | 0, id => some id
  | k + 1, id => (link id).bind (ancestor? link k)

/-- The links lead from one scope to another, in any number of steps. -/
def LinksTo (link : Nat → Option Nat) : Nat → Nat → Prop :=
  Relation.ReflTransGen fun id p => link id = some p

/-- The first entry on the walk along the links is `a`. -/
def FoundFirst {α : Type} (link : Nat → Option Nat) (entry : Nat → Option α) (start : Nat)
    (a : α) : Prop :=
  ∃ k id, ancestor? link k start = some id ∧ entry id = some a ∧
    ∀ j < k, ∀ before, ancestor? link j start = some before → entry before = none

/-- The answer is the first entry on the walk along the links, and there is none
    only if the links lead to no entry. -/
structure IsLookup {α : Type} (link : Nat → Option Nat) (entry : Nat → Option α) (start : Nat)
    (answer : Option α) : Prop where
  found : ∀ a, answer = some a ↔ FoundFirst link entry start a
  missing : answer = none ↔ ∀ id, LinksTo link start id → entry id = none

section Walks

variable {α : Type} {link : Nat → Option Nat} {entry : Nat → Option α}

theorem linksTo_of_ancestor? {k start id : Nat} (h : ancestor? link k start = some id) :
    LinksTo link start id := by
  induction k generalizing start with
  | zero =>
      cases h
      exact .refl
  | succ k ih =>
      rcases Option.bind_eq_some_iff.mp h with ⟨p, hp, hrest⟩
      exact .head hp (ih hrest)

/-- There is nothing beyond a scope without a link. -/
theorem LinksTo.eq_of_none {start id : Nat} (hlink : link start = none)
    (h : LinksTo link start id) : id = start := by
  rcases Relation.ReflTransGen.cases_head h with rfl | ⟨p, hp, _⟩
  · rfl
  · rw [hlink] at hp
    cases hp

/-- What a scope leads to is the scope itself or what the next one leads to. -/
theorem LinksTo.eq_or_next {start p id : Nat} (hlink : link start = some p)
    (h : LinksTo link start id) : id = start ∨ LinksTo link p id := by
  rcases Relation.ReflTransGen.cases_head h with rfl | ⟨q, hq, hrest⟩
  · exact .inl rfl
  · rw [hlink] at hq
    cases hq
    exact .inr hrest

theorem FoundFirst.here {start : Nat} {a : α} (h : entry start = some a) :
    FoundFirst link entry start a :=
  ⟨0, start, rfl, h, fun j hj => absurd hj (Nat.not_lt_zero j)⟩

/-- The first entry from the next scope on is the first one if this scope has
    none. -/
theorem FoundFirst.next {start p : Nat} {a : α} (hnone : entry start = none)
    (hlink : link start = some p) (h : FoundFirst link entry p a) :
    FoundFirst link entry start a := by
  rcases h with ⟨k, id, hid, ha, hbefore⟩
  have hstep : ∀ j, ancestor? link (j + 1) start = ancestor? link j p := by
    intro j
    rw [ancestor?, hlink, Option.bind_some]
  refine ⟨k + 1, id, (hstep k).trans hid, ha, ?_⟩
  intro j hj before hj_before
  cases j with
  | zero =>
      cases hj_before
      exact hnone
  | succ j => exact hbefore j (Nat.lt_of_succ_lt_succ hj) before ((hstep j).symm.trans hj_before)

theorem FoundFirst.unique {start : Nat} {a b : α} (ha : FoundFirst link entry start a)
    (hb : FoundFirst link entry start b) : a = b := by
  rcases ha with ⟨k, id, hid, ha, hbefore_a⟩
  rcases hb with ⟨m, id', hid', hb, hbefore_b⟩
  -- Neither of the two can come before the other, for it would have no entry.
  have hkm : k = m := by
    rcases Nat.lt_trichotomy k m with hlt | heq | hgt
    · have hnone := hbefore_b k hlt id hid
      rw [ha] at hnone
      cases hnone
    · exact heq
    · have hnone := hbefore_a m hgt id' hid'
      rw [hb] at hnone
      cases hnone
  rw [hkm, hid'] at hid
  cases hid
  rw [ha] at hb
  exact Option.some.inj hb

/-- An answer is right if it is the first entry whenever there is one, and if it
    is missing only where nothing can be found. -/
theorem IsLookup.of_found {start : Nat} {answer : Option α}
    (hfound : ∀ a, answer = some a → FoundFirst link entry start a)
    (hmissing : answer = none ↔ ∀ id, LinksTo link start id → entry id = none) :
    IsLookup link entry start answer := by
  refine ⟨fun a => ⟨hfound a, fun ha => ?_⟩, hmissing⟩
  cases hanswer : answer with
  | none =>
      rcases ha with ⟨k, id, hid, hentry, _⟩
      have hnone := hmissing.mp hanswer id (linksTo_of_ancestor? hid)
      rw [hentry] at hnone
      cases hnone
  | some b => rw [(hfound b hanswer).unique ha]

end Walks

namespace ScopeGraph

/-- The scope that a scope is linked to. -/
def parent? (g : ScopeGraph) (id : Nat) : Option Nat :=
  g.scopes[id]?.bind LinkedScope.parent

/-- What is recorded in a scope, which is nothing if there is no such scope. -/
def recordedAt (g : ScopeGraph) (id : Nat) : Scope :=
  (g.scopes[id]?.map LinkedScope.scope).getD {}

/-! ### Walks that Remember -/

section Remembering

variable {α : Type} {g : ScopeGraph} {f : Scope → Option α}

/-- What holds of the scopes that a walk has met when it stands at `id`: none of
    them has an entry, and each leads to one of them or to where the walk stands. -/
structure Passed (g : ScopeGraph) (f : Scope → Option α) (met : List Nat) (id : Nat) : Prop where
  lacks : ∀ m ∈ met, f (g.recordedAt m) = none
  leads : ∀ m ∈ met, ∀ p, g.parent? m = some p → p ∈ met ∨ p = id

theorem Passed.nil (id : Nat) : Passed g f [] id :=
  ⟨fun _ hm => absurd hm List.not_mem_nil, fun _ hm => absurd hm List.not_mem_nil⟩

/-- A walk that finds nothing where it stands goes on as it should. -/
theorem Passed.next {met : List Nat} {id p : Nat} (h : Passed g f met id)
    (hnone : f (g.recordedAt id) = none) (hlink : g.parent? id = some p) :
    Passed g f (id :: met) p := by
  refine ⟨?_, ?_⟩
  · intro m hm
    rcases List.mem_cons.mp hm with rfl | hm
    · exact hnone
    · exact h.lacks m hm
  · -- The scopes met so far may lead to `id`, which is now one of them.
    intro m hm q hq
    rcases List.mem_cons.mp hm with rfl | hm
    · rw [hlink] at hq
      cases hq
      exact .inr rfl
    · rcases h.leads m hm q hq with hmet | rfl
      · exact .inl (List.mem_cons_of_mem _ hmet)
      · exact .inl List.mem_cons_self

/-- A walk that has come back leads only to scopes that it has met. -/
theorem Passed.mem_of_linksTo {met : List Nat} {id target : Nat} (h : Passed g f met id)
    (hid : id ∈ met) (htarget : LinksTo g.parent? id target) : target ∈ met := by
  induction htarget with
  | refl => exact hid
  | tail _ hlink ih =>
      rcases h.leads _ ih _ hlink with hmet | rfl
      · exact hmet
      · exact hid

theorem parent?_eq {id : Nat} {scope : Scope} {parent : Option Nat}
    (h : g.scopes[id]? = some ⟨scope, parent⟩) : g.parent? id = parent := by
  rw [parent?, h, Option.bind_some]

theorem recordedAt_eq {id : Nat} {scope : Scope} {parent : Option Nat}
    (h : g.scopes[id]? = some ⟨scope, parent⟩) : g.recordedAt id = scope := by
  rw [recordedAt, h, Option.map_some, Option.getD_some]

/-- What a walk finds is the first entry on the endless walk. -/
theorem foundFirst_of_walk {met : List Nat} {id : Nat} {a : α}
    (h : (g.walk met id).findSome? f = some a) :
    FoundFirst g.parent? (fun i => f (g.recordedAt i)) id a := by
  fun_induction g.walk met id with
  | case1 met id hmet => cases h
  | case2 met id hmet hscope => cases h
  | case3 met id hmet scope hscope =>
      rw [List.findSome?_singleton, ← recordedAt_eq hscope] at h
      exact .here h
  | case4 met id hmet scope parent hscope ih =>
      rw [List.findSome?_cons, ← recordedAt_eq hscope] at h
      cases hentry : f (g.recordedAt id) with
      | some b =>
          rw [hentry] at h
          cases h
          exact .here hentry
      | none =>
          rw [hentry] at h
          exact .next hentry (parent?_eq hscope) (ih h)

/-- A walk misses nothing that the links lead to, although it stops where it has
    been before. -/
theorem walk_eq_none_iff (hempty : f {} = none) {met : List Nat} {id : Nat}
    (hpassed : Passed g f met id) :
    (g.walk met id).findSome? f = none ↔
      ∀ target, LinksTo g.parent? id target → f (g.recordedAt target) = none := by
  fun_induction g.walk met id with
  | case1 met id hmet =>
      -- Back where it has been, the walk has met all that it could still come to.
      refine iff_of_true rfl ?_
      intro target htarget
      exact hpassed.lacks target (hpassed.mem_of_linksTo hmet htarget)
  | case2 met id hmet hscope =>
      refine iff_of_true rfl ?_
      intro target htarget
      have hlink : g.parent? id = none := by rw [parent?, hscope, Option.bind_none]
      rw [htarget.eq_of_none hlink, recordedAt, hscope]
      exact hempty
  | case3 met id hmet scope hscope =>
      rw [List.findSome?_singleton, ← recordedAt_eq hscope]
      constructor
      · intro hnone target htarget
        rw [htarget.eq_of_none (parent?_eq hscope)]
        exact hnone
      · intro hall
        exact hall id .refl
  | case4 met id hmet scope parent hscope ih =>
      have hlink := parent?_eq hscope
      rw [List.findSome?_cons, ← recordedAt_eq hscope]
      cases hentry : f (g.recordedAt id) with
      | some a =>
          refine iff_of_false (Option.some_ne_none a) ?_
          intro hall
          rw [hall id .refl] at hentry
          cases hentry
      | none =>
          -- What is seen from here is this scope and what is seen from the next one.
          refine (ih (hpassed.next hentry hlink)).trans ⟨?_, ?_⟩
          · intro hall target htarget
            rcases htarget.eq_or_next hlink with rfl | hnext
            · exact hentry
            · exact hall target hnext
          · intro hall target htarget
            exact hall target (.head hlink htarget)

/-- Looking something up in the chain of a scope is right whatever the links are. -/
theorem isLookup_chain (hempty : f {} = none) (start : Nat) :
    IsLookup g.parent? (fun id => f (g.recordedAt id)) start ((g.chain start).findSome? f) :=
  .of_found (fun _ => foundFirst_of_walk) (walk_eq_none_iff hempty (.nil start))

end Remembering

/-! ### What an Edit Does -/

theorem getElem?_add (g : ScopeGraph) (parent : Option Nat) (id : Nat) :
    (g.add parent).2.scopes[id]? =
      if id = g.scopes.size then some { parent := parent } else g.scopes[id]? :=
  Array.getElem?_push

theorem parent?_add (g : ScopeGraph) (parent : Option Nat) (id : Nat) :
    (g.add parent).2.parent? id = if id = g.scopes.size then parent else g.parent? id := by
  unfold parent?
  rw [getElem?_add]
  split <;> rfl

theorem recordedAt_add (g : ScopeGraph) (parent : Option Nat) (id : Nat) :
    (g.add parent).2.recordedAt id = g.recordedAt id := by
  unfold recordedAt
  rw [getElem?_add]
  split
  · rename_i hid
    rw [hid, Array.getElem?_size]
    rfl
  · rfl

theorem getElem?_setParent (g : ScopeGraph) (id : Nat) (parent : Option Nat) (i : Nat) :
    (g.setParent id parent).scopes[i]? =
      if id = i then g.scopes[i]?.map fun l => { l with parent := parent } else g.scopes[i]? :=
  Array.getElem?_modify

theorem parent?_setParent {g : ScopeGraph} {id : Nat} (hid : id < g.scopes.size)
    (parent : Option Nat) (i : Nat) :
    (g.setParent id parent).parent? i = if i = id then parent else g.parent? i := by
  unfold parent?
  rw [getElem?_setParent]
  by_cases hi : i = id
  · rw [if_pos hi.symm, if_pos hi, hi, Array.getElem?_eq_getElem hid]
    rfl
  · rw [if_neg (Ne.symm hi), if_neg hi]

theorem recordedAt_setParent (g : ScopeGraph) (id : Nat) (parent : Option Nat) (i : Nat) :
    (g.setParent id parent).recordedAt i = g.recordedAt i := by
  unfold recordedAt
  rw [getElem?_setParent]
  split
  · rw [Option.map_map]
    rfl
  · rfl

theorem getElem?_update (g : ScopeGraph) (id : Nat) (change : Scope → Scope) (i : Nat) :
    (g.update id change).scopes[i]? =
      if id = i then g.scopes[i]?.map fun l => { l with scope := change l.scope }
      else g.scopes[i]? :=
  Array.getElem?_modify

theorem parent?_update (g : ScopeGraph) (id : Nat) (change : Scope → Scope) (i : Nat) :
    (g.update id change).parent? i = g.parent? i := by
  unfold parent?
  rw [getElem?_update]
  split
  · rw [Option.bind_map]
    rfl
  · rfl

theorem recordedAt_update {g : ScopeGraph} {id : Nat} (hid : id < g.scopes.size)
    (change : Scope → Scope) (i : Nat) :
    (g.update id change).recordedAt i =
      if i = id then change (g.recordedAt i) else g.recordedAt i := by
  unfold recordedAt
  rw [getElem?_update]
  by_cases hi : i = id
  · rw [if_pos hi.symm, if_pos hi, hi, Array.getElem?_eq_getElem hid]
    rfl
  · rw [if_neg (Ne.symm hi), if_neg hi]

end ScopeGraph

/-! ### Histories -/

/-- The edits that `n` scopes came about by. An edit names only scopes that are
    there. -/
inductive ScopeHistory : Nat → Type where
  /-- There is no scope yet. -/
  | start : ScopeHistory 0
  /-- A scope is added, inside another if one is given. -/
  | add {n : Nat} (h : ScopeHistory n) (parent : Option (Fin n)) : ScopeHistory (n + 1)
  /-- A scope is linked to another or to none. -/
  | setParent {n : Nat} (h : ScopeHistory n) (id : Fin n) (parent : Option (Fin n)) :
      ScopeHistory n
  /-- A variable is recorded. -/
  | defineVariable {n : Nat} (h : ScopeHistory n) (id : Fin n) (name : String) (type : Ty) :
      ScopeHistory n
  /-- A function is recorded. -/
  | defineFunction {n : Nat} (h : ScopeHistory n) (id : Fin n) (name : String)
      (entry : FunctionEntry) : ScopeHistory n

namespace ScopeHistory

/-- The graph that the edits lead to. -/
def graph {n : Nat} : ScopeHistory n → ScopeGraph
  | start => {}
  | add h parent => (h.graph.add (parent.map Fin.val)).2
  | setParent h id parent => h.graph.setParent id (parent.map Fin.val)
  | defineVariable h id name type => h.graph.defineVariable id name type
  | defineFunction h id name entry => h.graph.defineFunction id name entry

/-- The scope that a scope was linked to last. -/
def link? {n : Nat} : ScopeHistory n → Nat → Option Nat
  | start, _ => none
  | @add n h parent, i => if i = n then parent.map Fin.val else h.link? i
  | setParent h id parent, i => if i = id then parent.map Fin.val else h.link? i
  | defineVariable h _ _ _, i => h.link? i
  | defineFunction h _ _ _, i => h.link? i

/-- The type that was recorded last for a variable of a scope. -/
def type? {n : Nat} : ScopeHistory n → Nat → String → Option Ty
  | start, _, _ => none
  | add h _, i, x => h.type? i x
  | setParent h _ _, i, x => h.type? i x
  | defineVariable h id name type, i, x => if i = id ∧ x = name then some type else h.type? i x
  | defineFunction h _ _ _, i, x => h.type? i x

/-- What was recorded last for a function of a scope. -/
def function? {n : Nat} : ScopeHistory n → Nat → String → Option FunctionEntry
  | start, _, _ => none
  | add h _, i, x => h.function? i x
  | setParent h _ _, i, x => h.function? i x
  | defineVariable h _ _ _, i, x => h.function? i x
  | defineFunction h id name entry, i, x =>
      if i = id ∧ x = name then some entry else h.function? i x

theorem size_graph {n : Nat} (h : ScopeHistory n) : h.graph.scopes.size = n := by
  induction h with
  | start => rfl
  | add h parent ih => exact (Array.size_push _).trans (congrArg (· + 1) ih)
  | setParent h id parent ih => exact Array.size_modify.trans ih
  | defineVariable h id name type ih => exact Array.size_modify.trans ih
  | defineFunction h id name entry ih => exact Array.size_modify.trans ih

theorem lt_size {n : Nat} (h : ScopeHistory n) (id : Fin n) : id.val < h.graph.scopes.size :=
  Nat.lt_of_lt_of_eq id.isLt h.size_graph.symm

/-- A link of the graph is the one that was set last. -/
theorem parent?_graph {n : Nat} (h : ScopeHistory n) (i : Nat) :
    h.graph.parent? i = h.link? i := by
  induction h with
  | start => rfl
  | add h parent ih => rw [graph, ScopeGraph.parent?_add, h.size_graph, ih, link?]
  | setParent h id parent ih => rw [graph, ScopeGraph.parent?_setParent (h.lt_size id), ih, link?]
  | defineVariable h id name type ih => exact (ScopeGraph.parent?_update _ _ _ i).trans ih
  | defineFunction h id name entry ih => exact (ScopeGraph.parent?_update _ _ _ i).trans ih

/-- The type of a variable in a scope of the graph is the one that was recorded
    last. -/
theorem type_graph {n : Nat} (h : ScopeHistory n) (i : Nat) (x : String) :
    (h.graph.recordedAt i).variableTypes.find? x = h.type? i x := by
  induction h with
  | start => rfl
  | add h parent ih => rw [graph, ScopeGraph.recordedAt_add, ih, type?]
  | setParent h id parent ih => rw [graph, ScopeGraph.recordedAt_setParent, ih, type?]
  | defineVariable h id name type ih =>
      rw [graph, ScopeGraph.defineVariable, ScopeGraph.recordedAt_update (h.lt_size id), type?,
        ite_and, ← ih]
      split
      · exact Table.find?_insert _ _ _ _
      · rfl
  | defineFunction h id name entry ih =>
      rw [graph, ScopeGraph.defineFunction, ScopeGraph.recordedAt_update (h.lt_size id), type?,
        ← ih]
      split <;> rfl

/-- A function in a scope of the graph is the one that was recorded last. -/
theorem function_graph {n : Nat} (h : ScopeHistory n) (i : Nat) (x : String) :
    (h.graph.recordedAt i).functions.find? x = h.function? i x := by
  induction h with
  | start => rfl
  | add h parent ih => rw [graph, ScopeGraph.recordedAt_add, ih, function?]
  | setParent h id parent ih => rw [graph, ScopeGraph.recordedAt_setParent, ih, function?]
  | defineVariable h id name type ih =>
      rw [graph, ScopeGraph.defineVariable, ScopeGraph.recordedAt_update (h.lt_size id), function?,
        ← ih]
      split <;> rfl
  | defineFunction h id name entry ih =>
      rw [graph, ScopeGraph.defineFunction, ScopeGraph.recordedAt_update (h.lt_size id), function?,
        ite_and, ← ih]
      split
      · exact Table.find?_insert _ _ _ _
      · rfl

end ScopeHistory

/-- Whatever edits scopes came about by, and from whichever scope a name is looked
    up, the answer is what was recorded last in the first scope along the links that
    has the name. There is no answer only if no scope that the links lead to has
    it. -/
theorem lookup_along_links {n : Nat} (h : ScopeHistory n) (start : Fin n) (name : String) :
    IsLookup h.link? (fun id => h.type? id name) start (h.graph.variableType? start name) ∧
      IsLookup h.link? (fun id => h.function? id name) start (h.graph.function? start name) := by
  have hlink : h.graph.parent? = h.link? := funext h.parent?_graph
  have htype : (fun id => (h.graph.recordedAt id).variableTypes.find? name) =
      fun id => h.type? id name := funext fun id => h.type_graph id name
  have hfunction : (fun id => (h.graph.recordedAt id).functions.find? name) =
      fun id => h.function? id name := funext fun id => h.function_graph id name
  rw [← hlink, ← htype, ← hfunction]
  -- An empty scope has no entries, so where there is no scope nothing is found.
  exact ⟨ScopeGraph.isLookup_chain (f := fun s => s.variableTypes.find? name) rfl start,
    ScopeGraph.isLookup_chain (f := fun s => s.functions.find? name) rfl start⟩

-- Scopes 0 and 1 are linked to each other, and scope 2 leads into that circle.
example :
    let h := ((((ScopeHistory.start.add none).add (some 0)).setParent 0 (some 1)).add
      (some 0)).defineVariable 1 "x" .number
    h.graph.variableType? 2 "x" = some .number ∧ h.graph.variableType? 2 "y" = none := by
  decide +kernel

end ListLang
