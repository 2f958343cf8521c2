import ListLang.Eval.Error

/-!
# Code as Data

Quoting takes an expression as data and evaluating data takes it as an
expression again. On the way only the lines are lost. The other way round, data
that becomes code and is quoted again is what it was; the one thing that cannot
become code is a function, however deep inside a list it is, and of several it is
the leftmost that is complained about.

## Main definitions

* `Expr.Occurs`, `Value.Occurs`: What occurs in an expression or a value, at any
  depth.
* `Value.functions`: The functions in a value, from left to right.

## Theorems

* `Expr.toExpr_quoted`: Quoted code is the code on one line.
* `Expr.line_of_occurs_relined`: Code on one line is on that line throughout.
* `Value.quoted_of_toExpr`: Data that can be taken for code is that code, quoted.
* `Value.mem_functions`: What the list of functions has is what occurs.
* `Value.toExpr_eq_error_iff`: Data cannot be taken for code because of the
  leftmost function in it.
* `quoting_round_trip`: Code and data become each other without loss.
-/

namespace ListLang

theorem Expr.toExprs_quotedAll {line : Option Int} {es : List Expr}
    (h : ∀ e ∈ es, e.quoted.toExpr line = .ok (e.relined line)) :
    Value.toExprs line (quotedAll es) = .ok (relinedAll line es) := by
  induction es with
  | nil => rfl
  | cons e es ih =>
      rw [quotedAll, Value.toExprs, h e List.mem_cons_self,
        ih fun f hf => h f (List.mem_cons_of_mem _ hf)]
      rfl

theorem Expr.toExpr_quoted (e : Expr) (line : Option Int) :
    e.quoted.toExpr line = .ok (e.relined line) := by
  induction e using Expr.induct with
  | list l items ih =>
      rw [quoted, Value.toExpr, toExprs_quotedAll ih]
      rfl
  | atom l name => rfl
  | integer l n => rfl
  | real l x => rfl
  | boolean l b => rfl
  | null l => rfl

theorem Value.quotedAll_of_toExprs {line : Option Int} {vs : List Value} {es : List Expr}
    (hitem : ∀ v ∈ vs, ∀ e, v.toExpr line = .ok e → e.quoted = v)
    (h : toExprs line vs = .ok es) : Expr.quotedAll es = vs := by
  induction vs generalizing es with
  | nil => cases h; rfl
  | cons v vs ih =>
      rw [toExprs] at h
      cases hv : v.toExpr line with
      | error f => rw [hv] at h; cases h
      | ok e =>
          rw [hv] at h
          cases hvs : toExprs line vs with
          | error f => rw [hvs] at h; cases h
          | ok es' =>
              rw [hvs] at h
              cases h
              rw [Expr.quotedAll, hitem v List.mem_cons_self e hv,
                ih (fun w hw => hitem w (List.mem_cons_of_mem _ hw)) hvs]

theorem Value.quoted_of_toExpr {v : Value} {line : Option Int} {e : Expr}
    (h : v.toExpr line = .ok e) : e.quoted = v := by
  induction v using Value.induct generalizing e with
  | list items ih =>
      rw [toExpr] at h
      cases hitems : toExprs line items with
      | error f => rw [hitems] at h; cases h
      | ok es =>
          rw [hitems] at h
          cases h
          rw [Expr.quoted, quotedAll_of_toExprs (fun v hv e he => ih v hv he) hitems]
  | function f => cases h
  | atom name => cases h; rfl
  | integer n => cases h; rfl
  | real x => cases h; rfl
  | boolean b => cases h; rfl
  | null => cases h; rfl

/-! ### What Occurs -/

/-- An expression occurs in itself, and in a list if it occurs in an item. -/
inductive Expr.Occurs (e : Expr) : Expr → Prop where
  | self : Occurs e e
  | item {line : Option Int} {items : List Expr} {f : Expr} (hf : f ∈ items) (h : Occurs e f) :
      Occurs e (.list line items)

/-- A value occurs in itself, and in a list if it occurs in an item. -/
inductive Value.Occurs (v : Value) : Value → Prop where
  | self : Occurs v v
  | item {items : List Value} {w : Value} (hw : w ∈ items) (h : Occurs v w) :
      Occurs v (.list items)

/-- An expression with one line throughout is on that line, and so is everything
    in it. -/
theorem Expr.line_of_occurs_relined {line : Option Int} {e e' : Expr}
    (h : e'.Occurs (e.relined line)) : e'.line = line := by
  induction e using Expr.induct with
  | list l items ih =>
      rw [relined, relinedAll_eq_map] at h
      cases h with
      | self => rfl
      | item hf hocc =>
          rcases List.mem_map.mp hf with ⟨f, hmem, rfl⟩
          exact ih f hmem hocc
  | atom _ _ | integer _ _ | real _ _ | boolean _ _ | null _ =>
      cases h
      rfl

namespace Value

mutual

/-- The functions in a value, from left to right. -/
def functions : Value → List Closure
  | .function f => [f]
  | .list items => functionsAll items
  | .atom _ | .integer _ | .real _ | .boolean _ | .null => []

/-- The functions in several values, from left to right. -/
def functionsAll : List Value → List Closure
  | [] => []
  | v :: vs => v.functions ++ functionsAll vs

end

theorem functionsAll_eq_flatMap (vs : List Value) : functionsAll vs = vs.flatMap functions := by
  induction vs with
  | nil => rfl
  | cons v vs ih => rw [functionsAll, List.flatMap_cons, ih]

/-- The functions in a value are those that occur in it, at any depth. -/
theorem mem_functions {f : Closure} {v : Value} :
    f ∈ v.functions ↔ (Value.function f).Occurs v := by
  induction v using Value.induct with
  | list items ih =>
      rw [functions, functionsAll_eq_flatMap, List.mem_flatMap]
      constructor
      · rintro ⟨w, hw, hf⟩
        exact .item hw ((ih w hw).mp hf)
      · intro h
        cases h with
        | item hw hocc => exact ⟨_, hw, (ih _ hw).mpr hocc⟩
  | function g =>
      rw [functions, List.mem_singleton]
      constructor
      · rintro rfl
        exact .self
      · intro h
        cases h
        rfl
  | atom _ | integer _ | real _ | boolean _ | null =>
      refine ⟨fun h => absurd h List.not_mem_nil, fun h => ?_⟩
      cases h

theorem toExprs_eq_error_iff {line : Option Int} {vs : List Value} {f : Closure}
    (h : ∀ v ∈ vs, ∀ g, v.toExpr line = .error g ↔ v.functions.head? = some g) :
    toExprs line vs = .error f ↔ (functionsAll vs).head? = some f := by
  induction vs with
  | nil => simp only [toExprs, functionsAll, List.head?_nil, reduceCtorEq]
  | cons v vs ih =>
      have hv := h v List.mem_cons_self
      have hvs := ih fun w hw => h w (List.mem_cons_of_mem _ hw)
      rw [toExprs, functionsAll]
      cases hexpr : v.toExpr line with
      | error g =>
          -- The first value already has a function, and it is the leftmost.
          have hhead := (hv g).mp hexpr
          rw [List.head?_append, hhead, Option.some_or, Option.some.injEq, Except.error.injEq]
      | ok e =>
          have hnone : v.functions = [] := by
            refine List.head?_eq_none_iff.mp (Option.eq_none_iff_forall_ne_some.mpr fun g hg => ?_)
            rw [(hv g).mpr hg] at hexpr
            cases hexpr
          rw [hnone, List.nil_append, ← hvs]
          cases toExprs line vs with
          | error g => exact Iff.rfl
          | ok es => simp only [Except.map, reduceCtorEq]

/-- A value is no code exactly if there is a function in it, and the leftmost is
    what stands in the way. -/
theorem toExpr_eq_error_iff {line : Option Int} {v : Value} {f : Closure} :
    v.toExpr line = .error f ↔ v.functions.head? = some f := by
  induction v using Value.induct generalizing f with
  | list items ih =>
      rw [toExpr, functions, ← toExprs_eq_error_iff fun v hv g => ih v hv]
      cases toExprs line items with
      | error g => simp only [Except.map, Except.error.injEq]
      | ok es => simp only [Except.map, reduceCtorEq]
  | function g =>
      rw [toExpr, functions, List.head?_cons, Option.some.injEq, Except.error.injEq]
  | atom _ | integer _ | real _ | boolean _ | null =>
      simp only [toExpr, functions, List.head?_nil, reduceCtorEq]

/-- The complaint about a value that is no code is about a function. -/
theorem toCode_eq_error_iff {line : Option Int} {v : Value} {cause : EvalCause} :
    v.toCode line = .error cause ↔
      ∃ f, v.functions.head? = some f ∧ cause = .functionInCode f.text := by
  rw [toCode]
  cases hexpr : v.toExpr line with
  | error g =>
      rw [toExpr_eq_error_iff.mp hexpr]
      constructor
      · intro h
        cases h
        exact ⟨g, rfl, rfl⟩
      · rintro ⟨f, hf, rfl⟩
        cases hf
        rfl
  | ok e =>
      constructor
      · intro h
        cases h
      · rintro ⟨f, hf, _⟩
        rw [toExpr_eq_error_iff.mpr hf] at hexpr
        cases hexpr

end Value

/-- Code and data become each other without loss. Quoted code is code again, the
    same up to lines, with the line it is given throughout. Data is no code exactly
    if a function occurs in it, at whatever depth, and then the complaint is about
    the leftmost function; otherwise it is code that gives the data back when it
    is quoted. -/
theorem quoting_round_trip :
    (∀ (e : Expr) (line : Option Int),
      e.quoted.toCode line = .ok (e.relined line) ∧
        (e.relined line).relined none = e.relined none ∧
        ∀ e' : Expr, e'.Occurs (e.relined line) → e'.line = line) ∧
    ∀ (v : Value) (line : Option Int),
      ((∃ cause, v.toCode line = .error cause) ↔ ∃ f, (Value.function f).Occurs v) ∧
        (∀ f, v.functions.head? = some f → v.toCode line = .error (.functionInCode f.text)) ∧
        ((∀ f, ¬ (Value.function f).Occurs v) → ∃ e, v.toCode line = .ok e ∧ e.quoted = v) := by
  refine ⟨fun e line => ⟨?_, ?_, fun e' h => Expr.line_of_occurs_relined h⟩, fun v line => ?_⟩
  · rw [Value.toCode, Expr.toExpr_quoted]
    rfl
  · exact Expr.relined_relined none line e
  · refine ⟨?_, ?_, ?_⟩
    · constructor
      · rintro ⟨cause, hcause⟩
        rcases Value.toCode_eq_error_iff.mp hcause with ⟨f, hf, _⟩
        exact ⟨f, Value.mem_functions.mp (List.mem_of_mem_head? hf)⟩
      · rintro ⟨f, hf⟩
        cases hfunctions : v.functions with
        | nil => exact absurd (hfunctions ▸ Value.mem_functions.mpr hf) List.not_mem_nil
        | cons g gs =>
            exact ⟨_, Value.toCode_eq_error_iff.mpr ⟨g, by rw [hfunctions]; rfl, rfl⟩⟩
    · intro f hf
      exact Value.toCode_eq_error_iff.mpr ⟨f, hf, rfl⟩
    · intro hnone
      cases hexpr : v.toExpr line with
      | ok e =>
          refine ⟨e, ?_, Value.quoted_of_toExpr hexpr⟩
          rw [Value.toCode, hexpr]
          rfl
      | error f =>
          have hmem := List.mem_of_mem_head? (Value.toExpr_eq_error_iff.mp hexpr)
          exact absurd (Value.mem_functions.mp hmem) (hnone f)

/-- A list with two functions in it, the second of them less deep. -/
def buriedFunctions : Value :=
  .list [.atom "f", .list [.integer 1, .list [.function ⟨["x"], .atom none "x", 0, some "first"⟩]],
    .function ⟨[], .null none, 0, none⟩]

theorem quoting_round_trip_buriedFunctions :
    (∃ f, (Value.function f).Occurs buriedFunctions) ∧
      (∃ cause, buriedFunctions.toCode (some 3) = .error cause) ∧
      buriedFunctions.toCode none = .error (.functionInCode "<function first>") ∧
      (∀ f, ¬ (Value.function f).Occurs (.list [.null])) ∧
      ∃ e, (Value.list [.null]).toCode (some 2) = .ok e ∧ e.quoted = .list [.null] := by
  have hfirst : (Value.function ⟨["x"], .atom none "x", 0, some "first"⟩).Occurs buriedFunctions :=
    .item (.tail _ (.head _)) (.item (.tail _ (.head _)) (.item (.head _) .self))
  have hnone : ∀ f, ¬ (Value.function f).Occurs (.list [.null]) := fun f h =>
    absurd (Value.mem_functions.mpr h) List.not_mem_nil
  have hburied := quoting_round_trip.2 buriedFunctions
  exact ⟨⟨_, hfirst⟩, (hburied (some 3)).1.mpr ⟨_, hfirst⟩, (hburied none).2.1 _ rfl, hnone,
    (quoting_round_trip.2 (.list [.null]) (some 2)).2.2 hnone⟩

end ListLang
