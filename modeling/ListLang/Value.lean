import ListLang.Expr

/-!
# Values

What evaluation yields. Every expression, left unevaluated, is a value; the one
kind of value that no expression denotes is the function, which remembers its
parameters, its body and the frame in which it was made.

## Main definitions

* `Closure`: A function value.
* `Value`: Values.
* `Value.text`: A value as program text, whatever its integers are.
* `Value.text?`: That text, if it can be written.
* `Expr.quoted`: An expression as a value.
* `Value.toExpr`: A value as an expression.
* `Value.agrees`: Sameness of values built apart.

## Theorems

* `Value.induct`: Induction with a hypothesis for every item of a list.
* `textAll_eq_map`, `allWritable_eq_all`, `quotedAll_eq_map`: The lists of the
  recursions are maps.
-/

namespace ListLang

/-- A function value. -/
structure Closure where
  /-- The names bound by a call, in order. -/
  params : List String
  /-- The expression evaluated by a call. -/
  body : Expr
  /-- The frame in which the function was made. -/
  frame : Nat
  /-- The name under which the function was defined. -/
  name : Option String

/-- The name of the function, if it has one. An empty name is none. -/
def Closure.label? (f : Closure) : Option String :=
  f.name.filter fun s => !s.isEmpty

/-- A function as text. -/
def Closure.text (f : Closure) : String :=
  match f.label? with
  | some name => "<function " ++ name ++ ">"
  | none => "<function>"

/-- Values. -/
inductive Value where
  /-- A name left unevaluated. -/
  | atom (name : String)
  /-- An integer. -/
  | integer (value : Int)
  /-- A real. -/
  | real (value : Float)
  /-- A truth value. -/
  | boolean (value : Bool)
  /-- The null value. -/
  | null
  /-- A list. -/
  | list (items : List Value)
  /-- A function. -/
  | function (f : Closure)

namespace Value

/-- Induction on values, with a hypothesis for every item of a list. -/
@[elab_as_elim]
theorem induct {motive : Value → Prop}
    (atom : ∀ name, motive (.atom name))
    (integer : ∀ value, motive (.integer value))
    (real : ∀ value, motive (.real value))
    (boolean : ∀ value, motive (.boolean value))
    (null : motive .null)
    (list : ∀ items, (∀ v ∈ items, motive v) → motive (.list items))
    (function : ∀ f, motive (.function f))
    (v : Value) : motive v :=
  @Value.rec motive (fun items => ∀ v ∈ items, motive v)
    atom integer real boolean null list function
    (fun _ h => absurd h List.not_mem_nil)
    (fun _ _ hhead htail _ h => (List.mem_cons.mp h).elim (fun heq => heq ▸ hhead) (htail _)) v

/-- The kind of the value. -/
def kind : Value → Kind
  | atom _ => .atom
  | integer _ => .integer
  | real _ => .real
  | boolean _ => .boolean
  | null => .null
  | list _ => .list
  | function _ => .function

mutual

/-- The value as program text, with its integers in full. A function has none and
    is shown in angle brackets. -/
def text : Value → String
  | atom name => name
  | integer n => toString n
  | real x => realText x
  | boolean b => booleanText b
  | null => "null"
  | list items => "(" ++ " ".intercalate (textAll items) ++ ")"
  | function f => f.text

/-- The texts of several values. -/
def textAll : List Value → List String
  | [] => []
  | v :: vs => v.text :: textAll vs

end

theorem textAll_eq_map (vs : List Value) : textAll vs = vs.map text := by
  induction vs with
  | nil => rfl
  | cons v vs ih => simp only [textAll, List.map_cons, ih]

mutual

/-- Whether every integer in the value can be written. -/
def isWritable : Value → Bool
  | integer n => ListLang.isWritable n
  | list items => allWritable items
  | atom _ | real _ | boolean _ | null | function _ => true

/-- Whether every integer in several values can be written. -/
def allWritable : List Value → Bool
  | [] => true
  | v :: vs => v.isWritable && allWritable vs

end

theorem allWritable_eq_all (vs : List Value) : allWritable vs = vs.all isWritable := by
  induction vs with
  | nil => rfl
  | cons v vs ih => simp only [allWritable, List.all_cons, ih]

/-- What changes none of them changes nothing for all. -/
theorem allWritable_map {f : Value → Value} {vs : List Value}
    (h : ∀ v ∈ vs, (f v).isWritable = v.isWritable) :
    allWritable (vs.map f) = allWritable vs := by
  induction vs with
  | nil => rfl
  | cons v vs ih =>
      have hrest := ih fun w hw => h w (List.mem_cons_of_mem _ hw)
      simp only [List.map_cons, allWritable, h v List.mem_cons_self, hrest]

/-- The text of the value, if it can be written. -/
def text? (v : Value) : Option String :=
  if v.isWritable then some v.text else none

mutual

/-- The value as an expression with one line throughout, or the leftmost
    function in it, which has no expression. -/
def toExpr (line : Option Int) : Value → Except Closure Expr
  | atom name => .ok (.atom line name)
  | integer n => .ok (.integer line n)
  | real x => .ok (.real line x)
  | boolean b => .ok (.boolean line b)
  | null => .ok (.null line)
  | list items => (toExprs line items).map (.list line)
  | function f => .error f

/-- Several values as expressions. -/
def toExprs (line : Option Int) : List Value → Except Closure (List Expr)
  | [] => .ok []
  | v :: vs => match v.toExpr line with
    | .ok e => (toExprs line vs).map (e :: ·)
    | .error f => .error f

end

mutual

/-- Whether two values built apart from each other are the same. Reals are
    compared as numbers. Functions are not looked into: any two of them agree. -/
def agrees : Value → Value → Bool
  | atom s, atom t => s == t
  | integer m, integer n => m == n
  | real x, real y => x == y
  | boolean a, boolean b => a == b
  | null, null => true
  | list vs, list ws => agreesAll vs ws
  | function _, function _ => true
  | _, _ => false

/-- Whether two lists of values built apart from each other are the same. -/
def agreesAll : List Value → List Value → Bool
  | [], [] => true
  | v :: vs, w :: ws => v.agrees w && agreesAll vs ws
  | _, _ => false

end

/-- Why an item of a list cannot be had. -/
inductive AccessError where
  /-- The list is empty. -/
  | emptyList
deriving DecidableEq

/-- The text of an access error. -/
def AccessError.message : AccessError → String
  | .emptyList => "Cannot get first element of empty list"

/-- The first item of a list. -/
def first : List Value → Except AccessError Value
  | [] => .error .emptyList
  | v :: _ => .ok v

end Value

namespace Expr

mutual

/-- The expression, left unevaluated, as a value. -/
def quoted : Expr → Value
  | atom _ name => .atom name
  | integer _ n => .integer n
  | real _ x => .real x
  | boolean _ b => .boolean b
  | null _ => .null
  | list _ items => .list (quotedAll items)

/-- Several expressions, left unevaluated, as values. -/
def quotedAll : List Expr → List Value
  | [] => []
  | e :: es => e.quoted :: quotedAll es

end

theorem quotedAll_eq_map (es : List Expr) : quotedAll es = es.map quoted := by
  induction es with
  | nil => rfl
  | cons e es ih => simp only [quotedAll, List.map_cons, ih]

end Expr

end ListLang
