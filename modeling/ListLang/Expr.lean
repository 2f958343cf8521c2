import ListLang.Number.IntegerText
import ListLang.Number.RealText

/-!
# Expressions

A program is made of six kinds of expression: atoms, integers, reals, truth
values, null and lists. There is no separate kind for a special form; a list
whose head is the atom `setq` is a list like any other until someone evaluates
or checks it.

Every expression may carry the line it was written on, the first line of a text
being line one. Lines are remarks: two expressions that differ only in them mean
the same.

## Main definitions

* `Kind`: The kinds of expressions and values.
* `Expr`: Expressions.
* `Expr.text`: An expression as program text, whatever its integers are.
* `Expr.text?`: That text, if it can be written.
* `Expr.relined`: An expression with one line throughout.
* `Expr.agrees`: Sameness up to lines.
* `Form`: An expression at the top level of a program.

## Theorems

* `Expr.induct`: Induction with a hypothesis for every item of a list.
* `textAll_eq_map`, `allWritable_eq_all`, `relinedAll_eq_map`: The lists of the
  recursions are maps.
* `relined_relined`: Of two lines the last counts.
-/

namespace ListLang

/-- The kinds of expressions and values. Only a value can be a function. -/
inductive Kind where
  | atom | integer | real | boolean | null | list | function
deriving DecidableEq

/-- The name of a kind. -/
def Kind.name : Kind → String
  | .atom => "atom"
  | .integer => "integer"
  | .real => "real"
  | .boolean => "boolean"
  | .null => "null"
  | .list => "list"
  | .function => "function"

/-- The text of a truth value. -/
def booleanText (b : Bool) : String :=
  if b then "true" else "false"

/-- Expressions, each with the line it was written on, if that is known. -/
inductive Expr where
  /-- A name. -/
  | atom (line : Option Int) (name : String)
  /-- An integer literal. -/
  | integer (line : Option Int) (value : Int)
  /-- A real literal. -/
  | real (line : Option Int) (value : Float)
  /-- A truth value. -/
  | boolean (line : Option Int) (value : Bool)
  /-- The null literal. -/
  | null (line : Option Int)
  /-- A list: a call, a special form or quoted data. -/
  | list (line : Option Int) (items : List Expr)

namespace Expr

/-- Induction on expressions, with a hypothesis for every item of a list. -/
@[elab_as_elim]
theorem induct {motive : Expr → Prop}
    (atom : ∀ line name, motive (.atom line name))
    (integer : ∀ line value, motive (.integer line value))
    (real : ∀ line value, motive (.real line value))
    (boolean : ∀ line value, motive (.boolean line value))
    (null : ∀ line, motive (.null line))
    (list : ∀ line items, (∀ e ∈ items, motive e) → motive (.list line items))
    (e : Expr) : motive e :=
  @Expr.rec motive (fun items => ∀ e ∈ items, motive e)
    atom integer real boolean null list
    (fun _ h => absurd h List.not_mem_nil)
    (fun _ _ hhead htail _ h => (List.mem_cons.mp h).elim (fun heq => heq ▸ hhead) (htail _)) e

/-- The line on which the expression was written. -/
def line : Expr → Option Int
  | atom line _ | integer line _ | real line _ | boolean line _ | null line | list line _ => line

/-- The kind of the expression. -/
def kind : Expr → Kind
  | atom .. => .atom
  | integer .. => .integer
  | real .. => .real
  | boolean .. => .boolean
  | null .. => .null
  | list .. => .list

mutual

/-- The expression as program text, with its integers in full. -/
def text : Expr → String
  | atom _ name => name
  | integer _ n => toString n
  | real _ x => realText x
  | boolean _ b => booleanText b
  | null _ => "null"
  | list _ items => "(" ++ " ".intercalate (textAll items) ++ ")"

/-- The texts of several expressions. -/
def textAll : List Expr → List String
  | [] => []
  | e :: es => e.text :: textAll es

end

theorem textAll_eq_map (es : List Expr) : textAll es = es.map text := by
  induction es with
  | nil => rfl
  | cons e es ih => simp only [textAll, List.map_cons, ih]

mutual

/-- Whether every integer in the expression can be written. -/
def isWritable : Expr → Bool
  | integer _ n => ListLang.isWritable n
  | list _ items => allWritable items
  | atom .. | real .. | boolean .. | null _ => true

/-- Whether every integer in several expressions can be written. -/
def allWritable : List Expr → Bool
  | [] => true
  | e :: es => e.isWritable && allWritable es

end

theorem allWritable_eq_all (es : List Expr) : allWritable es = es.all isWritable := by
  induction es with
  | nil => rfl
  | cons e es ih => simp only [allWritable, List.all_cons, ih]

/-- What changes none of them changes nothing for all. -/
theorem allWritable_map {f : Expr → Expr} {es : List Expr}
    (h : ∀ e ∈ es, (f e).isWritable = e.isWritable) :
    allWritable (es.map f) = allWritable es := by
  induction es with
  | nil => rfl
  | cons e es ih =>
      have hrest := ih fun w hw => h w (List.mem_cons_of_mem _ hw)
      simp only [List.map_cons, allWritable, h e List.mem_cons_self, hrest]

/-- The text of the expression, if it can be written. -/
def text? (e : Expr) : Option String :=
  if e.isWritable then some e.text else none

/-- The same expression on another line. Its items stay where they are. -/
def onLine (line : Option Int) : Expr → Expr
  | atom _ name => atom line name
  | integer _ n => integer line n
  | real _ x => real line x
  | boolean _ b => boolean line b
  | null _ => null line
  | list _ items => list line items

mutual

/-- The expression with one line throughout. -/
def relined (line : Option Int) : Expr → Expr
  | atom _ name => atom line name
  | integer _ n => integer line n
  | real _ x => real line x
  | boolean _ b => boolean line b
  | null _ => null line
  | list _ items => list line (relinedAll line items)

/-- Several expressions with one line throughout. -/
def relinedAll (line : Option Int) : List Expr → List Expr
  | [] => []
  | e :: es => e.relined line :: relinedAll line es

end

theorem relinedAll_eq_map (line : Option Int) (es : List Expr) :
    relinedAll line es = es.map (relined line) := by
  induction es with
  | nil => rfl
  | cons e es ih => simp only [relinedAll, List.map_cons, ih]

/-- Only the last line that is given counts. -/
theorem relined_relined (line line' : Option Int) (e : Expr) :
    (e.relined line').relined line = e.relined line := by
  induction e using Expr.induct with
  | list l items ih =>
      simp only [relined, relinedAll_eq_map, List.map_map, Function.comp_def,
        List.map_congr_left ih]
  | atom _ _ | integer _ _ | real _ _ | boolean _ _ | null _ => rfl

mutual

/-- Whether two expressions are the same up to lines. Reals are compared as
    numbers. -/
def agrees : Expr → Expr → Bool
  | atom _ s, atom _ t => s == t
  | integer _ m, integer _ n => m == n
  | real _ x, real _ y => x == y
  | boolean _ a, boolean _ b => a == b
  | null _, null _ => true
  | list _ es, list _ fs => agreesAll es fs
  | _, _ => false

/-- Whether two lists of expressions are the same up to lines. -/
def agreesAll : List Expr → List Expr → Bool
  | [], [] => true
  | e :: es, f :: fs => e.agrees f && agreesAll es fs
  | _, _ => false

end

/-- The name of an atom. -/
def atomName? : Expr → Option String
  | atom _ name => some name
  | _ => none

/-- The items of a list. -/
def items? : Expr → Option (List Expr)
  | list _ items => some items
  | _ => none

/-- The name at the head of a list, if an atom stands there. -/
def headName? : Expr → Option String
  | list _ (head :: _) => head.atomName?
  | _ => none

/-- The items of a list after its head. -/
def arguments : Expr → List Expr
  | list _ items => items.tail
  | _ => []

/-- The names in a list that holds nothing but atoms. -/
def names? : Expr → Option (List String)
  | list _ items => items.mapM atomName?
  | _ => none

end Expr

/-- An expression at the top level of a program, with the line on which it
    starts. -/
structure Form where
  /-- The expression. -/
  expr : Expr
  /-- The line on which the form starts. -/
  line : Int

end ListLang
