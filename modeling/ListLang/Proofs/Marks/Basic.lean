import ListLang.Proofs.Quotation
import ListLang.Proofs.Shape
import ListLang.Proofs.Tables

/-!
# The Lines That Matter

Every expression has a line, but evaluation looks at few of them: when a special
form is not written as it should be, the error takes the line of the form. So
the lines of lists with a special form at their head are marks on the code, and
all other lines might as well not be there.

Here marks are changed, in an expression and in everything that holds code. A
mark may become another one or none, and whatever is not a mark is dropped. The
rest of the module says how that goes together with taking expressions, values
and stores apart: nothing but the marks changes.

## Main definitions

* `Expr.mark?`, `Expr.marks`: The mark on an expression and all marks in it.
* `Value.marks`, `Store.marks`: The marks in the bodies of functions.
* `Expr.remarked`, `Value.remarked`, `Store.remarked`: Changing the marks.

## Theorems

* `Expr.remarked_remarked`, `Expr.remarked_congr`: Changes one after another, and
  changes that do the same.
* `Expr.mem_marks_remarked`, `Store.mem_marks_remarked`: The marks after a change.
* `Expr.relined_none`: Dropping all lines.
* `Expr.remarked_of_toExpr`: Code made of data has no marks.
* `Value.text_remarked`, `Value.toCode_remarked`: What is seen of a value.
* `Store.find?_remarked`, `Store.available_remarked`: Looking names up.
* `Store.remarked_push`, `Store.remarked_define`: Frames and bindings.
-/

namespace ListLang

/-! ### Expressions -/

namespace Expr

/-- Whether a special form stands at the head of the expression. -/
def isForm (e : Expr) : Bool :=
  (e.headName?.bind SpecialForm.ofName?).isSome

/-- The line of the expression, if a special form stands at its head. -/
def mark? (e : Expr) : Option Int :=
  if e.isForm then e.line else none

mutual

/-- The lines of all lists in the expression with a special form at their head. -/
def marks : Expr → List Int
  | atom .. | integer .. | real .. | boolean .. | null .. => []
  | list line items => (list line items).mark?.toList ++ marksAll items

/-- The marks in several expressions. -/
def marksAll : List Expr → List Int
  | [] => []
  | e :: es => e.marks ++ marksAll es

end

mutual

/-- The expression with its marks changed and without any other line. -/
def remarked (m : Int → Option Int) : Expr → Expr
  | atom _ name => atom none name
  | integer _ n => integer none n
  | real _ x => real none x
  | boolean _ b => boolean none b
  | null _ => null none
  | list line items => list ((list line items).mark?.bind m) (remarkedAll m items)

/-- Several expressions with their marks changed. -/
def remarkedAll (m : Int → Option Int) : List Expr → List Expr
  | [] => []
  | e :: es => e.remarked m :: remarkedAll m es

end

variable (m : Int → Option Int)

theorem marksAll_eq_flatMap (es : List Expr) : marksAll es = es.flatMap marks := by
  induction es with
  | nil => rfl
  | cons e es ih => exact congrArg (e.marks ++ ·) ih

theorem remarkedAll_eq_map (es : List Expr) : remarkedAll m es = es.map (remarked m) := by
  induction es with
  | nil => rfl
  | cons e es ih => exact congrArg (e.remarked m :: ·) ih

theorem remarked_list (line : Option Int) (items : List Expr) :
    (list line items).remarked m =
      list ((list line items).mark?.bind m) (items.map (remarked m)) :=
  congrArg (list _) (remarkedAll_eq_map m items)

theorem mem_marks_list {line : Option Int} {items : List Expr} {n : Int} :
    n ∈ (list line items).marks ↔
      (list line items).mark? = some n ∨ ∃ e ∈ items, n ∈ e.marks := by
  change n ∈ (list line items).mark?.toList ++ marksAll items ↔ _
  rw [marksAll_eq_flatMap, List.mem_append, Option.mem_toList, List.mem_flatMap]

@[simp] theorem atomName?_remarked (e : Expr) : (e.remarked m).atomName? = e.atomName? := by
  cases e <;> rfl

@[simp] theorem isLiteral_remarked (e : Expr) : (e.remarked m).isLiteral = e.isLiteral := by
  cases e <;> rfl

/-- What does not see the marks of the items of a list is the same for all. -/
theorem map_remarked {α : Type} {f : Expr → α} {items : List Expr}
    (h : ∀ e ∈ items, f (e.remarked m) = f e) : (items.map (remarked m)).map f = items.map f := by
  rw [List.map_map]
  exact List.map_congr_left h

@[simp] theorem text_remarked (e : Expr) : (e.remarked m).text = e.text := by
  induction e using Expr.induct with
  | list line items ih =>
      have htexts : textAll (items.map (remarked m)) = textAll items := by
        rw [textAll_eq_map, textAll_eq_map, map_remarked m ih]
      rw [remarked_list]
      exact congrArg (fun texts => "(" ++ " ".intercalate texts ++ ")") htexts
  | atom _ _ | integer _ _ | real _ _ | boolean _ _ | null _ => rfl

@[simp] theorem isWritable_remarked (e : Expr) : (e.remarked m).isWritable = e.isWritable := by
  induction e using Expr.induct with
  | list line items ih =>
      rw [remarked_list]
      exact allWritable_map ih
  | atom _ _ | integer _ _ | real _ _ | boolean _ _ | null _ => rfl

@[simp] theorem text?_remarked (e : Expr) : (e.remarked m).text? = e.text? := by
  simp only [text?, isWritable_remarked, text_remarked]

@[simp] theorem quoted_remarked (e : Expr) : (e.remarked m).quoted = e.quoted := by
  induction e using Expr.induct with
  | list line items ih =>
      have hitems : quotedAll (items.map (remarked m)) = quotedAll items := by
        rw [quotedAll_eq_map, quotedAll_eq_map, map_remarked m ih]
      rw [remarked_list]
      exact congrArg Value.list hitems
  | atom _ _ | integer _ _ | real _ _ | boolean _ _ | null _ => rfl

@[simp] theorem names?_remarked (e : Expr) : (e.remarked m).names? = e.names? := by
  cases e with
  | list line items =>
      have hitems : (items.map (remarked m)).mapM atomName? = items.mapM atomName? := by
        induction items with
        | nil => rfl
        | cons e es ih => rw [List.map_cons, List.mapM_cons, List.mapM_cons, atomName?_remarked, ih]
      rw [remarked_list]
      exact hitems
  | atom _ _ | integer _ _ | real _ _ | boolean _ _ | null _ => rfl

/-- Whether a list is a special form does not depend on lines. -/
theorem isForm_remarked (line line' : Option Int) (items : List Expr) :
    (list line (items.map (remarked m))).isForm = (list line' items).isForm := by
  cases items with
  | nil => rfl
  | cons head args =>
      exact congrArg (fun name? => (name?.bind SpecialForm.ofName?).isSome)
        (atomName?_remarked m head)

theorem mark?_list (line : Option Int) (items : List Expr) :
    (list line items).mark? = if (list line items).isForm then line else none :=
  rfl

@[simp] theorem mark?_remarked (e : Expr) : (e.remarked m).mark? = e.mark?.bind m := by
  cases e with
  | list line items =>
      rw [remarked_list, mark?_list, mark?_list, isForm_remarked m _ line items]
      cases (list line items).isForm <;> rfl
  | atom _ _ | integer _ _ | real _ _ | boolean _ _ | null _ => rfl

/-! ### Several Changes -/

/-- The marks after a change. -/
theorem mem_marks_remarked {e : Expr} {n : Int} :
    n ∈ (e.remarked m).marks ↔ ∃ k ∈ e.marks, m k = some n := by
  induction e using Expr.induct with
  | list line items ih =>
      have hmark : ((list line items).remarked m).mark? = some n ↔
          ∃ k, (list line items).mark? = some k ∧ m k = some n := by
        rw [mark?_remarked, Option.bind_eq_some_iff]
      rw [remarked_list] at hmark ⊢
      rw [mem_marks_list, hmark]
      constructor
      · rintro (⟨k, hk, hkn⟩ | ⟨e', he', hn⟩)
        · exact ⟨k, mem_marks_list.mpr (.inl hk), hkn⟩
        · rcases List.mem_map.mp he' with ⟨e, he, rfl⟩
          rcases (ih e he).mp hn with ⟨k, hk, hkn⟩
          exact ⟨k, mem_marks_list.mpr (.inr ⟨e, he, hk⟩), hkn⟩
      · rintro ⟨k, hk, hkn⟩
        rcases mem_marks_list.mp hk with hk | ⟨e, he, hk⟩
        · exact .inl ⟨k, hk, hkn⟩
        · exact .inr ⟨_, List.mem_map_of_mem he, (ih e he).mpr ⟨k, hk, hkn⟩⟩
  | atom _ _ | integer _ _ | real _ _ | boolean _ _ | null _ =>
      exact ⟨fun h => absurd h List.not_mem_nil, fun ⟨_, h, _⟩ => absurd h List.not_mem_nil⟩

theorem remarked_remarked (m' : Int → Option Int) (e : Expr) :
    (e.remarked m).remarked m' = e.remarked fun n => (m n).bind m' := by
  induction e using Expr.induct with
  | list line items ih =>
      have hitems : (items.map (remarked m)).map (remarked m') =
          items.map (remarked fun n => (m n).bind m') := by
        rw [List.map_map]
        exact List.map_congr_left ih
      have hmark := mark?_remarked m (list line items)
      rw [remarked_list] at hmark ⊢
      rw [remarked_list, remarked_list, hitems, hmark, Option.bind_assoc]
  | atom _ _ | integer _ _ | real _ _ | boolean _ _ | null _ => rfl

/-- Changes that do the same to every mark. -/
theorem remarked_congr {m m' : Int → Option Int} {e : Expr} (h : ∀ n ∈ e.marks, m n = m' n) :
    e.remarked m = e.remarked m' := by
  induction e using Expr.induct with
  | list line items ih =>
      have hmark : (list line items).mark?.bind m = (list line items).mark?.bind m' := by
        cases hline : (list line items).mark? with
        | none => rfl
        | some n => exact h n (mem_marks_list.mpr (.inl hline))
      have hitems : items.map (remarked m) = items.map (remarked m') :=
        List.map_congr_left fun e he =>
          ih e he fun n hn => h n (mem_marks_list.mpr (.inr ⟨e, he, hn⟩))
      rw [remarked_list, remarked_list, hmark, hitems]
  | atom _ _ | integer _ _ | real _ _ | boolean _ _ | null _ => rfl

/-- Dropping all lines is dropping all marks. -/
theorem relined_none (e : Expr) : e.relined none = e.remarked fun _ => none := by
  induction e using Expr.induct with
  | list line items ih =>
      have hitems : relinedAll none items = items.map (remarked fun _ => none) := by
        rw [relinedAll_eq_map, List.map_congr_left ih]
      rw [remarked_list, Option.bind_fun_none]
      exact congrArg (list none) hitems
  | atom _ _ | integer _ _ | real _ _ | boolean _ _ | null _ => rfl

/-- Code that is made of data has no lines at all. -/
theorem remarked_of_toExpr {v : Value} {e : Expr} (h : v.toExpr none = .ok e) :
    e.remarked m = e := by
  have hself : e = e.remarked fun _ => none := by
    rw [← Value.quoted_of_toExpr h, toExpr_quoted, Except.ok.injEq] at h
    rw [← relined_none, h]
  rw [hself, remarked_remarked]
  rfl

end Expr

/-! ### Values -/

/-- The function with the marks in its body changed. -/
def Closure.remarked (m : Int → Option Int) (f : Closure) : Closure :=
  { f with body := f.body.remarked m }

namespace Value

mutual

/-- The marks in the bodies of the functions in a value. -/
def marks : Value → List Int
  | atom .. | integer .. | real .. | boolean .. | null => []
  | list items => marksAll items
  | function f => f.body.marks

/-- The marks in several values. -/
def marksAll : List Value → List Int
  | [] => []
  | v :: vs => v.marks ++ marksAll vs

end

mutual

/-- The value with the marks in the bodies of its functions changed. -/
def remarked (m : Int → Option Int) : Value → Value
  | atom name => atom name
  | integer n => integer n
  | real x => real x
  | boolean b => boolean b
  | null => null
  | list items => list (remarkedAll m items)
  | function f => function (f.remarked m)

/-- Several values with their marks changed. -/
def remarkedAll (m : Int → Option Int) : List Value → List Value
  | [] => []
  | v :: vs => v.remarked m :: remarkedAll m vs

end

variable (m : Int → Option Int)

theorem marksAll_eq_flatMap (vs : List Value) : marksAll vs = vs.flatMap marks := by
  induction vs with
  | nil => rfl
  | cons v vs ih => exact congrArg (v.marks ++ ·) ih

theorem remarkedAll_eq_map (vs : List Value) : remarkedAll m vs = vs.map (remarked m) := by
  induction vs with
  | nil => rfl
  | cons v vs ih => exact congrArg (v.remarked m :: ·) ih

@[simp] theorem remarked_list (items : List Value) :
    (list items).remarked m = list (items.map (remarked m)) :=
  congrArg list (remarkedAll_eq_map m items)

@[simp] theorem kind_remarked (v : Value) : (v.remarked m).kind = v.kind := by
  cases v <;> rfl

@[simp] theorem text_remarked (v : Value) : (v.remarked m).text = v.text := by
  induction v using Value.induct with
  | list items ih =>
      have htexts : textAll (items.map (remarked m)) = textAll items := by
        rw [textAll_eq_map, textAll_eq_map, List.map_map]
        exact List.map_congr_left ih
      rw [remarked_list]
      exact congrArg (fun texts => "(" ++ " ".intercalate texts ++ ")") htexts
  | atom _ | integer _ | real _ | boolean _ | null | function _ => rfl

@[simp] theorem isWritable_remarked (v : Value) :
    (v.remarked m).isWritable = v.isWritable := by
  induction v using Value.induct with
  | list items ih =>
      rw [remarked_list]
      exact allWritable_map ih
  | atom _ | integer _ | real _ | boolean _ | null | function _ => rfl

@[simp] theorem text?_remarked (v : Value) : (v.remarked m).text? = v.text? := by
  simp only [text?, isWritable_remarked, text_remarked]

@[simp] theorem shown_remarked (v : Value) : (v.remarked m).shown = v.shown := by
  simp only [shown, text?_remarked, kind_remarked]

@[simp] theorem texts_remarked (vs : List Value) :
    (vs.map (remarked m)).map text? = vs.map text? := by
  rw [List.map_map]
  exact List.map_congr_left fun v _ => text?_remarked m v

/-- There are no functions in quoted code, and so no marks. -/
@[simp] theorem remarked_quoted (e : Expr) : e.quoted.remarked m = e.quoted := by
  induction e using Expr.induct with
  | list line items ih =>
      change (list (Expr.quotedAll items)).remarked m = list (Expr.quotedAll items)
      rw [Expr.quotedAll_eq_map, remarked_list, List.map_map]
      exact congrArg list (List.map_congr_left ih)
  | atom _ _ | integer _ _ | real _ _ | boolean _ _ | null _ => rfl

theorem toExpr_remarked (line : Option Int) (v : Value) :
    (v.remarked m).toExpr line = (v.toExpr line).mapError (Closure.remarked m) := by
  induction v using Value.induct with
  | list items ih =>
      have hitems : toExprs line (items.map (remarked m)) =
          (toExprs line items).mapError (Closure.remarked m) := by
        induction items with
        | nil => rfl
        | cons v vs ihs =>
            rw [List.map_cons, toExprs, toExprs, ih v List.mem_cons_self,
              ihs fun w hw => ih w (List.mem_cons_of_mem _ hw)]
            cases v.toExpr line with
            | error f => rfl
            | ok e => cases toExprs line vs <;> rfl
      rw [remarked_list, toExpr, toExpr, hitems]
      cases toExprs line items <;> rfl
  | atom _ | integer _ | real _ | boolean _ | null | function _ => rfl

@[simp] theorem toCode_remarked (line : Option Int) (v : Value) :
    (v.remarked m).toCode line = v.toCode line := by
  change ((v.remarked m).toExpr line).mapError _ = (v.toExpr line).mapError _
  rw [toExpr_remarked]
  cases v.toExpr line <;> rfl

theorem mem_marks_list {items : List Value} {n : Int} :
    n ∈ (list items).marks ↔ ∃ v ∈ items, n ∈ v.marks := by
  change n ∈ marksAll items ↔ _
  rw [marksAll_eq_flatMap, List.mem_flatMap]

theorem mem_marks_remarked {v : Value} {n : Int} :
    n ∈ (v.remarked m).marks ↔ ∃ k ∈ v.marks, m k = some n := by
  induction v using Value.induct with
  | list items ih =>
      rw [remarked_list, mem_marks_list]
      constructor
      · rintro ⟨v', hv', hn⟩
        rcases List.mem_map.mp hv' with ⟨v, hv, rfl⟩
        rcases (ih v hv).mp hn with ⟨k, hk, hkn⟩
        exact ⟨k, mem_marks_list.mpr ⟨v, hv, hk⟩, hkn⟩
      · rintro ⟨k, hk, hkn⟩
        rcases mem_marks_list.mp hk with ⟨v, hv, hk⟩
        exact ⟨_, List.mem_map_of_mem hv, (ih v hv).mpr ⟨k, hk, hkn⟩⟩
  | function f => exact Expr.mem_marks_remarked m
  | atom _ | integer _ | real _ | boolean _ | null =>
      exact ⟨fun h => absurd h List.not_mem_nil, fun ⟨_, h, _⟩ => absurd h List.not_mem_nil⟩

theorem remarked_remarked (m' : Int → Option Int) (v : Value) :
    (v.remarked m).remarked m' = v.remarked fun n => (m n).bind m' := by
  induction v using Value.induct with
  | list items ih =>
      rw [remarked_list, remarked_list, remarked_list, List.map_map]
      exact congrArg list (List.map_congr_left ih)
  | function f =>
      exact congrArg (fun body => function { f with body := body })
        (Expr.remarked_remarked m m' f.body)
  | atom _ | integer _ | real _ | boolean _ | null => rfl

theorem remarked_congr {m m' : Int → Option Int} {v : Value} (h : ∀ n ∈ v.marks, m n = m' n) :
    v.remarked m = v.remarked m' := by
  induction v using Value.induct with
  | list items ih =>
      rw [remarked_list, remarked_list]
      exact congrArg list (List.map_congr_left fun v hv =>
        ih v hv fun n hn => h n (mem_marks_list.mpr ⟨v, hv, hn⟩))
  | function f =>
      exact congrArg (fun body => function { f with body := body }) (Expr.remarked_congr h)
  | atom _ | integer _ | real _ | boolean _ | null => rfl

end Value

/-! ### Stores -/

/-- The frame with the marks in its values changed. -/
def Frame.remarked (m : Int → Option Int) (f : Frame) : Frame :=
  { f with bindings := f.bindings.map (Value.remarked m) }

namespace Store

/-- The marks in the bodies of all functions that are bound. -/
def marks (s : Store) : List Int :=
  s.frames.toList.flatMap fun f => f.bindings.entries.flatMap fun b => b.2.marks

/-- The store with the marks in its values changed. -/
def remarked (m : Int → Option Int) (s : Store) : Store :=
  ⟨s.frames.map (Frame.remarked m)⟩

variable (m : Int → Option Int)

theorem getElem?_remarked (s : Store) (i : Nat) :
    (s.remarked m).frames[i]? = s.frames[i]?.map (Frame.remarked m) :=
  Array.getElem?_map

theorem walk_remarked (s : Store) (steps id : Nat) :
    (s.remarked m).walk steps id = (s.walk steps id).map (Frame.remarked m) := by
  induction steps generalizing id with
  | zero => rfl
  | succ steps ih =>
      rw [walk, walk, getElem?_remarked]
      cases s.frames[id]? with
      | none => rfl
      | some f =>
          rw [Option.map_some, List.map_cons]
          have hkept : (f.remarked m).parent = f.parent := rfl
          cases hparent : f.parent with
          | none => simp only [hkept, hparent, List.map_nil]
          | some p => simp only [hkept, hparent, ih]

/-- A name has the value it had, but for marks. -/
theorem find?_remarked (s : Store) (env : Nat) (name : String) :
    (s.remarked m).find? env name = (s.find? env name).map (Value.remarked m) := by
  change ((s.remarked m).walk (env + 1) env).findSome? _ =
    ((s.walk (env + 1) env).findSome? _).map _
  rw [walk_remarked]
  induction s.walk (env + 1) env with
  | nil => rfl
  | cons f fs ih =>
      have hown : (f.remarked m).bindings.find? name =
          (f.bindings.find? name).map (Value.remarked m) := Table.find?_map _ _ _
      rw [List.map_cons, List.findSome?_cons, List.findSome?_cons, ih, hown]
      cases f.bindings.find? name <;> rfl

/-- The same names are in sight. -/
@[simp] theorem available_remarked (s : Store) (env : Nat) :
    (s.remarked m).available env = s.available env := by
  change ((s.remarked m).walk (env + 1) env).flatMap _ = (s.walk (env + 1) env).flatMap _
  rw [walk_remarked, List.flatMap_map]
  exact congrArg (List.flatMap · _) (funext fun f => f.bindings.names_map _)

theorem remarked_push (s : Store) (f : Frame) :
    (s.remarked m).push (f.remarked m) = ((s.push f).1, (s.push f).2.remarked m) :=
  Prod.ext Array.size_map (congrArg Store.mk Array.map_push.symm)

theorem remarked_define (s : Store) (env : Nat) (name : String) (v : Value) :
    (s.remarked m).define env name (v.remarked m) = (s.define env name v).remarked m := by
  have hframes : ∀ i : Nat, ((s.remarked m).define env name (v.remarked m)).frames[i]? =
      ((s.define env name v).remarked m).frames[i]? := by
    intro i
    rw [getElem?_define, getElem?_remarked, getElem?_remarked, getElem?_define]
    split
    · cases s.frames[i]? with
      | none => rfl
      | some f =>
          exact congrArg (fun bindings => some { f with bindings := bindings })
            (f.bindings.map_insert _ name v).symm
    · rfl
  exact congrArg Store.mk (Array.ext_getElem? hframes)

theorem mem_marks {s : Store} {n : Int} :
    n ∈ s.marks ↔ ∃ f ∈ s.frames, ∃ b ∈ f.bindings.entries, n ∈ b.2.marks := by
  change n ∈ s.frames.toList.flatMap _ ↔ _
  simp only [List.mem_flatMap, Array.mem_toList_iff]

theorem mem_marks_remarked {s : Store} {n : Int} :
    n ∈ (s.remarked m).marks ↔ ∃ k ∈ s.marks, m k = some n := by
  constructor
  · intro hn
    rcases mem_marks.mp hn with ⟨f', hf', b', hb', hn⟩
    rcases Array.mem_map.mp hf' with ⟨f, hf, rfl⟩
    rcases List.mem_map.mp hb' with ⟨b, hb, rfl⟩
    rcases (Value.mem_marks_remarked m).mp hn with ⟨k, hk, hkn⟩
    exact ⟨k, mem_marks.mpr ⟨f, hf, b, hb, hk⟩, hkn⟩
  · rintro ⟨k, hk, hkn⟩
    rcases mem_marks.mp hk with ⟨f, hf, b, hb, hk⟩
    exact mem_marks.mpr ⟨_, Array.mem_map_of_mem hf, _, List.mem_map_of_mem hb,
      (Value.mem_marks_remarked m).mpr ⟨k, hk, hkn⟩⟩

theorem remarked_remarked (m' : Int → Option Int) (s : Store) :
    (s.remarked m).remarked m' = s.remarked fun n => (m n).bind m' := by
  have hframe : Frame.remarked m' ∘ Frame.remarked m =
      Frame.remarked fun n => (m n).bind m' := by
    funext f
    have hbindings : (f.bindings.map (Value.remarked m)).map (Value.remarked m') =
        f.bindings.map (Value.remarked fun n => (m n).bind m') := by
      rw [Table.map_map]
      exact congrArg f.bindings.map (funext (Value.remarked_remarked m m'))
    exact congrArg (fun bindings => { f with bindings := bindings }) hbindings
  change Store.mk ((s.frames.map _).map _) = Store.mk (s.frames.map _)
  rw [Array.map_map, hframe]

theorem remarked_congr {m m' : Int → Option Int} {s : Store} (h : ∀ n ∈ s.marks, m n = m' n) :
    s.remarked m = s.remarked m' := by
  refine congrArg Store.mk (Array.map_congr_left fun f hf => ?_)
  have hentries : f.bindings.map (Value.remarked m) = f.bindings.map (Value.remarked m') := by
    refine congrArg Table.mk (List.map_congr_left fun b hb => ?_)
    rw [Value.remarked_congr fun n hn => h n (mem_marks.mpr ⟨f, hf, b, hb, hn⟩)]
  exact congrArg (fun bindings => { f with bindings := bindings }) hentries

end Store

end ListLang
