import ListLang.Eval.Exit
import ListLang.Proofs.Related
import ListLang.Proofs.Tables

/-!
# Corresponding Runs

Two programs are compared by running them side by side. They need not be the
same: the code of one may be a rewritten form of the code of the other, some
names may be bound in one and not in the other, and lines may be lost. A
correspondence says which differences are allowed in code, and everything else
is compared through that. Functions correspond when their bodies do, other
values when they are equal but for the functions in them, frames when they bind
corresponding values to the same names in the same order, and stores when all
their frames do.

Frames are made in the same order on both sides, so a frame and its counterpart
have the same place and a function and its counterpart remember the same frame.

## Main definitions

* `Correspondence`: Which differences between two programs are allowed.
* `Closures`, `Values`: Corresponding functions and values.
* `Bindings`, `Frames`, `Stores`: Corresponding frames and stores.

## Theorems

* `Values.text?_eq`, `Values.kind_eq`: Corresponding values look the same.
* `Values.toExpr_cases`: Corresponding values are the same code, or both hold a
  function.
* `Bindings.insert`, `Bindings.insert_hidden`: Binding a name.
* `Stores.find?`: Looking a name up.
* `Stores.push`, `Stores.define`, `Stores.define_hidden`: Changing stores.
-/

namespace ListLang

/-- Which differences between two programs are allowed. The first of them is the
    one that is known to run. -/
structure Correspondence where
  /-- Which expression of the second program stands for which of the first. -/
  code : Expr → Expr → Prop
  /-- Names that the two programs may bind differently. -/
  hidden : List String
  /-- Names that are never bound and never left unevaluated. -/
  pinned : String → Prop
  /-- Which line of an error stands for which. -/
  lines : Option Int → Option Int → Prop

namespace Correspondence

variable (c : Correspondence)

/-- Functions that differ only in corresponding bodies. -/
structure Closures (f g : Closure) : Prop where
  params : f.params = g.params
  frame : f.frame = g.frame
  name : f.name = g.name
  unpinned : ∀ p ∈ f.params, ¬ c.pinned p
  body : c.code f.body g.body

/-- Values that differ only in corresponding functions. -/
inductive Values : Value → Value → Prop where
  | atom (name : String) (h : ¬ c.pinned name) : Values (.atom name) (.atom name)
  | integer (n : Int) : Values (.integer n) (.integer n)
  | real (x : Float) : Values (.real x) (.real x)
  | boolean (b : Bool) : Values (.boolean b) (.boolean b)
  | null : Values .null .null
  | list {vs ws : List Value} (h : List.Forall₂ Values vs ws) : Values (.list vs) (.list ws)
  | function {f g : Closure} (h : c.Closures f g) : Values (.function f) (.function g)

/-- Bindings of one name to corresponding values. -/
def Binding (a b : String × Value) : Prop :=
  a.1 = b.1 ∧ c.Values a.2 b.2

/-- The bindings of names that are not hidden. -/
def visible (entries : List (String × Value)) : List (String × Value) :=
  entries.filter fun b => b.1 ∉ c.hidden

/-- Tables that bind the same names to corresponding values in the same order,
    hidden names left out. -/
def Bindings (t u : Table Value) : Prop :=
  List.Forall₂ c.Binding (c.visible t.entries) (c.visible u.entries)

/-- Frames with corresponding bindings. -/
structure Frames (f g : Frame) : Prop where
  label : f.label = g.label
  parent : f.parent = g.parent
  bindings : c.Bindings f.bindings g.bindings
  unpinned : ∀ b ∈ f.bindings.entries, ¬ c.pinned b.1

/-- Stores with corresponding frames. -/
structure Stores (s t : Store) : Prop where
  size : s.frames.size = t.frames.size
  frames : ∀ i : Nat, Option.Rel c.Frames s.frames[i]? t.frames[i]?

variable {c}

/-! ### Values -/

theorem Closures.text_eq {f g : Closure} (h : c.Closures f g) : f.text = g.text := by
  unfold Closure.text Closure.label?
  rw [h.name]

theorem Values.kind_eq {v w : Value} (h : c.Values v w) : v.kind = w.kind := by
  cases h <;> rfl

theorem Values.text_eq {v w : Value} (h : c.Values v w) : v.text = w.text := by
  induction v using Value.induct generalizing w with
  | list items ih =>
      cases h with
      | list h =>
          have htexts := map_eq_map_of_forall₂ (forall₂_imp_mem h fun v hv w => ih v hv)
          simp only [Value.text, Value.textAll_eq_map, htexts]
  | function f =>
      cases h with
      | function h => exact h.text_eq
  | atom name => cases h; rfl
  | integer n => cases h; rfl
  | real x => cases h; rfl
  | boolean b => cases h; rfl
  | null => cases h; rfl

theorem Values.isWritable_eq {v w : Value} (h : c.Values v w) : v.isWritable = w.isWritable := by
  induction v using Value.induct generalizing w with
  | list items ih =>
      cases h with
      | @list _ ws h =>
          have hall : List.Forall₂ (fun v w => v.isWritable = w.isWritable) items ws :=
            forall₂_imp_mem h fun v hv w => ih v hv
          change Value.allWritable items = Value.allWritable ws
          clear h ih
          induction hall with
          | nil => rfl
          | cons hvw _ ih => simp only [Value.allWritable, hvw, ih]
  | function f => cases h; rfl
  | atom name => cases h; rfl
  | integer n => cases h; rfl
  | real x => cases h; rfl
  | boolean b => cases h; rfl
  | null => cases h; rfl

theorem Values.text?_eq {v w : Value} (h : c.Values v w) : v.text? = w.text? := by
  simp only [Value.text?, h.text_eq, h.isWritable_eq]

theorem Values.shown_eq {v w : Value} (h : c.Values v w) : v.shown = w.shown := by
  simp only [Value.shown, h.text?_eq, h.kind_eq]

theorem texts_eq {vs ws : List Value} (h : List.Forall₂ c.Values vs ws) :
    vs.map Value.text? = ws.map Value.text? :=
  map_eq_map_of_forall₂ (h.imp fun _ _ hvw => hvw.text?_eq)

theorem toExprs_cases {line : Option Int} {vs ws : List Value}
    (h : List.Forall₂ c.Values vs ws)
    (hitem : ∀ v ∈ vs, ∀ w, c.Values v w → (∃ e, v.toExpr line = .ok e ∧ w = v) ∨
      ∃ f g, v.toExpr line = .error f ∧ w.toExpr line = .error g ∧ c.Closures f g) :
    (∃ es, Value.toExprs line vs = .ok es ∧ ws = vs) ∨
      ∃ f g, Value.toExprs line vs = .error f ∧ Value.toExprs line ws = .error g ∧
        c.Closures f g := by
  induction h with
  | nil => exact .inl ⟨[], rfl, rfl⟩
  | @cons v w vs ws hvw _ ih =>
      -- Items are read from the left, so the first function met is the one that counts.
      rcases hitem v List.mem_cons_self w hvw with ⟨e, he, rfl⟩ | ⟨f, g, hf, hg, hfg⟩
      · rcases ih fun v hv => hitem v (List.mem_cons_of_mem _ hv) with
          ⟨es, hes, rfl⟩ | ⟨f, g, hf, hg, hfg⟩
        · exact .inl ⟨e :: es, by rw [Value.toExprs, he, hes]; rfl, rfl⟩
        · exact .inr ⟨f, g, by rw [Value.toExprs, he, hf]; rfl,
            by rw [Value.toExprs, he, hg]; rfl, hfg⟩
      · exact .inr ⟨f, g, by rw [Value.toExprs, hf], by rw [Value.toExprs, hg], hfg⟩

/-- Corresponding values either are the same code or both hold a function, the
    leftmost of one corresponding to the leftmost of the other. -/
theorem Values.toExpr_cases {v w : Value} (h : c.Values v w) (line : Option Int) :
    (∃ e, v.toExpr line = .ok e ∧ w = v) ∨
      ∃ f g, v.toExpr line = .error f ∧ w.toExpr line = .error g ∧ c.Closures f g := by
  induction v using Value.induct generalizing w with
  | list items ih =>
      cases h with
      | list h =>
          rcases toExprs_cases h (fun v hv w hvw => ih v hv hvw) with
            ⟨es, hes, rfl⟩ | ⟨f, g, hf, hg, hfg⟩
          · exact .inl ⟨.list line es, by rw [Value.toExpr, hes]; rfl, rfl⟩
          · exact .inr ⟨f, g, by rw [Value.toExpr, hf]; rfl, by rw [Value.toExpr, hg]; rfl, hfg⟩
  | function f =>
      cases h with
      | function h => exact .inr ⟨f, _, rfl, rfl, h⟩
  | atom name => cases h; exact .inl ⟨_, rfl, rfl⟩
  | integer n => cases h; exact .inl ⟨_, rfl, rfl⟩
  | real x => cases h; exact .inl ⟨_, rfl, rfl⟩
  | boolean b => cases h; exact .inl ⟨_, rfl, rfl⟩
  | null => cases h; exact .inl ⟨_, rfl, rfl⟩

/-! ### Bindings -/

theorem visible_insertEntry (name : String) (v : Value) (entries : List (String × Value)) :
    c.visible (Table.insertEntry name v entries) =
      if name ∈ c.hidden then c.visible entries
      else Table.insertEntry name v (c.visible entries) := by
  unfold visible
  induction entries with
  | nil =>
      by_cases hname : name ∈ c.hidden
      · simp [Table.insertEntry, hname]
      · simp [Table.insertEntry, hname]
  | cons entry rest ih =>
      rcases entry with ⟨n, x⟩
      by_cases hn : n = name
      · -- The entry is replaced, and seen or not seen both before and after.
        subst hn
        by_cases hname : n ∈ c.hidden
        · simp [Table.insertEntry, hname]
        · simp [Table.insertEntry, hname]
      · -- The entry stays, and the binding goes on into the rest.
        by_cases hn' : n ∈ c.hidden
        · simp only [Table.insertEntry, hn, ↓reduceIte, hn', not_true_eq_false, decide_false,
            Bool.false_eq_true, not_false_eq_true, List.filter_cons_of_neg, ih]
        · by_cases hname : name ∈ c.hidden
          · simp only [Table.insertEntry, hn, ↓reduceIte, hn', not_false_eq_true, decide_true,
              List.filter_cons_of_pos, ih, hname]
          · simp only [Table.insertEntry, hn, ↓reduceIte, hn', not_false_eq_true, decide_true,
              List.filter_cons_of_pos, ih, hname]

/-- Binding a name to corresponding values, hidden or not. -/
theorem Bindings.insert {t u : Table Value} (h : c.Bindings t u) (name : String) {v w : Value}
    (hv : c.Values v w) : c.Bindings (t.insert name v) (u.insert name w) := by
  unfold Bindings Table.insert
  rw [visible_insertEntry, visible_insertEntry]
  by_cases hname : name ∈ c.hidden
  · rw [if_pos hname, if_pos hname]
    exact h
  · rw [if_neg hname, if_neg hname]
    exact Table.related_insertEntry h name hv

/-- Binding a hidden name on one side only. -/
theorem Bindings.insert_hidden {t u : Table Value} (h : c.Bindings t u) {name : String}
    (hname : name ∈ c.hidden) (v : Value) : c.Bindings (t.insert name v) u := by
  unfold Bindings Table.insert
  rw [visible_insertEntry, if_pos hname]
  exact h

theorem Bindings.insertEach {t u : Table Value} (h : c.Bindings t u)
    {bs bs' : List (String × Value)} (hbs : List.Forall₂ c.Binding bs bs') :
    c.Bindings (t.insertEach bs) (u.insertEach bs') := by
  induction hbs generalizing t u with
  | nil => exact h
  | @cons a b bs bs' hab _ ih =>
      rcases a with ⟨name, v⟩
      rcases b with ⟨name', w⟩
      rcases hab with ⟨rfl, hv⟩
      exact ih (h.insert name hv)

theorem Bindings.insertAll {t u : Table Value} (h : c.Bindings t u) (names : List String)
    {v w : Value} (hv : c.Values v w) : c.Bindings (t.insertAll names v) (u.insertAll names w) := by
  induction names generalizing t u with
  | nil => exact h
  | cons name names ih => exact ih (h.insert name hv)

/-- Parameters bound to corresponding arguments. -/
theorem forall₂_zip_params {vs ws : List Value} (h : List.Forall₂ c.Values vs ws)
    (params : List String) : List.Forall₂ c.Binding (params.zip vs) (params.zip ws) := by
  induction h generalizing params with
  | nil => simp only [List.zip_nil_right, List.Forall₂.nil]
  | cons hvw _ ih =>
      cases params with
      | nil => exact .nil
      | cons p params => exact .cons ⟨rfl, hvw⟩ (ih params)

theorem lookup_visible {name : String} (hname : name ∉ c.hidden)
    (entries : List (String × Value)) : (c.visible entries).lookup name = entries.lookup name := by
  unfold visible
  induction entries with
  | nil => rfl
  | cons entry rest ih =>
      rcases entry with ⟨n, x⟩
      by_cases hn : n ∈ c.hidden
      · -- A hidden entry is not the one that is looked for.
        have hne : name ≠ n := fun heq => hname (heq ▸ hn)
        rw [List.filter_cons_of_neg (by simpa using hn), ih, List.lookup_cons,
          beq_eq_false_iff_ne.mpr hne]
      · rw [List.filter_cons_of_pos (by simpa using hn), List.lookup_cons, List.lookup_cons, ih]

theorem Bindings.find? {t u : Table Value} (h : c.Bindings t u) {name : String}
    (hname : name ∉ c.hidden) : Option.Rel c.Values (t.find? name) (u.find? name) := by
  have hrel := Table.related_lookup h name
  rwa [lookup_visible hname, lookup_visible hname] at hrel

/-- Where nothing is hidden, all bindings correspond in their order. -/
theorem Bindings.entries {t u : Table Value} (h : c.Bindings t u) (hnone : c.hidden = []) :
    List.Forall₂ c.Binding t.entries u.entries := by
  have hall : ∀ entries : List (String × Value), c.visible entries = entries := by
    intro entries
    unfold visible
    rw [hnone]
    simp only [List.not_mem_nil, not_false_eq_true, decide_true, List.filter_true]
  unfold Bindings at h
  rwa [hall, hall] at h

theorem Bindings.names_eq {t u : Table Value} (h : c.Bindings t u) (hnone : c.hidden = []) :
    t.names = u.names :=
  map_eq_map_of_forall₂ ((h.entries hnone).imp fun _ _ hab => hab.1)

/-! ### Stores -/

theorem Stores.walk {s t : Store} (h : c.Stores s t) (steps id : Nat) :
    List.Forall₂ c.Frames (s.walk steps id) (t.walk steps id) := by
  induction steps generalizing id with
  | zero => exact .nil
  | succ steps ih =>
      rcases optionRel_cases (h.frames id) with ⟨hs, ht⟩ | ⟨f, g, hs, ht, hfg⟩
      · simp only [Store.walk, hs, ht, List.Forall₂.nil]
      · simp only [Store.walk, hs, ht, ← hfg.parent]
        cases f.parent with
        | none => exact .cons hfg .nil
        | some p => exact .cons hfg (ih p)

/-- A name that is not hidden has corresponding values. -/
theorem Stores.find? {s t : Store} (h : c.Stores s t) (env : Nat) {name : String}
    (hname : name ∉ c.hidden) : Option.Rel c.Values (s.find? env name) (t.find? env name) := by
  have hwalk := h.walk (env + 1) env
  unfold Store.find? Store.chain
  generalize s.walk (env + 1) env = fs, t.walk (env + 1) env = gs at hwalk ⊢
  induction hwalk with
  | nil => exact .none
  | @cons f g _ _ hfg _ ih =>
      rw [List.findSome?_cons, List.findSome?_cons]
      rcases optionRel_cases (hfg.bindings.find? hname) with ⟨hf, hg⟩ | ⟨v, w, hf, hg, hvw⟩
      · rw [hf, hg]
        exact ih
      · rw [hf, hg]
        exact .some hvw

/-- A pinned name has no value. -/
theorem Stores.find?_pinned {s t : Store} (h : c.Stores s t) (env : Nat) {name : String}
    (hname : c.pinned name) : s.find? env name = none := by
  have hwalk := h.walk (env + 1) env
  unfold Store.find? Store.chain
  generalize s.walk (env + 1) env = fs, t.walk (env + 1) env = gs at hwalk ⊢
  induction hwalk with
  | nil => rfl
  | @cons f g _ _ hfg _ ih =>
      rw [List.findSome?_cons]
      cases hf : f.bindings.find? name with
      | none => exact ih
      | some v => exact absurd hname (hfg.unpinned _ (Table.mem_entries_of_find? hf))

/-- Where nothing is hidden, the same names can be seen. -/
theorem Stores.available_eq {s t : Store} (h : c.Stores s t) (env : Nat) (hnone : c.hidden = []) :
    s.available env = t.available env := by
  unfold Store.available Store.chain
  rw [List.flatMap_def, List.flatMap_def,
    map_eq_map_of_forall₂ ((h.walk (env + 1) env).imp fun _ _ hfg => hfg.bindings.names_eq hnone)]

/-- Making corresponding frames, which get the same place. -/
theorem Stores.push {s t : Store} (h : c.Stores s t) {f g : Frame} (hfg : c.Frames f g) :
    (s.push f).1 = (t.push g).1 ∧ c.Stores (s.push f).2 (t.push g).2 := by
  refine ⟨h.size, ⟨?_, ?_⟩⟩
  · simp only [Store.push, Array.size_push, h.size]
  · intro i
    simp only [Store.push, Array.getElem?_push, h.size]
    split
    · exact .some hfg
    · exact h.frames i

/-- A change of one frame on each side that leads to corresponding frames. -/
theorem Stores.modify {s t : Store} (h : c.Stores s t) (id : Nat) {f g : Frame → Frame}
    (hfg : ∀ x y, c.Frames x y → c.Frames (f x) (g y)) :
    c.Stores ⟨s.frames.modify id f⟩ ⟨t.frames.modify id g⟩ := by
  refine ⟨?_, ?_⟩
  · simp only [Array.size_modify, h.size]
  · intro i
    rw [Array.getElem?_modify, Array.getElem?_modify]
    split
    · rcases optionRel_cases (h.frames i) with ⟨hx, hy⟩ | ⟨x, y, hx, hy, hxy⟩
      · rw [hx, hy]
        exact .none
      · rw [hx, hy]
        exact .some (hfg x y hxy)
    · exact h.frames i

/-- A frame still binds no pinned name after binding one that is not. -/
theorem Frames.unpinned_insert {f g : Frame} (h : c.Frames f g) {name : String}
    (hname : ¬ c.pinned name) (v : Value) :
    ∀ b ∈ (f.bindings.insert name v).entries, ¬ c.pinned b.1 := by
  intro b hb
  rcases Table.mem_entries_insert hb with hb | rfl
  · exact h.unpinned b hb
  · exact hname

/-- Binding a name to corresponding values. -/
theorem Stores.define {s t : Store} (h : c.Stores s t) (env : Nat) {name : String}
    (hname : ¬ c.pinned name) {v w : Value} (hv : c.Values v w) :
    c.Stores (s.define env name v) (t.define env name w) :=
  h.modify env fun _ _ hxy =>
    ⟨hxy.label, hxy.parent, hxy.bindings.insert name hv, hxy.unpinned_insert hname v⟩

/-- Binding a hidden name on one side only. -/
theorem Stores.define_hidden {s t : Store} (h : c.Stores s t) (env : Nat) {name : String}
    (hname : ¬ c.pinned name) (hhidden : name ∈ c.hidden) (v : Value) :
    c.Stores (s.define env name v) t := by
  -- The second side is changed as well, by doing nothing to the frame.
  have hid : t = ⟨t.frames.modify env id⟩ := by
    rcases t with ⟨frames⟩
    congr 1
    ext i hi hi'
    · simp only [Array.size_modify]
    · simp only [Array.getElem_modify, id_eq, ite_self]
  rw [hid]
  exact h.modify env fun _ _ hxy =>
    ⟨hxy.label, hxy.parent, hxy.bindings.insert_hidden hhidden v, hxy.unpinned_insert hname v⟩

end Correspondence

end ListLang
