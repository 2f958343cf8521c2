/-!
# Tables

A table binds names to entries and remembers the order in which names first
arrived. Binding a name again changes its entry and leaves its place alone, so
listing a table always shows names in the order a reader met them.

## Main definitions

* `Table`: Names with entries, in order of first arrival.
* `Table.insert`: Binding a name, in place if it is already bound.
* `Table.find?`: The entry of a name.
* `Table.names`: The bound names, in order.

## Theorems

* `find?_insert`: Looking a name up after binding one.
* `names_insert`: Binding appends a new name and keeps the others in place.
-/

namespace ListLang

/-- Names with entries, in the order in which the names first arrived. -/
structure Table (α : Type) where
  /-- The bindings, oldest name first. -/
  entries : List (String × α) := []

namespace Table

variable {α : Type}

/-- Set the entry of `name`, at its place if it has one and at the end if it
    has none. -/
def insertEntry (name : String) (a : α) : List (String × α) → List (String × α)
  | [] => [(name, a)]
  | (n, b) :: rest => if n = name then (n, a) :: rest else (n, b) :: insertEntry name a rest

/-- Bind `name` to `a`. -/
def insert (t : Table α) (name : String) (a : α) : Table α :=
  ⟨insertEntry name a t.entries⟩

/-- The entry of `name`, if it is bound. -/
def find? (t : Table α) (name : String) : Option α :=
  t.entries.lookup name

/-- The bound names, in order of first arrival. -/
def names (t : Table α) : List String :=
  t.entries.map (·.1)

/-- Bind every name of a list to the same entry, from left to right. -/
def insertAll (t : Table α) (names : List String) (a : α) : Table α :=
  names.foldl (fun t name => t.insert name a) t

/-- Bind names to entries pairwise, from left to right. -/
def insertEach (t : Table α) (bindings : List (String × α)) : Table α :=
  bindings.foldl (fun t b => t.insert b.1 b.2) t

theorem lookup_insertEntry (name key : String) (a : α) (entries : List (String × α)) :
    (insertEntry name a entries).lookup key =
      if key = name then some a else entries.lookup key := by
  induction entries with
  | nil =>
      simp only [insertEntry, List.lookup_cons, List.lookup_nil]
      by_cases h : key = name
      · simp only [h, beq_self_eq_true, ↓reduceIte]
      · simp only [beq_eq_false_iff_ne.mpr h, h, ↓reduceIte]
  | cons entry rest ih =>
      rcases entry with ⟨n, b⟩
      by_cases hn : n = name
      · simp only [insertEntry, hn, ↓reduceIte, List.lookup_cons]
        by_cases h : key = name
        · simp only [h, beq_self_eq_true, ↓reduceIte]
        · simp only [beq_eq_false_iff_ne.mpr h, h, ↓reduceIte]
      · simp only [insertEntry, hn, ↓reduceIte, List.lookup_cons, ih]
        by_cases h : key = n
        · have hkey : key ≠ name := fun hk => hn (h ▸ hk)
          simp only [h, beq_self_eq_true, hn, ↓reduceIte]
        · simp only [beq_eq_false_iff_ne.mpr h]

/-- After binding `name`, only the entry of `name` has changed. -/
theorem find?_insert (t : Table α) (name key : String) (a : α) :
    (t.insert name a).find? key = if key = name then some a else t.find? key :=
  lookup_insertEntry name key a t.entries

theorem map_fst_insertEntry (name : String) (a : α) (entries : List (String × α)) :
    (insertEntry name a entries).map (·.1) =
      if name ∈ entries.map (·.1) then entries.map (·.1) else entries.map (·.1) ++ [name] := by
  induction entries with
  | nil => simp only [insertEntry, List.map_cons, List.map_nil, List.not_mem_nil, ↓reduceIte,
      List.nil_append]
  | cons entry rest ih =>
      rcases entry with ⟨n, b⟩
      by_cases hn : n = name
      · simp only [insertEntry, hn, ↓reduceIte, List.map_cons, List.mem_cons, true_or]
      · have hne : ¬ name = n := fun h => hn h.symm
        simp only [insertEntry, hn, ↓reduceIte, List.map_cons, ih, List.mem_cons, hne, false_or,
          List.cons_append]
        by_cases hm : name ∈ rest.map (·.1)
        · simp only [hm, ↓reduceIte]
        · simp only [hm, ↓reduceIte]

/-- Binding a known name keeps the list of names; binding a new one appends
    it. -/
theorem names_insert (t : Table α) (name : String) (a : α) :
    (t.insert name a).names = if name ∈ t.names then t.names else t.names ++ [name] :=
  map_fst_insertEntry name a t.entries

end Table

end ListLang
