import ListLang.Store

/-!
# What Is in a Table

Every entry of a table was put there by some binding. These are the facts by
which a property of what is bound becomes a property of what is found.

## Main definitions

* `Table.map`: Changing every entry of a table.

## Theorems

* `mem_entries_insert`, `mem_entries_insertEach`, `mem_entries_insertAll`: The
  entries after binding.
* `mem_entries_of_find?`: What is found is an entry.
* `names_prefix_insert`: Binding keeps the names there are, in their order.
* `find?_map`, `map_insert`: Looking up and binding after every entry has changed.
-/

namespace ListLang

namespace Table

variable {α : Type}

theorem mem_insertEntry {name : String} {a : α} {entries : List (String × α)} {b : String × α}
    (h : b ∈ insertEntry name a entries) : b ∈ entries ∨ b = (name, a) := by
  induction entries with
  | nil => exact .inr (List.mem_singleton.mp h)
  | cons entry rest ih =>
      rcases entry with ⟨n, x⟩
      by_cases hn : n = name
      · rw [insertEntry, if_pos hn] at h
        rcases List.mem_cons.mp h with hb | hb
        · exact .inr (by rw [hb, hn])
        · exact .inl (List.mem_cons_of_mem _ hb)
      · rw [insertEntry, if_neg hn] at h
        rcases List.mem_cons.mp h with hb | hb
        · exact .inl (by rw [hb]; exact List.mem_cons_self)
        · exact (ih hb).imp_left (List.mem_cons_of_mem _)

/-- After binding a name, an entry was there before or is the new one. -/
theorem mem_entries_insert {t : Table α} {name : String} {a : α} {b : String × α}
    (h : b ∈ (t.insert name a).entries) : b ∈ t.entries ∨ b = (name, a) :=
  mem_insertEntry h

theorem mem_entries_insertEach {t : Table α} {bindings : List (String × α)} {b : String × α}
    (h : b ∈ (t.insertEach bindings).entries) : b ∈ t.entries ∨ b ∈ bindings := by
  induction bindings generalizing t with
  | nil => exact .inl h
  | cons binding rest ih =>
      rcases ih h with hb | hb
      · rcases mem_entries_insert hb with hb | hb
        · exact .inl hb
        · exact .inr (by rw [hb]; exact List.mem_cons_self)
      · exact .inr (List.mem_cons_of_mem _ hb)

theorem mem_entries_insertAll {t : Table α} {names : List String} {a : α} {b : String × α}
    (h : b ∈ (t.insertAll names a).entries) : b ∈ t.entries ∨ b.1 ∈ names ∧ b.2 = a := by
  induction names generalizing t with
  | nil => exact .inl h
  | cons name rest ih =>
      rcases ih h with hb | ⟨hmem, hval⟩
      · rcases mem_entries_insert hb with hb | hb
        · exact .inl hb
        · exact .inr (by rw [hb]; exact ⟨List.mem_cons_self, rfl⟩)
      · exact .inr ⟨List.mem_cons_of_mem _ hmem, hval⟩

/-- What is found under a name is an entry of that name. -/
theorem mem_entries_of_find? {t : Table α} {name : String} {a : α} (h : t.find? name = some a) :
    (name, a) ∈ t.entries := by
  unfold find? at h
  generalize t.entries = entries at h ⊢
  induction entries with
  | nil => exact absurd h (by simp only [List.lookup_nil, reduceCtorEq, not_false_eq_true])
  | cons entry rest ih =>
      rcases entry with ⟨n, x⟩
      rw [List.lookup_cons] at h
      by_cases hn : name = n
      · rw [hn, beq_self_eq_true] at h
        cases h
        rw [hn]
        exact List.mem_cons_self
      · rw [beq_eq_false_iff_ne.mpr hn] at h
        exact List.mem_cons_of_mem _ (ih h)

/-- Binding a name keeps the names there are, in their order. -/
theorem names_prefix_insert (t : Table α) (name : String) (a : α) :
    t.names <+: (t.insert name a).names := by
  rw [names_insert]
  split
  · exact List.prefix_rfl
  · exact List.prefix_append _ _

/-! ### Changing Every Entry -/

variable {β : Type} (f : α → β)

/-- The table with every entry changed. -/
def map (t : Table α) : Table β :=
  ⟨t.entries.map fun b => (b.1, f b.2)⟩

@[simp] theorem names_map (t : Table α) : (t.map f).names = t.names :=
  List.map_map

theorem map_map {γ : Type} (g : β → γ) (t : Table α) : (t.map f).map g = t.map (g ∘ f) :=
  congrArg Table.mk List.map_map

theorem find?_map (t : Table α) (name : String) : (t.map f).find? name = (t.find? name).map f := by
  change (t.entries.map fun b => (b.1, f b.2)).lookup name = (t.entries.lookup name).map f
  induction t.entries with
  | nil => rfl
  | cons entry rest ih =>
      rw [List.map_cons, List.lookup_cons, List.lookup_cons, ih]
      cases name == entry.1 <;> rfl

theorem map_insert (t : Table α) (name : String) (a : α) :
    (t.insert name a).map f = (t.map f).insert name (f a) := by
  have hentries : ∀ entries : List (String × α),
      (insertEntry name a entries).map (fun b => (b.1, f b.2)) =
        insertEntry name (f a) (entries.map fun b => (b.1, f b.2)) := by
    intro entries
    induction entries with
    | nil => rfl
    | cons entry rest ih =>
        rcases entry with ⟨n, x⟩
        by_cases hn : n = name
        · simp only [insertEntry, hn, ↓reduceIte, List.map_cons]
        · simp only [insertEntry, hn, ↓reduceIte, List.map_cons, ih]
  exact congrArg Table.mk (hentries t.entries)

theorem map_insertEach (t : Table α) (bindings : List (String × α)) :
    (t.insertEach bindings).map f =
      (t.map f).insertEach (bindings.map fun b => (b.1, f b.2)) := by
  induction bindings generalizing t with
  | nil => rfl
  | cons b bindings ih =>
      change ((t.insert b.1 b.2).insertEach bindings).map f = _
      rw [ih, map_insert]
      rfl

theorem map_insertAll (t : Table α) (names : List String) (a : α) :
    (t.insertAll names a).map f = (t.map f).insertAll names (f a) := by
  induction names generalizing t with
  | nil => rfl
  | cons name names ih =>
      change ((t.insert name a).insertAll names a).map f = _
      rw [ih, map_insert]
      rfl

end Table

end ListLang
