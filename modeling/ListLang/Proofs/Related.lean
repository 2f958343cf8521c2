import Mathlib.Data.List.Forall2
import ListLang.Table

/-!
# Related Lists and Tables

Two runs or two programs are compared item by item: two lists are related if
they have the same length and their items are related one by one, two options
if both are empty or both hold something and that is related, and two tables if
they have related entries for the same names in the same order.

## Theorems

* `optionRel_cases`: Related options.
* `forall₂_imp_mem`, `forall_mem_of_forall₂`, `forall₂_map_of_mem`,
  `map_eq_map_of_forall₂`: Related lists and what is made of them.
* `forall₂_length_one`, `forall₂_length_two`: Related lists of a known length.
* `Table.related_insertEntry`, `Table.related_lookup`: Related tables.
-/

namespace ListLang

/-- Related options are both empty or both full. -/
theorem optionRel_cases {α β : Type} {R : α → β → Prop} {a : Option α} {b : Option β}
    (h : Option.Rel R a b) :
    (a = none ∧ b = none) ∨ ∃ x y, a = some x ∧ b = some y ∧ R x y := by
  cases h with
  | none => exact .inl ⟨rfl, rfl⟩
  | some h => exact .inr ⟨_, _, rfl, rfl, h⟩

section Lists

variable {α β : Type} {R S : α → β → Prop} {as : List α} {bs : List β}

/-- A relation between two lists may use that an item is an item. -/
theorem forall₂_imp_mem (h : List.Forall₂ R as bs) (himp : ∀ a ∈ as, ∀ b, R a b → S a b) :
    List.Forall₂ S as bs := by
  induction h with
  | nil => exact .nil
  | cons hab _ ih =>
      exact .cons (himp _ List.mem_cons_self _ hab)
        (ih fun a ha => himp a (List.mem_cons_of_mem _ ha))

/-- What related items have in common, all items on the second side have. -/
theorem forall_mem_of_forall₂ {P : β → Prop} (h : List.Forall₂ R as bs)
    (himp : ∀ a ∈ as, ∀ b, R a b → P b) : ∀ b ∈ bs, P b := by
  induction h with
  | nil => exact nofun
  | cons hab _ ih =>
      exact List.forall_mem_cons.mpr ⟨himp _ List.mem_cons_self _ hab,
        ih fun a ha => himp a (List.mem_cons_of_mem _ ha)⟩

theorem forall₂_map_of_mem {f : α → β} (h : ∀ a ∈ as, R a (f a)) :
    List.Forall₂ R as (as.map f) :=
  List.forall₂_map_right_iff.mpr (List.forall₂_same.mpr h)

/-- Lists with the same images item by item have the same lists of images. -/
theorem map_eq_map_of_forall₂ {γ : Type} {f : α → γ} {g : β → γ}
    (h : List.Forall₂ (fun a b => f a = g b) as bs) : as.map f = bs.map g := by
  have hmaps := List.forall₂_map_left_iff.mpr (List.forall₂_map_right_iff.mpr h)
  rwa [List.forall₂_eq_eq_eq] at hmaps

theorem forall₂_length_one (h : List.Forall₂ R as bs) (hlen : as.length = 1) :
    ∃ a b, as = [a] ∧ bs = [b] ∧ R a b := by
  cases h with
  | nil => simp only [List.length_nil] at hlen; omega
  | cons hab hrest =>
      cases hrest with
      | nil => exact ⟨_, _, rfl, rfl, hab⟩
      | cons _ _ => simp only [List.length_cons] at hlen; omega

theorem forall₂_length_two (h : List.Forall₂ R as bs) (hlen : as.length = 2) :
    ∃ a a' b b', as = [a, a'] ∧ bs = [b, b'] ∧ R a b ∧ R a' b' := by
  cases h with
  | nil => simp only [List.length_nil] at hlen; omega
  | cons hab hrest =>
      rcases forall₂_length_one hrest (by simp only [List.length_cons] at hlen; omega) with
        ⟨a', b', rfl, rfl, hab'⟩
      exact ⟨_, _, _, _, rfl, rfl, hab, hab'⟩

end Lists

namespace Table

variable {α β : Type} {R : α → β → Prop} {es : List (String × α)} {fs : List (String × β)}

/-- Binding a name to related entries. -/
theorem related_insertEntry (h : List.Forall₂ (fun a b => a.1 = b.1 ∧ R a.2 b.2) es fs)
    (name : String) {x : α} {y : β} (hxy : R x y) :
    List.Forall₂ (fun a b => a.1 = b.1 ∧ R a.2 b.2) (insertEntry name x es)
      (insertEntry name y fs) := by
  induction h with
  | nil => exact .cons ⟨rfl, hxy⟩ .nil
  | @cons a b es fs hab hrest ih =>
      by_cases hn : a.1 = name
      · rw [insertEntry, insertEntry, if_pos hn, if_pos (hab.1 ▸ hn)]
        exact .cons ⟨hab.1, hxy⟩ hrest
      · rw [insertEntry, insertEntry, if_neg hn, if_neg (hab.1 ▸ hn)]
        exact .cons hab ih

/-- A name has related entries or none. -/
theorem related_lookup (h : List.Forall₂ (fun a b => a.1 = b.1 ∧ R a.2 b.2) es fs)
    (name : String) : Option.Rel R (es.lookup name) (fs.lookup name) := by
  induction h with
  | nil => exact .none
  | @cons a b es fs hab _ ih =>
      rcases a with ⟨n, v⟩
      rcases b with ⟨n', w⟩
      rcases hab with ⟨rfl, hv⟩
      rw [List.lookup_cons, List.lookup_cons]
      by_cases hn : name = n
      · rw [hn, beq_self_eq_true]
        exact .some hv
      · rw [beq_eq_false_iff_ne.mpr hn]
        exact ih

end Table

end ListLang
