import Arbiter.OrderedMap

/-!
# What a map holds

A map is described by what is found in it.  Every change is described by what is found after it,
and `ext_get?` says that nothing else matters: two maps in which the same is found are equal.
-/

namespace Arbiter.OrderedMap

variable {κ : Type u} {α : Type v} [Ord κ]

@[simp]
theorem get?_empty (k : κ) : (empty : OrderedMap κ α).get? k = none := rfl

theorem contains_iff {m : OrderedMap κ α} {k : κ} : m.contains k = true ↔ ∃ v, m.get? k = some v :=
  Option.isSome_iff_exists

/-! ### Looking up in a list of bindings -/

variable [Std.LawfulEqOrd κ]

section

variable [DecidableEq κ]

theorem find?_cons {k k' : κ} {v : α} {rest : List (κ × α)} :
    find? k ((k', v) :: rest) = if k = k' then some v else find? k rest := by
  simp only [find?, Std.LawfulEqCmp.compare_eq_iff_eq]

theorem find?_place {k k' : κ} {v : α} {bindings : List (κ × α)} :
    find? k' (place k v bindings) = if k' = k then some v else find? k' bindings := by
  fun_induction place k v bindings with
  | case1 => rw [find?_cons]
  | case2 => rw [find?_cons]
  | case3 k'' v'' rest heq =>
    obtain rfl := Std.LawfulEqCmp.compare_eq_iff_eq.1 heq
    rw [find?_cons, find?_cons]
    split <;> rfl
  | case4 k'' v'' rest hgt ih =>
    rw [find?_cons, find?_cons, ih]
    have hne : k ≠ k'' := fun h => by simp [Std.LawfulEqCmp.compare_eq_iff_eq.2 h] at hgt
    grind

theorem find?_map {k k' : κ} {f : α → α} {bindings : List (κ × α)} :
    find? k' (bindings.map fun (k'', v) => (k'', if compare k k'' = .eq then f v else v)) =
      if k' = k then (find? k bindings).map f else find? k' bindings := by
  induction bindings with
  | nil => simp [find?]
  | cons b rest ih =>
    rw [List.map_cons, find?_cons, ih, find?_cons, find?_cons]
    simp only [Std.LawfulEqCmp.compare_eq_iff_eq]
    grind

theorem find?_filter {k k' : κ} {bindings : List (κ × α)} :
    find? k' (bindings.filter fun b => compare k b.1 ≠ .eq) =
      if k' = k then none else find? k' bindings := by
  induction bindings with
  | nil => simp [find?]
  | cons b rest ih =>
    simp only [ne_eq, Std.LawfulEqCmp.compare_eq_iff_eq, List.filter_cons] at ih ⊢
    grind [find?_cons]

theorem find?_eq_some_iff {k : κ} {v : α} {bindings : List (κ × α)}
    (h : bindings.Pairwise (fun a b => compare a.1 b.1 = .lt)) :
    find? k bindings = some v ↔ (k, v) ∈ bindings := by
  induction bindings with
  | nil => simp [find?]
  | cons b rest ih =>
    have hnew : ∀ v, (b.1, v) ∉ rest := fun v hv => by
      have := List.rel_of_pairwise_cons h hv
      simp at this
    rw [find?_cons]
    grind

/-! ### Looking up after a change -/

/-- What is bound is found, and nothing else changes. -/
theorem get?_insert [Std.TransOrd κ] (m : OrderedMap κ α) (k k' : κ) (v : α) :
    (m.insert k v).get? k' = if k' = k then some v else m.get? k' :=
  find?_place

@[simp]
theorem get?_insert_self [Std.TransOrd κ] (m : OrderedMap κ α) (k : κ) (v : α) :
    (m.insert k v).get? k = some v := by
  rw [get?_insert, if_pos rfl]

/-- The value of a bound key is changed, and nothing else. -/
theorem get?_modify (m : OrderedMap κ α) (k k' : κ) (f : α → α) :
    (m.modify k f).get? k' = if k' = k then (m.get? k).map f else m.get? k' :=
  find?_map

/-- What is removed is not found, and nothing else changes. -/
theorem get?_erase (m : OrderedMap κ α) (k k' : κ) :
    (m.erase k).get? k' = if k' = k then none else m.get? k' :=
  find?_filter

/-- A value is found exactly when it is bound. -/
theorem mem_toList_iff {m : OrderedMap κ α} {k : κ} {v : α} :
    (k, v) ∈ m.toList ↔ m.get? k = some v :=
  (find?_eq_some_iff m.ascending).symm

theorem mem_keys_iff {m : OrderedMap κ α} {k : κ} : k ∈ m.keys ↔ m.contains k = true := by
  simp [keys, contains_iff, mem_toList_iff]

theorem mem_values_iff {m : OrderedMap κ α} {v : α} : v ∈ m.values ↔ ∃ k, m.get? k = some v := by
  simp [values, mem_toList_iff]

end

/-! ### Equality -/

/-- Two lists of bindings in ascending order are equal when their members are. -/
theorem eq_of_forall_mem_iff [Std.TransOrd κ] {xs ys : List (κ × α)}
    (hx : xs.Pairwise (fun a b => compare a.1 b.1 = .lt))
    (hy : ys.Pairwise (fun a b => compare a.1 b.1 = .lt)) (h : ∀ b, b ∈ xs ↔ b ∈ ys) :
    xs = ys := by
  induction xs generalizing ys with
  | nil =>
    cases ys with
    | nil => rfl
    | cons b ys => exact absurd ((h b).2 (by simp)) (by simp)
  | cons a xs ih =>
    cases ys with
    | nil => exact absurd ((h a).1 (by simp)) (by simp)
    | cons b ys =>
      have hxs : ∀ c ∈ xs, compare a.1 c.1 = .lt := (List.pairwise_cons.1 hx).1
      have hys : ∀ c ∈ ys, compare b.1 c.1 = .lt := (List.pairwise_cons.1 hy).1
      have hab : a = b := by
        rcases List.mem_cons.1 ((h a).1 (by simp)) with hab | ha
        · exact hab
        rcases List.mem_cons.1 ((h b).2 (by simp)) with hba | hb
        · exact hba.symm
        have := Std.TransCmp.lt_trans (hxs b hb) (hys a ha)
        simp at this
      subst hab
      have hrest : ∀ c, c ∈ xs ↔ c ∈ ys := fun c => by
        have := h c
        have hxc : c ∈ xs → c ≠ a := fun hc he => by
          have := hxs c hc
          simp [he] at this
        have hyc : c ∈ ys → c ≠ a := fun hc he => by
          have := hys c hc
          simp [he] at this
        grind
      rw [ih hx.of_cons hy.of_cons hrest]

/-- Maps in which the same is found are equal. -/
theorem ext_get? [Std.TransOrd κ] [DecidableEq κ] {m n : OrderedMap κ α}
    (h : ∀ k, m.get? k = n.get? k) : m = n := by
  apply OrderedMap.ext
  apply eq_of_forall_mem_iff m.ascending n.ascending
  intro (k, v)
  rw [mem_toList_iff, mem_toList_iff, h]

end Arbiter.OrderedMap
