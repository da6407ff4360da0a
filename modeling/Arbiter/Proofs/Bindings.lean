import Arbiter.OrderedMap.Lookup
import Mathlib.Data.List.Basic
import Mathlib.Data.List.Perm.Subperm

/-!
# Counting the bindings of a map

A new key adds one binding and leaves the others as they are, a changed value adds none.  A map
whose keys are all keys of another one is no larger than that one: this is what bounds the votes
and replies of an event by the number of nodes.
-/

namespace Arbiter.OrderedMap

variable {κ : Type u} {α : Type v} {β : Type w} [Ord κ] [Std.LawfulEqOrd κ] [DecidableEq κ]

/-! ## New keys -/

/-- A new binding goes behind those of smaller keys. -/
theorem exists_place_split [Std.TransOrd κ] {k : κ} (v : α) {bindings : List (κ × α)}
    (hfresh : find? k bindings = none) :
    ∃ front back, bindings = front ++ back ∧ place k v bindings = front ++ (k, v) :: back ∧
      ∀ b ∈ front, compare b.1 k = .lt := by
  fun_induction place k v bindings with
  | case1 => exact ⟨[], [], rfl, rfl, by simp⟩
  | case2 k' v' rest => exact ⟨[], (k', v') :: rest, rfl, rfl, by simp⟩
  | case3 k' v' rest heq =>
      obtain rfl := Std.LawfulEqCmp.compare_eq_iff_eq.1 heq
      simp [find?_cons] at hfresh
  | case4 k' v' rest hgt ih =>
      have hrest : find? k rest = none := by
        rw [find?_cons] at hfresh
        split at hfresh
        · exact absurd hfresh (by simp)
        · exact hfresh
      obtain ⟨front, back, hparts, hplace, hfront⟩ := ih hrest
      refine ⟨(k', v') :: front, back, by rw [hparts]; rfl, by rw [hplace]; rfl, ?_⟩
      rw [List.forall_mem_cons]
      exact ⟨Std.OrientedCmp.gt_iff_lt.1 hgt, hfront⟩

theorem exists_toList_insert_split [Std.TransOrd κ] {m : OrderedMap κ α} {k : κ} (v : α)
    (hfresh : m.get? k = none) :
    ∃ front back, m.toList = front ++ back ∧ (m.insert k v).toList = front ++ (k, v) :: back ∧
      ∀ b ∈ front, compare b.1 k = .lt :=
  exists_place_split v hfresh

theorem perm_toList_insert [Std.TransOrd κ] {m : OrderedMap κ α} {k : κ} (v : α)
    (hfresh : m.get? k = none) :
    (m.insert k v).toList.Perm ((k, v) :: m.toList) := by
  obtain ⟨front, back, hlist, hinsert, -⟩ := exists_toList_insert_split v hfresh
  rw [hinsert, hlist]
  exact List.perm_middle

theorem perm_values_insert [Std.TransOrd κ] {m : OrderedMap κ α} {k : κ} (v : α)
    (hfresh : m.get? k = none) :
    (m.insert k v).values.Perm (v :: m.values) :=
  (perm_toList_insert v hfresh).map Prod.snd

theorem size_insert [Std.TransOrd κ] {m : OrderedMap κ α} {k : κ} (v : α)
    (hfresh : m.get? k = none) : (m.insert k v).size = m.size + 1 :=
  (perm_toList_insert v hfresh).length_eq

omit [Std.LawfulEqOrd κ] [DecidableEq κ] in
theorem get?_eq_none_iff {m : OrderedMap κ α} {k : κ} :
    m.get? k = none ↔ m.contains k = false := by
  simp [contains]

omit [Std.LawfulEqOrd κ] [DecidableEq κ] in
/-- A look-up in terms of which keys are bound and of the look-up with a default. -/
theorem get?_eq_some_iff {m : OrderedMap κ α} {k : κ} {v : α} (default : α) :
    m.get? k = some v ↔ m.contains k = true ∧ v = (m.get? k).getD default := by
  rw [contains]
  cases m.get? k with
  | none => simp
  | some w => simp [eq_comm]

theorem contains_insert [Std.TransOrd κ] {m : OrderedMap κ α} {k k' : κ} {v : α} :
    (m.insert k v).contains k' = true ↔ k' = k ∨ m.contains k' = true := by
  simp only [contains, get?_insert]
  split <;> simp_all

/-- A new binding leaves those of other keys. -/
theorem get?_insert_of_fresh [Std.TransOrd κ] {m : OrderedMap κ α} {k k' : κ} {v v' : α}
    (hfresh : m.contains k = false) (hv' : m.get? k' = some v') :
    (m.insert k v).get? k' = some v' := by
  have hne : k' ≠ k := by
    rintro rfl
    rw [get?_eq_none_iff.2 hfresh] at hv'
    simp at hv'
  rw [get?_insert, if_neg hne]
  exact hv'

/-! ## Changed values -/

omit [Std.LawfulEqOrd κ] [DecidableEq κ] in
@[simp]
theorem keys_modify (m : OrderedMap κ α) (k : κ) (f : α → α) : (m.modify k f).keys = m.keys := by
  simp [keys, modify, Function.comp_def]

omit [Std.LawfulEqOrd κ] [DecidableEq κ] in
/-- What a change of values keeps is the same for all values after it. -/
theorem map_values_modify {m : OrderedMap κ α} {k : κ} {f : α → α} {view : α → β}
    (hview : ∀ v, view (f v) = view v) :
    (m.modify k f).values.map view = m.values.map view := by
  simp only [values, modify, List.map_map]
  apply List.map_congr_left
  rintro ⟨k', v⟩ _
  simp only [Function.comp]
  split
  · exact hview v
  · rfl

@[simp]
theorem contains_modify (m : OrderedMap κ α) (k k' : κ) (f : α → α) :
    (m.modify k f).contains k' = m.contains k' := by
  simp only [contains, get?_modify]
  split <;> simp_all

theorem modify_modify_comm {m : OrderedMap κ α} {k k' : κ} {f g : α → α} (hne : k ≠ k')
    [Std.TransOrd κ] :
    (m.modify k f).modify k' g = (m.modify k' g).modify k f := by
  apply ext_get?
  intro i
  simp only [get?_modify]
  by_cases hi : i = k
  · subst hi
    simp [hne]
  · by_cases hi' : i = k'
    · subst hi'
      simp [hi]
    · simp [hi, hi']

theorem modify_congr {m : OrderedMap κ α} {k : κ} {f g : α → α} [Std.TransOrd κ]
    (hfg : ∀ v, m.get? k = some v → f v = g v) :
    m.modify k f = m.modify k g := by
  apply ext_get?
  intro i
  simp only [get?_modify]
  cases hv : m.get? k with
  | none => rfl
  | some v => simp [hfg v hv]

theorem modify_modify {m : OrderedMap κ α} {k : κ} {f g : α → α} [Std.TransOrd κ] :
    (m.modify k f).modify k g = m.modify k (g ∘ f) := by
  apply ext_get?
  intro i
  simp only [get?_modify]
  by_cases hi : i = k <;> simp [hi]

theorem insert_insert_comm {m : OrderedMap κ α} {k k' : κ} {v v' : α} [Std.TransOrd κ]
    (hne : k ≠ k') :
    (m.insert k v).insert k' v' = (m.insert k' v').insert k v := by
  apply ext_get?
  intro i
  simp only [get?_insert]
  by_cases hi : i = k
  · subst hi
    simp [hne]
  · simp [hi]

/-! ## One binding and the others -/

theorem insert_erase_of_get? [Std.TransOrd κ] {m : OrderedMap κ α} {k : κ} {v : α}
    (hv : m.get? k = some v) : (m.erase k).insert k v = m := by
  apply ext_get?
  intro k'
  rw [get?_insert, get?_erase]
  by_cases hk : k' = k
  · rw [if_pos hk, hk, hv]
  · rw [if_neg hk, if_neg hk]

theorem insert_erase_of_modify [Std.TransOrd κ] {m : OrderedMap κ α} {k : κ} {v : α}
    (hv : m.get? k = some v) (f : α → α) : (m.erase k).insert k (f v) = m.modify k f := by
  apply ext_get?
  intro k'
  rw [get?_insert, get?_erase, get?_modify]
  by_cases hk : k' = k
  · rw [if_pos hk, if_pos hk, hv, Option.map_some]
  · rw [if_neg hk, if_neg hk, if_neg hk]

/-- A change of one value leaves all other values. -/
theorem perm_values_modify [Std.TransOrd κ] {m : OrderedMap κ α} {k : κ} {v : α}
    (hv : m.get? k = some v) :
    ∃ others, m.values.Perm (v :: others) ∧
      ∀ f : α → α, (m.modify k f).values.Perm (f v :: others) := by
  have hfresh : (m.erase k).get? k = none := by
    rw [get?_erase, if_pos rfl]
  refine ⟨(m.erase k).values, ?_, fun f => ?_⟩
  · have hadded := perm_values_insert v hfresh
    rwa [insert_erase_of_get? hv] at hadded
  · have hadded := perm_values_insert (f v) hfresh
    rwa [insert_erase_of_modify hv f] at hadded

/-- What a change of one value adds to a list that is read off all values. -/
theorem perm_flatMap_modify [Std.TransOrd κ] {m : OrderedMap κ α} {k : κ} {v : α} {f : α → α}
    {view : α → List β} {added : List β} (hv : m.get? k = some v)
    (hview : (view (f v)).Perm (added ++ view v)) :
    ((m.modify k f).values.flatMap view).Perm (added ++ m.values.flatMap view) := by
  obtain ⟨others, hbefore, hafter⟩ := perm_values_modify hv
  have hall : (added ++ (v :: others).flatMap view).Perm (added ++ m.values.flatMap view) :=
    (hbefore.symm.flatMap_right view).append_left added
  refine ((hafter f).flatMap_right view).trans (List.Perm.trans ?_ hall)
  rw [List.flatMap_cons, List.flatMap_cons, ← List.append_assoc]
  exact hview.append_right _

theorem size_pos_of_contains {m : OrderedMap κ α} {k : κ} (hk : m.contains k = true) :
    0 < m.size := by
  obtain ⟨v, hv⟩ := contains_iff.1 hk
  exact List.length_pos_of_mem (mem_toList_iff.2 hv)

/-! ## Maps with fewer keys -/

theorem isEmpty_eq_false_iff {m : OrderedMap κ α} :
    m.isEmpty = false ↔ ∃ k v, m.get? k = some v := by
  rw [isEmpty, List.isEmpty_eq_false_iff_exists_mem]
  constructor
  · rintro ⟨⟨k, v⟩, hmem⟩
    exact ⟨k, v, mem_toList_iff.1 hmem⟩
  · rintro ⟨k, v, hget⟩
    exact ⟨(k, v), mem_toList_iff.2 hget⟩

omit [DecidableEq κ] in
theorem nodup_keys (m : OrderedMap κ α) : m.keys.Nodup := by
  rw [keys, List.nodup_iff_pairwise_ne, List.pairwise_map]
  refine m.ascending.imp ?_
  intro a b hlt heq
  rw [heq] at hlt
  simp at hlt

/-- A map whose keys are keys of another one is no larger. -/
theorem size_le_of_contains {m : OrderedMap κ α} {n : OrderedMap κ β}
    (hkeys : ∀ k, m.contains k = true → n.contains k = true) :
    m.size ≤ n.size := by
  have hsubset : m.keys ⊆ n.keys := by
    intro k hk
    exact mem_keys_iff.2 (hkeys k (mem_keys_iff.1 hk))
  have hlength : m.keys.length ≤ n.keys.length :=
    (List.subperm_of_subset m.nodup_keys hsubset).length_le
  simpa [keys, size] using hlength

end Arbiter.OrderedMap
