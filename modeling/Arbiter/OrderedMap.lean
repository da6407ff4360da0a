/-!
# Maps in key order

A finite map is the list of its bindings with strictly ascending keys.  That list is determined
by the bindings alone, so two maps with the same bindings are equal, and walking a map visits its
keys in order.
-/

namespace Arbiter

/-- A finite map from `κ` to `α`, held as its bindings in ascending key order. -/
@[ext]
structure OrderedMap (κ : Type u) (α : Type v) [Ord κ] where
  /-- The bindings in ascending key order. -/
  toList : List (κ × α)
  /-- Every key comes strictly before the keys that follow it. -/
  ascending : toList.Pairwise (fun a b => compare a.1 b.1 = .lt)

namespace OrderedMap

variable {κ : Type u} {α : Type v} {β : Type w} [Ord κ]

instance [DecidableEq κ] [DecidableEq α] : DecidableEq (OrderedMap κ α) := fun m n =>
  decidable_of_iff (m.toList = n.toList) OrderedMap.ext_iff.symm

/-- The map without bindings. -/
def empty : OrderedMap κ α :=
  ⟨[], .nil⟩

instance : Inhabited (OrderedMap κ α) := ⟨empty⟩

/-- The first value bound to `k` in a list of bindings. -/
def find? (k : κ) : List (κ × α) → Option α
  | [] => none
  | (k', v) :: rest => if compare k k' = .eq then some v else find? k rest

/-- Puts a binding in front of the first greater key, in place of an equal one. -/
def place (k : κ) (v : α) : List (κ × α) → List (κ × α)
  | [] => [(k, v)]
  | (k', v') :: rest =>
    match compare k k' with
    | .lt => (k, v) :: (k', v') :: rest
    | .eq => (k, v) :: rest
    | .gt => (k', v') :: place k v rest

theorem mem_place {k : κ} {v : α} {b : κ × α} {bindings : List (κ × α)}
    (h : b ∈ place k v bindings) : b = (k, v) ∨ b ∈ bindings := by
  fun_induction place k v bindings <;> grind

theorem pairwise_place [Std.TransOrd κ] [Std.LawfulEqOrd κ] {k : κ} {v : α}
    {bindings : List (κ × α)}
    (h : bindings.Pairwise (fun a b => compare a.1 b.1 = .lt)) :
    (place k v bindings).Pairwise (fun a b => compare a.1 b.1 = .lt) := by
  fun_induction place k v bindings with
  | case1 => simp
  | case2 k' v' rest hlt =>
    refine List.pairwise_cons.2 ⟨fun b hb => ?_, h⟩
    rcases List.mem_cons.1 hb with rfl | hb
    · exact hlt
    · exact Std.TransCmp.lt_trans hlt (List.rel_of_pairwise_cons h hb)
  | case3 k' v' rest heq =>
    have : k = k' := Std.LawfulEqCmp.eq_of_compare heq
    subst this
    exact List.pairwise_cons.2 ⟨fun b hb => List.rel_of_pairwise_cons h hb, h.of_cons⟩
  | case4 k' v' rest hgt ih =>
    refine List.pairwise_cons.2 ⟨fun b hb => ?_, ih h.of_cons⟩
    rcases mem_place hb with rfl | hb
    · exact Std.OrientedCmp.gt_iff_lt.1 hgt
    · exact List.rel_of_pairwise_cons h hb

/-- The value bound to a key. -/
def get? (m : OrderedMap κ α) (k : κ) : Option α :=
  find? k m.toList

/-- Whether a key is bound. -/
def contains (m : OrderedMap κ α) (k : κ) : Bool :=
  (m.get? k).isSome

/-- Binds a key, replacing an earlier binding of it. -/
def insert [Std.TransOrd κ] [Std.LawfulEqOrd κ] (m : OrderedMap κ α) (k : κ) (v : α) :
    OrderedMap κ α :=
  ⟨place k v m.toList, pairwise_place m.ascending⟩

/-- Changes the value of a key, if it is bound. -/
def modify (m : OrderedMap κ α) (k : κ) (f : α → α) : OrderedMap κ α where
  toList := m.toList.map fun (k', v) => (k', if compare k k' = .eq then f v else v)
  ascending := List.pairwise_map.2 m.ascending

/-- Removes the binding of a key. -/
def erase (m : OrderedMap κ α) (k : κ) : OrderedMap κ α where
  toList := m.toList.filter fun b => compare k b.1 ≠ .eq
  ascending := m.ascending.filter _

/-- The number of bindings. -/
def size (m : OrderedMap κ α) : Nat :=
  m.toList.length

/-- Whether there is no binding. -/
def isEmpty (m : OrderedMap κ α) : Bool :=
  m.toList.isEmpty

/-- The keys in order. -/
def keys (m : OrderedMap κ α) : List κ :=
  m.toList.map (·.1)

/-- The values in the order of their keys. -/
def values (m : OrderedMap κ α) : List α :=
  m.toList.map (·.2)

/-- The map of the given bindings; of equal keys the last one counts. -/
def ofList [Std.TransOrd κ] [Std.LawfulEqOrd κ] (bindings : List (κ × α)) : OrderedMap κ α :=
  bindings.foldl (fun m b => m.insert b.1 b.2) empty

/-! ### Maps of a list of bindings -/

theorem place_of_forall_lt {k : κ} {v : α} {bindings : List (κ × α)} [Std.TransOrd κ]
    (h : ∀ b ∈ bindings, compare b.1 k = .lt) : place k v bindings = bindings ++ [(k, v)] := by
  induction bindings with
  | nil => rfl
  | cons b rest ih =>
    rw [List.forall_mem_cons] at h
    have hgt : compare k b.1 = .gt := Std.OrientedCmp.gt_iff_lt.2 h.1
    simp [place, hgt, ih h.2]

theorem length_place_le (k : κ) (v : α) (bindings : List (κ × α)) :
    (place k v bindings).length ≤ bindings.length + 1 := by
  fun_induction place k v bindings <;> simp_all

variable [Std.TransOrd κ] [Std.LawfulEqOrd κ]

theorem toList_foldl_insert {m : OrderedMap κ α} {bindings : List (κ × α)}
    (h : (m.toList ++ bindings).Pairwise (fun a b => compare a.1 b.1 = .lt)) :
    (bindings.foldl (fun m b => m.insert b.1 b.2) m).toList = m.toList ++ bindings := by
  induction bindings generalizing m with
  | nil => simp
  | cons b rest ih =>
    have hfront : ∀ a ∈ m.toList, compare a.1 b.1 = .lt := fun a ha =>
      (List.pairwise_append.1 h).2.2 a ha b (by simp)
    have hplace : (m.insert b.1 b.2).toList = m.toList ++ [b] := place_of_forall_lt hfront
    rw [List.foldl_cons, ih (by rw [hplace]; simpa using h), hplace]
    simp

/-- A map is the map of its bindings. -/
@[simp]
theorem ofList_toList (m : OrderedMap κ α) : ofList m.toList = m := by
  apply OrderedMap.ext
  have : (m.toList.foldl (fun m b => m.insert b.1 b.2) empty).toList =
      (empty : OrderedMap κ α).toList ++ m.toList :=
    toList_foldl_insert (by simpa [empty] using m.ascending)
  simpa [ofList, empty] using this

theorem mem_toList_foldl_insert {m : OrderedMap κ α} {bindings : List (κ × α)} {b : κ × α}
    (h : b ∈ (bindings.foldl (fun m b => m.insert b.1 b.2) m).toList) :
    b ∈ m.toList ∨ b ∈ bindings := by
  induction bindings generalizing m with
  | nil => exact .inl h
  | cons c rest ih =>
    rcases ih h with h | h
    · rcases mem_place h with rfl | h
      · simp
      · exact .inl h
    · exact .inr (List.mem_cons_of_mem _ h)

/-- Every binding of a map of bindings is one of them. -/
theorem mem_of_mem_ofList {bindings : List (κ × α)} {b : κ × α}
    (h : b ∈ (ofList bindings).toList) : b ∈ bindings := by
  have : b ∈ (empty : OrderedMap κ α).toList ∨ b ∈ bindings := mem_toList_foldl_insert h
  simpa [empty] using this

theorem length_foldl_insert_le (m : OrderedMap κ α) (bindings : List (κ × α)) :
    (bindings.foldl (fun m b => m.insert b.1 b.2) m).toList.length ≤
      m.toList.length + bindings.length := by
  induction bindings generalizing m with
  | nil => simp
  | cons b rest ih =>
    have := ih (m.insert b.1 b.2)
    have := length_place_le b.1 b.2 m.toList
    simp only [List.foldl_cons, List.length_cons, insert] at *
    omega

/-- A map of bindings has no more bindings than were given. -/
theorem length_ofList_le (bindings : List (κ × α)) :
    (ofList bindings).toList.length ≤ bindings.length := by
  simpa [ofList, empty] using length_foldl_insert_le (empty : OrderedMap κ α) bindings

end OrderedMap

end Arbiter
