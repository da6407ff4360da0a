import Mathlib.Data.List.Forall2

/-!
# Guards

Checks are written as guards, one after the other.  What passes all of them is said by one lemma for
each form of a guard.
-/

namespace Arbiter

variable {ε : Type u} {α : Type v} {β : Type w}

theorem ite_error_eq_ok {p : Prop} [Decidable p] {fault : ε} {x : Except ε α} {a : α} :
    (if p then .error fault else x) = .ok a ↔ ¬p ∧ x = .ok a := by
  by_cases hp : p <;> simp [hp]

theorem ite_else_error_eq_ok {p : Prop} [Decidable p] {fault : ε} {x : Except ε α} {a : α} :
    (if p then x else .error fault) = .ok a ↔ p ∧ x = .ok a := by
  by_cases hp : p <;> simp [hp]

theorem bind_eq_ok_iff {x : Except ε α} {f : α → Except ε β} {b : β} :
    x.bind f = .ok b ↔ ∃ a, x = .ok a ∧ f a = .ok b := by
  cases x <;> simp [Except.bind]

theorem bind_eq_error_iff {x : Except ε α} {f : α → Except ε β} {fault : ε} :
    x.bind f = .error fault ↔ x = .error fault ∨ ∃ a, x = .ok a ∧ f a = .error fault := by
  cases x <;> simp [Except.bind]

theorem map_eq_ok_iff {x : Except ε α} {f : α → β} {b : β} :
    x.map f = .ok b ↔ ∃ a, x = .ok a ∧ f a = b := by
  cases x <;> simp [Except.map]

theorem exists_map_eq_ok_iff {x : Except ε α} {f : α → β} :
    (∃ b, x.map f = .ok b) ↔ ∃ a, x = .ok a := by
  cases x <;> simp [Except.map]

theorem map_eq_error_iff {x : Except ε α} {f : α → β} {fault : ε} :
    x.map f = .error fault ↔ x = .error fault := by
  cases x <;> simp [Except.map]

theorem mapError_eq_ok_iff {ε' : Type u'} {x : Except ε α} {f : ε → ε'} {a : α} :
    x.mapError f = .ok a ↔ x = .ok a := by
  cases x <;> simp [Except.mapError]

/-! ## Lists

The items of a list are looked at one after the other, and the first fault ends it. -/

theorem forM_eq_ok_iff {xs : List α} {f : α → Except ε PUnit} :
    xs.forM f = .ok ⟨⟩ ↔ ∀ x ∈ xs, f x = .ok ⟨⟩ := by
  induction xs with
  | nil => simp [List.forM, pure, Except.pure]
  | cons x xs ih =>
      change (f x).bind (fun _ => xs.forM f) = _ ↔ _
      rw [bind_eq_ok_iff, List.forall_mem_cons, ← ih]
      constructor
      · rintro ⟨_, hx, hxs⟩
        exact ⟨hx, hxs⟩
      · rintro ⟨hx, hxs⟩
        exact ⟨_, hx, hxs⟩

variable {f : α → Except ε β} {xs : List α} {fault : ε}

theorem mapM_cons_eq (x : α) :
    (x :: xs).mapM f = (f x).bind fun y => (xs.mapM f).bind fun ys => .ok (y :: ys) :=
  List.mapM_cons

theorem mapM_eq_ok_iff {ys : List β} :
    xs.mapM f = .ok ys ↔ List.Forall₂ (fun x y => f x = .ok y) xs ys := by
  induction xs generalizing ys with
  | nil => cases ys <;> simp [pure, Except.pure]
  | cons x xs ih =>
      simp only [mapM_cons_eq, bind_eq_ok_iff, ih, List.forall₂_cons_left_iff, Except.ok.injEq]
      constructor
      · rintro ⟨y, hx, rest, hxs, rfl⟩
        exact ⟨y, rest, hx, hxs, rfl⟩
      · rintro ⟨y, rest, hx, hxs, rfl⟩
        exact ⟨y, hx, rest, hxs, rfl⟩

theorem exists_mapM_eq_ok_iff : (∃ ys, xs.mapM f = .ok ys) ↔ ∀ x ∈ xs, ∃ y, f x = .ok y := by
  induction xs with
  | nil => simp [pure, Except.pure]
  | cons x xs ih =>
      rw [List.forall_mem_cons, ← ih]
      simp only [mapM_cons_eq, bind_eq_ok_iff, Except.ok.injEq]
      constructor
      · rintro ⟨_, y, hx, ys, hxs, rfl⟩
        exact ⟨⟨y, hx⟩, ys, hxs⟩
      · rintro ⟨⟨y, hx⟩, ys, hxs⟩
        exact ⟨y :: ys, y, hx, ys, hxs, rfl⟩

/-- The first item that cannot be read is the one that is reported. -/
theorem mapM_eq_error_iff :
    xs.mapM f = .error fault ↔
      ∃ before x after, xs = before ++ x :: after ∧ (∀ y ∈ before, ∃ b, f y = .ok b) ∧
        f x = .error fault := by
  induction xs with
  | nil => simp [pure, Except.pure]
  | cons x xs ih =>
      simp only [mapM_cons_eq, bind_eq_error_iff, ih, reduceCtorEq, and_false, exists_false,
        or_false]
      constructor
      · rintro (hx | ⟨y, hx, before, x', after, rfl, hbefore, hx'⟩)
        · exact ⟨[], x, xs, rfl, by simp, hx⟩
        · exact ⟨x :: before, x', after, rfl, List.forall_mem_cons.2 ⟨⟨y, hx⟩, hbefore⟩, hx'⟩
      · rintro ⟨before, x', after, hxs, hbefore, hx'⟩
        cases before with
        | nil =>
            obtain ⟨rfl, rfl⟩ := List.cons.inj hxs
            exact .inl hx'
        | cons y before =>
            obtain ⟨rfl, rfl⟩ := List.cons.inj hxs
            obtain ⟨⟨b, hx⟩, hbefore⟩ := List.forall_mem_cons.1 hbefore
            exact .inr ⟨b, hx, before, x', after, rfl, hbefore, hx'⟩

end Arbiter
