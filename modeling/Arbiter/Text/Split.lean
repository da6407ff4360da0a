/-!
# Texts in parts

A text is cut at every occurrence of a separator and put together again with it.  Cutting loses
nothing: `join_split` says that the parts, joined, are the text, and `split_join` that parts without
the separator are got back.
-/

namespace Arbiter.Text

/-- The parts of a text between the occurrences of a separator; there is at least one part. -/
def split (separator : Char) : List Char → List (List Char)
  | [] => [[]]
  | c :: rest =>
    if c = separator then [] :: split separator rest
    else
      match split separator rest with
      | [] => [[c]]
      | part :: parts => (c :: part) :: parts

/-- Parts with a separator between them. -/
def join (separator : Char) : List (List Char) → List Char
  | [] => []
  | [part] => part
  | part :: parts => part ++ separator :: join separator parts

theorem split_ne_nil (separator : Char) (text : List Char) : split separator text ≠ [] := by
  cases text with
  | nil => simp [split]
  | cons c rest =>
    simp only [split]
    split
    · simp
    · split <;> simp

/-- Cutting loses nothing. -/
theorem join_split (separator : Char) (text : List Char) :
    join separator (split separator text) = text := by
  induction text with
  | nil => rfl
  | cons c rest ih =>
    obtain ⟨part, parts, hparts⟩ := List.exists_cons_of_ne_nil (split_ne_nil separator rest)
    rw [hparts] at ih
    by_cases hc : c = separator
    · simp [split, hc, hparts, join, ih]
    · simp only [split, if_neg hc, hparts]
      cases parts with
      | nil => simpa [join] using ih
      | cons _ _ => simpa [join] using ih

theorem split_of_notMem {separator : Char} {text : List Char} (h : separator ∉ text) :
    split separator text = [text] := by
  induction text with
  | nil => rfl
  | cons c rest ih =>
    rw [List.mem_cons, not_or] at h
    simp only [split, if_neg (Ne.symm h.1), ih h.2]

theorem split_append {separator : Char} {part : List Char} (h : separator ∉ part)
    (text : List Char) :
    split separator (part ++ separator :: text) = part :: split separator text := by
  induction part with
  | nil => simp [split]
  | cons c rest ih =>
    rw [List.mem_cons, not_or] at h
    simp only [List.cons_append, split, if_neg (Ne.symm h.1), ih h.2]

/-- No part contains the separator. -/
theorem notMem_of_mem_split {separator : Char} {text part : List Char}
    (h : part ∈ split separator text) : separator ∉ part := by
  induction text generalizing part with
  | nil =>
    obtain rfl : part = [] := by simpa [split] using h
    exact List.not_mem_nil
  | cons c rest ih =>
    obtain ⟨first, parts, hparts⟩ := List.exists_cons_of_ne_nil (split_ne_nil separator rest)
    rw [hparts] at ih
    by_cases hc : c = separator
    · rw [split, if_pos hc, hparts, List.mem_cons] at h
      rcases h with rfl | h
      · exact List.not_mem_nil
      · exact ih h
    · rw [split, if_neg hc, hparts] at h
      rcases List.mem_cons.1 h with rfl | h
      · rw [List.mem_cons, not_or]
        exact ⟨Ne.symm hc, ih (List.mem_cons_self ..)⟩
      · exact ih (List.mem_cons_of_mem _ h)

/-- Parts without the separator in them are got back. -/
theorem split_join {separator : Char} {parts : List (List Char)} (hne : parts ≠ [])
    (h : ∀ part ∈ parts, separator ∉ part) : split separator (join separator parts) = parts := by
  induction parts with
  | nil => exact absurd rfl hne
  | cons part parts ih =>
    have hpart := h part (List.mem_cons_self ..)
    cases parts with
    | nil => exact split_of_notMem hpart
    | cons next parts =>
      rw [join, split_append hpart, ih (by simp) fun part' hpart' =>
        h part' (List.mem_cons_of_mem _ hpart')]
      simp

end Arbiter.Text
