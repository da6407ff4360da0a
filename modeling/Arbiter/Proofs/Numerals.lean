import Arbiter.Proofs.Guards
import Arbiter.Text.Blank
import Arbiter.Text.Numeral
import Mathlib.Algebra.Group.Int.Defs
import Mathlib.Data.List.Induction
import Mathlib.Data.List.TakeWhile

/-!
# Decimal numerals

A text is read as a number exactly when it is one or more digits whose value is not too large,
although the number is built up digit by digit and given up as soon as it is too large.  The digits
of a number are the ones it is shown with, behind any number of zeros.  An integer may have a sign
in front of its digits, and blanks at the two ends of a text can be taken away.
-/

namespace Arbiter.Text

variable {text core digits : List Char} {most m : Nat} {n : Int} {c : Char}

/-! ## Digits -/

/-- A text is decimal digits, one or more, and their value is a number. -/
structure DigitsOf (text : List Char) (m : Nat) : Prop where
  ne_nil : text ≠ []
  isDigit : ∀ c ∈ text, c.isDigit = true
  value : Nat.ofDigitChars 10 text 0 = m

theorem digit?_of_isDigit (hdigit : c.isDigit = true) : digit? c = some (c.toNat - '0'.toNat) :=
  if_pos hdigit

theorem digit?_eq_none (hdigit : c.isDigit = false) : digit? c = none :=
  if_neg (by simp [hdigit])

/-- With every further digit a number stays or grows. -/
theorem le_ofDigitChars (acc : Nat) (text : List Char) : acc ≤ Nat.ofDigitChars 10 text acc := by
  rw [Nat.ofDigitChars_eq_ofDigitChars_zero]
  have hpower : 0 < 10 ^ text.length := Nat.pow_pos (by decide)
  exact Nat.le_trans (Nat.le_mul_of_pos_left acc hpower) (Nat.le_add_right _ _)

/-- A number is continued by digits up to one that is not too large.  None of the numbers on the way
is larger than the last one, so comparing all of them takes nothing away. -/
theorem extendNumber_eq_ok_iff {acc : Nat} (hacc : acc ≤ most) :
    extendNumber most acc text = .ok m ↔
      (∀ c ∈ text, c.isDigit = true) ∧ Nat.ofDigitChars 10 text acc = m ∧ m ≤ most := by
  induction text generalizing acc with
  | nil =>
      rw [extendNumber, Nat.ofDigitChars_nil, Except.ok.injEq]
      constructor
      · rintro rfl
        exact ⟨by simp, rfl, hacc⟩
      · intro h
        exact h.2.1
  | cons c text ih =>
      rw [extendNumber, List.forall_mem_cons, Nat.ofDigitChars_cons]
      cases hdigit : c.isDigit with
      | false => simp [digit?_eq_none hdigit]
      | true =>
          rw [digit?_of_isDigit hdigit]
          simp only [ite_else_error_eq_ok, true_and]
          constructor
          · rintro ⟨hnext, htext⟩
            exact (ih hnext).1 htext
          · rintro ⟨hdigits, hvalue, hmost⟩
            have hnext : 10 * acc + (c.toNat - '0'.toNat) ≤ most := by
              refine Nat.le_trans (le_ofDigitChars _ text) ?_
              rw [hvalue]
              exact hmost
            exact ⟨hnext, (ih hnext).2 ⟨hdigits, hvalue, hmost⟩⟩

theorem digits_eq_ok_iff : Text.digits most text = .ok m ↔ DigitsOf text m ∧ m ≤ most := by
  cases text with
  | nil =>
      constructor
      · intro h
        cases h
      · intro h
        exact absurd rfl h.1.ne_nil
  | cons c text =>
      have hread : Text.digits most (c :: text) = extendNumber most 0 (c :: text) := rfl
      rw [hread, extendNumber_eq_ok_iff (Nat.zero_le most)]
      constructor
      · rintro ⟨hdigits, hvalue, hmost⟩
        exact ⟨⟨List.cons_ne_nil c text, hdigits, hvalue⟩, hmost⟩
      · rintro ⟨hdigits, hmost⟩
        exact ⟨hdigits.isDigit, hdigits.value, hmost⟩

/-! ## Zeros in front -/

/-- What a number is shown as, behind some zeros. -/
def withZeros (zeros m : Nat) : List Char :=
  List.replicate zeros '0' ++ (toString m).toList

theorem withZeros_eq (zeros m : Nat) :
    withZeros zeros m = List.replicate zeros '0' ++ Nat.toDigits 10 m := by
  rw [withZeros, Nat.toString_eq_ofList_toDigits, String.toList_ofList]

theorem digitsOf_withZeros (zeros m : Nat) : DigitsOf (withZeros zeros m) m := by
  rw [withZeros_eq]
  refine ⟨by simp, fun c hc => ?_, ?_⟩
  · rcases List.mem_append.1 hc with hzero | hdigit
    · rw [List.eq_of_mem_replicate hzero]
      rfl
    · exact Nat.isDigit_of_mem_toDigits (by decide) (by decide) hdigit
  · rw [Nat.ofDigitChars_append, Nat.ofDigitChars_replicate_zero, Nat.mul_zero,
      Nat.ofDigitChars_ten_toDigits]

theorem lt_ten_of_isDigit (hdigit : c.isDigit = true) : c.toNat - '0'.toNat < 10 := by
  have hlast : c.toNat ≤ '9'.toNat := (Char.isDigit_iff_toNat.1 hdigit).2
  exact Nat.lt_of_le_of_lt (Nat.sub_le_sub_right hlast '0'.toNat) (by decide)

/-- A digit is what its value is shown as. -/
theorem toDigits_of_isDigit (hdigit : c.isDigit = true) :
    Nat.toDigits 10 (c.toNat - '0'.toNat) = [c] := by
  have hfirst : '0'.toNat ≤ c.toNat := (Char.isDigit_iff_toNat.1 hdigit).1
  have hlt := lt_ten_of_isDigit hdigit
  rw [Nat.toDigits_of_lt_base hlt, List.singleton_inj, ← Char.toNat_inj,
    Nat.toNat_digitChar_of_lt_ten hlt]
  exact Nat.add_sub_cancel' hfirst

/-- One more digit is shown last.  Behind nothing but zeros it is shown alone, and then the zero
that stood for the number before it is one of the zeros in front. -/
theorem exists_withZeros_concat (zeros m : Nat) (hdigit : c.isDigit = true) :
    ∃ zeros', withZeros zeros m ++ [c] = withZeros zeros' (10 * m + (c.toNat - '0'.toNat)) := by
  simp only [withZeros_eq]
  by_cases hzero : m = 0
  · refine ⟨zeros + 1, ?_⟩
    rw [hzero, Nat.toDigits_zero, ← List.replicate_succ', Nat.mul_zero, Nat.zero_add,
      toDigits_of_isDigit hdigit]
  · refine ⟨zeros, ?_⟩
    rw [← Nat.toDigits_append_toDigits (by decide) (Nat.pos_of_ne_zero hzero)
      (lt_ten_of_isDigit hdigit), toDigits_of_isDigit hdigit, List.append_assoc]

/-- The digits of a number are the ones it is shown with, behind any number of zeros. -/
theorem digitsOf_iff : DigitsOf text m ↔ ∃ zeros, text = withZeros zeros m := by
  constructor
  · rintro ⟨hne, hdigits, rfl⟩
    -- a number is shown with its last digit at the end, so that is where the induction begins
    induction text using List.reverseRecOn with
    | nil => exact absurd rfl hne
    | append_singleton text c ih =>
        have hlast : c.isDigit = true := hdigits c (by simp)
        rw [Nat.ofDigitChars_append, Nat.ofDigitChars_cons, Nat.ofDigitChars_nil]
        by_cases hnil : text = []
        · subst hnil
          refine ⟨0, ?_⟩
          rw [withZeros_eq, Nat.ofDigitChars_nil, Nat.mul_zero, Nat.zero_add,
            toDigits_of_isDigit hlast]
          rfl
        · obtain ⟨zeros, htext⟩ := ih hnil fun c hc => hdigits c (by simp [hc])
          obtain ⟨zeros', hshown⟩ :=
            exists_withZeros_concat zeros (Nat.ofDigitChars 10 text 0) hlast
          rw [← htext] at hshown
          exact ⟨zeros', hshown⟩
  · rintro ⟨zeros, rfl⟩
    exact digitsOf_withZeros zeros m

/-! ## Signs -/

/-- A sign that may stand in front of an integer: none or `+` unless the integer is negative, and
`-` unless it is positive. -/
def SignOf (sign : List Char) (n : Int) : Prop :=
  (sign = [] ∨ sign = ['+']) ∧ 0 ≤ n ∨ sign = ['-'] ∧ n ≤ 0

/-- A text is a sign of an integer and the digits of its absolute value. -/
def Spells (text : List Char) (n : Int) : Prop :=
  ∃ sign digits, text = sign ++ digits ∧ SignOf sign n ∧ DigitsOf digits n.natAbs

/-- So a text spells an integer if it is a sign of it, some zeros, and what its absolute value is
shown as. -/
theorem spells_iff :
    Spells text n ↔ ∃ sign zeros, text = sign ++ withZeros zeros n.natAbs ∧ SignOf sign n := by
  constructor
  · rintro ⟨sign, digits, rfl, hsign, hdigits⟩
    obtain ⟨zeros, rfl⟩ := digitsOf_iff.1 hdigits
    exact ⟨sign, zeros, rfl, hsign⟩
  · rintro ⟨sign, zeros, rfl, hsign⟩
    exact ⟨sign, withZeros zeros n.natAbs, rfl, hsign, digitsOf_withZeros zeros n.natAbs⟩

theorem DigitsOf.ne_cons (h : DigitsOf text m) (hdigit : c.isDigit = false) :
    text ≠ c :: digits := by
  rintro rfl
  simpa [hdigit] using h.isDigit c List.mem_cons_self

theorem natural_eq_ok_iff :
    natural most text = .ok m ↔
      (DigitsOf text m ∨ ∃ rest, text = '+' :: rest ∧ DigitsOf rest m) ∧ m ≤ most := by
  unfold natural
  split
  · constructor
    · intro h
      cases h
    · rintro ⟨hdigits | ⟨rest, hnil, -⟩, -⟩
      · exact absurd rfl hdigits.ne_nil
      · cases hnil
  · next rest =>
      have hsign : ¬ DigitsOf ('+' :: rest) m := fun h => h.ne_cons rfl rfl
      simp [digits_eq_ok_iff, hsign]
  · next hother =>
      have hnone : ¬ ∃ rest, text = '+' :: rest ∧ DigitsOf rest m := by
        rintro ⟨rest, htext, -⟩
        exact hother rest htext
      rw [digits_eq_ok_iff, or_iff_left hnone]

theorem spells_minus_iff :
    Spells ('-' :: digits) n ↔ n ≤ 0 ∧ DigitsOf digits n.natAbs := by
  constructor
  · rintro ⟨sign, rest, htext, ⟨rfl | rfl, -⟩ | ⟨rfl, hsign⟩, hdigits⟩
    · exact absurd htext.symm (hdigits.ne_cons rfl)
    · simp at htext
    · obtain rfl : digits = rest := List.cons.inj htext |>.2
      exact ⟨hsign, hdigits⟩
  · rintro ⟨hsign, hdigits⟩
    exact ⟨['-'], digits, rfl, .inr ⟨rfl, hsign⟩, hdigits⟩

theorem spells_iff_of_not_minus (hminus : ∀ rest, text ≠ '-' :: rest) :
    Spells text n ↔
      0 ≤ n ∧ (DigitsOf text n.natAbs ∨ ∃ rest, text = '+' :: rest ∧ DigitsOf rest n.natAbs) := by
  constructor
  · rintro ⟨sign, rest, rfl, ⟨rfl | rfl, hsign⟩ | ⟨rfl, -⟩, hdigits⟩
    · exact ⟨hsign, .inl hdigits⟩
    · exact ⟨hsign, .inr ⟨rest, rfl, hdigits⟩⟩
    · exact absurd rfl (hminus rest)
  · rintro ⟨hsign, hdigits | ⟨rest, rfl, hdigits⟩⟩
    · exact ⟨[], text, rfl, .inl ⟨.inl rfl, hsign⟩, hdigits⟩
    · exact ⟨['+'], rest, rfl, .inl ⟨.inr rfl, hsign⟩, hdigits⟩

theorem signed64_minus (rest : List Char) :
    signed64 ('-' :: rest) =
      (Text.digits 9223372036854775808 rest).map fun m : Nat => -(m : Int) := by
  rw [signed64]
  cases Text.digits 9223372036854775808 rest <;> rfl

theorem signed64_of_not_minus (hminus : ∀ rest, text ≠ '-' :: rest) :
    signed64 text = (natural 9223372036854775807 text).map fun m : Nat => (m : Int) := by
  rw [signed64]
  · cases natural 9223372036854775807 text <;> rfl
  · exact hminus

/-- Exactly the texts that spell an integer of sixty-four bits are read, and as the integer that
they spell.  Below zero there is one more of these integers than above. -/
theorem signed64_eq_ok_iff :
    signed64 text = .ok n ↔ Spells text n ∧ -2 ^ 63 ≤ n ∧ n ≤ 2 ^ 63 - 1 := by
  by_cases hminus : ∃ rest, text = '-' :: rest
  · obtain ⟨rest, rfl⟩ := hminus
    simp only [signed64_minus, map_eq_ok_iff, digits_eq_ok_iff, spells_minus_iff]
    constructor
    · rintro ⟨m, ⟨hdigits, hmost⟩, rfl⟩
      have hvalue : (-(m : Int)).natAbs = m := by omega
      rw [hvalue]
      exact ⟨⟨by omega, hdigits⟩, by omega, by omega⟩
    · rintro ⟨⟨hsign, hdigits⟩, hleast, -⟩
      exact ⟨n.natAbs, ⟨hdigits, by omega⟩, by omega⟩
  · rw [not_exists] at hminus
    simp only [signed64_of_not_minus hminus, map_eq_ok_iff, natural_eq_ok_iff,
      spells_iff_of_not_minus hminus]
    constructor
    · rintro ⟨m, ⟨hdigits, hmost⟩, rfl⟩
      exact ⟨⟨by omega, hdigits⟩, by omega, by omega⟩
    · rintro ⟨⟨hsign, hdigits⟩, -, hmost⟩
      exact ⟨n.natAbs, ⟨hdigits, by omega⟩, by omega⟩

/-! ## Blanks -/

/-- A text is another one with blanks in front of it and behind it, any number of them. -/
def BetweenBlanks (text core : List Char) : Prop :=
  ∃ before after, text = before ++ core ++ after ∧
    (∀ c ∈ before, isBlank c = true) ∧ ∀ c ∈ after, isBlank c = true

theorem isBlank_eq_false_of_isDigit (hdigit : c.isDigit = true) : isBlank c = false := by
  have hfirst : 48 ≤ c.toNat := (Char.isDigit_iff_toNat.1 hdigit).1
  have hlast : c.toNat ≤ 57 := (Char.isDigit_iff_toNat.1 hdigit).2
  simp only [isBlank, blankCodes, List.contains_eq_mem, List.mem_cons, List.not_mem_nil, or_false,
    decide_eq_false_iff_not]
  omega

theorem Spells.ne_nil (h : Spells text n) : text ≠ [] := by
  obtain ⟨sign, digits, rfl, -, hdigits⟩ := h
  exact List.append_ne_nil_of_right_ne_nil sign hdigits.ne_nil

theorem Spells.not_blank (h : Spells text n) : ∀ c ∈ text, isBlank c = false := by
  obtain ⟨sign, digits, rfl, hsign, hdigits⟩ := h
  intro c hc
  rcases List.mem_append.1 hc with hc | hc
  · rcases hsign with ⟨rfl | rfl, -⟩ | ⟨rfl, -⟩
    · cases hc
    · rw [List.mem_singleton.1 hc]
      rfl
    · rw [List.mem_singleton.1 hc]
      rfl
  · exact isBlank_eq_false_of_isDigit (hdigits.isDigit c hc)

theorem dropWhile_isBlank {before after : List Char} (hbefore : ∀ c ∈ before, isBlank c = true)
    (hne : core ≠ []) (hcore : ∀ c ∈ core, isBlank c = false) :
    (before ++ (core ++ after)).dropWhile isBlank = core ++ after := by
  obtain ⟨c, core, rfl⟩ := List.exists_cons_of_ne_nil hne
  rw [List.dropWhile_append_of_pos hbefore, List.cons_append, List.dropWhile_cons_of_neg]
  simp [hcore c List.mem_cons_self]

/-- Blanks that stand in front of a text without blanks and behind it are taken away. -/
theorem BetweenBlanks.trim_eq (h : BetweenBlanks text core) (hne : core ≠ [])
    (hcore : ∀ c ∈ core, isBlank c = false) : trim text = core := by
  obtain ⟨before, after, rfl, hbefore, hafter⟩ := h
  have hback : (core ++ after).reverse = after.reverse ++ (core.reverse ++ []) := by simp
  rw [trim, List.append_assoc, dropWhile_isBlank hbefore hne hcore, hback, dropWhile_isBlank]
  · simp
  · simpa using hafter
  · simpa using hne
  · simpa using hcore

/-- Nothing but blanks is taken away. -/
theorem betweenBlanks_trim (text : List Char) : BetweenBlanks text (trim text) := by
  refine ⟨text.takeWhile isBlank,
    ((text.dropWhile isBlank).reverse.takeWhile isBlank).reverse, ?_, ?_, ?_⟩
  · rw [trim, List.append_assoc, ← List.reverse_append, List.takeWhile_append_dropWhile,
      List.reverse_reverse, List.takeWhile_append_dropWhile]
  · exact fun c => List.mem_takeWhile_imp
  · intro c hc
    exact List.mem_takeWhile_imp (List.mem_reverse.1 hc)

theorem spells_trim_iff :
    Spells (trim text) n ↔ ∃ core, BetweenBlanks text core ∧ Spells core n := by
  constructor
  · intro h
    exact ⟨trim text, betweenBlanks_trim text, h⟩
  · rintro ⟨core, hblanks, h⟩
    rw [hblanks.trim_eq h.ne_nil h.not_blank]
    exact h

end Arbiter.Text
