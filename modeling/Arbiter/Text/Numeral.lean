import Arbiter.Bytes

/-!
# Decimal numerals

Numerals as people type them: an optional sign and ASCII digits.  A numeral is read from the left
and the first fault found is the one reported, so a text that is both too large and malformed is
called whichever shows first.
-/

namespace Arbiter.Text

/-- Why a text is not a numeral of the wanted range. -/
inductive NumeralFault where
  | empty
  /-- Some character is not a digit, or a sign stands alone. -/
  | badDigit
  /-- The number read so far exceeds the greatest allowed one. -/
  | tooLarge
  deriving DecidableEq, Repr

/-- The words for a numeral fault. -/
def NumeralFault.message : NumeralFault → String
  | .empty => "cannot parse integer from empty string"
  | .badDigit => "invalid digit found in string"
  | .tooLarge => "number too large to fit in target type"

/-- The value of an ASCII decimal digit. -/
def digit? (c : Char) : Option Nat :=
  if c.isDigit then some (c.toNat - '0'.toNat) else none

/-- Continues the number `acc` by the given digits, never beyond `most`. -/
def extendNumber (most : Nat) : (acc : Nat) → List Char → Except NumeralFault Nat
  | acc, [] => .ok acc
  | acc, c :: rest =>
    match digit? c with
    | none => .error .badDigit
    | some d =>
      if 10 * acc + d ≤ most then extendNumber most (10 * acc + d) rest else .error .tooLarge

/-- Reads one or more digits as a number of at most `most`. -/
def digits (most : Nat) : List Char → Except NumeralFault Nat
  | [] => .error .badDigit
  | text => extendNumber most 0 text

/-- Reads a natural number of at most `most`; a leading `+` is allowed. -/
def natural (most : Nat) : List Char → Except NumeralFault Nat
  | [] => .error .empty
  | '+' :: rest => digits most rest
  | text => digits most text

/-- The greatest number of sixty-four bits. -/
def most64 : Nat := 18446744073709551615

/-- Reads an integer of sixty-four bits, one of which is the sign; a leading `+` or `-` is
allowed. -/
def signed64 : List Char → Except NumeralFault Int
  | '-' :: rest => (fun n => -(n : Int)) <$> digits 9223372036854775808 rest
  | text => (fun n => (n : Int)) <$> natural 9223372036854775807 text

end Arbiter.Text
