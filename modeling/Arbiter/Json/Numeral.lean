import Arbiter.Text.Numeral

/-!
# Numbers in JSON

A number as it is written, and what it is worth.  One that is written as an integer and has room in
sixty-four bits is that integer.  Any other one stands for a floating-point number of sixty-four
bits: for the product of its first digits, as many as have room in sixty-four bits, and of a power
of ten, each taken as the floating-point number next to it.  A number for which that product has no
finite neighbour is out of range.
-/

namespace Arbiter.Json

/-- The parts of a number as it is written. -/
structure Numeral where
  /-- Whether it begins with a minus sign. -/
  negative : Bool
  /-- The digits before the point. -/
  whole : List Char
  /-- The digits behind the point. -/
  fraction : List Char
  /-- The power of ten from its mark on, as far as one is written. -/
  power : List Char
  deriving DecidableEq, Repr

namespace Numeral

/-- The text of a number. -/
def text (n : Numeral) : List Char :=
  (if n.negative then ['-'] else []) ++ n.whole ++
    (if n.fraction.isEmpty then [] else '.' :: n.fraction) ++ n.power

/-- Continues the number `acc` by the given digits for as long as it has room in sixty-four bits.
Gives the number and the digits that are left. -/
def takeDigits : (acc : Nat) → List Char → Nat × List Char
  | acc, [] => (acc, [])
  | acc, c :: rest =>
    let next := 10 * acc + (c.toNat - 48)
    if next ≤ Text.most64 then takeDigits next rest else (acc, c :: rest)

/-- The greatest exponent that is told apart from greater ones. -/
def mostExponent : Nat := 2147483647

/-- The size of an exponent of the given digits. -/
def exponentSize (digits : List Char) : Nat :=
  digits.foldl (fun n c => min mostExponent (10 * n + (c.toNat - 48))) 0

/-- The exponent of the power of ten; without one it is zero. -/
def exponent (n : Numeral) : Int :=
  match n.power.tail with
  | '-' :: digits => -(exponentSize digits : Int)
  | '+' :: digits => exponentSize digits
  | digits => exponentSize digits

/-- The first digits of a number and the exponent of the power of ten that belongs to them.  A digit
without room counts for its place before the point, and not at all behind it. -/
def scaled (n : Numeral) : Nat × Int :=
  let (lead, left) := takeDigits 0 n.whole
  let (significand, cut) := takeDigits lead n.fraction
  (significand, n.exponent + left.length - (n.fraction.length - cut.length : Nat))

/-- The number of at most fifty-three binary digits, apart from zeros at the end, that is nearest to
`n`; halfway between two of them it is the one whose last digit is even. -/
def nearest (n : Nat) : Nat :=
  let unit := Nat.pow 2 (n.log2 + 1 - 53)
  let below := n / unit
  let rest := n % unit
  if 2 * rest < unit || 2 * rest = unit && below % 2 = 0 then unit * below else unit * (below + 1)

/-- The least number without a finite neighbour among the floating-point numbers of sixty-four
bits. -/
def tooGreat : Nat := Nat.pow 2 1024 - Nat.pow 2 970

/-- The exponent of the greatest power of ten among the floating-point numbers of sixty-four
bits. -/
def mostPower : Nat := 308

/-- Whether a number is within the range of the floating-point numbers of sixty-four bits. -/
def inRange (n : Numeral) : Bool :=
  let (significand, power) := n.scaled
  if significand = 0 || power < 0 then true
  else if mostPower < power.toNat then false
  else nearest significand * nearest (Nat.pow 10 power.toNat) < tooGreat

/-- The integer of a number that is written as one and has room in sixty-four bits; `-0` is not
taken for an integer. -/
def integer? (n : Numeral) : Option Int :=
  match n.fraction, n.power, takeDigits 0 n.whole with
  | [], [], (value, []) =>
    if !n.negative then some value
    else if 0 < value ∧ value ≤ 9223372036854775808 then some (-value)
    else none
  | _, _, _ => none

end Numeral

end Arbiter.Json
