import Arbiter.Bytes

/-!
# Hexadecimal text

Byte strings are shown as two lower-case digits a byte and are read back in either case.
-/

namespace Arbiter.Text.Hex

/-- The lower-case digit of a number below sixteen. -/
def digit (n : Nat) : Char :=
  if n < 10 then Char.ofNat (48 + n) else Char.ofNat (87 + n)

/-- The value of a hexadecimal digit of either case. -/
def value? (c : Char) : Option Nat :=
  if '0' ≤ c ∧ c ≤ '9' then some (c.toNat - 48)
  else if 'a' ≤ c ∧ c ≤ 'f' then some (c.toNat - 87)
  else if 'A' ≤ c ∧ c ≤ 'F' then some (c.toNat - 55)
  else none

/-- The two digits of a byte. -/
def pair (b : UInt8) : List Char :=
  [digit (b.toNat / 16), digit (b.toNat % 16)]

/-- The digits of a byte string. -/
def encode (bytes : Bytes) : List Char :=
  bytes.flatMap pair

/-- Reads digits in pairs; a single digit at the end or any other character is refused. -/
def decode? : List Char → Option Bytes
  | [] => some []
  | [_] => none
  | hi :: lo :: rest => do
    let h ← value? hi
    let l ← value? lo
    let bytes ← decode? rest
    return UInt8.ofNat (16 * h + l) :: bytes

/-- The digits of a byte string as a string. -/
def text (bytes : Bytes) : String :=
  String.ofList (encode bytes)

/-- A number in hexadecimal without leading zeros. -/
def ofNat (n : Nat) : String :=
  String.ofList (Nat.toDigits 16 n)

/-- The sixteen hexadecimal digits of a number of sixty-four bits. -/
def word64 (n : Nat) : String :=
  text (leBytes 8 n).reverse

end Arbiter.Text.Hex
