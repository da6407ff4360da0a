import Arbiter.Codec.Basic
import Arbiter.Text.Hex

/-!
# Percent-encoded texts

In a path a byte may be written as `%` and two hexadecimal digits.  A `%` without such digits
stands for itself.
-/

namespace Arbiter.Http.Percent

/-- The bytes that a text stands for. -/
def bytes : List Char → Bytes
  | [] => []
  | '%' :: a :: b :: rest =>
    match Text.Hex.value? a, Text.Hex.value? b with
    | some high, some low => UInt8.ofNat (16 * high + low) :: bytes rest
    | _, _ => Codec.utf8 "%" ++ bytes (a :: b :: rest)
  | c :: rest => Codec.utf8 (String.singleton c) ++ bytes rest

/-- The text that a percent-encoded text stands for, if its bytes are a text. -/
def decode? (text : List Char) : Option String :=
  Codec.ofUtf8? (bytes text)

end Arbiter.Http.Percent
