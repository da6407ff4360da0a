import Arbiter.Json.Basic
import Arbiter.Json.Numeral

/-!
# Reading JSON text

Readers take a value from the front of a text and give the text behind it.  They tell two faults
apart: a text that is not JSON is *malformed*, and a text that is JSON of another shape than the
wanted one is *misshapen*.  A reader goes from left to right and reports the first fault it meets,
so a misshapen value is reported even when the text behind it is malformed.
-/

namespace Arbiter.Json

/-- Why a value cannot be read. -/
inductive Fault where
  /-- The text is not JSON. -/
  | malformed
  /-- The text is JSON, but not of the wanted shape. -/
  | misshapen
  deriving DecidableEq, Repr

/-- Takes a value from the front of a text. -/
abbrev Reader (α : Type) := List Char → Except Fault (α × List Char)

/-- Whether a character may stand between the parts of a text without meaning. -/
def isSpace (c : Char) : Bool :=
  c == ' ' || c == '\n' || c == '\t' || c == '\r'

/-- The text from its first character with a meaning on. -/
def skipSpace (text : List Char) : List Char :=
  text.dropWhile isSpace

/-! ### Words and strings -/

/-- Reads the rest of a word whose first letter was read. -/
def word (rest : String) (value : α) : Reader α := fun text =>
  if rest.toList.isPrefixOf text then .ok (value, text.drop rest.length) else .error .malformed

/-- The number of four hexadecimal digits. -/
def hexQuad? (a b c d : Char) : Option Nat := do
  let a ← Text.Hex.value? a
  let b ← Text.Hex.value? b
  let c ← Text.Hex.value? c
  let d ← Text.Hex.value? d
  return 4096 * a + 256 * b + 16 * c + d

/-- The character that stands behind a backslash in place of another one. -/
def unescape? (c : Char) : Option Char :=
  if c = '"' ∨ c = '\\' ∨ c = '/' then some c
  else if c = 'b' then some (Char.ofNat 8)
  else if c = 'f' then some (Char.ofNat 12)
  else if c = 'n' then some '\n'
  else if c = 'r' then some '\r'
  else if c = 't' then some '\t'
  else none

/-- The first half of a pair of numbers that together stand for one character. -/
def isHighHalf (n : Nat) : Bool :=
  0xD800 ≤ n && n ≤ 0xDBFF

/-- The second half of such a pair. -/
def isLowHalf (n : Nat) : Bool :=
  0xDC00 ≤ n && n ≤ 0xDFFF

/-- Reads the rest of a string behind its opening quote.  `high` is the first half of a character
that waits for its second half, and `taken` holds the characters read before, the newest first. -/
def stringFrom : (high : Option Nat) → (taken : List Char) → Reader String
  | _, _, [] => .error .malformed
  | high, taken, '\\' :: 'u' :: a :: b :: c :: d :: rest =>
    match hexQuad? a b c d, high with
    | none, _ => .error .malformed
    | some n, none =>
      if isHighHalf n then stringFrom (some n) taken rest
      else if isLowHalf n then .error .malformed
      else stringFrom none (Char.ofNat n :: taken) rest
    | some n, some h =>
      if isLowHalf n then
        stringFrom none (Char.ofNat (0x10000 + 0x400 * (h - 0xD800) + (n - 0xDC00)) :: taken) rest
      else .error .malformed
  | some _, _, _ :: _ => .error .malformed
  | none, taken, '"' :: rest => .ok (String.ofList taken.reverse, rest)
  | none, taken, '\\' :: c :: rest =>
    match unescape? c with
    | none => .error .malformed
    | some c => stringFrom none (c :: taken) rest
  | none, taken, c :: rest =>
    if c.toNat < 32 || c = '\\' then .error .malformed else stringFrom none (c :: taken) rest

/-- Passes over the rest of a string whose contents do not matter; halves of characters need not
be paired. -/
def skipString : List Char → Except Fault (List Char)
  | [] => .error .malformed
  | '\\' :: 'u' :: a :: b :: c :: d :: rest =>
    if (hexQuad? a b c d).isSome then skipString rest else .error .malformed
  | '"' :: rest => .ok rest
  | '\\' :: c :: rest => if (unescape? c).isSome then skipString rest else .error .malformed
  | c :: rest => if c.toNat < 32 || c = '\\' then .error .malformed else skipString rest

/-! ### Numbers -/

/-- Reads one or more digits. -/
def someDigits : Reader (List Char) := fun text =>
  match text.span Char.isDigit with
  | ([], _) => .error .malformed
  | (digits, rest) => .ok (digits, rest)

/-- Reads the digits before the point, which do not begin with a zero unless it stands alone. -/
def wholeDigits : Reader (List Char) := fun text => do
  let (digits, rest) ← someDigits text
  if digits.head? = some '0' && digits.length ≠ 1 then throw .malformed
  return (digits, rest)

/-- Reads the point and the digits behind it, if there is a point. -/
def fractionDigits : Reader (List Char)
  | '.' :: rest => someDigits rest
  | text => .ok ([], text)

/-- Reads the sign of a power of ten, if there is one. -/
def powerSign : List Char → List Char × List Char
  | '-' :: rest => (['-'], rest)
  | '+' :: rest => (['+'], rest)
  | text => ([], text)

/-- Reads the power of ten and its mark, if there is one. -/
def powerText : Reader (List Char) := fun text =>
  match text with
  | [] => .ok ([], text)
  | mark :: rest =>
    if mark = 'e' ∨ mark = 'E' then do
      let (sign, rest) := powerSign rest
      let (digits, rest) ← someDigits rest
      return (mark :: sign ++ digits, rest)
    else .ok ([], text)

/-- Reads a number as it is written. -/
def numeral : Reader Numeral := fun text => do
  let (negative, text) := match text with
    | '-' :: rest => (true, rest)
    | _ => (false, text)
  let (whole, text) ← wholeDigits text
  let (fraction, text) ← fractionDigits text
  let (power, text) ← powerText text
  return (⟨negative, whole, fraction, power⟩, text)

/-- Reads a number as an integer or as the text it is written with. -/
def number : Reader Json := fun text => do
  let (n, rest) ← numeral text
  match n.integer? with
  | some i => return (.integer i, rest)
  | none => if n.inRange then return (.decimal (String.ofList n.text), rest) else throw .malformed

/-- Whether a number begins with a character. -/
def startsNumber (c : Char) : Bool :=
  c == '-' || c.isDigit

/-! ### Values of any shape -/

/-- What encloses the place of a text that is being passed over. -/
inductive Bracket where
  | square
  | curly
  deriving DecidableEq

/-- Passes over the name of a field and the colon behind it. -/
def skipName (text : List Char) : Except Fault (List Char) :=
  match skipSpace text with
  | '"' :: rest => do
    match skipSpace (← skipString rest) with
    | ':' :: rest => return rest
    | _ => throw .malformed
  | _ => .error .malformed

mutual

/-- Passes over a value inside the given brackets and on to the last of them, innermost first. -/
def skipValue : (fuel : Nat) → List Bracket → List Char → Except Fault (List Char)
  | 0, _, _ => .error .malformed
  | fuel + 1, enclosing, text =>
    match skipSpace text with
    | [] => .error .malformed
    | '"' :: rest => do skipRest fuel enclosing (← skipString rest)
    | '[' :: rest =>
      match skipSpace rest with
      | ']' :: rest => skipRest fuel enclosing rest
      | rest => skipValue fuel (.square :: enclosing) rest
    | '{' :: rest =>
      match skipSpace rest with
      | '}' :: rest => skipRest fuel enclosing rest
      | rest => do skipValue fuel (.curly :: enclosing) (← skipName rest)
    | 'n' :: rest => do skipRest fuel enclosing (← word "ull" () rest).2
    | 't' :: rest => do skipRest fuel enclosing (← word "rue" () rest).2
    | 'f' :: rest => do skipRest fuel enclosing (← word "alse" () rest).2
    | c :: rest =>
      if startsNumber c then do skipRest fuel enclosing (← numeral (c :: rest)).2
      else .error .malformed

/-- Passes over what follows a value inside the given brackets. -/
def skipRest : (fuel : Nat) → List Bracket → List Char → Except Fault (List Char)
  | _, [], text => .ok text
  | 0, _, _ => .error .malformed
  | fuel + 1, bracket :: enclosing, text =>
    match bracket, skipSpace text with
    | .square, ']' :: rest => skipRest fuel enclosing rest
    | .curly, '}' :: rest => skipRest fuel enclosing rest
    | .square, ',' :: rest => skipValue fuel (bracket :: enclosing) rest
    | .curly, ',' :: rest => do skipValue fuel (bracket :: enclosing) (← skipName rest)
    | _, _ => .error .malformed

end

/-- Passes over a value of any shape, however deeply it is nested, in a text of at most `bound`
characters. -/
def skip (bound : Nat) : Reader Unit := fun text =>
  ((), ·) <$> skipValue (2 * bound + 2) [] text

mutual

/-- Reads a value of any shape in which at most `depth` arrays and objects are nested. -/
def valueWithin : (fuel depth : Nat) → Reader Json
  | 0, _, _ => .error .malformed
  | fuel + 1, depth, text =>
    match skipSpace text with
    | [] => .error .malformed
    | '"' :: rest => (fun (s, rest) => (.string s, rest)) <$> stringFrom none [] rest
    | '[' :: rest =>
      match depth, skipSpace rest with
      | 0, _ => .error .malformed
      | _ + 1, ']' :: rest => .ok (.array [], rest)
      | depth + 1, rest => itemsWithin fuel depth [] rest
    | '{' :: rest =>
      match depth, skipSpace rest with
      | 0, _ => .error .malformed
      | _ + 1, '}' :: rest => .ok (.object [], rest)
      | depth + 1, rest => fieldsWithin fuel depth [] rest
    | 'n' :: rest => word "ull" .null rest
    | 't' :: rest => word "rue" (.bool true) rest
    | 'f' :: rest => word "alse" (.bool false) rest
    | c :: rest => if startsNumber c then number (c :: rest) else .error .malformed

/-- Reads the items of an array and its closing bracket; `taken` holds the items read before, the
newest first. -/
def itemsWithin : (fuel depth : Nat) → (taken : List Json) → Reader Json
  | 0, _, _, _ => .error .malformed
  | fuel + 1, depth, taken, text => do
    let (item, rest) ← valueWithin fuel depth text
    match skipSpace rest with
    | ',' :: rest => itemsWithin fuel depth (item :: taken) rest
    | ']' :: rest => return (.array (item :: taken).reverse, rest)
    | _ => throw .malformed

/-- Reads the fields of an object and its closing bracket; `taken` holds the fields read before,
the newest first. -/
def fieldsWithin : (fuel depth : Nat) → (taken : List (String × Json)) → Reader Json
  | 0, _, _, _ => .error .malformed
  | fuel + 1, depth, taken, text =>
    match skipSpace text with
    | '"' :: rest => do
      let (name, rest) ← stringFrom none [] rest
      match skipSpace rest with
      | ':' :: rest =>
        let (value, rest) ← valueWithin fuel depth rest
        match skipSpace rest with
        | ',' :: rest => fieldsWithin fuel depth ((name, value) :: taken) rest
        | '}' :: rest => return (.object ((name, value) :: taken).reverse, rest)
        | _ => throw .malformed
      | _ => throw .malformed
    | _ => .error .malformed

end

/-- How many arrays and objects may be nested in a value that is read as a whole. -/
def mostNested : Nat := 127

/-- In how many steps the value at the front of a text is read: only an array or an object takes
more than one. -/
def stepsFor (text : List Char) : Nat :=
  match skipSpace text with
  | '[' :: rest => 2 * rest.length + 2
  | '{' :: rest => 2 * rest.length + 2
  | _ => 1

/-- Reads a value of any shape. -/
def value (depth : Nat) : Reader Json := fun text =>
  valueWithin (stepsFor text) depth text

/-- The value that a text consists of, apart from blanks. -/
def parse (text : String) : Except Fault Json := do
  let (v, rest) ← value mostNested text.toList
  if (skipSpace rest).isEmpty then return v else throw .malformed

end Arbiter.Json
