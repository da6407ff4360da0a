import Arbiter.Text.Hex

/-!
# Socket addresses

The address and port that a node listens on: `a.b.c.d:port`, or `[address]:port` for the addresses
of eight groups.  In the latter one run of zero groups may be written as `::`, the last two groups
may be written like an address of four bytes, and a zone may follow behind a `%`.  Any number of
zeros may lead a port or a zone, and none a byte.
-/

namespace Arbiter

/-- The address of a host. -/
inductive HostAddress where
  /-- An address of four bytes. -/
  | four (a b c d : UInt8)
  /-- An address of eight groups of two bytes, and its zone. -/
  | eight (groups : Vector UInt16 8) (zone : UInt32)
  deriving DecidableEq

/-- The address and the port of a socket. -/
structure SocketAddress where
  host : HostAddress
  port : UInt16
  deriving DecidableEq

namespace SocketAddress

/-! ### Reading -/

/-- Takes a number in base `base` from the front of a text: of a value of at most `most` and, where
there is a bound on their count, at most `longest` digits. -/
def takeNumber (base : Nat) (longest : Option Nat) (most : Nat) (text : List Char) :
    Option (Nat × List Char) :=
  let digit? (c : Char) := (Text.Hex.value? c).filter (· < base)
  let digits := (text.takeWhile fun c => (digit? c).isSome).filterMap digit?
  let value := digits.foldl (fun n d => base * n + d) 0
  if digits.isEmpty || longest.any (· < digits.length) || most < value then none
  else some (value, text.drop digits.length)

/-- Takes a character from the front of a text. -/
def takeChar (c : Char) : List Char → Option (List Char)
  | [] => none
  | c' :: rest => if c' = c then some rest else none

/-- Takes a byte in decimal, without needless zeros. -/
def takeByte (text : List Char) : Option (UInt8 × List Char) := do
  let (value, rest) ← takeNumber 10 (some 3) 255 text
  if text.head? = some '0' ∧ text.length ≠ rest.length + 1 then none
  else return (UInt8.ofNat value, rest)

/-- Takes a byte behind a point. -/
def takePointByte (text : List Char) : Option (UInt8 × List Char) := do
  takeByte (← takeChar '.' text)

/-- Takes four bytes with points between them. -/
def takeFour (text : List Char) : Option ((UInt8 × UInt8 × UInt8 × UInt8) × List Char) := do
  let (a, text) ← takeByte text
  let (b, text) ← takePointByte text
  let (c, text) ← takePointByte text
  let (d, text) ← takePointByte text
  return ((a, b, c, d), text)

/-- The text behind the colon that separates a group from the one before it. -/
def behindColon (first : Bool) (text : List Char) : Option (List Char) :=
  if first then some text else takeChar ':' text

/-- Two bytes as a group. -/
def group (high low : UInt8) : UInt16 :=
  UInt16.ofNat (256 * high.toNat + low.toNat)

/-- Takes up to `count` groups from the front of a text, the last two of which may be written like
an address of four bytes.  Also tells whether they were. -/
def takeGroups : (count : Nat) → (first : Bool) → List Char → List UInt16 × Bool × List Char
  | 0, _, text => ([], false, text)
  | count + 1, first, text =>
    let four := if count = 0 then none else (behindColon first text).bind takeFour
    match four with
    | some ((a, b, c, d), rest) => ([group a b, group c d], true, rest)
    | none =>
      match (behindColon first text).bind (takeNumber 16 (some 4) 65535) with
      | none => ([], false, text)
      | some (value, rest) =>
        let (groups, ended, rest) := takeGroups count false rest
        (UInt16.ofNat value :: groups, ended, rest)

/-- Eight groups out of those before and those after a run of zeros. -/
def fill (before after : List UInt16) : Option (Vector UInt16 8) :=
  let groups := before ++ List.replicate (8 - before.length - after.length) 0 ++ after
  if h : groups.length = 8 then some ⟨groups.toArray, by simpa using h⟩ else none

/-- Takes eight groups, of which a run of zeros may be written as `::`. -/
def takeEight (text : List Char) : Option (Vector UInt16 8 × List Char) := do
  let (before, ended, text) := takeGroups 8 true text
  if before.length = 8 then return (← fill before [], text)
  if ended then none
  let text ← takeChar ':' text
  let text ← takeChar ':' text
  let (after, _, text) := takeGroups (7 - before.length) true text
  return (← fill before after, text)

/-- Takes the zone behind its mark; without a mark the zone is zero, as it is behind one that no
number follows. -/
def takeZone (text : List Char) : UInt32 × List Char :=
  match (takeChar '%' text).bind (takeNumber 10 none 4294967295) with
  | none => (0, text)
  | some (value, rest) => (UInt32.ofNat value, rest)

/-- Takes a port behind its colon. -/
def takePort (text : List Char) : Option (UInt16 × List Char) := do
  let (value, rest) ← takeNumber 10 none 65535 (← takeChar ':' text)
  return (UInt16.ofNat value, rest)

/-- Takes a host and its port. -/
def takeSocket (text : List Char) : Option (SocketAddress × List Char) :=
  let four : Option (SocketAddress × List Char) := do
    let ((a, b, c, d), text) ← takeFour text
    let (port, text) ← takePort text
    return (⟨.four a b c d, port⟩, text)
  let eight : Option (SocketAddress × List Char) := do
    let (groups, text) ← takeEight (← takeChar '[' text)
    let (zone, text) := takeZone text
    let (port, text) ← takePort (← takeChar ']' text)
    return (⟨.eight groups zone, port⟩, text)
  four.or eight

/-- Reads a socket address. -/
def parse? (text : List Char) : Option SocketAddress :=
  match takeSocket text with
  | some (address, []) => some address
  | _ => none

/-! ### Showing -/

/-- The text of four bytes. -/
def fourText (bytes : List UInt8) : String :=
  ".".intercalate (bytes.map fun b => toString b.toNat)

/-- The text of some groups. -/
def groupsText (groups : List UInt16) : String :=
  ":".intercalate (groups.map fun g => Text.Hex.ofNat g.toNat)

/-- The length of the run of zeros at the front of some groups. -/
def zerosAhead (groups : List UInt16) : Nat :=
  (groups.takeWhile (· == 0)).length

/-- The place and the length of the first longest run of zeros. -/
def longestZeros (groups : List UInt16) : Nat × Nat :=
  (List.range groups.length).foldl (fun best place =>
    let length := zerosAhead (groups.drop place)
    if best.2 < length then (place, length) else best) (0, 0)

/-- The two bytes of a group. -/
def bytesOf (g : UInt16) : List UInt8 :=
  [UInt8.ofNat (g.toNat / 256), UInt8.ofNat (g.toNat % 256)]

/-- The text of eight groups.  An address of four bytes in its eight-group form ends in its usual
text; otherwise a run of two or more zeros is left out. -/
def eightText (groups : List UInt16) : String :=
  if groups.take 6 = [0, 0, 0, 0, 0, 0xFFFF] then
    "::ffff:" ++ fourText ((groups.drop 6).flatMap bytesOf)
  else
    let (place, length) := longestZeros groups
    if 1 < length then
      groupsText (groups.take place) ++ "::" ++ groupsText (groups.drop (place + length))
    else groupsText groups

/-- The text of a socket address. -/
def text (s : SocketAddress) : String :=
  let host := match s.host with
    | .four a b c d => fourText [a, b, c, d]
    | .eight groups zone =>
      let zoneText := if zone = 0 then "" else "%" ++ toString zone.toNat
      "[" ++ eightText groups.toList ++ zoneText ++ "]"
  host ++ ":" ++ toString s.port.toNat

end SocketAddress

end Arbiter
