import Arbiter.Text.Hex

/-!
# Account addresses

An address is twenty bytes.  It is shown as `0x` and forty lower-case hexadecimal digits and read
in either case.  Addresses are ordered by their bytes, which is also the order that breaks ties in
rankings and tallies.
-/

namespace Arbiter

/-- The address of an account. -/
@[ext]
structure Address where
  /-- The twenty bytes, most significant first. -/
  bytes : Bytes
  /-- There are twenty of them. -/
  length_bytes : bytes.length = 20
  deriving DecidableEq

/-- Why a text is not an address. -/
inductive AddressFault where
  /-- The text does not begin with `0x` or `0X`. -/
  | missingPrefix
  /-- What follows has the given number of bytes instead of forty. -/
  | wrongLength (found : Nat)
  /-- Some character is not a hexadecimal digit. -/
  | notHexadecimal
  deriving DecidableEq, Repr

/-- The words for an address fault. -/
def AddressFault.message : AddressFault → String
  | .missingPrefix => "address must start with 0x"
  | .wrongLength found => s!"address must have 40 hex digits, found {found}"
  | .notHexadecimal => "address contains non-hex characters"

namespace Address

instance : Ord Address := ⟨compareOn Address.bytes⟩

instance : Std.TransOrd Address := inferInstanceAs (Std.TransCmp (compareOn Address.bytes))

instance : Std.LawfulEqOrd Address where
  eq_of_compare h := Address.ext (@Std.LawfulEqCmp.eq_of_compare _ compare _ _ _ h)

instance : LT Address := ltOfOrd

/-- Whether one address comes before another. -/
def precedes (a b : Address) : Bool :=
  (compare a b).isLT

/-- The address whose bytes are all zero. -/
def zero : Address :=
  ⟨List.replicate 20 0, by simp⟩

instance : Inhabited Address := ⟨zero⟩

/-- The address whose last eight bytes hold `n` and whose other bytes are zero. -/
def ofLow (n : Nat) : Address :=
  ⟨List.replicate 12 0 ++ (leBytes 8 n).reverse, by simp⟩

/-- The address of twenty bytes. -/
def ofBytes? (bytes : Bytes) : Option Address :=
  if h : bytes.length = 20 then some ⟨bytes, h⟩ else none

/-- The text of an address. -/
def hex (a : Address) : String :=
  "0x" ++ Text.Hex.text a.bytes

instance : ToString Address := ⟨hex⟩

instance : Repr Address := ⟨fun address _ => s!"Address({address})"⟩

/-- The characters after the mark `0x` or `0X`. -/
def digits? : List Char → Option (List Char)
  | '0' :: 'x' :: rest => some rest
  | '0' :: 'X' :: rest => some rest
  | _ => none

/-- The number of bytes that a text occupies. -/
def byteLength (text : List Char) : Nat :=
  text.foldl (fun length c => length + c.utf8Size) 0

/-- Reads an address.  Of several faults the missing mark is reported before a wrong length, and a
wrong length before a wrong character. -/
def parse (text : List Char) : Except AddressFault Address :=
  match digits? text with
  | none => .error .missingPrefix
  | some digits =>
    if byteLength digits ≠ 40 then .error (.wrongLength (byteLength digits))
    else
      match (Text.Hex.decode? digits).bind ofBytes? with
      | none => .error .notHexadecimal
      | some address => .ok address

end Address

end Arbiter
