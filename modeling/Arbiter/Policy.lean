import Arbiter.Text.Blank

/-!
# The policy of a controller

The limits a controller enforces and who may close an event.  The policy is part of the state:
controllers of different policies do not agree on its hash.
-/

namespace Arbiter

/-- The version of the commands, journals and snapshots described here. -/
def protocolVersion : Nat := 1

/-- The greatest number of specs that one application may require. -/
def mostRequiredSpecs : Nat := 64

/-- Who may close an event once it has an elected solver. -/
inductive SolveAuthority where
  | anyone
  | registered
  | elected
  deriving DecidableEq, Repr

namespace SolveAuthority

instance : Inhabited SolveAuthority := ⟨anyone⟩

/-- The short name of an authority. -/
def label : SolveAuthority → String
  | .anyone => "any"
  | .registered => "registered"
  | .elected => "solver"

/-- The ASCII lower-case form of a character. -/
def lower (c : Char) : Char :=
  if 'A' ≤ c ∧ c ≤ 'Z' then Char.ofNat (c.toNat + 32) else c

/-- The form in which names are compared: no blanks around them, ASCII letters in lower case. -/
def normalize (text : List Char) : String :=
  String.ofList ((Text.trim text).map lower)

/-- Reads an authority from its short or its long name; failing that, gives the name it looked
up. -/
def parse (text : List Char) : Except String SolveAuthority :=
  let name := normalize text
  if name = "any" ∨ name = "any_account" then .ok .anyone
  else if name = "registered" ∨ name = "registered_node" then .ok .registered
  else if name = "solver" ∨ name = "elected_solver" then .ok .elected
  else .error name

end SolveAuthority

/-- The rules a controller enforces. -/
structure Policy where
  /-- Who may close an event. -/
  solveAuthority : SolveAuthority := .anyone
  /-- How many replies an event needs before votes are accepted. -/
  minReplies : Nat := 0
  /-- The greatest length in bytes of a spec and of an application's description. -/
  maxTagLength : Nat := 1024
  /-- The greatest length in bytes of an event's payload. -/
  maxPayloadLength : Nat := 65536
  deriving DecidableEq, Repr

instance : Inhabited Policy := ⟨{}⟩

end Arbiter
