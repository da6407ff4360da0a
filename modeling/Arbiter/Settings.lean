import Arbiter.Disk.Path
import Arbiter.Net.SocketAddress
import Arbiter.Policy
import Arbiter.Text.Numeral

/-!
# The settings of a node

A node is set up by named texts, its variables.  They are read in a fixed order, and the first one
that cannot be read is reported.
-/

namespace Arbiter

/-- The settings of a node. -/
structure Settings where
  bindAddress : SocketAddress := ⟨.four 127 0 0 1, 3000⟩
  /-- Where the journal is; without one the node keeps everything in memory. -/
  journalPath : Option Path := none
  snapshotPath : Option Path := none
  /-- The token that callers have to show. -/
  token : Option String := none
  /-- The seconds between two snapshots that are made unasked. -/
  snapshotInterval : Option Nat := none
  policy : Policy := {}
  deriving DecidableEq

/-- Why the settings cannot be read. -/
inductive SettingsFault where
  /-- A variable is not a socket address. -/
  | bindAddress (name : String)
  /-- A variable is not a number. -/
  | number (name : String) (fault : Text.NumeralFault)
  /-- There is no solve authority of this name. -/
  | authority (name : String)
  /-- Any other reason, in words. -/
  | stated (reason : String)
  deriving DecidableEq

/-- The words for a fault of the settings. -/
def SettingsFault.message : SettingsFault → String
  | .bindAddress name => s!"{name}: invalid socket address syntax"
  | .number name fault => s!"{name}: {fault.message}"
  | .authority name => s!"unknown solve authority '{name}'"
  | .stated reason => reason

namespace Settings

/-- The value of a variable that is read by `parse`, if it is set. -/
def given? (lookup : String → Option String) (name : String)
    (parse : List Char → Except SettingsFault α) : Except SettingsFault (Option α) :=
  match lookup name with
  | none => .ok none
  | some value => some <$> parse value.toList

/-- Reads a socket address. -/
def bindAddressOf (name : String) (text : List Char) : Except SettingsFault SocketAddress :=
  match SocketAddress.parse? text with
  | none => .error (.bindAddress name)
  | some address => .ok address

/-- Reads a number. -/
def numberOf (name : String) (text : List Char) : Except SettingsFault Nat :=
  (Text.natural Text.most64 text).mapError (.number name)

/-- Reads a solve authority. -/
def authorityOf (text : List Char) : Except SettingsFault SolveAuthority :=
  (SolveAuthority.parse text).mapError .authority

/-- The settings that the variables say; what they do not say stays as it is by default.  An empty
token is no token, and an interval of zero seconds is no interval. -/
def ofVariables (lookup : String → Option String) : Except SettingsFault Settings := do
  let default : Settings := {}
  let bind ← given? lookup "HIDRA_BIND_ADDR" (bindAddressOf "HIDRA_BIND_ADDR")
  let interval ← given? lookup "HIDRA_SNAPSHOT_INTERVAL_SECS"
    (numberOf "HIDRA_SNAPSHOT_INTERVAL_SECS")
  let authority ← given? lookup "HIDRA_SOLVE_AUTHORITY" authorityOf
  let replies ← given? lookup "HIDRA_MIN_REPLIES" (numberOf "HIDRA_MIN_REPLIES")
  return {
    bindAddress := bind.getD default.bindAddress
    journalPath := (lookup "HIDRA_JOURNAL_PATH").map Path.mk
    snapshotPath := (lookup "HIDRA_SNAPSHOT_PATH").map Path.mk
    token := (lookup "HIDRA_AUTH_TOKEN").filter (!·.isEmpty)
    snapshotInterval := interval.filter (0 < ·)
    policy := { default.policy with
      solveAuthority := authority.getD default.policy.solveAuthority
      minReplies := replies.getD default.policy.minReplies } }

end Settings

end Arbiter
