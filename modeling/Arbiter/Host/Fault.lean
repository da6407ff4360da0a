import Arbiter.Journal.Writer
import Arbiter.Settings

/-!
# What a host reports

A host refuses what its controller refuses, and besides that it may be set up wrongly, be asked for
something it cannot do, or be let down by its journal or its disk.  Every fault has its words and
the status that a caller over the network is given.
-/

namespace Arbiter

/-- The name of the header that tells whom a request is made for. -/
def callerHeader : String := "x-caller-address"

/-- What is wrong with what a host is asked for. -/
inductive RequestFault where
  /-- A snapshot is to be saved, and there is no path for it. -/
  | noSnapshotPath
  /-- The snapshot is ahead of the journal. -/
  | snapshotAhead (version last : Nat)
  /-- A request does not tell its caller. -/
  | missingCaller
  /-- The caller is not given in ASCII. -/
  | callerNotAscii
  /-- The caller is not an address. -/
  | callerAddress (fault : AddressFault)
  /-- An address in the path is none. -/
  | address (fault : AddressFault)
  /-- A score that is given as a text is not a number. -/
  | score (text : String)
  /-- Any other reason, in words. -/
  | stated (reason : String)
  deriving DecidableEq

/-- The words for a fault of a request. -/
def RequestFault.message : RequestFault → String
  | .noSnapshotPath => "No snapshot path configured"
  | .snapshotAhead version last =>
    s!"snapshot is at {Version.label version} but the journal ends at {last}"
  | .missingCaller => s!"missing {callerHeader} header"
  | .callerNotAscii => s!"{callerHeader} is not ASCII"
  | .callerAddress fault => s!"{callerHeader}: {fault.message}"
  | .address fault => fault.message
  | .score text => s!"score '{text}' is not a signed 64-bit integer"
  | .stated reason => reason

/-- Why a host does not do what it is asked for. -/
inductive HostFault where
  | refused (refusal : Refusal)
  | corrupted (corruption : Corruption)
  | journal (fault : JournalFault)
  | disk (fault : DiskFault)
  | settings (fault : SettingsFault)
  | request (fault : RequestFault)
  /-- A command that was checked and entered into the journal was refused. -/
  | internal
  deriving DecidableEq

namespace HostFault

/-- The words for a fault of a host. -/
def message : HostFault → String
  | .refused refusal => refusal.message
  | .corrupted corruption => corruption.message
  | .journal fault => s!"Journal error: {fault.message}"
  | .disk fault => s!"IO error: {fault.message}"
  | .settings fault => s!"Invalid configuration: {fault.message}"
  | .request fault => s!"Invalid input: {fault.message}"
  | .internal => "Internal server error"

/-- The status that a caller is given. -/
def status : HostFault → Nat
  | .refused (.notFound _) => 404
  | .refused (.alreadyDone _) => 409
  | .refused (.invalidState _) => 412
  | .refused (.invalidInput _) => 400
  | .request _ => 400
  | .corrupted _ | .journal _ | .disk _ | .settings _ | .internal => 500

end HostFault

end Arbiter
