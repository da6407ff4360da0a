import Arbiter.Journal.Replay
import Arbiter.Journal.Writer
import Arbiter.Snapshot

/-!
# Loading a history

The state of a node, rebuilt from its files without the node: the journal, replayed from the
beginning or on top of a snapshot, to its end or up to a given version.  A failure tells what was
being done, and then its cause.
-/

namespace Arbiter.Offline

/-- The contents of the files that are looked at. -/
abbrev Files := Path → Except DiskFault Bytes

/-- What was being done when something failed. -/
inductive Activity where
  | readingJournal (path : Path)
  | readingSnapshot (path : Path)
  | decodingSnapshot (path : Path)
  | replaying
  deriving DecidableEq

/-- The words for an activity. -/
def Activity.describe : Activity → String
  | .readingJournal path => s!"reading journal {path}"
  | .readingSnapshot path => s!"reading snapshot {path}"
  | .decodingSnapshot path => s!"decoding snapshot {path}"
  | .replaying => "replaying journal"

/-- Why a history cannot be looked at. -/
inductive Failure where
  | disk (fault : DiskFault)
  | journal (fault : JournalFault)
  | corrupted (corruption : Corruption)
  /-- The snapshot is later than the version that is wanted. -/
  | rewind (wanted version : Nat)
  /-- A file is too short to be a snapshot. -/
  | tooShort (path : Path)
  /-- Something failed in the course of an activity. -/
  | during (activity : Activity) (cause : Failure)
  deriving DecidableEq

namespace Failure

/-- The words for a failure followed by those for its causes, one after the other. -/
def chain : Failure → List String
  | .disk fault => [fault.message]
  | .journal (.disk fault) => [(JournalFault.disk fault).message, fault.message]
  | .journal (.encoding corruption) =>
    [(JournalFault.encoding corruption).message, corruption.message]
  | .journal fault => [fault.message]
  | .corrupted corruption => [corruption.message]
  | .rewind wanted version =>
    [s!"cannot rewind to {wanted}: snapshot is already at {Version.label version}"]
  | .tooShort path => [s!"{path} is too short to be a snapshot"]
  | .during activity cause => activity.describe :: cause.chain

end Failure

/-- Reads a journal. -/
def readJournal (files : Files) (path : Path) : Except Failure JournalContents :=
  match files path with
  | .error fault => .error (.journal (.disk fault))
  | .ok bytes => (scan bytes).mapError fun fault => .journal (.scan fault)

/-- Names the activity in the course of which something failed. -/
def within (activity : Activity) (result : Except Failure α) : Except Failure α :=
  result.mapError (.during activity)

/-- A history that was loaded. -/
structure History where
  state : State
  entries : List Entry
  /-- How many of them were applied on top of the snapshot. -/
  applied : Nat
  /-- The length of the torn tail of the journal. -/
  tornTail : Nat

/-- The state that a history begins with. -/
def baseState (files : Files) : Option Path → Except Failure State
  | none => .ok (State.initial {})
  | some path => do
    let bytes ← within (.readingSnapshot path) ((files path).mapError .disk)
    within (.decodingSnapshot path) ((Snapshot.decode bytes).mapError .corrupted)

/-- The entries up to a version, which must not lie before that of the state. -/
def entriesUpTo (base : State) (entries : List Entry) : Option Nat → Except Failure (List Entry)
  | none => .ok entries
  | some upTo =>
    if upTo < base.version then .error (.rewind upTo base.version) else .ok (entries.take upTo)

/-- Loads a history. -/
def load (files : Files) (journal : Path) (snapshot : Option Path) (upTo : Option Nat) :
    Except Failure History := do
  let contents ← within (.readingJournal journal) (readJournal files journal)
  let base ← baseState files snapshot
  let entries ← entriesUpTo base contents.entries upTo
  let replay := base.replay entries
  match replay.ending with
  | .error corruption => throw (.during .replaying (.corrupted corruption))
  | .ok applied => return ⟨replay.state, entries, applied, contents.tornTail⟩

end Arbiter.Offline
