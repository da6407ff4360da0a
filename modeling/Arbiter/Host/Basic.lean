import Arbiter.Host.Fault
import Arbiter.StateProof

/-!
# Hosts

A host is what a node runs: the state of a controller together with its journal on disk.  A command
is checked, then entered into the journal, and only then carried out, so the state never holds a
command that the journal does not.  A command that is refused or that the journal does not take
leaves the state as it was.
-/

namespace Arbiter

/-- A controller and its journal. -/
structure Host where
  state : State
  /-- The writer of the journal; without one the host keeps everything in memory. -/
  writer : Option JournalWriter := none
  /-- The hash of the journal so far. -/
  hasher : JournalHasher := {}
  snapshotPath : Option Path := none
  /-- The hash of the last snapshot that was saved. -/
  snapshotHash : Option Bytes := none
  deriving DecidableEq

namespace Host

/-- A host without a journal, of which nothing has happened yet. -/
def fresh (settings : Settings) : Host :=
  { state := State.initial settings.policy, snapshotPath := settings.snapshotPath }

/-- The entry that a command becomes if it is accepted. -/
def nextEntry (h : Host) (caller : Address) (command : Command) : Entry :=
  ⟨h.state.version + 1, caller, command⟩

/-- Enters an entry into the journal, if there is one. -/
def enter (h : Host) (entry : Entry) : StateM Disk (Host × Except JournalFault Unit) := do
  match h.writer with
  | none => return (h, .ok ())
  | some writer =>
    let (writer, result) ← writer.append entry
    return ({ h with writer := some writer }, result)

/-- Carries out a command that was entered into the journal. -/
def carryOut (h : Host) (caller : Address) (command : Command) :
    Host × Except HostFault Outcome :=
  match h.state.apply caller command with
  | .error _ => (h, .error .internal)
  | .ok (state, outcome) =>
    ({ h with
        state := state
        hasher := h.hasher.update (h.nextEntry caller command) }, .ok outcome)

/-- Runs a command for a caller. -/
def submit (h : Host) (caller : Address) (command : Command) :
    StateM Disk (Host × Except HostFault Outcome) := do
  match h.state.check caller command with
  | .error refusal => return (h, .error (.refused refusal))
  | .ok () =>
    match ← h.enter (h.nextEntry caller command) with
    | (h, .error fault) => return (h, .error (.journal fault))
    | (h, .ok ()) => return h.carryOut caller command

/-- The proof of the state and the journal of a host. -/
def proof (h : Host) : StateProof Bytes :=
  ⟨protocolVersion, h.state.version, h.hasher.finish Blake3.digest, h.state.hash Blake3.digest⟩

end Host

end Arbiter
