import Arbiter.Corruption
import Arbiter.State.Basic

/-!
# Journals

A journal holds the accepted commands of a controller, each with its caller and the version it
produced.  A refused command leaves no entry.
-/

namespace Arbiter

/-- An accepted command. -/
structure Entry where
  /-- The version of the state after the command. -/
  sequence : Nat
  /-- The account it was run for. -/
  caller : Address
  command : Command
  deriving DecidableEq

/-- A journal in memory. -/
structure Journal where
  /-- The entries from the oldest to the newest. -/
  entries : List Entry := []
  deriving DecidableEq

namespace Journal

/-- The sequence of the newest entry, or 0. -/
def lastSequence (j : Journal) : Nat :=
  (j.entries.getLast?.map (·.sequence)).getD 0

/-- Runs a command and enters it when it is accepted. -/
def submit (j : Journal) (s : State) (caller : Address) (command : Command) :
    Except Refusal (Journal × State × Outcome) := do
  let (s', outcome) ← s.apply caller command
  return ({ entries := j.entries ++ [⟨s'.version, caller, command⟩] }, s', outcome)

/-- Enters an entry that follows the newest one. -/
def push (j : Journal) (entry : Entry) : Except Corruption Journal :=
  if entry.sequence = j.lastSequence + 1 then .ok { entries := j.entries ++ [entry] }
  else .error (.outOfSequence entry.sequence j.lastSequence)

end Journal

end Arbiter
