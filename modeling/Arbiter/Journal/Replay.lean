import Arbiter.Journal.Basic

/-!
# Replaying a journal

Entries that a state already covers are skipped.  The others have to continue it without a gap,
and none of them may be refused.  When a replay stops early, the entries before the fault stay
applied: a `Replay` holds the state that was reached along with how the replay ended.
-/

namespace Arbiter

/-- How far a replay came. -/
structure Replay where
  state : State
  /-- How many entries were applied, or what stopped the replay. -/
  ending : Except Corruption Nat

namespace State

/-- Applies one entry to a state it follows. -/
def follow (s : State) (entry : Entry) : Except Corruption State :=
  if entry.sequence ≠ s.version + 1 then .error (.journalJump s.version entry.sequence)
  else
    match s.apply entry.caller entry.command with
    | .error refusal => .error (.noLongerApplies entry.sequence entry.command refusal)
    | .ok (s', _) => .ok s'

/-- Applies a list of entries, `applied` of which count as applied already. -/
def replayFrom (s : State) (applied : Nat) : List Entry → Replay
  | [] => ⟨s, .ok applied⟩
  | entry :: rest =>
    if entry.sequence ≤ s.version then s.replayFrom applied rest
    else
      match s.follow entry with
      | .error corruption => ⟨s, .error corruption⟩
      | .ok s' => s'.replayFrom (applied + 1) rest

/-- Applies a list of entries. -/
def replay (s : State) (entries : List Entry) : Replay :=
  s.replayFrom 0 entries

end State

namespace Replay

/-- The state that was reached, if nothing stopped the replay. -/
def finished (r : Replay) : Except Corruption State :=
  r.ending.map fun _ => r.state

end Replay

/-- The state that a whole journal leads to from the beginning. -/
def rebuild (policy : Policy) (entries : List Entry) : Except Corruption State :=
  ((State.initial policy).replay entries).finished

end Arbiter
