import Arbiter.Event.Election
import Arbiter.Event.Ranking

/-!
# Closing an event

An event with an elected solver is closed by an account that the policy admits.  The ranking of
that moment is kept in the record.
-/

namespace Arbiter.Event

/-- Whether the policy lets an account close an event whose elected solver is given. -/
def admits (authority : SolveAuthority) (roster : Roster) (caller solver : Address) : Bool :=
  match authority with
  | .anyone => true
  | .registered => roster.contains caller
  | .elected => caller == solver

/-- The votes of the candidate with most votes. -/
def bestCount (e : Event) : Nat :=
  (e.tally.head?.map (·.2)).getD 0

/-- The solver that closing the event would record, or why it cannot be closed. -/
def checkSolve (e : Event) (policy : Policy) (roster : Roster) (caller : Address) :
    Except Refusal Address :=
  if e.isSolved then .error (.invalidState (.alreadySolved e.id))
  else
    match e.electedSolver with
    | none => .error (.invalidState (.noElectedSolver e.id e.bestCount (quorum roster.size)))
    | some solver =>
      if admits policy.solveAuthority roster caller solver then .ok solver
      else .error (.invalidState (.mayNotSolve caller e.id policy.solveAuthority))

/-- The event after it was closed; an event that is closed already stays as it is. -/
def solve (e : Event) (solver caller : Address) (now : Version) : Event :=
  { e with resolution := e.resolution <|> some ⟨solver, caller, now, e.ranking⟩ }

end Arbiter.Event
