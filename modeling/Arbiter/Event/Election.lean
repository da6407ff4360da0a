import Arbiter.Event.Basic
import Arbiter.Roster

/-!
# The election of a solver

Every registered node has one vote for each event.  The first candidate that holds more than half
of the registered nodes' votes is elected, and it stays elected whatever follows.
-/

namespace Arbiter

/-- The votes a candidate needs when `registered` nodes may vote. -/
def quorum (registered : Nat) : Nat :=
  registered / 2 + 1

/-- One more vote for a candidate. -/
def addVote (counts : OrderedMap Address Nat) (candidate : Address) : OrderedMap Address Nat :=
  counts.insert candidate ((counts.get? candidate).getD 0 + 1)

/-- Whether one line of a tally comes no later than another: more votes first, and equally many in
address order. -/
def tallyBefore (a b : Address × Nat) : Bool :=
  b.2 < a.2 || (b.2 == a.2 && (compare a.1 b.1).isLE)

namespace Event

/-- The votes for a candidate. -/
def votesFor (e : Event) (candidate : Address) : Nat :=
  e.votePairs.countP (·.2 == candidate)

/-- The candidates with their votes, those with most votes first. -/
def tally (e : Event) : List (Address × Nat) :=
  let counts := (e.votePairs.map (·.2)).foldl addVote .empty
  counts.toList.mergeSort tallyBefore

/-- Why a vote is not accepted, if it is not. -/
def checkVote (e : Event) (policy : Policy) (roster : Roster) (voter : Address) :
    Except Refusal Unit := do
  if e.isSolved then throw (.invalidState (.alreadySolved e.id))
  unless roster.contains voter do throw (.notFound (.node voter))
  if e.hasVoted voter then throw (.alreadyDone .voted)
  if e.replies.size < policy.minReplies then
    throw (.invalidState (.tooFewReplies e.id e.replies.size policy.minReplies))

/-- The candidate that a vote elects, if it elects one: there is no elected solver yet, and with
this vote the candidate reaches the quorum. -/
def electedBy (e : Event) (voter candidate : Address) (registered : Nat) : Option Address :=
  let after := { e with votes := e.votes.insert voter candidate }
  if e.electedSolver.isNone && quorum registered ≤ after.votesFor candidate then some candidate
  else none

/-- The event after a vote. -/
def vote (e : Event) (voter candidate : Address) (registered : Nat) : Event :=
  { e with
    votes := e.votes.insert voter candidate
    electedSolver := e.electedSolver <|> e.electedBy voter candidate registered }

end Event

end Arbiter
