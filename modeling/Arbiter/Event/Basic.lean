import Arbiter.OrderedMap
import Arbiter.Refusal

/-!
# Events

An event is sent against an application and collects replies and votes, one of each from every
node.  Its phase is read off what it has collected, so the phase never disagrees with the rest.
-/

namespace Arbiter

/-- The answer of one node to an event. -/
structure Reply where
  author : Address
  /-- Its scores, in the order it gave them. -/
  scores : List Score
  submittedAt : Version
  deriving DecidableEq

/-- The points a reply gives to a target; of two lines for one target the first counts. -/
def Reply.scoreFor (r : Reply) (target : Address) : Option Int :=
  (r.scores.find? (·.target == target)).map (·.value)

/-- The place of one account in the ranking of an event. -/
structure Standing where
  address : Address
  /-- The sum of the points it was given. -/
  total : Int
  /-- How many scores it was given. -/
  contributors : Nat
  deriving DecidableEq

/-- The record of how an event was closed. -/
structure Resolution where
  solver : Address
  solvedBy : Address
  solvedAt : Version
  /-- The ranking at that time. -/
  standings : List Standing
  deriving DecidableEq

/-- An event and what it has collected. -/
structure Event where
  id : EventId
  application : ApplicationId
  /-- A description, which only its sender understands. -/
  payload : String
  sender : Address
  createdAt : Version
  replies : OrderedMap Address Reply
  /-- The candidate each voter chose. -/
  votes : OrderedMap Address Address
  /-- The first candidate that reached the quorum. -/
  electedSolver : Option Address
  /-- How the event was closed, if it is. -/
  resolution : Option Resolution
  deriving DecidableEq

/-- The phases of an event, in the order in which they are passed. -/
inductive Phase where
  /-- Nothing has been collected. -/
  | opened
  /-- There are replies but no votes. -/
  | replying
  /-- There are votes. -/
  | voting
  /-- The event is closed. -/
  | solved
  deriving DecidableEq, Repr

namespace Phase

instance : Inhabited Phase := ⟨opened⟩

/-- The word for a phase. -/
def label : Phase → String
  | .opened => "open"
  | .replying => "replying"
  | .voting => "voting"
  | .solved => "solved"

/-- The position of a phase in the order of the phases. -/
def rank : Phase → Nat
  | .opened => 0
  | .replying => 1
  | .voting => 2
  | .solved => 3

instance : LE Phase := ⟨fun p q => p.rank ≤ q.rank⟩

instance : LT Phase := ⟨fun p q => p.rank < q.rank⟩

instance (p q : Phase) : Decidable (p ≤ q) := inferInstanceAs (Decidable (p.rank ≤ q.rank))

instance (p q : Phase) : Decidable (p < q) := inferInstanceAs (Decidable (p.rank < q.rank))

/-- Whether no phase follows. -/
def isLast (p : Phase) : Bool :=
  p == solved

end Phase

namespace Event

/-- An event that has collected nothing. -/
def fresh (id : EventId) (application : ApplicationId) (payload : String) (sender : Address)
    (now : Version) : Event :=
  ⟨id, application, payload, sender, now, .empty, .empty, none, none⟩

/-- Whether the event is closed. -/
def isSolved (e : Event) : Bool :=
  e.resolution.isSome

/-- The phase of an event. -/
def phase (e : Event) : Phase :=
  if e.isSolved then .solved
  else if !e.votes.isEmpty then .voting
  else if !e.replies.isEmpty then .replying
  else .opened

/-- The replies in the order of their authors. -/
def replyList (e : Event) : List Reply :=
  e.replies.values

/-- The replies in the order in which they were accepted. -/
def repliesInOrder (e : Event) : List Reply :=
  e.replyList.mergeSort fun r s => r.submittedAt ≤ s.submittedAt

/-- Whether a node has replied. -/
def hasReplied (e : Event) (author : Address) : Bool :=
  e.replies.contains author

/-- Whether a node has voted. -/
def hasVoted (e : Event) (voter : Address) : Bool :=
  e.votes.contains voter

/-- The pairs of voter and candidate, in the order of the voters. -/
def votePairs (e : Event) : List (Address × Address) :=
  e.votes.toList

end Event

end Arbiter
