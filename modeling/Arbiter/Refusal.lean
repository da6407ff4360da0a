import Arbiter.Policy
import Arbiter.Score

/-!
# Refusals

A command is carried out or refused as a whole.  A refusal names its cause; the words for it are
written in `Refusal.message` and nowhere else.
-/

namespace Arbiter

/-- The number of an application; the first one is 1. -/
abbrev ApplicationId := Nat

/-- The number of an event; the first one is 1. -/
abbrev EventId := Nat

/-- The logical time of a controller: the number of commands it has carried out. -/
abbrev Version := Nat

/-- The text of a version. -/
def Version.label (version : Version) : String :=
  s!"v{version}"

/-- What a command refers to without it being there. -/
inductive Entity where
  | node (address : Address)
  | application (id : ApplicationId)
  | event (id : EventId)
  deriving DecidableEq

/-- The words for an entity. -/
def Entity.describe : Entity → String
  | .node address => s!"node {address}"
  | .application id => s!"application #{id}"
  | .event id => s!"event #{id}"

/-- What a node may do only once for an event. -/
inductive Action where
  | replied
  | voted
  deriving DecidableEq, Repr

/-- The word for an action. -/
def Action.describe : Action → String
  | .replied => "replied"
  | .voted => "voted"

/-- Why the state of an event does not allow a command. -/
inductive StateConflict where
  /-- The event is closed. -/
  | alreadySolved (event : EventId)
  /-- The event has too few replies for votes to be accepted. -/
  | tooFewReplies (event : EventId) (replies required : Nat)
  /-- No candidate has reached the quorum; the best one has `best` votes. -/
  | noElectedSolver (event : EventId) (best quorum : Nat)
  /-- The caller may not close the event. -/
  | mayNotSolve (caller : Address) (event : EventId) (authority : SolveAuthority)
  /-- Any other reason, in words. -/
  | stated (reason : String)
  deriving DecidableEq

/-- The words for a state conflict. -/
def StateConflict.message : StateConflict → String
  | .alreadySolved event => s!"event #{event} is already solved"
  | .tooFewReplies event replies required =>
    s!"event #{event} has {replies} replies, {required} required before voting"
  | .noElectedSolver event best quorum =>
    s!"event #{event} has no elected solver ({best} of {quorum} votes)"
  | .mayNotSolve caller event authority =>
    s!"{caller} may not solve event #{event} (authority: {authority.label})"
  | .stated reason => reason

/-- The texts of a command whose length is limited. -/
inductive LimitedText where
  | spec
  | info
  | requiredSpec
  | payload
  deriving DecidableEq, Repr

/-- The name of a limited text. -/
def LimitedText.describe : LimitedText → String
  | .spec => "spec"
  | .info => "info"
  | .requiredSpec => "required spec"
  | .payload => "payload"

/-- What is wrong with the arguments of a command. -/
inductive InputFault where
  /-- A node needs a spec. -/
  | emptySpec
  /-- A text is longer than the policy allows. -/
  | tooLong (text : LimitedText) (length limit : Nat)
  /-- An application requires too many specs. -/
  | tooManySpecs (count : Nat)
  /-- A reply has more scores than there are peers. -/
  | tooManyScores (count peers : Nat)
  /-- The author of a reply scores itself. -/
  | selfScore
  /-- A reply scores one target twice. -/
  | repeatedTarget (target : Address)
  /-- A reply disagrees with an earlier one where replies have to agree. -/
  | conflictingScore (value : Int) (target : Address) (earlier : Int) (author : Address)
  /-- A text is not an address. -/
  | address (fault : AddressFault)
  /-- Any other reason, in words. -/
  | stated (reason : String)
  deriving DecidableEq

/-- The words for an input fault. -/
def InputFault.message : InputFault → String
  | .emptySpec => "spec must not be empty"
  | .tooLong text length limit => s!"{text.describe} is {length} bytes, limit is {limit}"
  | .tooManySpecs count => s!"at most {mostRequiredSpecs} required specs allowed, got {count}"
  | .tooManyScores count peers =>
    s!"reply has {count} scores but only {peers} peers are registered"
  | .selfScore => "a node cannot score itself"
  | .repeatedTarget target => s!"target {target} scored more than once"
  | .conflictingScore value target earlier author =>
    s!"score {value} for {target} conflicts with {earlier} from {author}"
  | .address fault => fault.message
  | .stated reason => reason

/-- Why a command is refused. -/
inductive Refusal where
  /-- Something the command refers to is not there. -/
  | notFound (entity : Entity)
  /-- The caller has done this before. -/
  | alreadyDone (action : Action)
  /-- The event is not in a state that allows the command. -/
  | invalidState (conflict : StateConflict)
  /-- The arguments are not acceptable. -/
  | invalidInput (fault : InputFault)
  deriving DecidableEq

/-- The words for a refusal. -/
def Refusal.message : Refusal → String
  | .notFound entity => s!"{entity.describe} not found"
  | .alreadyDone action => s!"already {action.describe}"
  | .invalidState conflict => s!"invalid state: {conflict.message}"
  | .invalidInput fault => s!"invalid input: {fault.message}"

end Arbiter
