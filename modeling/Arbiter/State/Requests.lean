import Arbiter.State.Basic

/-!
# Requests

A request works on the state in place: every step of it sees what the steps before it have left,
and a failure leaves the state as it is at that moment.  `State.perform` runs a command in this way.
The requests of a caller name what is wanted; each performs the command of its kind and reads the
answer off the outcome, and an outcome that it cannot read is reported.
-/

namespace Arbiter

namespace Outcome

/-- The words for an outcome. -/
def describe : Outcome → String
  | .nodeRegistered created => s!"NodeRegistered \x7b created: {created} \x7d"
  | .applicationRegistered id => s!"ApplicationRegistered(ApplicationId({id}))"
  | .eventSent id => s!"EventSent(EventId({id}))"
  | .replyRecorded credited => s!"ReplyRecorded \x7b credited: {credited} \x7d"
  | .voteRecorded none => "VoteRecorded \x7b elected: None \x7d"
  | .voteRecorded (some solver) => s!"VoteRecorded \x7b elected: Some(Address({solver})) \x7d"
  | .eventSolved solver => s!"EventSolved \x7b solver: Address({solver}) \x7d"

/-- The number of the application that was registered. -/
def application? : Outcome → Option ApplicationId
  | .applicationRegistered id => some id
  | _ => none

/-- The number of the event that was sent. -/
def event? : Outcome → Option EventId
  | .eventSent id => some id
  | _ => none

end Outcome

namespace State

/-- Work on a state in place. -/
abbrev Work := EStateM Refusal State

/-- The refusal to read an outcome that is not of the command's kind. -/
def unexpected (command : Command) (outcome : Outcome) : Refusal :=
  .invalidState (.stated s!"{command.name} produced {outcome.describe}")

/-- The event of a number in the state at hand. -/
def lookUp (id : EventId) : Work Event := do
  MonadExcept.ofExcept ((← get).event id)

/-- Carries out a command that was checked before, one change after the other. -/
def carryOutInPlace (caller : Address) (now : Version) : Command → Work Outcome
  | .registerNode spec => do
    let created := !(← get).roster.contains caller
    modify fun s => { s with roster := s.roster.register caller spec now }
    return .nodeRegistered created
  | .registerApplication info requiredSpecs multiReplyAllowed => do
    let id := (← get).catalog.nextId
    modify fun s =>
      { s with catalog := s.catalog.register info requiredSpecs multiReplyAllowed caller now }
    return .applicationRegistered id
  | .sendEvent payload application => do
    let id := (← get).docket.nextId
    modify fun s => { s with docket := s.docket.enter application payload caller now }
    return .eventSent id
  | .sendReply id scores => do
    let _ ← lookUp id
    modify fun s => { s with docket := s.docket.modify id (·.reply caller scores now) }
    let credited := (← get).roster.credited scores
    modify fun s => { s with roster := s.roster.creditAll scores }
    return .replyRecorded credited
  | .voteSolver id candidate => do
    let registered := (← get).roster.size
    let e ← lookUp id
    modify fun s => { s with docket := s.docket.modify id (·.vote caller candidate registered) }
    return .voteRecorded (e.electedBy caller candidate registered)
  | .solveEvent id => do
    let e ← lookUp id
    let s ← get
    let solver ← MonadExcept.ofExcept (e.checkSolve s.policy s.roster caller)
    -- The event is looked up once more to be changed.
    let _ ← lookUp id
    modify fun s => { s with docket := s.docket.modify id (·.solve solver caller now) }
    return .eventSolved solver

/-- Runs a command in place; the version grows last. -/
def perform (caller : Address) (command : Command) : Work Outcome := do
  let s ← get
  MonadExcept.ofExcept (s.check caller command)
  let outcome ← carryOutInPlace caller (s.version + 1) command
  modify ({ · with version := s.version + 1 })
  return outcome

/-- Performs a command and reads the answer off its outcome. -/
def request (caller : Address) (command : Command) (answer? : Outcome → Option α) : Work α := do
  let outcome ← perform caller command
  match answer? outcome with
  | some a => return a
  | none => throw (unexpected command outcome)

def registerNode (caller : Address) (spec : String) : Work Unit :=
  request caller (.registerNode spec) fun _ => some ()

def registerApplication (caller : Address) (info : String) (requiredSpecs : List String)
    (multiReplyAllowed : Bool) : Work ApplicationId :=
  request caller (.registerApplication info requiredSpecs multiReplyAllowed) Outcome.application?

def sendEvent (caller : Address) (payload : String) (application : ApplicationId) :
    Work EventId :=
  request caller (.sendEvent payload application) Outcome.event?

def sendReply (caller : Address) (id : EventId) (scores : List Score) : Work Unit :=
  request caller (.sendReply id scores) fun _ => some ()

def voteSolver (caller : Address) (id : EventId) (candidate : Address) : Work Unit :=
  request caller (.voteSolver id candidate) fun _ => some ()

def solveEvent (caller : Address) (id : EventId) : Work Unit :=
  request caller (.solveEvent id) fun _ => some ()

end State

end Arbiter
