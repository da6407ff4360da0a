import Arbiter.Catalog
import Arbiter.Command
import Arbiter.Event.Docket
import Arbiter.Event.Replying
import Arbiter.Event.Solving
import Arbiter.Roster

/-!
# The state of a controller

The state holds everything a controller knows.  `State.check` says whether a command would be
carried out, and `State.apply` carries it out: either every effect lands and the version grows by
one, or the state stays as it is and the refusal of `State.check` is given.
-/

namespace Arbiter

/-- The state of a controller. -/
structure State where
  /-- The number of commands carried out. -/
  version : Version := 0
  policy : Policy := {}
  roster : Roster := {}
  catalog : Catalog := {}
  docket : Docket := {}
  deriving DecidableEq

namespace State

/-- The state in which nothing has happened yet. -/
def initial (policy : Policy) : State :=
  { policy := policy }

instance : Inhabited State := ⟨initial {}⟩

/-- The event of a number, or the refusal to speak of one that is not there. -/
def event (s : State) (id : EventId) : Except Refusal Event :=
  match s.docket.get? id with
  | none => .error (.notFound (.event id))
  | some e => .ok e

/-- Refuses a text that is too long. -/
def checkLength (name : LimitedText) (text : String) (limit : Nat) : Except Refusal Unit :=
  if limit < text.utf8ByteSize then
    .error (.invalidInput (.tooLong name text.utf8ByteSize limit))
  else .ok ()

/-- Why a command would be refused, if it would be. -/
def check (s : State) (caller : Address) : Command → Except Refusal Unit
  | .registerNode spec => do
    if spec.isEmpty then throw (.invalidInput .emptySpec)
    checkLength .spec spec s.policy.maxTagLength
  | .registerApplication info requiredSpecs _ => do
    checkLength .info info s.policy.maxTagLength
    if mostRequiredSpecs < requiredSpecs.length then
      throw (.invalidInput (.tooManySpecs requiredSpecs.length))
    requiredSpecs.forM (checkLength .requiredSpec · s.policy.maxTagLength)
  | .sendEvent payload application => do
    unless s.catalog.contains application do throw (.notFound (.application application))
    checkLength .payload payload s.policy.maxPayloadLength
  | .sendReply id scores => do
    let e ← s.event id
    match s.catalog.get? e.application with
    | none => throw (.notFound (.application e.application))
    | some application => e.checkReply application s.roster caller scores
  | .voteSolver id _ => do
    let e ← s.event id
    e.checkVote s.policy s.roster caller
  | .solveEvent id => do
    let e ← s.event id
    let _ ← e.checkSolve s.policy s.roster caller

/-- Carries out a command that was checked before. -/
def carryOut (s : State) (caller : Address) : Command → Except Refusal (State × Outcome)
  | .registerNode spec =>
    .ok ({ s with
        version := s.version + 1
        roster := s.roster.register caller spec (s.version + 1) },
      .nodeRegistered (!s.roster.contains caller))
  | .registerApplication info requiredSpecs multiReplyAllowed =>
    .ok ({ s with
        version := s.version + 1
        catalog :=
          s.catalog.register info requiredSpecs multiReplyAllowed caller (s.version + 1) },
      .applicationRegistered s.catalog.nextId)
  | .sendEvent payload application =>
    .ok ({ s with
        version := s.version + 1
        docket := s.docket.enter application payload caller (s.version + 1) },
      .eventSent s.docket.nextId)
  | .sendReply id scores => do
    let _ ← s.event id
    return ({ s with
        version := s.version + 1
        roster := s.roster.creditAll scores
        docket := s.docket.modify id (·.reply caller scores (s.version + 1)) },
      .replyRecorded (s.roster.credited scores))
  | .voteSolver id candidate => do
    let e ← s.event id
    return ({ s with
        version := s.version + 1
        docket := s.docket.modify id (·.vote caller candidate s.roster.size) },
      .voteRecorded (e.electedBy caller candidate s.roster.size))
  | .solveEvent id => do
    let e ← s.event id
    let solver ← e.checkSolve s.policy s.roster caller
    return ({ s with
        version := s.version + 1
        docket := s.docket.modify id (·.solve solver caller (s.version + 1)) },
      .eventSolved solver)

/-- Runs a command for a caller: checks it and carries it out. -/
def apply (s : State) (caller : Address) (command : Command) :
    Except Refusal (State × Outcome) := do
  s.check caller command
  s.carryOut caller command

/-- Whether closing an event would be carried out for an account. -/
def canSolve (s : State) (id : EventId) (caller : Address) : Bool :=
  (s.check caller (.solveEvent id)).isOk

end State

end Arbiter
