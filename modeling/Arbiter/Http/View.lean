import Arbiter.Host.Basic
import Arbiter.Http.Message
import Arbiter.Json.Form

/-!
# Views

What a service shows of a host, as JSON.
-/

namespace Arbiter.Http.View

/-- A fault and its words. -/
def fault (f : HostFault) : Response :=
  ⟨f.status, .json (.object [("error", .string f.message)])⟩

/-- A vote. -/
def vote (pair : Address × Address) : Json :=
  .object [("voter", pair.1.toJson), ("candidate", pair.2.toJson)]

/-- A line of a tally. -/
def tallyLine (line : Address × Nat) : Json :=
  .object [("candidate", line.1.toJson), ("votes", .nat line.2)]

/-- An event with everything it has collected. -/
def event (e : Event) : Json :=
  .object [("id", .nat e.id), ("application_id", .nat e.application),
    ("payload", .string e.payload), ("sender", e.sender.toJson),
    ("created_at", .nat e.createdAt), ("state", e.phase.toJson),
    ("replies", .list Reply.toJson e.repliesInOrder), ("votes", .list vote e.votePairs),
    ("tally", .list tallyLine e.tally),
    ("elected_solver", .optional Address.toJson e.electedSolver),
    ("resolution", .optional Resolution.toJson e.resolution)]

/-- The ranking of an event that was asked for by a number. -/
def ranking (id : EventId) (e : Event) : Json :=
  .object [("event_id", .nat id), ("standings", .list Standing.toJson e.ranking)]

/-- A hash. -/
def hash (bytes : Bytes) : Json :=
  .string (Text.Hex.text bytes)

/-- The proof of a host, with the hash of the last snapshot. -/
def proof (h : Host) : Json :=
  let p := h.proof
  .object [("protocol_version", .nat p.protocolVersion), ("version", .nat p.version),
    ("journal_hash", hash p.journalHash), ("state_hash", hash p.stateHash),
    ("snapshot_hash", .optional hash h.snapshotHash)]

/-- The place and the version of a snapshot that was saved. -/
def saved (path : Path) (version : Version) : Json :=
  .object [("success", .bool true), ("path", .string path.text), ("version", .nat version)]

/-- The solver and the votes of an event, which was named by a number, after a vote. -/
def voted (id : EventId) (e : Event) (roster : Roster) : Json :=
  .object [("event_id", .nat id),
    ("elected_solver", .optional Address.toJson e.electedSolver),
    ("votes", .nat e.votes.size), ("quorum", .nat (quorum roster.size))]

/-- What a caller is told about a command that was carried out. -/
def outcome (state : State) (caller : Address) : Command → Outcome → Except HostFault Json
  | .registerNode _, .nodeRegistered created =>
    .ok (.object [("address", caller.toJson), ("created", .bool created)])
  | .registerApplication .., .applicationRegistered id => .ok (.object [("id", .nat id)])
  | .sendEvent .., .eventSent id => .ok (.object [("id", .nat id)])
  | .sendReply event _, .replyRecorded credited =>
    .ok (.object [("event_id", .nat event), ("credited", .nat credited)])
  | .voteSolver event _, _ =>
    match state.event event with
    | .error refusal => .error (.refused refusal)
    | .ok e => .ok (voted event e state.roster)
  | .solveEvent event, .eventSolved solver =>
    .ok (.object [("event_id", .nat event), ("solver", solver.toJson)])
  | _, _ => .error .internal

end Arbiter.Http.View
