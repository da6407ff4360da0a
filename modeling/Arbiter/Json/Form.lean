import Arbiter.Journal.Basic
import Arbiter.Json.Basic
import Arbiter.StateProof
import Arbiter.Text.Numeral

/-!
# The JSON form of states and commands

Records are objects, or arrays of their fields in order; numbers of applications and events are
integers; addresses are texts.  A variant that holds something is an object with one field, and
one that holds nothing is its name; the arguments of a command are an object in any case.  Fields
that a record does not have are ignored.
-/

namespace Arbiter

namespace Json

/-- The values of the named fields of an object, where a field may be missing. -/
def named? (names : List String) (j : Json) : Option (List (Option Json)) :=
  match j with
  | .object _ => some (names.map (j.field? ·))
  | _ => none

/-- The values of the named fields of a record, where a field of an object may be missing. -/
def fields? (names : List String) (j : Json) : Option (List (Option Json)) :=
  match j with
  | .array items => if items.length = names.length then some (items.map some) else none
  | _ => j.named? names

/-- The name of a variant and what it holds. -/
def variant? : Json → Option (String × Option Json)
  | .string name => some (name, none)
  | .object [(name, value)] => some (name, some value)
  | _ => none

/-- A natural number of sixty-four bits. -/
def nat? : Json → Option Nat
  | .integer n => if 0 ≤ n ∧ n < 18446744073709551616 then some n.toNat else none
  | _ => none

/-- An amount of points. -/
def points? : Json → Option Int
  | .integer n => if leastPoints ≤ n ∧ n ≤ mostPoints then some n else none
  | _ => none

/-- A truth value. -/
def bool? : Json → Option Bool
  | .bool b => some b
  | _ => none

/-- A text. -/
def string? : Json → Option String
  | .string s => some s
  | _ => none

/-- A list of values of one kind. -/
def list? (f : Json → Option α) : Json → Option (List α)
  | .array items => items.mapM f
  | _ => none

/-- A value that may be missing. -/
def optional? (f : Json → Option α) : Option Json → Option (Option α)
  | none => some none
  | some .null => some none
  | some j => some <$> f j

/-- A map from texts, read as keys, to values. -/
def map? {κ α : Type} [Ord κ] [Std.TransOrd κ] [Std.LawfulEqOrd κ] (key : String → Option κ)
    (f : Json → Option α) : Json → Option (OrderedMap κ α)
  | .object fields => do
    let bindings ← fields.mapM fun (name, value) => do return (← key name, ← f value)
    return .ofList bindings
  | _ => none

/-- A number that is written without a needless zero. -/
def numericKey? (name : String) : Option Nat :=
  match name.toList with
  | ['0'] => some 0
  | '0' :: _ => none
  | '+' :: _ => none
  | text =>
    match Text.natural Text.most64 text with
    | .ok n => some n
    | .error _ => none

/-- A map as an object. -/
def ofMap [Ord κ] (key : κ → String) (f : α → Json) (m : OrderedMap κ α) : Json :=
  .object (m.toList.map fun (k, a) => (key k, f a))

end Json

namespace Address

/-- The JSON form of an address. -/
def toJson (a : Address) : Json :=
  .string a.hex

/-- Reads an address from a text. -/
def ofText? (text : String) : Option Address :=
  match parse text.toList with
  | .ok a => some a
  | .error _ => none

/-- Reads the JSON form of an address. -/
def ofJson? (j : Json) : Option Address := do
  ofText? (← j.string?)

end Address

namespace SolveAuthority

/-- The name of an authority in JSON. -/
def name : SolveAuthority → String
  | .anyone => "AnyAccount"
  | .registered => "RegisteredNode"
  | .elected => "ElectedSolver"

/-- The JSON form of an authority. -/
def toJson (a : SolveAuthority) : Json :=
  .string a.name

/-- Reads the JSON form of an authority. -/
def ofJson? (j : Json) : Option SolveAuthority :=
  match j.variant? with
  | some (name, none) | some (name, some .null) =>
    [anyone, registered, elected].find? (·.name == name)
  | _ => none

end SolveAuthority

namespace Phase

/-- The name of a phase in JSON. -/
def name : Phase → String
  | .opened => "Open"
  | .replying => "Replying"
  | .voting => "Voting"
  | .solved => "Solved"

/-- The JSON form of a phase. -/
def toJson (p : Phase) : Json :=
  .string p.name

/-- Reads the JSON form of a phase. -/
def ofJson? (j : Json) : Option Phase :=
  match j.variant? with
  | some (name, none) | some (name, some .null) =>
    [opened, replying, voting, solved].find? (·.name == name)
  | _ => none

end Phase

namespace Entity

/-- The JSON form of an entity. -/
def toJson : Entity → Json
  | .node address => .object [("Node", address.toJson)]
  | .application id => .object [("Application", .nat id)]
  | .event id => .object [("Event", .nat id)]

/-- Reads the JSON form of an entity. -/
def ofJson? (j : Json) : Option Entity :=
  match j.variant? with
  | some ("Node", some value) => .node <$> Address.ofJson? value
  | some ("Application", some value) => .application <$> value.nat?
  | some ("Event", some value) => .event <$> value.nat?
  | _ => none

end Entity

namespace Action

/-- The name of an action in JSON. -/
def name : Action → String
  | .replied => "Replied"
  | .voted => "Voted"

/-- The JSON form of an action. -/
def toJson (a : Action) : Json :=
  .string a.name

/-- Reads the JSON form of an action. -/
def ofJson? (j : Json) : Option Action :=
  match j.variant? with
  | some (name, none) | some (name, some .null) => [replied, voted].find? (·.name == name)
  | _ => none

end Action

namespace Score

/-- The JSON form of a score. -/
def toJson (s : Score) : Json :=
  .object [("target", s.target.toJson), ("value", .integer s.value)]

/-- Reads the JSON form of a score. -/
def ofJson? (j : Json) : Option Score :=
  match j.fields? ["target", "value"] with
  | some [some target, some value] => do
    return ⟨← Address.ofJson? target, ← value.points?⟩
  | _ => none

end Score

namespace Command

/-- The JSON form of a command. -/
def toJson : Command → Json
  | .registerNode spec => .object [("RegisterNode", .object [("spec", .string spec)])]
  | .registerApplication info specs multi =>
    .object [("RegisterApplication", .object [("info", .string info),
      ("required_specs", .list .string specs), ("multi_reply_allowed", .bool multi)])]
  | .sendEvent payload application =>
    .object [("SendEvent", .object [("payload", .string payload),
      ("application_id", .nat application)])]
  | .sendReply event scores =>
    .object [("SendReply", .object [("event_id", .nat event),
      ("scores", .list Score.toJson scores)])]
  | .voteSolver event candidate =>
    .object [("VoteSolver", .object [("event_id", .nat event),
      ("candidate", candidate.toJson)])]
  | .solveEvent event => .object [("SolveEvent", .object [("event_id", .nat event)])]

/-- Reads the arguments of a command of a given name. -/
def ofFields? (name : String) (value : Json) : Option Command :=
  match name with
  | "RegisterNode" =>
    match value.named? ["spec"] with
    | some [some spec] => .registerNode <$> spec.string?
    | _ => none
  | "RegisterApplication" =>
    match value.named? ["info", "required_specs", "multi_reply_allowed"] with
    | some [some info, some specs, some multi] => do
      return .registerApplication (← info.string?) (← specs.list? Json.string?) (← multi.bool?)
    | _ => none
  | "SendEvent" =>
    match value.named? ["payload", "application_id"] with
    | some [some payload, some application] => do
      return .sendEvent (← payload.string?) (← application.nat?)
    | _ => none
  | "SendReply" =>
    match value.named? ["event_id", "scores"] with
    | some [some event, some scores] => do
      return .sendReply (← event.nat?) (← scores.list? Score.ofJson?)
    | _ => none
  | "VoteSolver" =>
    match value.named? ["event_id", "candidate"] with
    | some [some event, some candidate] => do
      return .voteSolver (← event.nat?) (← Address.ofJson? candidate)
    | _ => none
  | "SolveEvent" =>
    match value.named? ["event_id"] with
    | some [some event] => .solveEvent <$> event.nat?
    | _ => none
  | _ => none

/-- Reads the JSON form of a command. -/
def ofJson? (j : Json) : Option Command :=
  match j.variant? with
  | some (name, some value) => ofFields? name value
  | _ => none

end Command

/-- The JSON form of an outcome. -/
def Outcome.toJson : Outcome → Json
  | .nodeRegistered created => .object [("NodeRegistered", .object [("created", .bool created)])]
  | .applicationRegistered id => .object [("ApplicationRegistered", .nat id)]
  | .eventSent id => .object [("EventSent", .nat id)]
  | .replyRecorded credited => .object [("ReplyRecorded", .object [("credited", .nat credited)])]
  | .voteRecorded elected =>
    .object [("VoteRecorded", .object [("elected", .optional Address.toJson elected)])]
  | .eventSolved solver => .object [("EventSolved", .object [("solver", solver.toJson)])]

namespace Entry

/-- The JSON form of an entry. -/
def toJson (e : Entry) : Json :=
  .object [("sequence", .nat e.sequence), ("caller", e.caller.toJson),
    ("command", e.command.toJson)]

/-- Reads the JSON form of an entry. -/
def ofJson? (j : Json) : Option Entry :=
  match j.fields? ["sequence", "caller", "command"] with
  | some [some sequence, some caller, some command] => do
    return ⟨← sequence.nat?, ← Address.ofJson? caller, ← Command.ofJson? command⟩
  | _ => none

end Entry

namespace Policy

/-- The names of the fields of a policy in JSON. -/
def fieldNames : List String :=
  ["solve_authority", "min_replies_before_vote", "max_tag_len", "max_payload_len"]

/-- The JSON form of a policy. -/
def toJson (p : Policy) : Json :=
  .object (fieldNames.zip [p.solveAuthority.toJson, .nat p.minReplies, .nat p.maxTagLength,
    .nat p.maxPayloadLength])

/-- Reads the JSON form of a policy. -/
def ofJson? (j : Json) : Option Policy :=
  match j.fields? fieldNames with
  | some [some authority, some replies, some tag, some payload] => do
    return ⟨← SolveAuthority.ofJson? authority, ← replies.nat?, ← tag.nat?, ← payload.nat?⟩
  | _ => none

end Policy

namespace Node

/-- The JSON form of a node. -/
def toJson (n : Node) : Json :=
  .object [("address", n.address.toJson), ("spec", .string n.spec),
    ("reputation_score", .integer n.reputation), ("registered_at", .nat n.registeredAt)]

/-- Reads the JSON form of a node. -/
def ofJson? (j : Json) : Option Node :=
  match j.fields? ["address", "spec", "reputation_score", "registered_at"] with
  | some [some address, some spec, some reputation, some registered] => do
    return ⟨← Address.ofJson? address, ← spec.string?, ← reputation.points?, ← registered.nat?⟩
  | _ => none

end Node

namespace Application

/-- The JSON form of an application. -/
def toJson (a : Application) : Json :=
  .object [("id", .nat a.id), ("info", .string a.info),
    ("required_specs", .list .string a.requiredSpecs),
    ("multi_reply_allowed", .bool a.multiReplyAllowed), ("owner", a.owner.toJson),
    ("created_at", .nat a.createdAt)]

/-- Reads the JSON form of an application. -/
def ofJson? (j : Json) : Option Application :=
  match j.fields? ["id", "info", "required_specs", "multi_reply_allowed", "owner",
    "created_at"] with
  | some [some id, some info, some specs, some multi, some owner, some created] => do
    return ⟨← id.nat?, ← info.string?, ← specs.list? Json.string?, ← multi.bool?,
      ← Address.ofJson? owner, ← created.nat?⟩
  | _ => none

end Application

namespace Reply

/-- The JSON form of a reply. -/
def toJson (r : Reply) : Json :=
  .object [("author", r.author.toJson), ("scores", .list Score.toJson r.scores),
    ("submitted_at", .nat r.submittedAt)]

/-- Reads the JSON form of a reply. -/
def ofJson? (j : Json) : Option Reply :=
  match j.fields? ["author", "scores", "submitted_at"] with
  | some [some author, some scores, some submitted] => do
    return ⟨← Address.ofJson? author, ← scores.list? Score.ofJson?, ← submitted.nat?⟩
  | _ => none

end Reply

namespace Standing

/-- The JSON form of a standing. -/
def toJson (s : Standing) : Json :=
  .object [("address", s.address.toJson), ("total", .integer s.total),
    ("contributors", .nat s.contributors)]

/-- Reads the JSON form of a standing. -/
def ofJson? (j : Json) : Option Standing :=
  match j.fields? ["address", "total", "contributors"] with
  | some [some address, some total, some contributors] => do
    return ⟨← Address.ofJson? address, ← total.points?, ← contributors.nat?⟩
  | _ => none

end Standing

namespace Resolution

/-- The JSON form of a resolution. -/
def toJson (r : Resolution) : Json :=
  .object [("solver", r.solver.toJson), ("solved_by", r.solvedBy.toJson),
    ("solved_at", .nat r.solvedAt), ("standings", .list Standing.toJson r.standings)]

/-- Reads the JSON form of a resolution. -/
def ofJson? (j : Json) : Option Resolution :=
  match j.fields? ["solver", "solved_by", "solved_at", "standings"] with
  | some [some solver, some solvedBy, some solvedAt, some standings] => do
    return ⟨← Address.ofJson? solver, ← Address.ofJson? solvedBy, ← solvedAt.nat?,
      ← standings.list? Standing.ofJson?⟩
  | _ => none

end Resolution

namespace Event

/-- The JSON form of an event as it is stored. -/
def toJson (e : Event) : Json :=
  .object [("id", .nat e.id), ("application_id", .nat e.application),
    ("payload", .string e.payload), ("sender", e.sender.toJson),
    ("created_at", .nat e.createdAt), ("replies", .ofMap Address.hex Reply.toJson e.replies),
    ("votes", .ofMap Address.hex Address.toJson e.votes),
    ("elected_solver", .optional Address.toJson e.electedSolver),
    ("resolution", .optional Resolution.toJson e.resolution)]

/-- Reads the JSON form of an event. -/
def ofJson? (j : Json) : Option Event :=
  match j.fields? ["id", "application_id", "payload", "sender", "created_at", "replies", "votes",
    "elected_solver", "resolution"] with
  | some [some id, some application, some payload, some sender, some created, some replies,
      some votes, elected, resolution] => do
    return ⟨← id.nat?, ← application.nat?, ← payload.string?, ← Address.ofJson? sender,
      ← created.nat?, ← replies.map? Address.ofText? Reply.ofJson?,
      ← votes.map? Address.ofText? Address.ofJson?, ← Json.optional? Address.ofJson? elected,
      ← Json.optional? Resolution.ofJson? resolution⟩
  | _ => none

end Event

namespace State

/-- The JSON form of a state. -/
def toJson (s : State) : Json :=
  .object [("version", .nat s.version), ("config", s.policy.toJson),
    ("nodes", .object [("nodes", .ofMap Address.hex Node.toJson s.roster.nodes)]),
    ("applications", .object [
      ("applications", .ofMap toString Application.toJson s.catalog.applications),
      ("last_id", .nat s.catalog.lastId)]),
    ("events", .object [("events", .ofMap toString Event.toJson s.docket.events),
      ("last_id", .nat s.docket.lastId)])]

/-- Reads the JSON form of a roster. -/
def rosterOfJson? (j : Json) : Option Roster :=
  match j.fields? ["nodes"] with
  | some [some nodes] => Roster.mk <$> nodes.map? Address.ofText? Node.ofJson?
  | _ => none

/-- Reads the JSON form of a catalog. -/
def catalogOfJson? (j : Json) : Option Catalog :=
  match j.fields? ["applications", "last_id"] with
  | some [some applications, some last] => do
    return ⟨← applications.map? Json.numericKey? Application.ofJson?, ← last.nat?⟩
  | _ => none

/-- Reads the JSON form of a docket. -/
def docketOfJson? (j : Json) : Option Docket :=
  match j.fields? ["events", "last_id"] with
  | some [some events, some last] => do
    return ⟨← events.map? Json.numericKey? Event.ofJson?, ← last.nat?⟩
  | _ => none

/-- Reads the JSON form of a state. -/
def ofJson? (j : Json) : Option State :=
  match j.fields? ["version", "config", "nodes", "applications", "events"] with
  | some [some version, some policy, some roster, some catalog, some docket] => do
    return ⟨← version.nat?, ← Policy.ofJson? policy, ← rosterOfJson? roster,
      ← catalogOfJson? catalog, ← docketOfJson? docket⟩
  | _ => none

end State

/-- The JSON form of a proof. -/
def StateProof.toJson (p : StateProof Bytes) : Json :=
  .object [("protocol_version", .nat p.protocolVersion), ("version", .nat p.version),
    ("journal_hash", .string (Text.Hex.text p.journalHash)),
    ("state_hash", .string (Text.Hex.text p.stateHash))]

end Arbiter
