import Arbiter.Host.Saving
import Arbiter.Http.Body
import Arbiter.Http.Route
import Arbiter.Http.View

/-!
# The service

A service answers requests on behalf of a host.  A request is turned down at the first thing that
is wrong with it: the token, the path, the method, the caller, the varying part of the path, the
body, and then whatever the host reports.  Only a request that asks for something to be done
changes the host, and only by one command.
-/

namespace Arbiter.Http

/-- The caller of a request. -/
def callerOf (r : Request) : Except Rejection Address :=
  match r.header? callerHeader with
  | none => .error (.fault (.request .missingCaller))
  | some text =>
    if !Request.isPlain text then .error (.fault (.request .callerNotAscii))
    else
      match Address.parse text.toList with
      | .error fault => .error (.fault (.request (.callerAddress fault)))
      | .ok caller => .ok caller

/-- The text of a slot. -/
def textOf (slot : Slot) : Except Rejection String :=
  match Percent.decode? slot with
  | none => .error (.bare 400)
  | some text => .ok text

/-- The number in a slot. -/
def numberOf (slot : Slot) : Except Rejection Nat := do
  match Text.natural Text.most64 (← textOf slot).toList with
  | .error _ => throw (.bare 400)
  | .ok n => return n

/-- Whether a request shows the token that is asked for, if one is. -/
def admits (token : Option String) (r : Request) : Bool :=
  match token with
  | none => true
  | some token => r.plainHeader? "authorization" == some ("Bearer " ++ token)

/-- The response to a request that is turned down. -/
def Rejection.response : Rejection → Response
  | .bare status => .bare status
  | .fault f => View.fault f

/-- What is not there. -/
def missing (entity : Entity) : Rejection :=
  .fault (.refused (.notFound entity))

/-! ### Looking -/

/-- The text of the measurements, of which none are taken. -/
def metricsText : String := "# metrics not initialized"

/-- The event of a slot. -/
def eventOf (h : Host) (slot : Slot) : Except Rejection Event := do
  let id ← numberOf slot
  match h.state.docket.get? id with
  | none => throw (missing (.event id))
  | some e => return e

/-- What a query shows of a host. -/
def Query.look (h : Host) : Query → Except Rejection Content
  | .node slot => do
    match Address.parse (← textOf slot).toList with
    | .error f => throw (.fault (.request (.address f)))
    | .ok address =>
      match h.state.roster.get? address with
      | none => throw (missing (.node address))
      | some n => return .json n.toJson
  | .application slot => do
    let id ← numberOf slot
    match h.state.catalog.get? id with
    | none => throw (missing (.application id))
    | some a => return .json a.toJson
  | .event slot => do return .json (View.event (← eventOf h slot))
  | .ranking slot => do return .json (View.ranking (← numberOf slot) (← eventOf h slot))
  | .proof => return .json (View.proof h)
  | .metrics => return .text metricsText

/-- The response to a query. -/
def Query.respond (h : Host) (q : Query) : Response :=
  match q.look h with
  | .error rejection => rejection.response
  | .ok content => ⟨200, content⟩

/-! ### Doing -/

/-- The caller and the command of a request that asks for a command. -/
def commandOf (r : Request) : Order → Except Rejection (Address × Command)
  | .registerNode => do
    let caller ← callerOf r
    return (caller, .registerNode (← readBody nodeShape r))
  | .registerApplication => do
    let caller ← callerOf r
    return (caller, ← readBody applicationShape r)
  | .sendEvent => do
    let caller ← callerOf r
    return (caller, ← readBody eventShape r)
  | .sendReply slot => do
    let caller ← callerOf r
    let event ← numberOf slot
    let written ← readBody WrittenScores.shape r
    match written.scores with
    | .error fault => throw (.fault (.request fault))
    | .ok scores => return (caller, .sendReply event scores)
  | .voteSolver slot => do
    let caller ← callerOf r
    let event ← numberOf slot
    return (caller, .voteSolver event (← readBody voteShape r))
  | .solveEvent slot => do
    let caller ← callerOf r
    return (caller, .solveEvent (← numberOf slot))

/-- Runs a command and tells its caller about it. -/
def submit (h : Host) (caller : Address) (command : Command) : StateM Disk (Host × Response) := do
  match ← h.submit caller command with
  | (h, .error fault) => return (h, View.fault fault)
  | (h, .ok outcome) =>
    match View.outcome h.state caller command outcome with
    | .error fault => return (h, View.fault fault)
    | .ok value => return (h, .ok value)

/-- Saves a snapshot.  A body that cannot be read counts as none. -/
def saveSnapshot (h : Host) (r : Request) : StateM Disk (Host × Response) := do
  let wanted := match readBody snapshotShape r with
    | .error _ => none
    | .ok path => path
  match ← h.save wanted with
  | (h, .error fault) => return (h, View.fault fault)
  | (h, .ok path) => return (h, .ok (View.saved path h.state.version))

/-- Gives the command that a request asks for. -/
def Order.carryOut (h : Host) (r : Request) (order : Order) : StateM Disk (Host × Response) := do
  match commandOf r order with
  | .error rejection => return (h, rejection.response)
  | .ok (caller, command) => submit h caller command

/-! ### Answering -/

/-- Answers a request for a path that is known. -/
def Route.respond (h : Host) (r : Request) : Route → StateM Disk (Host × Response)
  | .query q =>
    if r.method = "GET" then return (h, q.respond h)
    else if r.method = "HEAD" then return (h, (q.respond h).headOnly)
    else return (h, .bare 405)
  | .order o => if r.method = "POST" then o.carryOut h r else return (h, .bare 405)
  | .snapshot => if r.method = "POST" then saveSnapshot h r else return (h, .bare 405)

/-- Answers a request.  Whoever asks for the options is answered before anything is looked at. -/
def respond (token : Option String) (h : Host) (r : Request) : StateM Disk (Host × Response) :=
  if r.method = "OPTIONS" then return (h, .bare 200)
  else if !admits token r then return (h, .bare 401)
  else
    match Route.ofPath? r.path with
    | none => return (h, .bare 404)
    | some route => route.respond h r

end Arbiter.Http
