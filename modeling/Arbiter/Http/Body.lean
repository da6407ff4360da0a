import Arbiter.Host.Fault
import Arbiter.Http.MediaType
import Arbiter.Http.Message
import Arbiter.Json.Form
import Arbiter.Json.Shape

/-!
# The bodies of requests

What the body of a request says.  A body has to be announced as JSON, must not be too long, has to
be JSON and has to have the wanted shape, and is looked at in this order; what follows the first
value of a body does not matter.
-/

namespace Arbiter.Http

open Arbiter.Json

/-- Why a request is turned down before its command is looked at. -/
inductive Rejection where
  /-- With a status alone. -/
  | bare (status : Nat)
  /-- With the words for a fault. -/
  | fault (fault : HostFault)

/-- The greatest length of a body in bytes. -/
def longestBody : Nat := 2097152

/-- Reads the body of a request. -/
def readBody (shape : Reader α) (r : Request) : Except Rejection α :=
  let announced := match r.plainHeader? "content-type" with
    | none => false
    | some mediaType => MediaType.isJson mediaType
  let body := r.body.getD ""
  if !announced then .error (.bare 415)
  else if longestBody < body.utf8ByteSize then .error (.bare 413)
  else
    match shape body.toList with
    | .error .malformed => .error (.bare 400)
    | .error .misshapen => .error (.bare 422)
    | .ok (a, _) => .ok a

/-- An address in a body. -/
def addressShape : Reader Address :=
  parsedShape fun text =>
    match Address.parse text with
    | .ok address => some address
    | .error _ => none

/-! ### Scores -/

/-- The points of a score as a client writes them: as a number, or as a text for clients whose
numbers are too small. -/
inductive WrittenPoints where
  | number (n : Int)
  | text (s : String)
  deriving DecidableEq, Repr

namespace WrittenPoints

/-- The points that are meant. -/
def points : WrittenPoints → Except RequestFault Int
  | .number n => .ok n
  | .text s =>
    match Text.signed64 (Text.trim s.toList) with
    | .ok n => .ok n
    | .error _ => .error (.score s)

/-- Points, in which at most `depth` arrays and objects may be nested until they turn out to be
none. -/
def shape (depth : Nat) : Reader WrittenPoints := fun text => do
  match ← value depth text with
  | (.integer n, rest) =>
    if leastPoints ≤ n ∧ n ≤ mostPoints then return (.number n, rest) else throw .misshapen
  | (.string s, rest) => return (.text s, rest)
  | _ => throw .misshapen

end WrittenPoints

/-- The scores of a reply as a client writes them. -/
abbrev WrittenScores := List (Address × WrittenPoints)

namespace WrittenScores

/-- How deep points may be nested within the body of a reply. -/
def pointsDepth : Nat := mostNested - 3

/-- One score: an array of a target and its points. -/
def scoreShape : Reader (Address × WrittenPoints) := fun text =>
  match skipSpace text with
  | '[' :: rest => do
    let fields : List (Member (Option Address × Option WrittenPoints)) :=
      [.of "target" addressShape fun target draft => (some target, draft.2),
        .of "value" (WrittenPoints.shape pointsDepth) fun points draft => (draft.1, some points)]
    match ← placedFields (fun _ => false) fields true (none, none) rest with
    | ((some target, some points), rest) => return ((target, points), rest)
    | _ => throw .misshapen
  | text => .error (mismatch text)

/-- The body of a reply. -/
def shape : Reader WrittenScores :=
  recordShape [.of "scores" (listShape scoreShape) fun scores _ => scores] [] some

/-- The scores that are meant; the first one that is none is reported. -/
def scores (written : WrittenScores) : Except RequestFault (List Score) :=
  written.mapM fun (target, points) => do return ⟨target, ← points.points⟩

end WrittenScores

/-! ### Other bodies -/

/-- The body that registers a node: its spec. -/
def nodeShape : Reader String :=
  recordShape [.of "spec" stringShape fun spec _ => some spec] none id

/-- An application as a client writes it. -/
structure WrittenApplication where
  /-- The description, which has to be there. -/
  info : Option String := none
  requiredSpecs : List String := []
  /-- Whether replies may disagree. -/
  multiReplyAllowed : Bool := false

/-- The body that registers an application. -/
def applicationShape : Reader Command :=
  recordShape
    [.of "info" stringShape fun info (a : WrittenApplication) => { a with info := some info },
      .of "required_specs" (listShape stringShape) fun specs a => { a with requiredSpecs := specs },
      .of "multi_reply_allowed" boolShape fun multi a => { a with multiReplyAllowed := multi }]
    {} fun a => a.info.map fun info => .registerApplication info a.requiredSpecs a.multiReplyAllowed

/-- The body that sends an event. -/
def eventShape : Reader Command :=
  recordShape
    [.of "payload" stringShape fun payload (draft : Option String × Option Nat) =>
        (some payload, draft.2),
      .of "application_id" natShape fun application draft => (draft.1, some application)]
    (none, none) fun
      | (some payload, some application) => some (.sendEvent payload application)
      | _ => none

/-- The body of a vote: the candidate. -/
def voteShape : Reader Address :=
  recordShape [.of "candidate" addressShape fun candidate _ => some candidate] none id

/-- The body that asks for a snapshot: its path, if one is wanted. -/
def snapshotShape : Reader (Option Path) :=
  recordShape [.of "path" (optionalShape stringShape) fun path _ => path] none
    fun path => some (path.map Path.mk)

end Arbiter.Http
