import Arbiter.Http.Percent
import Arbiter.Text.Split

/-!
# Routes

The paths that a service knows.  A path leads to something to look at, to a command or to the saving
of a snapshot.  The parts of a path that vary are handed on as they are written.
-/

namespace Arbiter.Http

/-- A part of a path that varies, as it is written. -/
abbrev Slot := List Char

/-- What can be looked at. -/
inductive Query where
  | node (address : Slot)
  | application (id : Slot)
  | event (id : Slot)
  | ranking (id : Slot)
  | proof
  | metrics
  deriving DecidableEq, Repr

/-- The commands that can be given. -/
inductive Order where
  | registerNode
  | registerApplication
  | sendEvent
  | sendReply (event : Slot)
  | voteSolver (event : Slot)
  | solveEvent (event : Slot)
  deriving DecidableEq, Repr

/-- Where a path leads. -/
inductive Route where
  | query (query : Query)
  | order (order : Order)
  | snapshot
  deriving DecidableEq, Repr

namespace Route

/-- The route of a path that begins with `/v1`.  A slot at the end of a path must not be empty; one
before the end may be, and is then a matter of whoever reads it. -/
def ofParts? : List (List Char) → Option Route
  | [noun] =>
    match String.ofList noun with
    | "nodes" => some (.order .registerNode)
    | "applications" => some (.order .registerApplication)
    | "events" => some (.order .sendEvent)
    | _ => none
  | [noun, slot] =>
    match String.ofList noun, String.ofList slot with
    | "proof", "state" => some (.query .proof)
    | "snapshot", "save" => some .snapshot
    | _, "" => none
    | "nodes", _ => some (.query (.node slot))
    | "applications", _ => some (.query (.application slot))
    | "events", _ => some (.query (.event slot))
    | _, _ => none
  | [noun, slot, verb] =>
    match String.ofList noun, String.ofList verb with
    | "events", "replies" => some (.order (.sendReply slot))
    | "events", "votes" => some (.order (.voteSolver slot))
    | "events", "solve" => some (.order (.solveEvent slot))
    | "events", "reputation" => some (.query (.ranking slot))
    | _, _ => none
  | _ => none

/-- The route of a path. -/
def ofPath? (path : List Char) : Option Route :=
  match Text.split '/' path with
  | [] :: ['v', '1'] :: parts => ofParts? parts
  | [[], part] => if part = "metrics".toList then some (.query .metrics) else none
  | _ => none

end Route

end Arbiter.Http
