import Arbiter.Refusal

/-!
# Commands

A command is one transition of a controller.  The account it is run for, its caller, is supplied
with it and is not part of it.
-/

namespace Arbiter

/-- A transition of a controller. -/
inductive Command where
  /-- Registers the caller as a node, or replaces its spec. -/
  | registerNode (spec : String)
  | registerApplication (info : String) (requiredSpecs : List String) (multiReplyAllowed : Bool)
  | sendEvent (payload : String) (application : ApplicationId)
  | sendReply (event : EventId) (scores : List Score)
  | voteSolver (event : EventId) (candidate : Address)
  | solveEvent (event : EventId)
  deriving DecidableEq

namespace Command

/-- The name of a command. -/
def name : Command → String
  | .registerNode .. => "registerNode"
  | .registerApplication .. => "registerApplication"
  | .sendEvent .. => "sendEvent"
  | .sendReply .. => "sendReply"
  | .voteSolver .. => "voteSolver"
  | .solveEvent .. => "solveEvent"

/-- The event a command is about, if it is about one. -/
def event? : Command → Option EventId
  | .sendReply event _ | .voteSolver event _ | .solveEvent event => some event
  | _ => none

end Command

/-- What a command that was carried out produced. -/
inductive Outcome where
  /-- A node was registered; `created` tells whether it is new. -/
  | nodeRegistered (created : Bool)
  | applicationRegistered (id : ApplicationId)
  | eventSent (id : EventId)
  /-- A reply was recorded; `credited` of its scores went to registered nodes. -/
  | replyRecorded (credited : Nat)
  /-- A vote was recorded; `elected` is the solver it elected. -/
  | voteRecorded (elected : Option Address)
  | eventSolved (solver : Address)
  deriving DecidableEq

end Arbiter
