import Arbiter.Corruption
import Arbiter.State.Basic

/-!
# The audit of a state

A state that was read from a file is looked through before it is used.  The applications come
first, then the events, each in the order of their numbers, and the first fault found is reported.
-/

namespace Arbiter.State

/-- Looks through the applications from a place on. -/
def auditApplications (now : Version) : (place : Nat) → List Application → Except Corruption Unit
  | _, [] => .ok ()
  | place, a :: rest =>
    if a.id ≠ place then .error (.applicationOutOfSequence a.id)
    else if now < a.createdAt then .error (.applicationFromFuture a.id)
    else auditApplications now (place + 1) rest

/-- Looks through what an event has collected. -/
def auditEvent (catalog : Catalog) (e : Event) : Except Corruption Unit := do
  unless catalog.contains e.application do
    throw (.missingApplication e.id e.application)
  if let some r := e.replyList.find? fun r => r.scores.any (·.target == r.author) then
    throw (.selfScore e.id r.author)
  if let some solver := e.electedSolver then
    if e.votesFor solver = 0 then throw (.electedWithoutVotes e.id solver)
  if let some resolution := e.resolution then
    if e.electedSolver ≠ some resolution.solver then throw (.solverNotElected e.id)

/-- Looks through the events from a place on. -/
def auditEvents (catalog : Catalog) : (place : Nat) → List Event → Except Corruption Unit
  | _, [] => .ok ()
  | place, e :: rest =>
    if e.id ≠ place then .error (.eventOutOfSequence e.id)
    else do
      auditEvent catalog e
      auditEvents catalog (place + 1) rest

/-- Looks through a state. -/
def audit (s : State) : Except Corruption Unit := do
  auditApplications s.version 1 s.catalog.toList
  auditEvents s.catalog 1 s.docket.toList

end Arbiter.State
