import Arbiter.Catalog
import Arbiter.Event.Basic
import Arbiter.Roster

/-!
# Replying to an event

A registered node replies once to an event and scores some of its peers.  A target need not be
registered.  Unless the application allows otherwise, all replies to an event agree on the score
of every target they share.
-/

namespace Arbiter.Event

/-- The first fault of a list of scores when read from the left: a score for its author, or one
for a target that was scored before. -/
def scoreFault? (author : Address) : (seen : List Address) → List Score → Option InputFault
  | _, [] => none
  | seen, s :: rest =>
    if s.target = author then some .selfScore
    else if seen.contains s.target then some (.repeatedTarget s.target)
    else scoreFault? author (s.target :: seen) rest

/-- The first earlier reply that gives the target of a score other points. -/
def conflict? (earlier : List Reply) (s : Score) : Option InputFault :=
  earlier.findSome? fun reply =>
    (reply.scoreFor s.target).bind fun value =>
      if value = s.value then none
      else some (.conflictingScore s.value s.target value reply.author)

/-- Why a reply is not accepted, if it is not. -/
def checkReply (e : Event) (application : Application) (roster : Roster) (author : Address)
    (scores : List Score) : Except Refusal Unit := do
  if e.isSolved then throw (.invalidState (.alreadySolved e.id))
  unless roster.contains author do throw (.notFound (.node author))
  if e.hasReplied author then throw (.alreadyDone .replied)
  if roster.size - 1 < scores.length then
    throw (.invalidInput (.tooManyScores scores.length (roster.size - 1)))
  if let some fault := scoreFault? author [] scores then throw (.invalidInput fault)
  unless application.multiReplyAllowed do
    if let some fault := scores.findSome? (conflict? e.replyList) then
      throw (.invalidInput fault)

/-- The event after a reply; a reply that is there already stays. -/
def reply (e : Event) (author : Address) (scores : List Score) (now : Version) : Event :=
  if e.hasReplied author then e
  else { e with replies := e.replies.insert author ⟨author, scores, now⟩ }

end Arbiter.Event
