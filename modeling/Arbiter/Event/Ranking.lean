import Arbiter.Event.Basic

/-!
# The ranking of an event

All scores of all replies to an event are summed up by target.  The highest sum comes first, and
equal sums stand in address order.  The ranking is advice: no vote and no resolution depends on it.
-/

namespace Arbiter

/-- The sums so far with one more score added. -/
def addScore (sums : OrderedMap Address (Int × Nat)) (score : Score) :
    OrderedMap Address (Int × Nat) :=
  let (total, contributors) := (sums.get? score.target).getD (0, 0)
  sums.insert score.target (addPoints total score.value, contributors + 1)

namespace Standing

/-- Whether one standing comes no later than another in a ranking. -/
def before (s t : Standing) : Bool :=
  t.total < s.total || (t.total == s.total && (compare s.address t.address).isLE)

end Standing

namespace Event

/-- The scores of all replies, in the order of the authors. -/
def scores (e : Event) : List Score :=
  e.replyList.flatMap (·.scores)

/-- The ranking of an event. -/
def ranking (e : Event) : List Standing :=
  let sums := e.scores.foldl addScore .empty
  let standings := sums.toList.map fun (address, total, contributors) =>
    Standing.mk address total contributors
  standings.mergeSort Standing.before

/-- The first of the ranking. -/
def leader (e : Event) : Option Standing :=
  e.ranking.head?

end Event

end Arbiter
