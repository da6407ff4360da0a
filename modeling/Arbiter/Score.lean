import Arbiter.Address

/-!
# Scores

A score is the reputation that one account assigns to another.  Values and their sums are integers
of sixty-four bits; a sum that would leave that range stays at its end.
-/

namespace Arbiter

/-- The least value of a score and of a sum of scores. -/
def leastPoints : Int := -9223372036854775808

/-- The greatest value of a score and of a sum of scores. -/
def mostPoints : Int := 9223372036854775807

/-- The number of the allowed range that is nearest to `n`. -/
def clampPoints (n : Int) : Int :=
  max leastPoints (min mostPoints n)

/-- The sum of two values, kept within the allowed range. -/
def addPoints (a b : Int) : Int :=
  clampPoints (a + b)

/-- One line of a reply: the points that its author gives to a target. -/
structure Score where
  /-- The account that is scored; it need not be registered. -/
  target : Address
  value : Int
  deriving DecidableEq

end Arbiter
