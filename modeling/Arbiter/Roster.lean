import Arbiter.OrderedMap
import Arbiter.Refusal

/-!
# The roster of nodes

A node registers under a spec, a tag for what it can do.  Registering again replaces the spec and
keeps everything else.  Every node carries the running sum of the scores its peers gave it while it
was registered.
-/

namespace Arbiter

/-- A registered node. -/
structure Node where
  address : Address
  /-- The tag it registered under last. -/
  spec : String
  /-- The running sum of the scores given to it. -/
  reputation : Int
  /-- When it registered first. -/
  registeredAt : Version
  deriving DecidableEq

/-- The registered nodes. -/
structure Roster where
  nodes : OrderedMap Address Node := .empty
  deriving DecidableEq

namespace Roster

instance : Inhabited Roster := ⟨{}⟩

/-- The node at an address. -/
def get? (r : Roster) (address : Address) : Option Node :=
  r.nodes.get? address

/-- Whether an address is registered. -/
def contains (r : Roster) (address : Address) : Bool :=
  r.nodes.contains address

/-- The number of registered nodes. -/
def size (r : Roster) : Nat :=
  r.nodes.size

/-- The nodes in address order. -/
def toList (r : Roster) : List Node :=
  r.nodes.values

/-- The nodes of one spec, in address order. -/
def withSpec (r : Roster) (spec : String) : List Node :=
  r.toList.filter (·.spec == spec)

/-- Registers an address under a spec. -/
def register (r : Roster) (address : Address) (spec : String) (now : Version) : Roster :=
  if r.contains address then
    { r with nodes := r.nodes.modify address ({ · with spec := spec }) }
  else
    { r with nodes := r.nodes.insert address ⟨address, spec, 0, now⟩ }

/-- Adds points to the reputation of a node; an unregistered address receives nothing. -/
def credit (r : Roster) (score : Score) : Roster :=
  { r with
    nodes := r.nodes.modify score.target fun node =>
      { node with reputation := addPoints node.reputation score.value } }

/-- Adds the points of a list of scores, one after the other. -/
def creditAll (r : Roster) (scores : List Score) : Roster :=
  scores.foldl credit r

/-- How many of the scores go to registered nodes. -/
def credited (r : Roster) (scores : List Score) : Nat :=
  scores.countP fun score => r.contains score.target

end Roster

end Arbiter
