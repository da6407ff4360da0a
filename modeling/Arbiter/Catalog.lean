import Arbiter.OrderedMap
import Arbiter.Refusal

/-!
# The catalog of applications

Applications are numbered in the order of their registration, from 1 on.
-/

namespace Arbiter

/-- A registered application. -/
structure Application where
  id : ApplicationId
  /-- A description, which only its owner understands. -/
  info : String
  requiredSpecs : List String
  /-- Whether replies to one event may give a target different scores. -/
  multiReplyAllowed : Bool
  owner : Address
  createdAt : Version
  deriving DecidableEq

/-- Whether an application needs a spec. -/
def Application.requires (a : Application) (spec : String) : Bool :=
  a.requiredSpecs.contains spec

/-- The registered applications and the number given last. -/
structure Catalog where
  applications : OrderedMap ApplicationId Application := .empty
  lastId : Nat := 0
  deriving DecidableEq

namespace Catalog

instance : Inhabited Catalog := ⟨{}⟩

/-- The number of the next application. -/
def nextId (c : Catalog) : ApplicationId :=
  c.lastId + 1

/-- The application of a number. -/
def get? (c : Catalog) (id : ApplicationId) : Option Application :=
  c.applications.get? id

/-- Whether a number is taken. -/
def contains (c : Catalog) (id : ApplicationId) : Bool :=
  c.applications.contains id

/-- How many applications there are. -/
def size (c : Catalog) : Nat :=
  c.applications.size

/-- The applications in the order of their numbers. -/
def toList (c : Catalog) : List Application :=
  c.applications.values

/-- Registers an application under the next number. -/
def register (c : Catalog) (info : String) (requiredSpecs : List String)
    (multiReplyAllowed : Bool) (owner : Address) (now : Version) : Catalog where
  applications := c.applications.insert c.nextId
    ⟨c.nextId, info, requiredSpecs, multiReplyAllowed, owner, now⟩
  lastId := c.nextId

end Catalog

end Arbiter
