import Arbiter.Event.Basic

/-!
# The docket of events

Events are numbered in the order in which they were sent, from 1 on.
-/

namespace Arbiter

/-- The events and the number given last. -/
structure Docket where
  events : OrderedMap EventId Event := .empty
  lastId : Nat := 0
  deriving DecidableEq

namespace Docket

instance : Inhabited Docket := ⟨{}⟩

/-- The number of the next event. -/
def nextId (d : Docket) : EventId :=
  d.lastId + 1

/-- The event of a number. -/
def get? (d : Docket) (id : EventId) : Option Event :=
  d.events.get? id

/-- Whether a number is taken. -/
def contains (d : Docket) (id : EventId) : Bool :=
  d.events.contains id

/-- How many events there are. -/
def size (d : Docket) : Nat :=
  d.events.size

/-- The events in the order of their numbers. -/
def toList (d : Docket) : List Event :=
  d.events.values

/-- The events of one application, in the order of their numbers. -/
def forApplication (d : Docket) (application : ApplicationId) : List Event :=
  d.toList.filter (·.application == application)

/-- Enters an event under the next number. -/
def enter (d : Docket) (application : ApplicationId) (payload : String) (sender : Address)
    (now : Version) : Docket where
  events := d.events.insert d.nextId (.fresh d.nextId application payload sender now)
  lastId := d.nextId

/-- Changes the event of a number, if there is one. -/
def modify (d : Docket) (id : EventId) (f : Event → Event) : Docket :=
  { d with events := d.events.modify id f }

end Docket

end Arbiter
