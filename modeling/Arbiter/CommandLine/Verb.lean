/-!
# Verbs and options

The words that name a task on the command line, and the options that each of them takes.
-/

namespace Arbiter.CommandLine

/-- The options. -/
inductive Flag where
  /-- The snapshot to begin with. -/
  | snapshot
  /-- The version to stop at. -/
  | upTo
  /-- Whether to print JSON. -/
  | asJson
  deriving DecidableEq, Repr

/-- The verbs of the command line. -/
inductive Verb where
  /-- What a journal holds. -/
  | inspect
  /-- Which state a journal leads to. -/
  | replay
  /-- Which events there are. -/
  | events
  /-- Whether a snapshot is intact. -/
  | verify
  deriving DecidableEq, Repr

namespace Verb

/-- All verbs. -/
def all : List Verb := [inspect, replay, events, verify]

/-- The name of a verb. -/
def name : Verb → String
  | inspect => "inspect"
  | replay => "replay"
  | events => "events"
  | verify => "verify"

/-- The verb of a name. -/
def ofName? (word : String) : Option Verb :=
  all.find? (·.name == word)

/-- The options of a verb. -/
def flags : Verb → List Flag
  | inspect => [.snapshot]
  | replay => [.snapshot, .upTo, .asJson]
  | events => [.snapshot, .upTo]
  | verify => []

/-- Whether a verb has an option. -/
def takes (v : Verb) (flag : Flag) : Bool :=
  v.flags.contains flag

theorem ofName?_name (v : Verb) : ofName? v.name = some v := by
  cases v <;> decide

end Verb

end Arbiter.CommandLine
