import Arbiter.CommandLine.Verb
import Arbiter.Offline.Report

/-!
# The manual

What is printed when help is wanted.  A page says what something is about and how it is used, and
lists its parts with a word on each; the words on one list begin in one column.
-/

namespace Arbiter.CommandLine

open Arbiter.Offline

/-- What help is wanted on. -/
inductive Topic where
  /-- The program as a whole. -/
  | program
  | verb (verb : Verb)
  /-- The word `help` itself. -/
  | help
  deriving DecidableEq, Repr

namespace Manual

/-- A list of parts under a heading: how each is written, and a word on it. -/
structure Listing where
  heading : String
  parts : List (String × String)

/-- A page of the manual. -/
structure Page where
  about : String
  /-- How it is used, behind the name of the program. -/
  usage : String
  listings : List Listing

/-- The lines of a list. -/
def Listing.lines (l : Listing) : List String :=
  let width := (l.parts.map (·.1.length)).foldl max 0
  (l.heading ++ ":") :: l.parts.map fun (part, note) =>
    "  " ++ part ++ String.ofList (List.replicate (width - part.length + 2) ' ') ++ note

/-- The text of a page. -/
def Page.text (p : Page) : String :=
  linesText ([p.about, "", "Usage: hidra " ++ p.usage] ++
    p.listings.flatMap fun listing => "" :: listing.lines)

/-- What a verb is about. -/
def verbNote : Verb → String
  | .inspect => "Summarize a journal (and optionally a snapshot) without replaying it"
  | .replay => "Replay a journal and print the resulting state hash"
  | .events => "List events of the replayed state"
  | .verify => "Verify the integrity of a snapshot file"

/-- What the word `help` is about. -/
def helpNote : String :=
  "Print this message or the help of the given subcommand(s)"

/-- How the file of a verb is written. -/
def fileMark : Verb → String
  | .verify => "<SNAPSHOT_PATH>"
  | _ => "<JOURNAL_PATH>"

/-- How an option is written.  An option without a short name leaves room for one. -/
def flagMark : Flag → String
  | .snapshot => "    --snapshot <SNAPSHOT>"
  | .upTo => "-a, --at <AT>"
  | .asJson => "    --json"

/-- A word on an option of a verb; only replaying has words on its options. -/
def flagNote : Verb → Flag → String
  | .replay, .snapshot => "Base snapshot; only later journal entries are applied"
  | .replay, .upTo => "Stop after this sequence number"
  | _, _ => ""

/-- The options of a page, the last of which asks for it. -/
def options (parts : List (String × String)) : Listing :=
  ⟨"Options", parts ++ [("-h, --help", "Print help")]⟩

/-- The page on the program. -/
def programPage : Page :=
  ⟨"Hidra CLI - offline inspection of controller journals and snapshots", "<COMMAND>",
    [⟨"Commands", Verb.all.map (fun v => (v.name, verbNote v)) ++ [("help", helpNote)]⟩,
      options []]⟩

/-- The page on a verb. -/
def verbPage (v : Verb) : Page :=
  let optionsMark := if v.flags.isEmpty then "" else "[OPTIONS] "
  ⟨verbNote v, v.name ++ " " ++ optionsMark ++ fileMark v,
    [⟨"Arguments", [(fileMark v, "")]⟩,
      options (v.flags.map fun flag => (flagMark flag, flagNote v flag))]⟩

/-- The page on the word `help`. -/
def helpPage : Page :=
  ⟨helpNote, "help [COMMAND]...",
    [⟨"Arguments", [("[COMMAND]...", "Print help for the subcommand(s)")]⟩]⟩

/-- The page on a topic. -/
def page : Topic → Page
  | .program => programPage
  | .verb v => verbPage v
  | .help => helpPage

end Manual

end Arbiter.CommandLine
