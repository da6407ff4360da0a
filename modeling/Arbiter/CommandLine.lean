import Arbiter.CommandLine.Manual
import Arbiter.CommandLine.Verb
import Arbiter.Offline.Report
import Arbiter.Text.Numeral

/-!
# The command line

A command line names a task, the file it is about and its options, in any order.  An option with a
value has it in the next word or behind an equals sign; a word that begins with a hyphen is never
taken for a value, unless it is a hyphen alone.  Behind the word `--` there are only files.  Where
help is wanted, a page of the manual is printed instead.
-/

namespace Arbiter.CommandLine

open Arbiter.Offline

/-- Why there is no task. -/
inductive Stop where
  /-- The command line is not understood. -/
  | usage
  /-- Help is wanted. -/
  | help (topic : Topic)
  deriving DecidableEq, Repr

/-- What was read of a command line so far. -/
structure Draft where
  file : Option Path := none
  snapshot : Option Path := none
  upTo : Option Nat := none
  asJson : Bool := false

/-- A path, which must not be empty. -/
def pathOf (word : String) : Except Stop Path :=
  if word.isEmpty then .error .usage else .ok ⟨word⟩

/-- The draft with a file; there is room for one. -/
def Draft.withFile (d : Draft) (word : String) : Except Stop Draft :=
  if d.file.isSome then .error .usage
  else return { d with file := some (← pathOf word) }

/-- The draft with the value of an option; every option may be given once. -/
def Draft.withValue (d : Draft) (flag : Flag) (value : String) : Except Stop Draft :=
  match flag with
  | .snapshot =>
    if d.snapshot.isSome then .error .usage
    else return { d with snapshot := some (← pathOf value) }
  | .upTo =>
    if d.upTo.isSome then .error .usage
    else
      match Text.natural Text.most64 value.toList with
      | .error _ => .error .usage
      | .ok n => .ok { d with upTo := some n }
  | .asJson => .error .usage

/-- The draft that asks for JSON. -/
def Draft.withJson (d : Draft) : Except Stop Draft :=
  if d.asJson then .error .usage else .ok { d with asJson := true }

/-- What a word of the command line is. -/
inductive Word where
  | file (name : String)
  /-- The mark that only files follow. -/
  | onlyFiles
  /-- An option, and its value if that stands in the same word. -/
  | flag (flag : Flag) (value : Option String)
  | help
  /-- Nothing that is understood. -/
  | unknown

/-- The part of a word behind an equals sign. -/
def afterEquals (text : List Char) : List Char :=
  match text with
  | '=' :: value => value
  | value => value

/-- What an option with a long name is. -/
def longWord (text : List Char) : Word :=
  let (name, rest) := text.span (· != '=')
  let value := if rest.isEmpty then none else some (String.ofList (afterEquals rest))
  match String.ofList name, value with
  | "snapshot", value => .flag .snapshot value
  | "at", value => .flag .upTo value
  | "json", value => .flag .asJson value
  | "help", none => .help
  | _, _ => .unknown

/-- What a word is. -/
def Word.of (word : String) : Word :=
  match word.toList with
  | ['-', '-'] => .onlyFiles
  | '-' :: '-' :: text => longWord text
  | ['-', 'a'] => .flag .upTo none
  | '-' :: 'a' :: value => .flag .upTo (some (String.ofList (afterEquals value)))
  | '-' :: 'h' :: _ => .help
  | ['-'] => .file word
  | '-' :: _ => .unknown
  | _ => .file word

/-- The draft with the words behind the mark that only files follow. -/
def Draft.withFiles (d : Draft) (words : List String) : Except Stop Draft :=
  words.foldlM Draft.withFile d

/-- Reads the words behind the verb. -/
def readWords (verb : Verb) (d : Draft) : List String → Except Stop Draft
  | [] => .ok d
  | word :: words =>
    match Word.of word with
    | .unknown => .error .usage
    | .help => .error (.help (.verb verb))
    | .onlyFiles => d.withFiles words
    | .file name => do readWords verb (← d.withFile name) words
    | .flag flag value =>
      if !verb.takes flag then .error .usage
      else
        match flag, value, words with
        | .asJson, none, words => do readWords verb (← d.withJson) words
        | flag, some value, words => do readWords verb (← d.withValue flag value) words
        | _, none, [] => .error .usage
        | flag, none, next :: words =>
          match Word.of next with
          | .file value => do readWords verb (← d.withValue flag value) words
          | _ => .error .usage

/-- The task of a verb and what was read behind it. -/
def taskOf (verb : Verb) (d : Draft) : Except Stop Task :=
  match d.file with
  | none => .error .usage
  | some file =>
    match verb with
    | .inspect => .ok (.inspect file d.snapshot)
    | .replay => .ok (.replay file d.snapshot d.upTo d.asJson)
    | .events => .ok (.events file d.snapshot d.upTo)
    | .verify => .ok (.verify file)

/-- Why the word `help` with words behind it is no task: it may be followed by one verb or by
itself. -/
def helpOn : List String → Stop
  | [] => .help .program
  | [word] =>
    match Verb.ofName? word with
    | some verb => .help (.verb verb)
    | none => if word = "help" then .help .help else .usage
  | _ => .usage

/-- Reads a command line. -/
def parse : List String → Except Stop Task
  | [] => .error .usage
  | word :: words =>
    match Verb.ofName? word with
    | some verb => do taskOf verb (← readWords verb {} words)
    | none =>
      match Word.of word with
      | .help => .error (.help .program)
      | _ => .error (if word = "help" then helpOn words else .usage)

/-- What a run of the program leaves behind. -/
structure Run where
  code : Nat
  output : String := ""
  /-- What is printed as an error. -/
  errors : String := ""
  deriving DecidableEq, Repr

/-- A text whose first line follows a lead, and whose further lines are indented. -/
def hanging (lead indent text : String) : String :=
  lead ++ text.replace "\n" ("\n" ++ indent)

/-- The lines on the causes of an error; they are numbered when there are several. -/
def causeLines (causes : List String) : List String :=
  match causes with
  | [cause] => [hanging "    " "    " cause]
  | causes => causes.mapIdx fun place cause =>
      let number := toString place
      let lead := String.ofList (List.replicate (5 - number.length) ' ') ++ number ++ ": "
      hanging lead "       " cause

/-- The text on a failure. -/
def errorText (failure : Failure) : String :=
  match failure.chain with
  | [] => ""
  | [message] => linesText ["Error: " ++ message]
  | message :: causes =>
    linesText (["Error: " ++ message, "", "Caused by:"] ++ causeLines causes)

/-- The run that a report ends. -/
def Run.of (r : Report) : Run :=
  match r.failure with
  | none => ⟨0, r.text, ""⟩
  | some failure => ⟨1, r.text, errorText failure⟩

/-- Runs the program on a command line. -/
def run (files : Files) (words : List String) : Run :=
  match parse words with
  | .error .usage => ⟨2, "", ""⟩
  | .error (.help topic) => ⟨0, (Manual.page topic).text, ""⟩
  | .ok task => .of (task.report files)

end Arbiter.CommandLine
