import Arbiter.Json.Basic
import Arbiter.Offline.Load
import Arbiter.StateProof
import Arbiter.Text.Table

/-!
# Reports

What can be asked about the files of a node: what a journal holds, what it leads to, which events
there are, and whether a snapshot is intact.  A report is a text; one that fails may have printed
something before.
-/

namespace Arbiter.Offline

/-- What can be asked. -/
inductive Task where
  /-- What a journal holds, and what the header of a snapshot says. -/
  | inspect (journal : Path) (snapshot : Option Path)
  /-- Which state a journal leads to. -/
  | replay (journal : Path) (snapshot : Option Path) (upTo : Option Nat) (asJson : Bool)
  /-- Which events there are. -/
  | events (journal : Path) (snapshot : Option Path) (upTo : Option Nat)
  /-- Whether a snapshot is intact. -/
  | verify (snapshot : Path)
  deriving DecidableEq

/-- The files that a question is about. -/
def Task.paths : Task → List Path
  | .inspect journal snapshot => journal :: snapshot.toList
  | .replay journal snapshot _ _ => journal :: snapshot.toList
  | .events journal snapshot _ => journal :: snapshot.toList
  | .verify snapshot => [snapshot]

/-- What is printed, and how it ends. -/
structure Report where
  text : String
  /-- What failed, if something did. -/
  failure : Option Failure := none

/-- Lines, each with an end. -/
def linesText (lines : List String) : String :=
  String.join (lines.map (· ++ "\n"))

/-- The report on a result. -/
def reportOn (text : α → String) : Except Failure α → Report
  | .error failure => ⟨"", some failure⟩
  | .ok a => ⟨text a, none⟩

/-! ### What a journal holds -/

/-- How many entries there are of every command, in the order of their names. -/
def commandCounts (entries : List Entry) : OrderedMap String Nat :=
  entries.foldl (fun counts entry =>
    counts.insert entry.command.name ((counts.get? entry.command.name).getD 0 + 1)) .empty

/-- The row on a journal. -/
def journalRow (contents : JournalContents) : List String :=
  ["Journal", if 0 < contents.tornTail then "TORN TAIL" else "OK",
    s!"{contents.entries.length} entries, {contents.validLength} bytes valid, " ++
      s!"{contents.tornTail} bytes torn"]

/-- The row on a snapshot beside a journal of some length. -/
def snapshotRow (entries : Nat) (bytes : Bytes) : List String :=
  match Snapshot.readHeader bytes with
  | .error corruption => ["Snapshot", "INVALID", corruption.message]
  | .ok header =>
    ["Snapshot", if header.version ≤ entries then "OK" else "AHEAD OF JOURNAL",
      s!"format {header.format}, {Version.label header.version}, {header.bodyLength} byte body"]

/-- The rows on a journal and a snapshot. -/
def inspectRows (files : Files) (journal : Path) (snapshot : Option Path) :
    Except Failure (List (List String)) := do
  let contents ← readJournal files journal
  let commandRows := (commandCounts contents.entries).toList.map fun (name, count) =>
    ["  " ++ name, "", toString count]
  let rows := journalRow contents :: commandRows
  match snapshot with
  | none => return rows
  | some path =>
    let bytes ← (files path).mapError Failure.disk
    return rows ++ [snapshotRow contents.entries.length bytes]

/-- The text on a journal and a snapshot. -/
def inspectText (rows : List (List String)) : String :=
  linesText ["", "Hidra Inspection", "",
    Text.Table.render ["Component", "Status", "Details"] rows, ""]

/-! ### What a journal leads to -/

/-- The hash of the state of a history. -/
def History.stateHash (h : History) : String :=
  Text.Hex.text (h.state.hash Blake3.digest)

/-- The hash of the journal of a history. -/
def History.journalHash (h : History) : String :=
  Text.Hex.text (Arbiter.journalHash Blake3.digest h.entries)

/-- The summary of a history as JSON. -/
def replayJson (h : History) : String :=
  Json.renderLines [("version", .nat h.state.version), ("applied", .nat h.applied),
    ("nodes", .nat h.state.roster.size), ("applications", .nat h.state.catalog.size),
    ("events", .nat h.state.docket.size), ("journal_hash", .string h.journalHash),
    ("state_hash", .string h.stateHash)] ++ "\n"

/-- The summary of a history. -/
def replayText (h : History) : String :=
  linesText ["", s!"Replayed to {Version.label h.state.version} ({h.applied} entries applied)", "",
    s!"Nodes:         {h.state.roster.size}", s!"Applications:  {h.state.catalog.size}",
    s!"Events:        {h.state.docket.size}", s!"Journal Hash:  {h.journalHash}",
    s!"State Hash:    {h.stateHash}", ""]

/-! ### Which events there are -/

/-- The row on an event. -/
def eventRow (needed : Nat) (e : Event) : List String :=
  [toString e.id, toString e.application, e.phase.label, toString e.replies.size,
    s!"{e.votes.size}/{needed}", (e.electedSolver.map Address.hex).getD "-",
    (e.leader.map fun s => s!"{s.address} ({s.total})").getD "-"]

/-- The text on the events of a history. -/
def eventsText (h : History) : String :=
  let rows := h.state.docket.toList.map (eventRow (quorum h.state.roster.size))
  linesText ["", s!"Events at {Version.label h.state.version}", "",
    Text.Table.render ["ID", "App", "State", "Replies", "Votes", "Solver", "Leader"] rows, ""]

/-! ### Whether a snapshot is intact -/

/-- The text on an intact snapshot. -/
def verifiedText (bytes : Bytes) (state : State) : String :=
  linesText ["", "✅ VERIFIED", "", s!"Version:       {Version.label state.version}",
    s!"Checksum:      {Text.Hex.word64 (Snapshot.computedCheck bytes)} (CRC64)",
    s!"File Hash:     {Text.Hex.text (Blake3.digest bytes)}",
    s!"State Hash:    {Text.Hex.text (state.hash Blake3.digest)}", ""]

/-- The text on a damaged snapshot. -/
def corruptedText (bytes : Bytes) : String :=
  linesText ["", "❌ CORRUPTED", "",
    s!"Expected CRC:  {Text.Hex.word64 (Snapshot.storedCheck bytes)}",
    s!"Found CRC:     {Text.Hex.word64 (Snapshot.computedCheck bytes)}"]

/-- The report on a snapshot. -/
def snapshotReport (files : Files) (path : Path) : Report :=
  match files path with
  | .error fault => ⟨"", some (.disk fault)⟩
  | .ok bytes =>
    if bytes.length < Snapshot.trailerLength then ⟨"", some (.tooShort path)⟩
    else
      match Snapshot.decode bytes with
      | .ok state => ⟨verifiedText bytes state, none⟩
      | .error corruption => ⟨corruptedText bytes, some (.corrupted corruption)⟩

/-! ### All reports -/

/-- The report that answers a question. -/
def Task.report (files : Files) : Task → Report
  | .inspect journal snapshot => reportOn inspectText (inspectRows files journal snapshot)
  | .replay journal snapshot upTo asJson =>
    reportOn (if asJson then replayJson else replayText) (load files journal snapshot upTo)
  | .events journal snapshot upTo => reportOn eventsText (load files journal snapshot upTo)
  | .verify snapshot => snapshotReport files snapshot

end Arbiter.Offline
