import Arbiter.Disk.Change
import Arbiter.Journal.Frame
import Arbiter.Text.Quoted

/-!
# Writing a journal file

A writer adds entries to the end of a journal file.  An entry counts only after its frame was
stored and synced.  When that fails the file is cut back to the frames that count, and when even
this fails the writer takes no entry any more: the file may then end in a frame that was never
acknowledged.

Opening an existing file reads it first and cuts off a torn tail.
-/

namespace Arbiter

/-- Why a journal cannot be used as it should. -/
inductive JournalFault where
  | disk (fault : DiskFault)
  /-- The file is not acceptable, or an entry does not follow the last one. -/
  | scan (fault : ScanFault)
  /-- The writer takes no entry any more. -/
  | unusable (path : Path)
  /-- An entry cannot be encoded. -/
  | encoding (corruption : Corruption)
  deriving DecidableEq

/-- The words for a journal fault. -/
def JournalFault.message : JournalFault → String
  | .disk fault => s!"IO error: {fault.message}"
  | .scan (.header fault) => s!"Invalid header: {fault.reason}"
  | .scan (.frame offset fault) => s!"Corrupted frame at offset {offset}: {fault.reason}"
  | .unusable path => s!"Journal {Text.Quoted.text path.text} is unusable after a failed append"
  | .encoding corruption => s!"Entry encoding failed: {corruption.message}"

/-- Adds entries to a journal file. -/
structure JournalWriter where
  /-- The path the file was opened under. -/
  path : Path
  file : FileId
  /-- The sequence of the last entry that counts. -/
  lastSequence : Nat
  /-- The length of the file up to the end of the last frame that counts. -/
  validLength : Nat
  /-- Whether the writer takes no entry any more. -/
  poisoned : Bool := false
  deriving DecidableEq

namespace JournalWriter

/-- Whether there is something to read under a path. -/
def hasContents (d : Disk) (path : Path) : Bool :=
  match d.length path with
  | .ok length => 0 < length
  | .error _ => false

/-- Reads the journal file under a path. -/
def readContents (d : Disk) (path : Path) : Except JournalFault JournalContents :=
  match d.read path with
  | .error fault => .error (.disk fault)
  | .ok bytes =>
    match scan bytes with
    | .error fault => .error (.scan fault)
    | .ok contents => .ok contents

/-- Cuts off the torn tail of the journal file under a path. -/
def cutTail (path : Path) (contents : JournalContents) : OnDisk DiskFault Unit := do
  if 0 < contents.tornTail then
    let file ← Disk.openFile path
    Disk.setLength file contents.validLength
    Disk.sync file

/-- Opens a journal file that holds the given entries so far, or starts one. -/
def start (path : Path) (isNew : Bool) (contents : JournalContents) :
    OnDisk DiskFault JournalWriter := do
  let file ← Disk.openOrMake path
  if isNew then
    Disk.append file journalHeader
    Disk.sync file
  return ⟨path, file, contents.entries.length, contents.validLength, false⟩

/-- Opens the journal under a path and gives what it holds; an absent or empty file is given a
header first. -/
def openAt (path : Path) : OnDisk JournalFault (JournalWriter × JournalContents) := do
  if hasContents (← get) path then
    let contents ← Disk.look (readContents · path)
    (cutTail path contents).adapt .disk
    let writer ← (start path false contents).adapt .disk
    return (writer, contents)
  else
    let contents : JournalContents := ⟨[], journalHeaderLength, 0⟩
    let writer ← (start path true contents).adapt .disk
    return (writer, contents)

/-- Stores a frame. -/
def store (w : JournalWriter) (frame : Bytes) : OnDisk DiskFault Unit := do
  Disk.append w.file frame
  Disk.sync w.file

/-- Cuts the file back to the frames that count. -/
def rollback (w : JournalWriter) : StateM Disk JournalWriter := do
  let cut : OnDisk DiskFault Unit := do
    Disk.setLength w.file w.validLength
    Disk.sync w.file
  match ← cut.run with
  | .ok () => return w
  | .error _ => return { w with poisoned := true }

/-- Adds an entry, which has to follow the last one. -/
def append (w : JournalWriter) (entry : Entry) :
    StateM Disk (JournalWriter × Except JournalFault Unit) := do
  if w.poisoned then
    return (w, .error (.unusable w.path))
  else if entry.sequence ≠ w.lastSequence + 1 then
    return (w, .error (.scan (.frame 0 (.appended entry.sequence (w.lastSequence + 1)))))
  else
    match ← (w.store entry.frame).run with
    | .error fault =>
      let w ← w.rollback
      return (w, .error (.disk fault))
    | .ok () =>
      return ({ w with
        lastSequence := entry.sequence
        validLength := w.validLength + entry.frame.length }, .ok ())

end JournalWriter

end Arbiter
