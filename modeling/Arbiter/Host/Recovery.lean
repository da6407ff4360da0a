import Arbiter.Host.Basic
import Arbiter.Snapshot

/-!
# Recovery

A host comes back from what is on disk.  The journal is the truth; a snapshot only saves the work
of replaying the entries that it covers, which are hashed all the same.  A snapshot that is ahead
of the journal, an entry that no longer applies, and a state that does not pass the audit are
refused.
-/

namespace Arbiter.Host

/-- Reads the snapshot under a path. -/
def readSnapshot (d : Disk) (path : Path) : Except HostFault State :=
  match d.read path with
  | .error fault => .error (.disk fault)
  | .ok bytes => (Snapshot.decode bytes).mapError .corrupted

/-- The state that the journal continues: the one of the snapshot, if there is one, or else the
state in which nothing has happened yet. -/
def baseState (d : Disk) (settings : Settings) : Except HostFault State :=
  match settings.snapshotPath with
  | none => .ok (State.initial settings.policy)
  | some path =>
    if d.holds path then readSnapshot d path else .ok (State.initial settings.policy)

/-- Brings a state up to the end of a journal. -/
def catchUp (base : State) (entries : List Entry) : Except HostFault State :=
  if entries.length < base.version then
    .error (.request (.snapshotAhead base.version entries.length))
  else
    (do
      let state ← (base.replay entries).finished
      state.audit
      return state).mapError .corrupted

/-- Brings a host back from disk. -/
def recover (settings : Settings) : OnDisk HostFault Host := do
  let base ← Disk.look (baseState · settings)
  match settings.journalPath with
  | none => return { state := base, snapshotPath := settings.snapshotPath }
  | some path =>
    let (writer, contents) ← (JournalWriter.openAt path).adapt .journal
    let state ← Disk.settled (catchUp base contents.entries)
    return {
      state := state
      writer := some writer
      hasher := JournalHasher.updateAll {} contents.entries
      snapshotPath := settings.snapshotPath }

end Arbiter.Host
