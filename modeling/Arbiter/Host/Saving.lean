import Arbiter.Host.Basic
import Arbiter.Snapshot

/-!
# Saving a snapshot

A snapshot is written to a draft beside its path, which then takes the place of what is there.  If
anything fails before that, the path holds what it held.
-/

namespace Arbiter.Host

/-- Where the draft of a snapshot is written. -/
def draftOf (path : Path) : Path :=
  path.withExtension "tmp"

/-- Saves a snapshot to the given path, or else to the one of the settings, and tells which. -/
def save (h : Host) (wanted : Option Path) : StateM Disk (Host × Except HostFault Path) := do
  match wanted.or h.snapshotPath with
  | none => return (h, .error (.request .noSnapshotPath))
  | some path =>
    let bytes := Snapshot.encode h.state
    match ← (Disk.replace path (draftOf path) bytes).run with
    | .error fault => return (h, .error (.disk fault))
    | .ok () => return ({ h with snapshotHash := some (Blake3.digest bytes) }, .ok path)

end Arbiter.Host
