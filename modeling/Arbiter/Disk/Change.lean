import Arbiter.Disk.Basic

/-!
# Changing a disk

The changes that journals and snapshots are kept with.  Each of them either goes as it should or,
when the disk was told so, fails; adding bytes to a file may fail half-way, all others fail without
a trace.
-/

namespace Arbiter.Disk

/-- Turns a result into work that leaves the disk as it is. -/
def settled (result : Except ε α) : OnDisk ε α :=
  ExceptT.mk (pure result)

/-- Looks at the disk. -/
def look (f : Disk → Except ε α) : OnDisk ε α :=
  ExceptT.mk fun d => (f d, d)

/-- How the next change goes. -/
def nextMishap : OnDisk DiskFault (Option Nat) :=
  ExceptT.mk fun d => (.ok (d.mishaps.headD none), { d with mishaps := d.mishaps.tail })

/-- Passes the next change on to the disk, or fails in its place. -/
def attempt (change : Disk → Except DiskFault (α × Disk)) : OnDisk DiskFault α := do
  if (← nextMishap).isSome then throw .broken
  ExceptT.mk fun d =>
    match change d with
    | .error fault => (.error fault, d)
    | .ok (a, d') => (.ok a, d')

/-- The file under a path, to be written to. -/
def openFile (path : Path) : OnDisk DiskFault FileId :=
  attempt fun d => do
    match ← d.find path with
    | (_, .directory) => throw .isDirectory
    | (_, .file id) => return (id, d)

/-- The file under a path, to be written to; it is made if there is none.  A path that ends in a
slash is refused before its last name is looked at. -/
def openOrMake (path : Path) : OnDisk DiskFault FileId :=
  attempt fun d => do
    let _ ← d.approach path
    if path.endsInSlash then throw .isDirectory
    let spot ← d.locate path
    if !spot.named then throw .isDirectory
    match spot.inode? with
    | some .directory => throw .isDirectory
    | some (.file id) => return (id, d)
    | none =>
      let id := d.contents.length
      return (id, { d with
        inodes := d.inodes.insert spot.place (.file id)
        contents := d.contents ++ [[]] })

/-- The file under a path, to be written anew; it is made if there is none and emptied if there is
one. -/
def make (path : Path) : OnDisk DiskFault FileId := do
  let id ← openOrMake path
  modify (·.withContent id [])
  return id

/-- How many more bytes a file of some length can take, of as many as are to be added. -/
def room (d : Disk) (length wanted : Nat) : Nat :=
  match d.limit with
  | none => wanted
  | some limit => min wanted (limit - length)

/-- Adds bytes at the end of a file.  When they do not all fit, those that do are stored. -/
def append (id : FileId) (bytes : Bytes) : OnDisk DiskFault Unit := do
  let mishap ← nextMishap
  ExceptT.mk fun d =>
    let room := d.room (d.content id).length bytes.length
    let store (count : Nat) := d.withContent id (d.content id ++ bytes.take count)
    match mishap with
    | some count => (.error .broken, store (min count room))
    | none => (if room < bytes.length then .error .tooLarge else .ok (), store room)

/-- Makes sure that what was written to a file is kept. -/
def sync (_ : FileId) : OnDisk DiskFault Unit :=
  attempt fun d => .ok ((), d)

/-- Cuts a file to a length, or fills it up with zeros. -/
def setLength (id : FileId) (length : Nat) : OnDisk DiskFault Unit :=
  attempt fun d =>
    let old := d.content id
    if old.length < length ∧ d.room old.length (length - old.length) < length - old.length then
      .error .tooLarge
    else .ok ((), d.withContent id (old.take length ++ List.replicate (length - old.length) 0))

/-- Moves a file to another path, in place of the file that is there. -/
def move (source target : Path) : OnDisk DiskFault Unit :=
  attempt fun d => do
    let start ← d.locate source
    let goal ← d.locate target
    unless start.named && goal.named do throw .busy
    match start.inode? with
    | none => throw .notFound
    | some .directory => throw .isDirectory
    | some (.file id) =>
      if start.slash || goal.slash then throw .notDirectory
      if goal.inode? = some .directory then throw .isDirectory
      return ((), { d with
        inodes := (d.inodes.erase start.place).insert goal.place (.file id) })

/-- Takes away the name of a file. -/
def remove (path : Path) : OnDisk DiskFault Unit :=
  attempt fun d => do
    match ← d.find path with
    | (_, .directory) => throw .isDirectory
    | (place, .file _) => return ((), { d with inodes := d.inodes.erase place })

/-- Makes a directory. -/
def makeDirectory (path : Path) : OnDisk DiskFault Unit :=
  attempt fun d => do
    let spot ← d.locate path
    if spot.inode?.isSome then throw .occupied
    return ((), { d with inodes := d.inodes.insert spot.place .directory })

/-- Writes a file anew. -/
def write (path : Path) (bytes : Bytes) : OnDisk DiskFault Unit := do
  append (← make path) bytes

/-- Writes a file anew with what `f` makes of its contents; there has to be one. -/
def edit (path : Path) (f : Bytes → Bytes) : OnDisk DiskFault Unit := do
  let bytes ← look (·.read path)
  write path (f bytes)

/-- Copies a file.  The target is emptied first, so that a file copied to itself ends up empty. -/
def copy (source target : Path) : OnDisk DiskFault Unit := do
  let id ← look fun d => do
    match ← d.find source with
    | (_, .directory) => throw .notCopied
    | (_, .file id) => return id
  let goal ← make target
  append goal ((← get).content id)

/-- Writes a file by the way of another one: the bytes go to `draft`, which takes the place of
`path` once it is complete. -/
def replace (path draft : Path) (bytes : Bytes) : OnDisk DiskFault Unit := do
  let id ← make draft
  append id bytes
  sync id
  move draft path

end Arbiter.Disk
