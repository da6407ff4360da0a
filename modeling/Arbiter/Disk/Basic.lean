import Arbiter.Bytes
import Arbiter.Disk.Path
import Arbiter.OrderedMap

/-!
# The disk

A disk holds directories and files.  A file is known by its number and may stand under a name; it
stays what it is when its name is moved or taken away, so whoever holds its number goes on writing
to it.  A disk may have a greatest length for its files, and it may be told beforehand which of
the coming changes fail.

Names are looked up from the root.  `Disk.locate` finds out where a path leads, and everything
else is said in terms of that.
-/

namespace Arbiter

/-- Why a file cannot be used as it should. -/
inductive DiskFault where
  /-- There is nothing under the path. -/
  | notFound
  /-- Reading or writing broke down. -/
  | broken
  /-- The path names a directory that is in use. -/
  | busy
  /-- There is something under the path. -/
  | occupied
  /-- Something that has to be a directory is none. -/
  | notDirectory
  /-- Something that has to be a file is a directory. -/
  | isDirectory
  /-- The file would grow beyond the greatest length. -/
  | tooLarge
  /-- A name or the whole path is too long. -/
  | nameTooLong
  /-- The path contains the character zero. -/
  | zeroInPath
  /-- Something to be copied is not a file. -/
  | notCopied
  /-- Any other reason, in words. -/
  | stated (reason : String)
  deriving DecidableEq

/-- The words for a disk fault. -/
def DiskFault.message : DiskFault → String
  | .notFound => "No such file or directory (os error 2)"
  | .broken => "Input/output error (os error 5)"
  | .busy => "Device or resource busy (os error 16)"
  | .occupied => "File exists (os error 17)"
  | .notDirectory => "Not a directory (os error 20)"
  | .isDirectory => "Is a directory (os error 21)"
  | .tooLarge => "File too large (os error 27)"
  | .nameTooLong => "File name too long (os error 36)"
  | .zeroInPath => "file name contained an unexpected NUL byte"
  | .notCopied => "the source path is neither a regular file nor a symlink to a regular file"
  | .stated reason => reason

/-- The number of a file. -/
abbrev FileId := Nat

/-- A place on a disk: the names that lead to it from the root. -/
abbrev Place := List String

/-- What stands at a place. -/
inductive Inode where
  | directory
  | file (id : FileId)
  deriving DecidableEq, Repr

/-- A disk. -/
structure Disk where
  /-- What stands where; the root is a directory and is not listed. -/
  inodes : OrderedMap Place Inode := .empty
  /-- The contents of the files by their numbers. -/
  contents : List Bytes := []
  /-- The greatest length of a file, if there is one. -/
  limit : Option Nat := none
  /-- How the coming changes go: none goes as it should, and one with a number fails after it has
  stored that many bytes.  All later changes go as they should. -/
  mishaps : List (Option Nat) := []
  deriving DecidableEq

/-- Work on a disk that may fail; what was done before the failure stays done. -/
abbrev OnDisk (ε α : Type) := ExceptT ε (StateM Disk) α

namespace Disk

instance : Inhabited Disk := ⟨{}⟩

/-- What stands at a place. -/
def inode? (d : Disk) : Place → Option Inode
  | [] => some .directory
  | place => d.inodes.get? place

/-- The contents of a file. -/
def content (d : Disk) (id : FileId) : Bytes :=
  d.contents[id]?.getD []

/-- The disk with other contents in a file. -/
def withContent (d : Disk) (id : FileId) (bytes : Bytes) : Disk :=
  { d with contents := d.contents.set id bytes }

/-! ### Finding the way -/

/-- The greatest length in bytes of a name. -/
def longestName : Nat := 255

/-- The length in bytes from which on a path is too long. -/
def longestPath : Nat := 4096

/-- Where a path leads. -/
structure Spot where
  place : Place
  inode? : Option Inode
  /-- Whether the path ends in a name, and not by staying or going up. -/
  named : Bool
  /-- Whether the path ends in a slash, so that it has to lead to a directory. -/
  slash : Bool

/-- Goes from a directory into the one of a name. -/
def enter (d : Disk) (place : Place) (name : String) : Except DiskFault Place :=
  if name = "." then .ok place
  else if name = ".." then .ok place.dropLast
  else if longestName < name.utf8ByteSize then .error .nameTooLong
  else
    match d.inode? (place ++ [name]) with
    | none => .error .notFound
    | some (.file _) => .error .notDirectory
    | some .directory => .ok (place ++ [name])

/-- Looks up the last name of a path in a directory. -/
def arrive (d : Disk) (slash : Bool) (place : Place) (name : String) : Except DiskFault Spot :=
  if name = "." then .ok ⟨place, some .directory, false, slash⟩
  else if name = ".." then .ok ⟨place.dropLast, some .directory, false, slash⟩
  else if longestName < name.utf8ByteSize then .error .nameTooLong
  else .ok ⟨place ++ [name], d.inode? (place ++ [name]), true, slash⟩

/-- The directory that the last name of a path is looked up in, and that name; everything before it
has to be a directory.  The path of the root has no last name. -/
def approach (d : Disk) (path : Path) : Except DiskFault (Place × Option String) :=
  if path.text.toList.contains (Char.ofNat 0) then .error .zeroInPath
  else if path.text.isEmpty then .error .notFound
  else if longestPath ≤ path.text.utf8ByteSize then .error .nameTooLong
  else
    match path.names.reverse with
    | [] => .ok ([], none)
    | name :: before => do return (← before.reverse.foldlM d.enter [], some name)

/-- Finds out where a path leads. -/
def locate (d : Disk) (path : Path) : Except DiskFault Spot := do
  match ← d.approach path with
  | (place, none) => return ⟨place, some .directory, false, true⟩
  | (place, some name) => d.arrive path.endsInSlash place name

/-! ### Looking without changing -/

/-- What a path leads to. -/
def find (d : Disk) (path : Path) : Except DiskFault (Place × Inode) := do
  let spot ← d.locate path
  match spot.inode? with
  | none => throw .notFound
  | some .directory => return (spot.place, .directory)
  | some (.file id) => if spot.slash then throw .notDirectory else return (spot.place, .file id)

/-- Whether there is something under a path. -/
def holds (d : Disk) (path : Path) : Bool :=
  (d.find path).isOk

/-- The names in a directory with what stands under them, in order. -/
def children (d : Disk) (place : Place) : List (String × Inode) :=
  d.inodes.toList.filterMap fun (place', inode) =>
    match place'.getLast? with
    | some name => if place'.dropLast = place then some (name, inode) else none
    | none => none

/-- The length of what stands at a place; a directory has one that is not zero. -/
def lengthAt (d : Disk) (place : Place) : Inode → Nat
  | .directory => 40 + 20 * (d.children place).length
  | .file id => (d.content id).length

/-- The length of what a path leads to. -/
def length (d : Disk) (path : Path) : Except DiskFault Nat := do
  let (place, inode) ← d.find path
  return d.lengthAt place inode

/-- The contents of the file under a path. -/
def read (d : Disk) (path : Path) : Except DiskFault Bytes := do
  match ← d.find path with
  | (_, .directory) => throw .isDirectory
  | (_, .file id) => return d.content id

/-- The names and lengths of what is in the directory under a path, in order. -/
def list (d : Disk) (path : Path) : Except DiskFault (List (String × Nat)) := do
  match ← d.find path with
  | (place, .directory) =>
    return (d.children place).map fun (name, inode) => (name, d.lengthAt (place ++ [name]) inode)
  | (_, .file _) => throw .notDirectory

end Disk

end Arbiter
