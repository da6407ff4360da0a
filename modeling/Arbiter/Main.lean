import Arbiter.CommandLine

/-!
# The program

The files that the command line names are read, and the run of the program is printed.
-/

namespace Arbiter.CommandLine

open Arbiter.Offline

/-- What went wrong when a file was read. -/
def faultOf : IO.Error → DiskFault
  | .noFileOrDirectory .. => .notFound
  | .inappropriateType _ 21 _ => .isDirectory
  | .inappropriateType .. => .notDirectory
  | error => .stated (toString error)

/-- Reads a file. -/
def readFile (path : Path) : IO (Except DiskFault Bytes) := do
  try
    let bytes ← IO.FS.readBinFile path.text
    return .ok bytes.toList
  catch error => return .error (faultOf error)

/-- The files that were read; no other file is there. -/
def filesOf (contents : List (Path × Except DiskFault Bytes)) : Files := fun path =>
  match contents.find? (·.1 = path) with
  | none => .error .notFound
  | some (_, result) => result

/-- Reads the files of some paths. -/
def readFiles (paths : List Path) : IO Files :=
  filesOf <$> paths.mapM fun path => do return (path, ← readFile path)

end Arbiter.CommandLine

/-- Runs the program. -/
def main (words : List String) : IO UInt32 := do
  let paths := match Arbiter.CommandLine.parse words with
    | .error _ => []
    | .ok task => task.paths
  let run := Arbiter.CommandLine.run (← Arbiter.CommandLine.readFiles paths) words
  IO.print run.output
  IO.eprint run.errors
  return UInt32.ofNat run.code
