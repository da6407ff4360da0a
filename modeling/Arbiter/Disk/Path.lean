import Arbiter.Text.Split

/-!
# Paths

A path is the text that names a file: names between slashes.  Where it leads is a matter of the
disk; here it is only taken apart.
-/

namespace Arbiter

/-- A path as it is written. -/
structure Path where
  text : String
  deriving DecidableEq

namespace Path

instance : ToString Path := ⟨text⟩

/-- The parts of a path between its slashes; some may be empty. -/
def parts (p : Path) : List (List Char) :=
  Text.split '/' p.text.toList

/-- The names that a path goes through. -/
def names (p : Path) : List String :=
  (p.parts.filter (!·.isEmpty)).map String.ofList

/-- Whether a slash stands at the end of a path. -/
def endsInSlash (p : Path) : Bool :=
  p.parts.getLast? == some []

/-- Whether a part leaves a path where it is. -/
def isIdle (part : List Char) : Bool :=
  part.isEmpty || part == ['.']

/-- The last name of a path and the parts before it.  What leaves the path where it is does not
count, and a path that ends by going up or that names nothing has no last name. -/
def lastName? (p : Path) : Option (List (List Char) × List Char) :=
  match p.parts.reverse.dropWhile isIdle with
  | [] => none
  | name :: before => if name = ['.', '.'] then none else some (before.reverse, name)

/-- A name without its extension: without the last point and what follows it, unless that point
comes first. -/
def stem (name : List Char) : List Char :=
  match name.reverse.dropWhile (· != '.') with
  | [] => name
  | _ :: before => if before.isEmpty then name else before.reverse

/-- The path whose last name has the given extension in place of its own.  A path without a last
name stays as it is.  At the end of a path a name of two points and an extension is left with the
two points, which lead up and are no last name any more, and so gets no new extension. -/
def withExtension (extension : String) (p : Path) : Path :=
  match p.lastName? with
  | none => p
  | some (before, name) =>
    let last :=
      if stem name = ['.'] ∧ p.parts.getLast? = some name then ['.', '.']
      else stem name ++ '.' :: extension.toList
    ⟨String.ofList (Text.join '/' (before ++ [last]))⟩

end Path

end Arbiter
