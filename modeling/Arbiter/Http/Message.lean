import Arbiter.Json.Basic

/-!
# Requests and responses

What a caller sends over the network, and what it is sent back.
-/

namespace Arbiter.Http

/-- A request. -/
structure Request where
  /-- The method, such as `GET`. -/
  method : String
  /-- The path, with a query or a fragment behind it and a scheme and a host before it, as far as
  they are written. -/
  target : String
  headers : List (String × String) := []
  body : Option String := none
  deriving DecidableEq

namespace Request

/-- Whether a text consists of visible ASCII characters, blanks and tabs. -/
def isPlain (text : String) : Bool :=
  text.toList.all fun c => (32 ≤ c.toNat && c.toNat ≤ 126) || c == '\t'

/-- The first header of a name, in which case does not matter. -/
def header? (r : Request) (name : String) : Option String :=
  (r.headers.find? fun (name', _) => name'.toLower == name).map (·.2)

/-- The first header of a name, unless it has characters that are not plain. -/
def plainHeader? (r : Request) (name : String) : Option String :=
  (r.header? name).filter isPlain

/-- Whether a character may stand in the name of a scheme. -/
def isSchemeChar (c : Char) : Bool :=
  c.isAlphanum || c == '+' || c == '-' || c == '.' || c == '~'

/-- Whether a character stands behind a path. -/
def endsPath (c : Char) : Bool :=
  c == '?' || c == '#'

/-- What stands behind the scheme and the host of a target.  A target without a scheme is a host
alone, and has nothing behind it. -/
def behindHost? (target : List Char) : Option (List Char) :=
  match target.dropWhile isSchemeChar with
  | ':' :: '/' :: '/' :: rest => some (rest.dropWhile fun c => c != '/' && !endsPath c)
  | _ => none

/-- The path of a target, without the query and the fragment.  Behind a scheme and a host it may be
left out, and is then the shortest one. -/
def pathOf (target : List Char) : List Char :=
  match target with
  | '/' :: _ => target.takeWhile (!endsPath ·)
  | _ =>
    match behindHost? target with
    | none => []
    | some rest =>
      match rest.takeWhile (!endsPath ·) with
      | [] => ['/']
      | path => path

/-- The path of a request. -/
def path (r : Request) : List Char :=
  pathOf r.target.toList

end Request

/-- What a response carries. -/
inductive Content where
  | empty
  | text (s : String)
  | json (value : Json)

/-- A response. -/
structure Response where
  status : Nat
  /-- What it carries. -/
  content : Content := .empty

namespace Response

/-- The response that everything went well. -/
def ok (value : Json) : Response :=
  ⟨200, .json value⟩

/-- A response without content. -/
def bare (status : Nat) : Response :=
  ⟨status, .empty⟩

/-- The response without what it carries. -/
def headOnly (r : Response) : Response :=
  bare r.status

end Response

end Arbiter.Http
