/-!
# Media types

Whether a body is announced as JSON.  A media type is a type and a subtype with a slash between
them, and parameters behind semicolons; what follows the last `+` of a subtype is its suffix.
JSON is `application/json` and every `application` type of the suffix `json`, in either case.
-/

namespace Arbiter.Http.MediaType

/-- The marks that a token may contain besides letters and digits. -/
def marks : List Char :=
  "!#$%&'*+-.^_`|~".toList

/-- Whether a character may occur in a token. -/
def isTokenChar (c : Char) : Bool :=
  c.isAlphanum || marks.contains c

/-- Whether a character may occur between quotes. -/
def isQuotable (c : Char) : Bool :=
  32 ≤ c.toNat && c.toNat ≠ 127

/-- Where in the parameters a character stands.  `first` tells whether it is the first one of its
part. -/
inductive Part where
  /-- In the name of a parameter, or in the blanks before it. -/
  | name (first : Bool)
  /-- In a value without quotes. -/
  | value (first : Bool)
  /-- Between quotes. -/
  | quoted (first : Bool)
  /-- Behind the closing quote. -/
  | behind

/-- Whether a text is a list of parameters from the given part on.  The first character between
quotes is never the closing quote. -/
def isParameters : Part → List Char → Bool
  | .name first, [] => first
  | .value _, [] => true
  | .quoted _, [] => false
  | .behind, [] => true
  | .name first, c :: rest =>
    if first && c == ' ' then isParameters (.name true) rest
    else if isTokenChar c then isParameters (.name false) rest
    else !first && c == '=' && isParameters (.value true) rest
  | .value first, c :: rest =>
    if first && c == '"' then isParameters (.quoted true) rest
    else if isTokenChar c then isParameters (.value false) rest
    else !first && c == ';' && isParameters (.name true) rest
  | .quoted first, c :: rest =>
    if !first && c == '"' then isParameters .behind rest
    else isQuotable c && isParameters (.quoted false) rest
  | .behind, c :: rest =>
    if c == ' ' then isParameters .behind rest
    else c == ';' && isParameters (.name true) rest

/-- The parts of a subtype before and behind its last `+`; a `+` in front does not count. -/
def suffix? (subtype : List Char) : Option (List Char × List Char) :=
  match subtype.reverse.span (· != '+') with
  | (behind, _ :: before) =>
    if before.isEmpty then none else some (before.reverse, behind.reverse)
  | (_, []) => none

/-- Whether a subtype is that of JSON, or has it as its suffix. -/
def isJsonSubtype (subtype : List Char) : Bool :=
  let json := "json".toList
  match suffix? subtype with
  | none => subtype == json
  | some (base, suffix) => base == json || suffix == json

/-- Whether a media type is one of JSON. -/
def isJson (text : String) : Bool :=
  let text := text.toList.map Char.toLower
  match text.span isTokenChar with
  | (type, '/' :: rest) =>
    let (subtype, rest) := rest.span isTokenChar
    let wellFormed := match rest with
      | [] => true
      | c :: parameters => c == ';' && !subtype.isEmpty && isParameters (.name true) parameters
    wellFormed && type == "application".toList && isJsonSubtype subtype
  | _ => false

end Arbiter.Http.MediaType
