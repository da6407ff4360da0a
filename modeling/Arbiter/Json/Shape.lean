import Arbiter.Json.Reader

/-!
# Reading values of a wanted shape

Readers for texts, integers, lists and records.  A record may be written as an object or as the
array of its fields in order.  In an object unknown fields are passed over and no field may occur
twice; in an array fields at the end may be left out if the record can do without them.
-/

namespace Arbiter.Json

/-- The fault of a value that has another shape than the wanted one: numbers, strings and words are
read in full first, and they may be malformed. -/
def mismatch (text : List Char) : Fault :=
  match text with
  | '[' :: _ => .misshapen
  | '{' :: _ => .misshapen
  | _ =>
    match value 0 text with
    | .error fault => fault
    | .ok _ => .misshapen

/-- Reads a string. -/
def stringShape : Reader String := fun text =>
  match skipSpace text with
  | '"' :: rest => stringFrom none [] rest
  | text => .error (mismatch text)

/-- Reads a string that stands for a value of another kind. -/
def parsedShape (parse : List Char → Option α) : Reader α := fun text => do
  let (s, rest) ← stringShape text
  match parse s.toList with
  | none => throw .misshapen
  | some a => return (a, rest)

/-- Reads a truth value. -/
def boolShape : Reader Bool := fun text =>
  match skipSpace text with
  | 't' :: rest => word "rue" true rest
  | 'f' :: rest => word "alse" false rest
  | text => .error (mismatch text)

/-- Reads an integer that lies between two bounds. -/
def integerShape (least most : Int) : Reader Int := fun text =>
  match skipSpace text with
  | [] => .error .malformed
  | c :: rest =>
    if startsNumber c then do
      match ← number (c :: rest) with
      | (.integer n, rest) => if least ≤ n ∧ n ≤ most then return (n, rest) else throw .misshapen
      | _ => throw .misshapen
    else .error (mismatch (c :: rest))

/-- Reads a natural number of sixty-four bits. -/
def natShape : Reader Nat := fun text => do
  let (n, rest) ← integerShape 0 18446744073709551615 text
  return (n.toNat, rest)

/-- Reads a value that may be `null`. -/
def optionalShape (shape : Reader α) : Reader (Option α) := fun text =>
  match skipSpace text with
  | 'n' :: rest => word "ull" none rest
  | text => (fun (a, rest) => (some a, rest)) <$> shape text

/-- Reads the items of an array and its closing bracket; `taken` holds the items read before, the
newest first. -/
def itemsShape (shape : Reader α) : (fuel : Nat) → (taken : List α) → Reader (List α)
  | 0, _, _ => .error .malformed
  | fuel + 1, taken, text => do
    let (item, rest) ← shape text
    match skipSpace rest with
    | ',' :: rest =>
      match skipSpace rest with
      | ']' :: _ => throw .malformed
      | rest => itemsShape shape fuel (item :: taken) rest
    | ']' :: rest => return ((item :: taken).reverse, rest)
    | _ => throw .malformed

/-- Reads an array whose items have one shape. -/
def listShape (shape : Reader α) : Reader (List α) := fun text =>
  match skipSpace text with
  | '[' :: rest =>
    match skipSpace rest with
    | ']' :: rest => .ok ([], rest)
    | rest => itemsShape shape (rest.length + 1) [] rest
  | text => .error (mismatch text)

/-- A field of a record that is filled in step by step. -/
structure Member (σ : Type) where
  name : String
  /-- Reads its value and gives the way to fill it in. -/
  read : Reader (σ → σ)

namespace Member

/-- A field whose value is read by `shape` and filled in by `fill`. -/
def of (name : String) (shape : Reader α) (fill : α → σ → σ) : Member σ :=
  ⟨name, fun text => (fun (a, rest) => (fill a, rest)) <$> shape text⟩

end Member

/-- Reads the fields of an object and its closing bracket in a text of less than `bound` characters.
`seen` holds the names that occurred, and `draft` what was filled in so far. -/
def namedFields (fields : List (Member σ)) : (bound : Nat) → (seen : List String) → (draft : σ) →
    Reader σ
  | 0, _, _, _ => .error .malformed
  | bound + 1, seen, draft, text => do
    match skipSpace text with
    | '"' :: rest =>
      let (name, rest) ← stringFrom none [] rest
      let field? := fields.find? (·.name == name)
      if field?.isSome && seen.contains name then throw .misshapen
      match skipSpace rest with
      | ':' :: rest =>
        let (draft, rest) ← match field? with
          | none => (fun (_, rest) => (draft, rest)) <$> skip bound rest
          | some field => (fun (fill, rest) => (fill draft, rest)) <$> field.read rest
        match skipSpace rest with
        | ',' :: rest => namedFields fields bound (name :: seen) draft rest
        | '}' :: rest => return (draft, rest)
        | _ => throw .malformed
      | _ => throw .malformed
    | _ => throw .malformed

/-- Reads the fields of an array and its closing bracket, as far as the array goes; `first` tells
whether no field was read before.  `complete` tells whether the fields that are left may be
missing. -/
def placedFields (complete : σ → Bool) : List (Member σ) → (first : Bool) → (draft : σ) → Reader σ
  | [], _, draft, text =>
    match skipSpace text with
    | ']' :: rest => .ok (draft, rest)
    | _ => .error .malformed
  | field :: fields, first, draft, text => do
    let read (text : List Char) := do
      let (fill, rest) ← field.read text
      placedFields complete fields false (fill draft) rest
    match skipSpace text, first with
    | [], _ => throw .malformed
    | ']' :: rest, _ => if complete draft then return (draft, rest) else throw .misshapen
    | ',' :: rest, false =>
      match skipSpace rest with
      | ']' :: _ => throw .malformed
      | rest => read rest
    | rest, true => read rest
    | _, false => throw .malformed

/-- Reads a record: fills in a draft field by field and finishes it, if nothing is missing. -/
def recordShape (fields : List (Member σ)) (draft : σ) (finish : σ → Option α) : Reader α :=
  fun text => do
    let (draft, rest) ← match skipSpace text with
      | '[' :: rest => placedFields (fun draft => (finish draft).isSome) fields true draft rest
      | '{' :: rest =>
        match skipSpace rest with
        | '}' :: rest => .ok (draft, rest)
        | rest => namedFields fields (rest.length + 1) [] draft rest
      | text => .error (mismatch text)
    match finish draft with
    | none => throw .misshapen
    | some a => return (a, rest)

/-- Reads a value that makes up a whole text, apart from blanks. -/
def whole (shape : Reader α) (text : String) : Except Fault α := do
  let (a, rest) ← shape text.toList
  if (skipSpace rest).isEmpty then return a else throw .malformed

end Arbiter.Json
