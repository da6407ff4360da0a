import Arbiter.Codec.Domain
import Arbiter.Digest.Crc
import Arbiter.State.Audit

/-!
# Snapshots

A snapshot is the state of a controller in a frame: the mark `HIDR`, a format number of four bytes,
the version and the length of the body of eight bytes each, the body, and a check of eight bytes
over everything before it.  A snapshot is read only if its frame is intact and the state in it
passes the audit.
-/

namespace Arbiter.Snapshot

/-- The four bytes at the front of every snapshot. -/
def magic : Bytes := [0x48, 0x49, 0x44, 0x52]

/-- The format that is written and read. -/
def format : Nat := 1

/-- The number of bytes before the body. -/
def headerLength : Nat := 24

/-- The number of bytes behind the body. -/
def trailerLength : Nat := 8

/-- What the header of a snapshot says. -/
structure Header where
  format : Nat
  /-- The version of the state in the body. -/
  version : Nat
  bodyLength : Nat
  deriving DecidableEq, Repr

/-- The bytes of a header. -/
def Header.encode (h : Header) : Bytes :=
  magic ++ leBytes 4 h.format ++ leBytes 8 h.version ++ leBytes 8 h.bodyLength

/-- Reads the header of a snapshot; the whole snapshot has to be long enough for its frame. -/
def readHeader (bytes : Bytes) : Except Corruption Header :=
  if bytes.length < headerLength + trailerLength then .error (.snapshotTooShort bytes.length)
  else if bytes.take 4 ≠ magic then .error .badMagic
  else
    let found := leNat ((bytes.drop 4).take 4)
    if found ≠ format then .error (.unsupportedFormat found)
    else .ok ⟨found, leNat ((bytes.drop 8).take 8), leNat ((bytes.drop 16).take 8)⟩

/-- The check at the end of a snapshot. -/
def storedCheck (bytes : Bytes) : Nat :=
  leNat (bytes.drop (bytes.length - trailerLength))

/-- The check that a snapshot ought to have. -/
def computedCheck (bytes : Bytes) : Nat :=
  Crc.crc64 (bytes.take (bytes.length - trailerLength))

/-- The bytes of a state as a snapshot. -/
def encode (s : State) : Bytes :=
  let body := s.encode
  let framed := Header.encode ⟨format, s.version, body.length⟩ ++ body
  framed ++ leBytes 8 (Crc.crc64 framed)

/-- The body of a snapshot. -/
def body (bytes : Bytes) : Bytes :=
  (bytes.take (bytes.length - trailerLength)).drop headerLength

/-- Reads a snapshot.  Bytes at the end of the body that the state does not need are ignored. -/
def decode (bytes : Bytes) : Except Corruption State := do
  let header ← readHeader bytes
  let announced := header.bodyLength + (headerLength + trailerLength)
  if capacity 8 ≤ announced then throw .lengthOverflow
  if bytes.length ≠ announced then throw (.lengthMismatch bytes.length announced)
  if computedCheck bytes ≠ storedCheck bytes then
    throw (.checksumMismatch (storedCheck bytes) (computedCheck bytes))
  match State.codec.decode (body bytes) with
  | none => throw .undecodable
  | some (s, _) =>
    if s.version ≠ header.version then throw .versionMismatch
    s.audit
    return s

/-- The state that a replay starts with: the one in a snapshot, or the state in which nothing has
happened yet if nothing was saved. -/
def start (policy : Policy) (saved : Bytes) : Except Corruption State :=
  if saved.isEmpty then .ok (State.initial policy) else decode saved

end Arbiter.Snapshot
