import Arbiter.Codec.Domain
import Arbiter.Digest.Crc

/-!
# Journal files

A journal file is a header of sixteen bytes and a frame for every entry.  The header holds the
format and the protocol version, four bytes each, and eight bytes that are written as zero.  A
frame holds the sequence of eight bytes, the length of the entry and its check of four bytes each,
and the entry.

A file is read frame by frame.  What the end of the file cuts short is the tail of an append that
was torn, and is reported as such; every other defect is an error.
-/

namespace Arbiter

/-- What is wrong with the header of a journal file. -/
inductive HeaderFault where
  | tooShort (found : Nat)
  | format (found : Nat)
  | protocol (found : Nat)
  /-- Any other reason, in words. -/
  | stated (reason : String)
  deriving DecidableEq

/-- What is wrong with a frame. -/
inductive FrameFault where
  | checksum
  | sequence (found expected : Nat)
  | entry (corruption : Corruption)
  /-- The frame and the entry name different sequences. -/
  | disagreement (outer inner : Nat)
  /-- An entry was to be appended that is not the next one. -/
  | appended (found expected : Nat)
  /-- Any other reason, in words. -/
  | stated (reason : String)
  deriving DecidableEq

/-- The format of the journal files that are written and read. -/
def journalFormat : Nat := 1

/-- The length of the header of a journal file. -/
def journalHeaderLength : Nat := 16

/-- The length of the head of a frame. -/
def frameHeadLength : Nat := 16

/-- The words for a header fault. -/
def HeaderFault.reason : HeaderFault → String
  | .tooShort found => s!"{found} bytes, need {journalHeaderLength}"
  | .format found => s!"format {found} (expected {journalFormat})"
  | .protocol found => s!"protocol {found} (expected {protocolVersion})"
  | .stated reason => reason

/-- The words for a frame fault. -/
def FrameFault.reason : FrameFault → String
  | .checksum => "checksum mismatch"
  | .sequence found expected => s!"sequence {found} (expected {expected})"
  | .entry corruption => corruption.message
  | .disagreement outer inner =>
    s!"frame sequence {outer} disagrees with entry sequence {inner}"
  | .appended found expected => s!"append of sequence {found} (expected {expected})"
  | .stated reason => reason

/-- Why a journal file cannot be read. -/
inductive ScanFault where
  | header (fault : HeaderFault)
  /-- The frame at an offset is not acceptable. -/
  | frame (offset : Nat) (fault : FrameFault)
  deriving DecidableEq

/-- The header of a journal file. -/
def journalHeader : Bytes :=
  leBytes 4 journalFormat ++ leBytes 4 protocolVersion ++ leBytes 8 0

/-- What is wrong with the header of a journal file, if something is; the eight bytes at its end
are not looked at. -/
def checkHeader (bytes : Bytes) : Except HeaderFault Unit :=
  if bytes.length < journalHeaderLength then .error (.tooShort bytes.length)
  else if leNat (bytes.take 4) ≠ journalFormat then .error (.format (leNat (bytes.take 4)))
  else if leNat ((bytes.drop 4).take 4) ≠ protocolVersion then
    .error (.protocol (leNat ((bytes.drop 4).take 4)))
  else .ok ()

/-- A frame around the bytes of an entry. -/
def encodeFrame (sequence : Nat) (payload : Bytes) : Bytes :=
  leBytes 8 sequence ++ leBytes 4 payload.length ++ leBytes 4 (Crc.crc32 payload) ++ payload

/-- The frame of an entry. -/
def Entry.frame (e : Entry) : Bytes :=
  encodeFrame e.sequence e.encode

/-- The file that holds the given entries. -/
def journalFile (entries : List Entry) : Bytes :=
  journalHeader ++ entries.flatMap Entry.frame

/-- What is found at a place of a journal file. -/
inductive FrameReading where
  /-- The file ends before the frame does. -/
  | torn
  /-- A frame that is not acceptable. -/
  | broken (fault : FrameFault)
  /-- A frame of some length that holds an entry, and what follows it. -/
  | whole (length : Nat) (entry : Entry) (rest : Bytes)

/-- The entry in a frame whose head and payload were cut out, if the frame is acceptable. -/
def openFrame (expected sequence check : Nat) (payload : Bytes) : Except FrameFault Entry := do
  if Crc.crc32 payload ≠ check then throw .checksum
  if sequence ≠ expected then throw (.sequence sequence expected)
  match Entry.decode payload with
  | .error corruption => throw (.entry corruption)
  | .ok entry =>
    if entry.sequence ≠ sequence then throw (.disagreement sequence entry.sequence)
    return entry

/-- Reads the frame at the front, which has to hold the entry of the expected sequence. -/
def readFrame (expected : Nat) (bytes : Bytes) : FrameReading :=
  match takeBytes frameHeadLength bytes with
  | none => .torn
  | some (head, behind) =>
    match takeBytes (leNat ((head.drop 8).take 4)) behind with
    | none => .torn
    | some (payload, rest) =>
      match openFrame expected (leNat (head.take 8)) (leNat (head.drop 12)) payload with
      | .error fault => .broken fault
      | .ok entry => .whole (frameHeadLength + payload.length) entry rest

/-- What a journal file holds. -/
structure JournalContents where
  /-- The entries, from the oldest to the newest. -/
  entries : List Entry
  /-- The length of the file up to the end of the last whole frame. -/
  validLength : Nat
  /-- The length of what follows the last whole frame. -/
  tornTail : Nat
  deriving DecidableEq

/-- Reads frames from a place on; `taken` holds the entries read before, the newest first. -/
def scanFrames : (fuel : Nat) → (offset : Nat) → (taken : List Entry) → Bytes →
    Except ScanFault JournalContents
  | _, offset, taken, [] => .ok ⟨taken.reverse, offset, 0⟩
  | 0, offset, taken, rest => .ok ⟨taken.reverse, offset, rest.length⟩
  | fuel + 1, offset, taken, rest =>
    match readFrame (taken.length + 1) rest with
    | .torn => .ok ⟨taken.reverse, offset, rest.length⟩
    | .broken fault => .error (.frame offset fault)
    | .whole length entry behind => scanFrames fuel (offset + length) (entry :: taken) behind

/-- Reads a whole journal file.  There are at most as many frames as bytes. -/
def scan (bytes : Bytes) : Except ScanFault JournalContents :=
  match checkHeader bytes with
  | .error fault => .error (.header fault)
  | .ok () =>
    scanFrames bytes.length journalHeaderLength [] (bytes.drop journalHeaderLength)

end Arbiter
