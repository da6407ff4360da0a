import Arbiter.Command
import Arbiter.Text.Hex

/-!
# Corrupted data

What can be wrong with the bytes of a journal or a snapshot, and with the history they tell.  What
exactly makes bytes undecodable is not part of the report: such bytes are reported by the mark
`<codec>`.
-/

namespace Arbiter

/-- What is wrong with stored data. -/
inductive Corruption where
  /-- The bytes are no encoding of a value. -/
  | undecodable
  /-- Bytes are left behind a journal entry. -/
  | trailingBytes (count : Nat)
  /-- An entry does not follow the last one of a journal. -/
  | outOfSequence (found last : Nat)
  /-- An entry skips versions of the state it is applied to. -/
  | journalJump (version : Version) (sequence : Nat)
  /-- The command of an entry is refused. -/
  | noLongerApplies (sequence : Nat) (command : Command) (refusal : Refusal)
  /-- A snapshot is shorter than its frame. -/
  | snapshotTooShort (length : Nat)
  /-- A snapshot does not begin with the mark of snapshots. -/
  | badMagic
  /-- A snapshot has an unknown format. -/
  | unsupportedFormat (format : Nat)
  /-- A snapshot announces a length beyond all lengths. -/
  | lengthOverflow
  /-- A snapshot has another length than it announces. -/
  | lengthMismatch (found announced : Nat)
  /-- The checksum of a snapshot does not fit. -/
  | checksumMismatch (stored computed : Nat)
  /-- The header and the body of a snapshot name different versions. -/
  | versionMismatch
  /-- The application at some place does not have the number of that place. -/
  | applicationOutOfSequence (id : ApplicationId)
  /-- An application was registered after the present. -/
  | applicationFromFuture (id : ApplicationId)
  /-- The event at some place does not have the number of that place. -/
  | eventOutOfSequence (id : EventId)
  /-- An event was sent against an application that is not there. -/
  | missingApplication (event : EventId) (application : ApplicationId)
  /-- The author of a reply scores itself. -/
  | selfScore (event : EventId) (author : Address)
  /-- An elected solver has no votes. -/
  | electedWithoutVotes (event : EventId) (solver : Address)
  /-- An event was closed for another solver than the elected one. -/
  | solverNotElected (event : EventId)
  /-- Any other reason, in words. -/
  | stated (reason : String)
  deriving DecidableEq

namespace Corruption

/-- The words for what is wrong, without the words that introduce them. -/
def reason : Corruption → String
  | .undecodable => "<codec>"
  | .trailingBytes count => s!"{count} trailing bytes after journal entry"
  | .outOfSequence found last => s!"journal sequence {found} does not follow {last}"
  | .journalJump version sequence => s!"journal jumps from {version} to {sequence}"
  | .noLongerApplies sequence command refusal =>
    s!"entry {sequence} ({command.name}) no longer applies: {refusal.message}"
  | .snapshotTooShort length => s!"snapshot too short: {length} bytes"
  | .badMagic => "bad snapshot magic"
  | .unsupportedFormat format => s!"unsupported snapshot format {format}"
  | .lengthOverflow => "snapshot length overflows"
  | .lengthMismatch found announced =>
    s!"snapshot length {found} does not match header ({announced})"
  | .checksumMismatch stored computed =>
    s!"snapshot checksum mismatch: expected 0x{Text.Hex.ofNat stored}, " ++
      s!"found 0x{Text.Hex.ofNat computed}"
  | .versionMismatch => "snapshot header version does not match body"
  | .applicationOutOfSequence id => s!"application id {id} out of sequence"
  | .applicationFromFuture id => s!"application #{id} from the future"
  | .eventOutOfSequence id => s!"event id {id} out of sequence"
  | .missingApplication event application =>
    s!"event #{event} references missing application #{application}"
  | .selfScore event author => s!"event #{event} has a self score from {author}"
  | .electedWithoutVotes event solver => s!"event #{event} elected {solver} without votes"
  | .solverNotElected event => s!"event #{event} resolved to a solver that was not elected"
  | .stated reason => reason

/-- The words for corrupted data. -/
def message (c : Corruption) : String :=
  "corrupted data: " ++ c.reason

end Corruption

end Arbiter
