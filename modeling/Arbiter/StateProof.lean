import Arbiter.Codec.Domain
import Arbiter.Digest.Blake3
import Arbiter.Journal.Replay

/-!
# Proofs of a state

A proof is a receipt that a journal leads to a state: the version together with a hash of the
journal and one of the state.  Whoever holds the journal checks it by replaying.  The hash is a
parameter; controllers use `Blake3.digest`.
-/

namespace Arbiter

/-- The bytes of a state that are hashed. -/
def State.image (s : State) : Bytes :=
  leBytes 4 protocolVersion ++ s.encode

/-- The bytes of an entry that are hashed: its sequence, the length of its encoding and the
encoding. -/
def Entry.image (e : Entry) : Bytes :=
  leBytes 8 e.sequence ++ leBytes 8 e.encode.length ++ e.encode

/-- The bytes of a journal that are hashed. -/
def journalImage (entries : List Entry) : Bytes :=
  entries.flatMap Entry.image

/-- The hash of a journal that grows: what has been hashed so far. -/
structure JournalHasher where
  /-- The bytes that were fed to the hash. -/
  fed : Bytes := []
  deriving DecidableEq

namespace JournalHasher

/-- Hashes one more entry. -/
def update (h : JournalHasher) (e : Entry) : JournalHasher :=
  { fed := h.fed ++ e.image }

/-- Hashes more entries. -/
def updateAll (h : JournalHasher) (entries : List Entry) : JournalHasher :=
  { fed := h.fed ++ journalImage entries }

end JournalHasher

section

variable {δ : Type} (digest : Bytes → δ)

/-- The hash of a state. -/
def State.hash (s : State) : δ :=
  digest s.image

/-- The hash of a journal. -/
def journalHash (entries : List Entry) : δ :=
  digest (journalImage entries)

/-- The hash of the entries seen so far. -/
def JournalHasher.finish (h : JournalHasher) : δ :=
  digest h.fed

end

/-- A receipt that a journal leads to a state. -/
structure StateProof (δ : Type) where
  protocolVersion : Nat
  version : Version
  journalHash : δ
  stateHash : δ
  deriving DecidableEq

namespace StateProof

variable {δ : Type} (digest : Bytes → δ)

/-- The proof for a state and the journal that leads to it. -/
def of (s : State) (entries : List Entry) : StateProof δ :=
  ⟨Arbiter.protocolVersion, s.version, Arbiter.journalHash digest entries, s.hash digest⟩

/-- Whether replaying a journal gives what a proof says. -/
def verify [DecidableEq δ] (p : StateProof δ) (policy : Policy) (entries : List Entry) :
    Except Corruption Bool := do
  let s ← rebuild policy entries
  return s.version = p.version ∧ s.hash digest = p.stateHash ∧
    Arbiter.journalHash digest entries = p.journalHash

end StateProof

end Arbiter
