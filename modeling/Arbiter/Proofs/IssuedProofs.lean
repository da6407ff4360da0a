import Arbiter.Proofs.Receipts

/-!
# Which proofs are accepted

A proof is issued for a state and the journal that leads to it.  Whoever checks a proof replays the
journal and compares what comes out with the proof, field by field, and only the protocol that the
proof names is left out of the comparison.  So a proof is accepted exactly when, said of the current
protocol, it is the one that would be issued.
-/

namespace Arbiter.StateProof

variable {δ : Type} {digest : Bytes → δ} {policy : Policy} {entries : List Entry} {s : State}
  {p : StateProof δ}

theorem eq_of_iff :
    p = of digest s entries ↔
      p.protocolVersion = Arbiter.protocolVersion ∧ s.version = p.version ∧
        s.hash digest = p.stateHash ∧ Arbiter.journalHash digest entries = p.journalHash := by
  constructor
  · rintro rfl
    exact ⟨rfl, rfl, rfl, rfl⟩
  · obtain ⟨protocol, version, journal, state⟩ := p
    rintro ⟨rfl, rfl, rfl, rfl⟩
    rfl

/-- Said of the current protocol, a proof is the issued one if the other three fields are right. -/
theorem current_eq_of_iff :
    { p with protocolVersion := Arbiter.protocolVersion } = of digest s entries ↔
      s.version = p.version ∧ s.hash digest = p.stateHash ∧
        Arbiter.journalHash digest entries = p.journalHash := by
  rw [eq_of_iff]
  exact ⟨fun h => h.2, fun h => ⟨rfl, h⟩⟩

/-- A proof is accepted exactly when the journal can be replayed and the proof, said of the current
protocol, is the one that would be issued for the state that comes out.  It is that very proof
exactly when besides it names the current protocol. -/
theorem accepted_up_to_protocol [DecidableEq δ] (digest : Bytes → δ) (p : StateProof δ)
    (policy : Policy) (entries : List Entry) :
    (p.verify digest policy entries = .ok true ↔
      ∃ s, rebuild policy entries = .ok s ∧
        { p with protocolVersion := Arbiter.protocolVersion } = of digest s entries) ∧
    ((∃ s, rebuild policy entries = .ok s ∧ p = of digest s entries) ↔
      p.verify digest policy entries = .ok true ∧
        p.protocolVersion = Arbiter.protocolVersion) := by
  constructor
  · rw [verify_eq_ok_true_iff]
    exact exists_congr fun s => and_congr_right fun _ => current_eq_of_iff.symm
  · rw [verify_eq_ok_true_iff]
    constructor
    · rintro ⟨s, hrebuild, hissued⟩
      obtain ⟨hprotocol, hfields⟩ := eq_of_iff.1 hissued
      exact ⟨⟨s, hrebuild, hfields⟩, hprotocol⟩
    · rintro ⟨⟨s, hrebuild, hfields⟩, hprotocol⟩
      exact ⟨s, hrebuild, eq_of_iff.2 ⟨hprotocol, hfields⟩⟩

/-- A proof that names a protocol there is not, and is otherwise the one for two registrations. -/
def ofOtherProtocol : StateProof Bytes :=
  { of Blake3.digest mixedRun.state mixedRun.journal.entries with protocolVersion := 2 }

/-- A proof is accepted although it names another protocol than every proof that is issued. -/
theorem other_protocol_is_accepted :
    ofOtherProtocol.verify Blake3.digest {} mixedRun.journal.entries = .ok true ∧
      ¬ ∃ s, rebuild {} mixedRun.journal.entries = .ok s ∧
        ofOtherProtocol = of Blake3.digest s mixedRun.journal.entries := by
  have hrebuild : rebuild {} mixedRun.journal.entries = .ok mixedRun.state := by decide +kernel
  constructor
  · exact verify_eq_ok_true_iff.2 ⟨mixedRun.state, hrebuild, rfl, rfl, rfl⟩
  · rintro ⟨s, -, hissued⟩
    have hprotocol : ofOtherProtocol.protocolVersion = Arbiter.protocolVersion :=
      congrArg protocolVersion hissued
    exact absurd hprotocol (by decide)

end Arbiter.StateProof
