import Arbiter.Proofs.HashedBytes
import Arbiter.Proofs.ReplayWindow

/-!
# What a proof of a state binds

Replaying skips what a state covers and so leads from many lists of entries to one state.  But the
hashed bytes determine the journal and the policy, so a proof of that state is accepted for a single
journal and a single policy, unless two byte strings have the same hash.
-/

namespace Arbiter

/-! ## What a proof is accepted with -/

/-- Two byte strings have the same hash. -/
def Collision {δ : Type} (digest : Bytes → δ) : Prop :=
  ∃ x y, x ≠ y ∧ digest x = digest y

namespace StateProof

variable {δ : Type} [DecidableEq δ] {digest : Bytes → δ} {policy policy' : Policy} {s : State}
  {entries entries' : List Entry}

theorem verify_eq_ok_true_iff {p : StateProof δ} :
    p.verify digest policy entries = .ok true ↔
      ∃ s, rebuild policy entries = .ok s ∧ s.version = p.version ∧
        s.hash digest = p.stateHash ∧ Arbiter.journalHash digest entries = p.journalHash := by
  cases hrebuild : rebuild policy entries with
  | error _ => simp [verify, hrebuild, bind, Except.bind]
  | ok s => simp [verify, hrebuild, bind, Except.bind, pure, Except.pure]

/-- The proof of a state is accepted with the journal that leads to it. -/
theorem verify_of_trail (h : State.Trail (.initial policy) entries s) :
    (of digest s entries).verify digest policy entries = .ok true :=
  verify_eq_ok_true_iff.2 ⟨s, h.rebuild, rfl, rfl, rfl⟩

/-- Whatever else the proof of a state is accepted with gives a collision. -/
theorem eq_or_collision (hpolicy : policy.InRange) (hpolicy' : policy'.InRange)
    (hentries : ∀ e ∈ entries, e.InRange) (hentries' : ∀ e ∈ entries', e.InRange)
    (htrail : State.Trail (.initial policy) entries s)
    (h : (of digest s entries).verify digest policy' entries' = .ok true) :
    (policy' = policy ∧ entries' = entries) ∨ Collision digest := by
  obtain ⟨s', hrebuild, hversion, hstate, hjournal⟩ := verify_eq_ok_true_iff.1 h
  by_cases hjournalImage : journalImage entries' = journalImage entries
  · by_cases hstateImage : s'.image = s.image
    · obtain ⟨taken, -, htaken⟩ := State.exists_trail_of_rebuild hrebuild
      have hsame : s.policy = policy := htrail.policy_eq
      have hsame' : s'.policy = policy' := htaken.policy_eq
      have hpolicies := State.policy_eq_of_image (hsame'.symm ▸ hpolicy') (hsame.symm ▸ hpolicy)
        hversion hstateImage
      rw [hsame, hsame'] at hpolicies
      exact .inl ⟨hpolicies, journalImage_inj hentries' hentries hjournalImage⟩
    · exact .inr ⟨_, _, hstateImage, hstate⟩
  · exact .inr ⟨_, _, hjournalImage, hjournal⟩

end StateProof

/-- Commands were submitted to a new journal.  The proof of the state that they led to is accepted
with the policy and the entries of this journal, and with no others, if no two byte strings have the
same hash.  All numbers, those of the entries that the proof is tried with too, are ones of
sixty-four bits. -/
theorem proof_binds_policy_and_journal {δ : Type} [DecidableEq δ] {digest : Bytes → δ}
    (hdigest : Function.Injective digest) {policy policy' : Policy} (hpolicy : policy.InRange)
    (hpolicy' : policy'.InRange) {commands : List (Address × Command)} {r : JournalRun}
    (hr : r = (JournalRun.start policy).submits commands)
    (hentries : ∀ e ∈ r.journal.entries, e.InRange) {entries' : List Entry}
    (hentries' : ∀ e ∈ entries', e.InRange) :
    (StateProof.of digest r.state r.journal.entries).verify digest policy' entries' = .ok true ↔
      policy' = policy ∧ entries' = r.journal.entries := by
  have htraced : r.Traced policy := hr ▸ (JournalRun.Traced.start policy).submits commands
  constructor
  · intro hverify
    rcases StateProof.eq_or_collision hpolicy hpolicy' hentries hentries' htraced.trail hverify
      with hsame | ⟨x, y, hne, hcollision⟩
    · exact hsame
    · exact absurd (hdigest hcollision) hne
  · rintro ⟨rfl, rfl⟩
    exact StateProof.verify_of_trail htraced.trail

/-- The hash of a byte string along with the string itself. -/
def keptDigest (bytes : Bytes) : Bytes × Bytes :=
  (Blake3.digest bytes, bytes)

theorem proof_binds_policy_and_journal_of_mixedRun :
    rebuild {} (mixedRun.journal.entries ++ mixedRun.journal.entries) = .ok mixedRun.state ∧
      (StateProof.of keptDigest mixedRun.state mixedRun.journal.entries).verify keptDigest {}
        (mixedRun.journal.entries ++ mixedRun.journal.entries) ≠ .ok true ∧
      (StateProof.of keptDigest mixedRun.state mixedRun.journal.entries).verify keptDigest
        { minReplies := 2 } mixedRun.journal.entries ≠ .ok true ∧
      (StateProof.of keptDigest mixedRun.state mixedRun.journal.entries).verify keptDigest {}
        mixedRun.journal.entries = .ok true := by
  have hdigest : Function.Injective keptDigest := fun _ _ h => congrArg Prod.snd h
  have hpolicy : ({} : Policy).InRange := Policy.inRange_default
  have hpolicy' : ({ minReplies := 2 } : Policy).InRange := ⟨by decide, by decide, by decide⟩
  have hentries : ∀ e ∈ mixedRun.journal.entries, e.InRange := by decide +kernel
  have hdoubled : ∀ e ∈ mixedRun.journal.entries ++ mixedRun.journal.entries, e.InRange := by
    decide +kernel
  refine ⟨by decide +kernel, ?_, ?_, ?_⟩
  · intro hverify
    obtain ⟨-, htwice⟩ := (proof_binds_policy_and_journal hdigest hpolicy hpolicy (r := mixedRun)
      rfl hentries hdoubled).1 hverify
    exact absurd htwice (by decide +kernel)
  · intro hverify
    obtain ⟨hother, -⟩ := (proof_binds_policy_and_journal hdigest hpolicy hpolicy' (r := mixedRun)
      rfl hentries hentries).1 hverify
    exact absurd hother (by decide +kernel)
  · exact (proof_binds_policy_and_journal hdigest hpolicy hpolicy (r := mixedRun)
      rfl hentries hentries).2 ⟨rfl, rfl⟩

end Arbiter
