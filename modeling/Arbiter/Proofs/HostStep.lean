import Arbiter.Host.Basic
import Arbiter.Proofs.FaultyJournal
import Arbiter.Proofs.Trail

/-!
# What a host holds

A host with a journal holds the state that the acknowledged entries lead to and has hashed exactly
these entries, and its writer keeps them.  A submitted command is refused, or its entry is
acknowledged and it is carried out, or the journal fails and the state stays as it is.
-/

namespace Arbiter.Host

open Disk State

variable {h h' : Host} {d d' : Disk} {path : Path} {place : Place} {policy : Policy}
  {acked : List Entry} {pending : Entry → Prop} {caller : Address} {command : Command}

/-! ## Single commands -/

theorem run_enter {w : JournalWriter} (hwriter : h.writer = some w) (e : Entry) (d : Disk) :
    (h.enter e).run d =
      (({ h with writer := some ((w.append e).run d).1.1 }, ((w.append e).run d).1.2),
        ((w.append e).run d).2) := by
  simp only [enter, hwriter]
  rfl

theorem run_submit (h : Host) (caller : Address) (command : Command) (d : Disk) :
    (h.submit caller command).run d =
      match h.state.check caller command with
      | .error refusal => ((h, .error (.refused refusal)), d)
      | .ok () =>
        match (h.enter (h.nextEntry caller command)).run d with
        | ((h', .error fault), d') => ((h', .error (.journal fault)), d')
        | ((h', .ok ()), d') => (h'.carryOut caller command, d') := by
  unfold submit
  cases h.state.check caller command with
  | error refusal => rfl
  | ok _ =>
      simp only
      rw [StateT.run_bind]
      rcases (h.enter (h.nextEntry caller command)).run d with ⟨⟨h', _ | _⟩, d'⟩ <;> rfl

theorem carryOut_of_accepted {s : State} {outcome : Outcome}
    (haccepted : Accepted h.state caller command s outcome) :
    h.carryOut caller command =
      ({ h with state := s, hasher := h.hasher.update (h.nextEntry caller command) },
        .ok outcome) := by
  simp only [carryOut, apply_eq_ok_iff.2 haccepted]

/-- A command that passes the check is not refused any more. -/
theorem run_submit_ne_refused (hcheck : h.state.check caller command = .ok ()) (d : Disk)
    (refusal : Refusal) : ((h.submit caller command).run d).1.2 ≠ .error (.refused refusal) := by
  rw [run_submit, hcheck]
  rcases (h.enter (h.nextEntry caller command)).run d with ⟨⟨h', _ | _⟩, d'⟩
  · simp
  · simp only [carryOut]
    split <;> simp

/-! ## The invariant -/

/-- A host holds what its acknowledged entries lead to, and its writer keeps them. -/
structure Holds (policy : Policy) (path : Path) (place : Place) (h : Host) (d : Disk)
    (acked : List Entry) (pending : Entry → Prop) : Prop where
  trail : Trail (initial policy) acked h.state
  hasher : h.hasher = ⟨journalImage acked⟩
  keeps : ∃ w, h.writer = some w ∧ w.Keeps path place d acked pending

namespace Holds

theorem imp {pending' : Entry → Prop} (hholds : h.Holds policy path place d acked pending)
    (himp : ∀ e, pending e → pending' e) : h.Holds policy path place d acked pending' where
  __ := hholds
  keeps := by
    obtain ⟨w, hwriter, hkeeps⟩ := hholds.keeps
    exact ⟨w, hwriter, hkeeps.imp himp⟩

/-- Only the writer of the host and the disk have changed, and the writer keeps as much. -/
theorem withWriter (hholds : h.Holds policy path place d acked pending) {w : JournalWriter}
    {pending' : Entry → Prop} (hkeeps : w.Keeps path place d' acked pending') :
    Holds policy path place { h with writer := some w } d' acked pending' where
  trail := hholds.trail
  hasher := hholds.hasher
  keeps := ⟨w, rfl, hkeeps⟩

theorem version_eq (hholds : h.Holds policy path place d acked pending) :
    h.state.version = acked.length := by
  have hversion := hholds.trail.version_eq
  exact hversion.trans (Nat.zero_add _)

/-- What a submitted command is answered and does.  What it leaves on the disk is up to the file of
the journal. -/
theorem submit (hholds : h.Holds policy path place d acked pending)
    (hstorable : h.state.check caller command = .ok () → (h.nextEntry caller command).Storable) :
    ∃ h' result d', (h.submit caller command).run d = ((h', result), d') ∧
      h'.snapshotPath = h.snapshotPath ∧
      (∃ id, d.FileAt path place id ∧ Touched id d d') ∧
      ((∃ refusal, result = .error (.refused refusal) ∧ h' = h ∧ d' = d) ∨
        (∃ outcome, result = .ok outcome ∧
          h'.Holds policy path place d' (acked ++ [h.nextEntry caller command]) fun _ => False) ∨
        (∃ fault, result = .error (.journal (.disk fault)) ∧
          h'.Holds policy path place d' acked (· = h.nextEntry caller command)) ∨
        result = .error (.journal (.unusable path)) ∧ h' = h ∧ d' = d) := by
  obtain ⟨w, hwriter, hkeeps⟩ := hholds.keeps
  rw [run_submit]
  cases hcheck : h.state.check caller command with
  | error refusal =>
      exact ⟨_, _, _, rfl, rfl, ⟨_, hkeeps.fileAt, .refl _ d⟩, .inl ⟨refusal, rfl, rfl, rfl⟩⟩
  | ok _ =>
      obtain ⟨s', outcome, haccepted⟩ := exists_accepted_of_check hcheck
      obtain ⟨w', result, d', happend, htouched, hcases⟩ := hkeeps.append (hstorable hcheck)
      simp only [run_enter hwriter, happend]
      have hfile : ∃ id, d.FileAt path place id ∧ Touched id d d' :=
        ⟨_, hkeeps.fileAt, htouched⟩
      rcases hcases with ⟨-, rfl, rfl, rfl⟩ |
        ⟨-, ⟨rfl, hkept⟩ | ⟨fault, rfl, hkept⟩ | ⟨hgap, -⟩⟩
      · have hsame : { h with writer := some w' } = h := by
          cases h
          simp_all
        rw [hsame]
        exact ⟨_, _, _, rfl, rfl, hfile, .inr (.inr (.inr ⟨rfl, rfl, rfl⟩))⟩
      · have hcarry := carryOut_of_accepted (h := { h with writer := some w' }) haccepted
        simp only [hcarry]
        refine ⟨_, _, _, rfl, rfl, hfile, .inr (.inl ⟨outcome, rfl, ?_⟩)⟩
        refine ⟨hholds.trail.accept haccepted, ?_, w', rfl, hkept⟩
        simp [JournalHasher.update, hholds.hasher, journalImage, nextEntry]
      · exact ⟨_, _, _, rfl, rfl, hfile,
          .inr (.inr (.inl ⟨fault, rfl, hholds.withWriter hkept⟩))⟩
      · exact absurd (congrArg (· + 1) hholds.version_eq) hgap

end Holds

end Arbiter.Host
