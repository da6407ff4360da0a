import Arbiter.Proofs.Answers
import Arbiter.Proofs.Entering
import Arbiter.Proofs.FileReplacement

/-!
# The same course

A controller, a journal in memory, a host that keeps everything in memory and a host with a journal
file are given the same commands.  They go about it in different ways.  A host checks a command
first and enters it before it carries it out, numbers the entry by the version before the command,
and hashes its journal piece by piece.  After every command they show the same all the same, unless
the disk fails.
-/

namespace Arbiter

/-! ## Machines that are given commands -/

section

variable {σ τ ω ω' : Type} {step : σ → Address × Command → σ × ω}
  {step' : τ → Address × Command → τ × ω'}

/-- What a machine shows after each of the commands that it is given. -/
def course (step : σ → Address × Command → σ × ω) : σ → List (Address × Command) → List ω
  | _, [] => []
  | s, c :: rest => (step s c).2 :: course step (step s c).1 rest

/-- What is kept by every command, and shows after it, shows all the time. -/
theorem forall_mem_course {kept : σ → Prop} {fine : ω → Prop}
    (hstep : ∀ {s : σ}, kept s → ∀ c, kept (step s c).1 ∧ fine (step s c).2) {s : σ} (hs : kept s)
    (commands : List (Address × Command)) : ∀ shown ∈ course step s commands, fine shown := by
  induction commands generalizing s with
  | nil => exact fun shown hshown => absurd hshown List.not_mem_nil
  | cons c rest ih =>
      rw [course, List.forall_mem_cons]
      exact ⟨(hstep hs c).2, ih (hstep hs c).1⟩

/-- A machine that stays in step with another one, as long as all is fine, shows a view of what the
other one shows. -/
theorem course_eq_map (inStep : σ → τ → Prop) (fine : ω' → Prop) {view : ω → ω'}
    (hstep : ∀ {s : σ} {t : τ}, inStep s t → ∀ c, fine (step' t c).2 →
      inStep (step s c).1 (step' t c).1 ∧ (step' t c).2 = view (step s c).2)
    {s : σ} {t : τ} (hst : inStep s t) {commands : List (Address × Command)}
    (hfine : ∀ shown ∈ course step' t commands, fine shown) :
    course step' t commands = (course step s commands).map view := by
  induction commands generalizing s t with
  | nil => rfl
  | cons c rest ih =>
      rw [course, List.forall_mem_cons] at hfine
      obtain ⟨hnext, hshown⟩ := hstep hst c hfine.1
      rw [course, course, List.map_cons, hshown, ih hnext hfine.2]

end

/-- What is seen of a controller after a command. -/
structure State.Shown where
  answer : Except Refusal Outcome
  state : State

/-- What is seen of a journal in memory after a command. -/
structure Journal.Shown where
  answer : Except Refusal Outcome
  state : State
  entries : List Entry

/-- What is seen of a host after a command. -/
structure Host.Shown where
  answer : Except HostFault Outcome
  state : State
  proof : StateProof Bytes

/-- A controller is given a command. -/
def State.turn (s : State) (c : Address × Command) : State × State.Shown :=
  (s.step c, ⟨s.answer c, s.step c⟩)

namespace Journal

/-- A journal is given a command, together with the state that it is kept for. -/
def turn (p : Journal × State) (c : Address × Command) : (Journal × State) × Shown :=
  match p.1.submit p.2 c.1 c.2 with
  | .ok (journal, state, outcome) => ((journal, state), ⟨.ok outcome, state, journal.entries⟩)
  | .error refusal => (p, ⟨.error refusal, p.2, p.1.entries⟩)

/-- What a controller shows that shows the same. -/
def Shown.ofState (x : Shown) : State.Shown :=
  ⟨x.answer, x.state⟩

/-- What a host shows that shows the same. -/
def Shown.ofHost (x : Shown) : Host.Shown :=
  ⟨x.answer.mapError .refused, x.state, .of Blake3.digest x.state x.entries⟩

variable {j : Journal} {s s' : State} {c : Address × Command} {outcome : Outcome}

theorem turn_of_accepted (h : State.Accepted s c.1 c.2 s' outcome) :
    turn (j, s) c =
      (({ entries := j.entries ++ [⟨s.version + 1, c.1, c.2⟩] }, s'),
        ⟨.ok outcome, s', j.entries ++ [⟨s.version + 1, c.1, c.2⟩]⟩) := by
  simp [turn, submit, State.apply_eq_ok_iff.2 h, h.version_eq, bind, Except.bind, pure,
    Except.pure]

theorem turn_of_refused {refusal : Refusal} (h : s.check c.1 c.2 = .error refusal) :
    turn (j, s) c = ((j, s), ⟨.error refusal, s, j.entries⟩) := by
  simp [turn, submit, State.apply_eq_error_iff.2 h, bind, Except.bind]

end Journal

namespace State

variable {s s' : State} {c : Address × Command} {outcome : Outcome}

theorem turn_of_accepted (h : Accepted s c.1 c.2 s' outcome) :
    s.turn c = (s', ⟨.ok outcome, s'⟩) := by
  simp [turn, step, answer, apply_eq_ok_iff.2 h, Except.map]

theorem turn_of_refused {refusal : Refusal} (h : s.check c.1 c.2 = .error refusal) :
    s.turn c = (s, ⟨.error refusal, s⟩) := by
  simp [turn, step, answer, apply_eq_error_iff.2 h, Except.map]

/-- A controller takes the course of its journal. -/
theorem course_eq (j : Journal) (s : State) (commands : List (Address × Command)) :
    course turn s commands = (course Journal.turn (j, s) commands).map Journal.Shown.ofState := by
  refine course_eq_map (fun p t => p.2 = t) (fun _ => True) ?_ rfl fun _ _ => trivial
  rintro ⟨j, s⟩ _ rfl c -
  cases hcheck : s.check c.1 c.2 with
  | error refusal =>
      rw [turn_of_refused hcheck, Journal.turn_of_refused hcheck]
      exact ⟨rfl, rfl⟩
  | ok _ =>
      obtain ⟨s', outcome, accepted⟩ := exists_accepted_of_check hcheck
      rw [turn_of_accepted accepted, Journal.turn_of_accepted accepted]
      exact ⟨rfl, rfl⟩

end State

/-- A writer takes an entry that follows the last one, unless the disk fails. -/
theorem JournalWriter.append_of_ready {w w' : JournalWriter} {e : Entry} {d d' : Disk}
    {result : Except JournalFault Unit} (hgood : w.poisoned = false)
    (hnext : e.sequence = w.lastSequence + 1)
    (happend : (w.append e).run d = ((w', result), d')) :
    (∃ cause, result = .error (.disk cause)) ∨
      (result = .ok () ∧ w'.poisoned = false ∧ w'.lastSequence = e.sequence) := by
  rw [run_append, if_neg (by simp [hgood]), if_neg (not_not_intro hnext)] at happend
  rcases hstore : d.perform (w.store e.frame) with ⟨cause | _, d₁⟩ <;>
    simp only [hstore] at happend <;> obtain ⟨hpair, -⟩ := Prod.mk.inj happend <;>
    obtain ⟨rfl, rfl⟩ := Prod.mk.inj hpair
  · exact .inl ⟨cause, rfl⟩
  · exact .inr ⟨rfl, hgood, rfl⟩

namespace Host

open State

variable {h h' : Host} {d d' : Disk} {j : Journal} {s : State} {c : Address × Command} {e : Entry}

/-- A host is given a command, on its disk. -/
def turn (p : Host × Disk) (c : Address × Command) : (Host × Disk) × Shown :=
  match (p.1.submit c.1 c.2).run p.2 with
  | ((h, answer), d) => ((h, d), ⟨answer, h.state, h.proof⟩)

/-- The disk failed while a command was entered. -/
def Shown.DiskFailed (x : Shown) : Prop :=
  ∃ cause, x.answer = .error (.journal (.disk cause))

/-! ## Staying in step -/

/-- A host has the state and has hashed the entries of a journal, and its writer, if it has one, is
ready for the next entry. -/
structure InStep (p : Journal × State) (q : Host × Disk) : Prop where
  state : q.1.state = p.2
  hasher : q.1.hasher = ⟨journalImage p.1.entries⟩
  ready : ∀ w, q.1.writer = some w → w.poisoned = false ∧ w.lastSequence = p.2.version

variable {q : Host × Disk}

theorem InStep.proof (h : InStep (j, s) q) : q.1.proof = .of Blake3.digest s j.entries := by
  simp [Host.proof, StateProof.of, h.state, h.hasher, JournalHasher.finish, journalHash]

theorem turn_of_refused {refusal : Refusal} (hcheck : h.state.check c.1 c.2 = .error refusal)
    (d : Disk) : turn (h, d) c = ((h, d), ⟨.error (.refused refusal), h.state, h.proof⟩) := by
  simp only [turn, run_submit, hcheck]

/-- The next entry follows the last one, so it is taken unless the disk fails, and then the writer
is ready for the one after it. -/
theorem InStep.enter (hstep : InStep (j, s) (h, d)) {result : Except JournalFault Unit}
    (henter : (h.enter (h.nextEntry c.1 c.2)).run d = ((h', result), d')) :
    (∃ cause, result = .error (.disk cause)) ∨
      (result = .ok () ∧
        ∀ w, h'.writer = some w → w.poisoned = false ∧ w.lastSequence = s.version + 1) := by
  cases hwriter : h.writer with
  | none =>
      rw [run_enter_of_none hwriter] at henter
      obtain ⟨hpair, -⟩ := Prod.mk.inj henter
      obtain ⟨rfl, rfl⟩ := Prod.mk.inj hpair
      exact .inr ⟨rfl, fun w hw => absurd (hwriter.symm.trans hw) (by simp)⟩
  | some w =>
      obtain ⟨w', happend, rfl⟩ := exists_append_of_enter hwriter henter
      obtain ⟨hgood, hlast⟩ := hstep.ready w hwriter
      have hnumber : (h.nextEntry c.1 c.2).sequence = s.version + 1 :=
        congrArg (·.version + 1) hstep.state
      rcases JournalWriter.append_of_ready hgood (by rw [hnumber, hlast]) happend with
        hfailed | ⟨rfl, hgood', hlast'⟩
      · exact .inl hfailed
      · refine .inr ⟨rfl, ?_⟩
        rintro _ ⟨rfl⟩
        exact ⟨hgood', hlast'.trans hnumber⟩

/-- What was entered is carried out as the journal carries it out. -/
theorem InStep.carryOut (hstep : InStep (j, s) (h, d)) (d' : Disk) {s' : State} {outcome : Outcome}
    (accepted : Accepted s c.1 c.2 s' outcome) (hsame : h' = { h with writer := h'.writer })
    (hready : ∀ w, h'.writer = some w → w.poisoned = false ∧ w.lastSequence = s.version + 1) :
    ∃ h'', h'.carryOut c.1 c.2 = (h'', .ok outcome) ∧
      InStep ({ entries := j.entries ++ [⟨s.version + 1, c.1, c.2⟩] }, s') (h'', d') := by
  have hstate : h'.state = s := (congrArg Host.state hsame).trans hstep.state
  have hhasher : h'.hasher = ⟨journalImage j.entries⟩ :=
    (congrArg Host.hasher hsame).trans hstep.hasher
  rw [← hstate] at accepted
  refine ⟨_, carryOut_of_accepted accepted, rfl, ?_, ?_⟩
  · simp [JournalHasher.update, hhasher, journalImage, nextEntry, hstate]
  · intro w hw
    rw [accepted.version_eq, hstate]
    exact hready w hw

/-- A host stays in step with a journal unless its disk fails. -/
theorem InStep.turn {p : Journal × State} (hstep : InStep p q) (c : Address × Command)
    (hworks : ¬ (turn q c).2.DiskFailed) :
    InStep (Journal.turn p c).1 (turn q c).1 ∧
      (turn q c).2 = (Journal.turn p c).2.ofHost := by
  obtain ⟨j, s⟩ := p
  obtain ⟨h, d⟩ := q
  obtain rfl : h.state = s := hstep.state
  cases hcheck : h.state.check c.1 c.2 with
  | error refusal =>
      rw [turn_of_refused hcheck, Journal.turn_of_refused hcheck, hstep.proof]
      exact ⟨hstep, rfl⟩
  | ok _ =>
      obtain ⟨s', outcome, accepted⟩ := exists_accepted_of_check hcheck
      rcases henter : (h.enter (h.nextEntry c.1 c.2)).run d with ⟨⟨h', result⟩, d'⟩
      rcases hstep.enter henter with ⟨cause, rfl⟩ | ⟨rfl, hready⟩
      · refine absurd ⟨cause, ?_⟩ hworks
        simp [Host.turn, run_submit, hcheck, henter]
      · obtain ⟨h'', hcarry, hnext⟩ :=
          hstep.carryOut d' accepted (eq_of_enter henter) hready
        have hturn : Host.turn (h, d) c = ((h'', d'), ⟨.ok outcome, h''.state, h''.proof⟩) := by
          simp only [Host.turn, run_submit, hcheck, henter, hcarry]
        rw [hturn, Journal.turn_of_accepted accepted, hnext.proof, hnext.state]
        exact ⟨hnext, rfl⟩

/-! ## Disks that do not fail -/

/-- A host without a journal file, or one on a disk that works. -/
def Undisturbed (q : Host × Disk) : Prop :=
  q.1.writer = none ∨ q.2.Reliable

theorem append_of_reliable {w w' : JournalWriter} {result : Except JournalFault Unit}
    (hd : d.Reliable) (happend : (w.append e).run d = ((w', result), d')) :
    d'.Reliable ∧ ∀ cause, result ≠ .error (.disk cause) := by
  by_cases hpoisoned : w.poisoned = true
  · rw [JournalWriter.run_append, if_pos hpoisoned] at happend
    obtain ⟨hpair, rfl⟩ := Prod.mk.inj happend
    obtain ⟨-, rfl⟩ := Prod.mk.inj hpair
    exact ⟨hd, by simp⟩
  · by_cases hnext : e.sequence = w.lastSequence + 1
    · rw [JournalWriter.run_append_of_reliable hd (by simpa using hpoisoned) hnext] at happend
      obtain ⟨hpair, rfl⟩ := Prod.mk.inj happend
      obtain ⟨-, rfl⟩ := Prod.mk.inj hpair
      exact ⟨hd.withContent _ _, by simp⟩
    · rw [JournalWriter.run_append, if_neg hpoisoned, if_pos hnext] at happend
      obtain ⟨hpair, rfl⟩ := Prod.mk.inj happend
      obtain ⟨-, rfl⟩ := Prod.mk.inj hpair
      exact ⟨hd, by simp⟩

theorem Undisturbed.enter (hq : Undisturbed (h, d)) {result : Except JournalFault Unit}
    (henter : (h.enter e).run d = ((h', result), d')) :
    Undisturbed (h', d') ∧ ∀ cause, result ≠ .error (.disk cause) := by
  cases hwriter : h.writer with
  | none =>
      rw [run_enter_of_none hwriter] at henter
      obtain ⟨hpair, rfl⟩ := Prod.mk.inj henter
      obtain ⟨rfl, rfl⟩ := Prod.mk.inj hpair
      exact ⟨hq, by simp⟩
  | some w =>
      have hd : d.Reliable := hq.resolve_left (by simp [hwriter])
      obtain ⟨w', happend, -⟩ := exists_append_of_enter hwriter henter
      obtain ⟨hd', hworks⟩ := append_of_reliable hd happend
      exact ⟨.inr hd', hworks⟩

theorem writer_carryOut (h : Host) (caller : Address) (command : Command) :
    (h.carryOut caller command).1.writer = h.writer := by
  unfold carryOut
  split <;> rfl

theorem Undisturbed.turn (hq : Undisturbed q) (c : Address × Command) :
    Undisturbed (turn q c).1 ∧ ¬ (turn q c).2.DiskFailed := by
  obtain ⟨h, d⟩ := q
  cases hcheck : h.state.check c.1 c.2 with
  | error refusal =>
      rw [turn_of_refused hcheck]
      exact ⟨hq, by simp [Shown.DiskFailed]⟩
  | ok _ =>
      rcases henter : (h.enter (h.nextEntry c.1 c.2)).run d with ⟨⟨h', fault | _⟩, d'⟩
      · obtain ⟨hq', hworks⟩ := hq.enter henter
        simp only [Host.turn, run_submit, hcheck, henter]
        refine ⟨hq', ?_⟩
        rintro ⟨cause, hcause⟩
        simp only [Except.error.injEq, HostFault.journal.injEq] at hcause
        exact hworks cause (by rw [hcause])
      · obtain ⟨hq', -⟩ := hq.enter henter
        simp only [Host.turn, run_submit, hcheck, henter]
        constructor
        · rcases hq' with hnone | hd
          · exact .inl ((writer_carryOut h' c.1 c.2).trans hnone)
          · exact .inr hd
        · rintro ⟨cause, hcause⟩
          simp only [carryOut] at hcause
          split at hcause <;> simp at hcause

/-! ## Courses -/

/-- A host that is in step with a journal takes its course unless the disk fails. -/
theorem course_eq {p : Journal × State} (hstep : InStep p q)
    {commands : List (Address × Command)}
    (hworks : ∀ shown ∈ course turn q commands, ¬ shown.DiskFailed) :
    course turn q commands = (course Journal.turn p commands).map Journal.Shown.ofHost :=
  course_eq_map InStep (fun shown => ¬ shown.DiskFailed)
    (fun hstep c hfine => hstep.turn c hfine) hstep hworks

theorem course_eq_of_undisturbed {p : Journal × State} (hstep : InStep p q)
    (hq : Undisturbed q) (commands : List (Address × Command)) :
    course turn q commands = (course Journal.turn p commands).map Journal.Shown.ofHost :=
  course_eq hstep (forall_mem_course (fun hkept c => hkept.turn c) hq commands)

/-- A host that has just started, with or without a new journal, is in step with a new journal in
memory. -/
theorem inStep_fresh (settings : Settings) (d : Disk) :
    InStep ({}, initial settings.policy) (fresh settings, d) where
  state := rfl
  hasher := rfl
  ready := by simp [fresh]

theorem inStep_of_recover {settings : Settings} {path : Path}
    (hjournal : settings.journalPath = some path) (hempty : d.NoFiles)
    (hrecover : d.perform (recover settings) = (.ok h, d')) :
    InStep ({}, initial settings.policy) (h, d') := by
  obtain ⟨w, rfl, -, ⟨place, hkeeps⟩, -⟩ := eq_of_noFiles hjournal hempty hrecover
  refine ⟨rfl, rfl, ?_⟩
  rintro _ ⟨rfl⟩
  exact ⟨hkeeps.unpoisoned, hkeeps.lastSequence⟩

theorem ofHost_answer (x : Journal.Shown) :
    x.ofHost.answer ≠ .error .internal ∧ ∀ fault, x.ofHost.answer ≠ .error (.journal fault) := by
  cases hanswer : x.answer <;> simp [Journal.Shown.ofHost, hanswer, Except.mapError]

/-- Given the same commands under the same policy, a controller shows the answers and states of a
journal in memory, and so does a host without a journal file, and a host that started without files
and has a journal file, as long as its disk does not fail.  The proof that a host shows is always
the one of this state and of the entries of the journal in memory, and no answer of it is an
internal fault or a fault of the journal.  Starting without files fails with the disk only. -/
theorem all_take_the_same_course (settings : Settings) (commands : List (Address × Command)) :
    let shown := course Journal.turn ({}, initial settings.policy) commands
    course State.turn (initial settings.policy) commands = shown.map Journal.Shown.ofState ∧
    (∀ d, course turn (fresh settings, d) commands = shown.map Journal.Shown.ofHost) ∧
    (∀ (path : Path) (d₀ : Disk), settings.journalPath = some path → d₀.NoFiles →
      (∀ fault d, d₀.perform (recover settings) = (.error fault, d) → fault.OfDisk) ∧
      ∀ h d, d₀.perform (recover settings) = (.ok h, d) →
        ((∀ x ∈ course turn (h, d) commands, ¬ x.DiskFailed) →
          course turn (h, d) commands = shown.map Journal.Shown.ofHost) ∧
        (d.Reliable → course turn (h, d) commands = shown.map Journal.Shown.ofHost)) ∧
    ∀ x ∈ shown.map Journal.Shown.ofHost,
      x.answer ≠ .error .internal ∧ ∀ fault, x.answer ≠ .error (.journal fault) := by
  intro shown
  refine ⟨State.course_eq {} _ commands, ?_, ?_, ?_⟩
  · intro d
    exact course_eq_of_undisturbed (inStep_fresh settings d) (.inl rfl) commands
  · intro path d₀ hjournal hempty
    refine ⟨fun fault d hfailed => ofDisk_of_noFiles hjournal hempty hfailed, ?_⟩
    intro h d hrecover
    have hstep := inStep_of_recover hjournal hempty hrecover
    exact ⟨course_eq hstep, fun hd => course_eq_of_undisturbed hstep (.inr hd) commands⟩
  · intro x hx
    obtain ⟨x', -, rfl⟩ := List.mem_map.1 hx
    exact ofHost_answer x'

/-- Two registrations, with a command in between that is refused. -/
def registrationsAndRefusal : List (Address × Command) :=
  [(.ofLow 1, .registerNode "s"), (.ofLow 2, .sendEvent "p" 1), (.ofLow 2, .registerNode "s")]

theorem all_take_the_same_course_of_registrationsAndRefusal :
    course turn (comeBack keepingSettings {}) registrationsAndRefusal =
        (course Journal.turn ({}, initial {}) registrationsAndRefusal).map Journal.Shown.ofHost ∧
      (course Journal.turn ({}, initial {}) registrationsAndRefusal).map (·.entries.length) =
        [1, 1, 2] := by
  have hreliable : (comeBack keepingSettings {}).2.Reliable :=
    ⟨by decide +kernel, by decide +kernel⟩
  obtain ⟨-, -, hfiles, -⟩ := all_take_the_same_course keepingSettings registrationsAndRefusal
  have hstarted := (hfiles _ {} rfl Disk.noFiles_empty).2 _ _
    (perform_recover_of_isOk (by decide +kernel))
  exact ⟨hstarted.2 hreliable, by decide +kernel⟩

end Host

end Arbiter
