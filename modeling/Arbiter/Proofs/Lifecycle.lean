import Arbiter.Proofs.Election

/-!
# The life of an event

An event only grows.  Its phase does not go back, what it was sent with does not change, and the
replies, the votes and the elected solver it has are kept.  A closed event is not changed any more,
and a command leaves every event alone that it does not name.
-/

namespace Arbiter

/-! ## Phases -/

namespace Event

variable {e e' e'' : Event}

theorem phase_eq_solved_iff : e.phase = .solved ↔ e.isSolved = true := by
  unfold phase
  grind

/-- With as much collected, the phase is at least the same. -/
theorem phase_le (hreplies : e.replies.isEmpty = false → e'.replies.isEmpty = false)
    (hvotes : e.votes.isEmpty = false → e'.votes.isEmpty = false)
    (hsolved : e.isSolved = true → e'.isSolved = true) : e.phase ≤ e'.phase := by
  change e.phase.rank ≤ e'.phase.rank
  unfold phase
  grind [Phase.rank]

/-- What has become of an event: it is the same event, and nothing it had is gone. -/
structure Continues (e e' : Event) : Prop where
  phase : e.phase ≤ e'.phase
  id : e'.id = e.id
  application : e'.application = e.application
  payload : e'.payload = e.payload
  sender : e'.sender = e.sender
  createdAt : e'.createdAt = e.createdAt
  replies : ∀ {author : Address} {r : Reply},
    e.replies.get? author = some r → e'.replies.get? author = some r
  votes : ∀ {voter candidate : Address},
    e.votes.get? voter = some candidate → e'.votes.get? voter = some candidate
  elected : ∀ {solver : Address},
    e.electedSolver = some solver → e'.electedSolver = some solver
  solved : e.isSolved = true → e' = e

namespace Continues

theorem refl (e : Event) : e.Continues e :=
  ⟨Nat.le_refl _, rfl, rfl, rfl, rfl, rfl, fun h => h, fun h => h, fun h => h, fun _ => rfl⟩

theorem trans (h : e.Continues e') (h' : e'.Continues e'') : e.Continues e'' where
  phase := Nat.le_trans h.phase h'.phase
  id := h'.id.trans h.id
  application := h'.application.trans h.application
  payload := h'.payload.trans h.payload
  sender := h'.sender.trans h.sender
  createdAt := h'.createdAt.trans h.createdAt
  replies hr := h'.replies (h.replies hr)
  votes hv := h'.votes (h.votes hv)
  elected hs := h'.elected (h.elected hs)
  solved hsolved := by
    have hsame := h.solved hsolved
    subst hsame
    exact h'.solved hsolved

/-- An open event keeps its phase or moves on as long as its replies, its votes and its elected
solver are kept. -/
theorem of_open (hopen : e.resolution = none)
    (hheader : e'.id = e.id ∧ e'.application = e.application ∧ e'.payload = e.payload ∧
      e'.sender = e.sender ∧ e'.createdAt = e.createdAt)
    (hreplies : ∀ {author : Address} {r : Reply},
      e.replies.get? author = some r → e'.replies.get? author = some r)
    (hvotes : ∀ {voter candidate : Address},
      e.votes.get? voter = some candidate → e'.votes.get? voter = some candidate)
    (helected : ∀ {solver : Address},
      e.electedSolver = some solver → e'.electedSolver = some solver) : e.Continues e' := by
  obtain ⟨hid, happlication, hpayload, hsender, hcreatedAt⟩ := hheader
  have hunsolved : e.isSolved ≠ true := by simp [isSolved, hopen]
  refine ⟨phase_le ?_ ?_ (absurd · hunsolved), hid, happlication, hpayload, hsender, hcreatedAt,
    hreplies, hvotes, helected, (absurd · hunsolved)⟩
  · simp only [OrderedMap.isEmpty_eq_false_iff]
    rintro ⟨author, r, hr⟩
    exact ⟨author, r, hreplies hr⟩
  · simp only [OrderedMap.isEmpty_eq_false_iff]
    rintro ⟨voter, candidate, hv⟩
    exact ⟨voter, candidate, hvotes hv⟩

end Continues

end Event

/-! ## Commands -/

namespace State

open Event

variable {s s' : State} {caller : Address} {command : Command} {id : EventId} {e e' : Event}

theorem EventStep.continues (h : EventStep s caller id command e e') : e.Continues e' := by
  cases h with
  | other => exact .refl e
  | reply _ accepts =>
      obtain ⟨hopen, _, hnew, _⟩ := checkReply_eq_ok_iff.1 accepts
      rw [reply_of_new hnew]
      exact .of_open hopen ⟨rfl, rfl, rfl, rfl, rfl⟩ (OrderedMap.get?_insert_of_fresh hnew)
        (fun h => h) (fun h => h)
  | vote accepts =>
      obtain ⟨hopen, _, hnew, _⟩ := checkVote_eq_ok_iff.1 accepts
      exact .of_open hopen ⟨rfl, rfl, rfl, rfl, rfl⟩ (fun h => h)
        (OrderedMap.get?_insert_of_fresh hnew) electedSolver_vote_of_some
  | solve accepts =>
      obtain ⟨hopen, _, _⟩ := checkSolve_eq_ok_iff.1 accepts
      exact .of_open hopen ⟨rfl, rfl, rfl, rfl, rfl⟩ (fun h => h) (fun h => h) (fun h => h)

theorem EventStep.eq_of_elsewhere (h : EventStep s caller id command e e')
    (helsewhere : command.event? ≠ some id) : e' = e := by
  cases h with
  | other => rfl
  | reply => exact absurd rfl helsewhere
  | vote => exact absurd rfl helsewhere
  | solve => exact absurd rfl helsewhere

/-- What the entries of a trail do to an event. -/
theorem Trail.event_continues {entries : List Entry} (h : Trail s entries s') (hs : s.Numbered)
    (he : s.docket.get? id = some e) :
    ∃ e', s'.docket.get? id = some e' ∧ e.Continues e' := by
  refine (h.invariant (P := fun t => t.Numbered ∧ ∃ e', t.docket.get? id = some e' ∧
    e.Continues e') ⟨hs, e, he, .refl e⟩ ?_).2
  rintro t t' caller command outcome - haccepted ⟨ht, e₁, he₁, hbefore⟩
  obtain ⟨e', he', hstep⟩ := haccepted.event_step ht he₁
  exact ⟨ht.accepted haccepted, e', he', hbefore.trans hstep.continues⟩

/-- What one command does to an event, be it accepted or refused. -/
theorem Numbered.event_step (hs : s.Numbered) (he : s.docket.get? id = some e)
    (c : Address × Command) :
    ∃ e', (s.step c).docket.get? id = some e' ∧ e.Continues e' ∧
      (c.2.event? ≠ some id → e' = e) := by
  rcases s.step_cases c with hsame | ⟨outcome, haccepted⟩
  · rw [hsame]
    exact ⟨e, he, .refl e, fun _ => rfl⟩
  · obtain ⟨e', he', hstep⟩ := haccepted.event_step hs he
    exact ⟨e', he', hstep.continues, hstep.eq_of_elsewhere⟩

/-- What any commands do to an event, one after the other. -/
theorem Numbered.event_run (hs : s.Numbered) (he : s.docket.get? id = some e)
    (commands : List (Address × Command)) :
    ∃ e', (s.run commands).docket.get? id = some e' ∧ e.Continues e' ∧
      ((∀ c ∈ commands, c.2.event? ≠ some id) → e' = e) := by
  induction commands generalizing s e with
  | nil => exact ⟨e, he, .refl e, fun _ => rfl⟩
  | cons c commands ih =>
      obtain ⟨e₁, he₁, hfirst, hsame₁⟩ := hs.event_step he c
      obtain ⟨e', he', hrest, hsame'⟩ := ih (hs.step c) he₁
      refine ⟨e', he', hfirst.trans hrest, fun helsewhere => ?_⟩
      rw [List.forall_mem_cons] at helsewhere
      exact (hsame' helsewhere.2).trans (hsame₁ helsewhere.1)

/-- An event stays and only grows, whatever commands are run, and be they accepted or refused: its
phase does not go back, its header stays, and so does every reply and every vote and an elected
solver.  If it is closed it stays exactly as it is, and so it does if no command names it. -/
theorem event_only_grows {policy : Policy} (hs : Reachable policy s)
    (he : s.docket.get? id = some e) (commands : List (Address × Command)) :
    ∃ e', (s.run commands).docket.get? id = some e' ∧ e.Continues e' ∧
      (e.phase = .solved → e' = e) ∧
      ((∀ c ∈ commands, c.2.event? ≠ some id) → e' = e) := by
  obtain ⟨e', he', hcontinues, helsewhere⟩ := hs.numbered.event_run he commands
  refine ⟨e', he', hcontinues, fun hsolved => ?_, helsewhere⟩
  exact hcontinues.solved (phase_eq_solved_iff.1 hsolved)

/-- A node registers and elects a solver with its vote, and the event is closed. -/
def closedEvent : List (Address × Command) :=
  [(.ofLow 1, .registerNode "s"), (.ofLow 1, .registerApplication "i" [] true),
    (.ofLow 2, .sendEvent "p" 1), (.ofLow 1, .voteSolver 1 (.ofLow 9)),
    (.ofLow 3, .solveEvent 1)]

/-- Another node registers and comes too late. -/
def lateCommands : List (Address × Command) :=
  [(.ofLow 2, .registerNode "s"), (.ofLow 2, .sendReply 1 [⟨.ofLow 1, 5⟩]),
    (.ofLow 2, .voteSolver 1 (.ofLow 2)), (.ofLow 2, .solveEvent 1), (.ofLow 2, .sendEvent "q" 1)]

theorem event_only_grows_of_closedEvent :
    ∃ e, ((initial {}).run closedEvent).docket.get? 1 = some e ∧ e.phase = .solved ∧
      (((initial {}).run closedEvent).run lateCommands).docket.get? 1 = some e := by
  have hphase : (((initial {}).run closedEvent).docket.get? 1).map (·.phase) = some .solved := by
    decide +kernel
  obtain ⟨e, he, hsolved⟩ := Option.map_eq_some_iff.1 hphase
  obtain ⟨e', he', -, hsame, -⟩ :=
    event_only_grows (reachable_run {} closedEvent) he lateCommands
  rw [hsame hsolved] at he'
  exact ⟨e, he, hsolved, he'⟩

end State

end Arbiter
