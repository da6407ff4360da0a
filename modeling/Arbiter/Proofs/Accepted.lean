import Arbiter.State.Basic
import Arbiter.Proofs.Bindings
import Arbiter.Proofs.Guards

/-!
# Accepted commands

A command is accepted exactly when the conditions of its kind hold, and then it has exactly one
effect.  `Accepted` says so once for every kind of command; whatever is proved about the history
of a controller goes by its cases and never opens the checks again.
-/

namespace Arbiter

/-! ## The checks of an event -/

namespace Event

theorem isSolved_eq_false_iff {e : Event} : e.isSolved = false ↔ e.resolution = none := by
  simp [isSolved]

theorem checkVote_eq_ok_iff {e : Event} {policy : Policy} {roster : Roster} {voter : Address} :
    e.checkVote policy roster voter = .ok () ↔
      e.resolution = none ∧ roster.contains voter = true ∧ e.hasVoted voter = false ∧
        policy.minReplies ≤ e.replies.size := by
  simp only [checkVote, bind, Except.bind, pure, Except.pure, throw, throwThe,
    MonadExceptOf.throw, ite_error_eq_ok, ite_else_error_eq_ok]
  simp [isSolved_eq_false_iff]

theorem checkReply_eq_ok_iff {e : Event} {application : Application} {roster : Roster}
    {author : Address} {scores : List Score} :
    e.checkReply application roster author scores = .ok () ↔
      e.resolution = none ∧ roster.contains author = true ∧ e.hasReplied author = false ∧
        scores.length ≤ roster.size - 1 ∧ scoreFault? author [] scores = none ∧
        (application.multiReplyAllowed = true ∨
          scores.findSome? (conflict? e.replyList) = none) := by
  simp only [checkReply, bind, Except.bind, pure, Except.pure, throw, throwThe,
    MonadExceptOf.throw, ite_error_eq_ok, ite_else_error_eq_ok]
  cases scoreFault? author [] scores <;> cases scores.findSome? (conflict? e.replyList) <;>
    simp [isSolved_eq_false_iff]

theorem checkSolve_eq_ok_iff {e : Event} {policy : Policy} {roster : Roster}
    {caller solver : Address} :
    e.checkSolve policy roster caller = .ok solver ↔
      e.resolution = none ∧ e.electedSolver = some solver ∧
        admits policy.solveAuthority roster caller solver = true := by
  simp only [checkSolve, ite_error_eq_ok]
  cases e.electedSolver with
  | none => simp
  | some elected =>
      simp only [ite_else_error_eq_ok, Except.ok.injEq, Option.some.injEq]
      constructor
      · rintro ⟨hopen, hadmits, rfl⟩
        exact ⟨by simpa [isSolved_eq_false_iff] using hopen, rfl, hadmits⟩
      · rintro ⟨hopen, rfl, hadmits⟩
        exact ⟨by simp [isSolved, hopen], hadmits, rfl⟩

end Event

namespace State

theorem event_eq_ok_iff {s : State} {id : EventId} {e : Event} :
    s.event id = .ok e ↔ s.docket.get? id = some e := by
  simp only [event]
  split <;> simp_all

theorem checkLength_eq_ok_iff {name : LimitedText} {text : String} {limit : Nat} :
    checkLength name text limit = .ok () ↔ text.utf8ByteSize ≤ limit := by
  simp only [checkLength, ite_error_eq_ok]
  simp

/-- What an accepted command asks for and what it does. -/
inductive Accepted (s : State) (caller : Address) : Command → State → Outcome → Prop
  | registerNode {spec : String} (nonempty : spec.isEmpty = false)
      (short : spec.utf8ByteSize ≤ s.policy.maxTagLength) :
      Accepted s caller (.registerNode spec)
        { s with
          version := s.version + 1
          roster := s.roster.register caller spec (s.version + 1) }
        (.nodeRegistered (!s.roster.contains caller))
  | registerApplication {info : String} {requiredSpecs : List String} {multiReplyAllowed : Bool}
      (short : info.utf8ByteSize ≤ s.policy.maxTagLength)
      (few : requiredSpecs.length ≤ mostRequiredSpecs)
      (shortSpecs : ∀ spec ∈ requiredSpecs, spec.utf8ByteSize ≤ s.policy.maxTagLength) :
      Accepted s caller (.registerApplication info requiredSpecs multiReplyAllowed)
        { s with
          version := s.version + 1
          catalog := s.catalog.register info requiredSpecs multiReplyAllowed caller
            (s.version + 1) }
        (.applicationRegistered s.catalog.nextId)
  | sendEvent {payload : String} {application : ApplicationId}
      (known : s.catalog.contains application = true)
      (short : payload.utf8ByteSize ≤ s.policy.maxPayloadLength) :
      Accepted s caller (.sendEvent payload application)
        { s with
          version := s.version + 1
          docket := s.docket.enter application payload caller (s.version + 1) }
        (.eventSent s.docket.nextId)
  | sendReply {id : EventId} {scores : List Score} {e : Event} {application : Application}
      (there : s.docket.get? id = some e)
      (known : s.catalog.get? e.application = some application)
      (accepts : e.checkReply application s.roster caller scores = .ok ()) :
      Accepted s caller (.sendReply id scores)
        { s with
          version := s.version + 1
          roster := s.roster.creditAll scores
          docket := s.docket.modify id (·.reply caller scores (s.version + 1)) }
        (.replyRecorded (s.roster.credited scores))
  | voteSolver {id : EventId} {candidate : Address} {e : Event}
      (there : s.docket.get? id = some e)
      (accepts : e.checkVote s.policy s.roster caller = .ok ()) :
      Accepted s caller (.voteSolver id candidate)
        { s with
          version := s.version + 1
          docket := s.docket.modify id (·.vote caller candidate s.roster.size) }
        (.voteRecorded (e.electedBy caller candidate s.roster.size))
  | solveEvent {id : EventId} {e : Event} {solver : Address}
      (there : s.docket.get? id = some e)
      (accepts : e.checkSolve s.policy s.roster caller = .ok solver) :
      Accepted s caller (.solveEvent id)
        { s with
          version := s.version + 1
          docket := s.docket.modify id (·.solve solver caller (s.version + 1)) }
        (.eventSolved solver)

theorem Accepted.check_eq_ok {s s' : State} {caller : Address} {command : Command}
    {outcome : Outcome} (h : Accepted s caller command s' outcome) :
    s.check caller command = .ok () := by
  cases h with
  | registerNode nonempty short =>
      simp [check, nonempty, checkLength_eq_ok_iff.2 short]
  | @registerApplication _ requiredSpecs _ short few shortSpecs =>
      have hspecs :
          requiredSpecs.forM (checkLength .requiredSpec · s.policy.maxTagLength) = .ok () :=
        forM_eq_ok_iff.2 fun spec hspec => checkLength_eq_ok_iff.2 (shortSpecs spec hspec)
      simp [check, checkLength_eq_ok_iff.2 short, Nat.not_lt.2 few, hspecs, bind, Except.bind]
  | sendEvent known short =>
      simp [check, known, checkLength_eq_ok_iff.2 short]
  | sendReply there known accepts =>
      simp [check, event_eq_ok_iff.2 there, known, accepts, bind, Except.bind]
  | voteSolver there accepts =>
      simp [check, event_eq_ok_iff.2 there, accepts, bind, Except.bind]
  | solveEvent there accepts =>
      simp [check, event_eq_ok_iff.2 there, accepts, bind, Except.bind, pure, Except.pure]

theorem Accepted.carryOut_eq_ok {s s' : State} {caller : Address} {command : Command}
    {outcome : Outcome} (h : Accepted s caller command s' outcome) :
    s.carryOut caller command = .ok (s', outcome) := by
  cases h with
  | registerNode nonempty short => rfl
  | registerApplication short few shortSpecs => rfl
  | sendEvent known short => rfl
  | sendReply there known accepts =>
      simp [carryOut, event_eq_ok_iff.2 there, bind, Except.bind, pure, Except.pure]
  | voteSolver there accepts =>
      simp [carryOut, event_eq_ok_iff.2 there, bind, Except.bind, pure, Except.pure]
  | solveEvent there accepts =>
      simp [carryOut, event_eq_ok_iff.2 there, accepts, bind, Except.bind, pure, Except.pure]

/-- A command that passes the check is accepted. -/
theorem exists_accepted_of_check {s : State} {caller : Address} {command : Command}
    (h : s.check caller command = .ok ()) :
    ∃ s' outcome, Accepted s caller command s' outcome := by
  cases command with
  | registerNode spec =>
      simp only [check, bind, Except.bind, throw, throwThe, MonadExceptOf.throw,
        ite_error_eq_ok] at h
      exact ⟨_, _, .registerNode (by simpa using h.1) (checkLength_eq_ok_iff.1 h.2)⟩
  | registerApplication info requiredSpecs multiReplyAllowed =>
      simp only [check, bind, throw, throwThe, MonadExceptOf.throw, bind_eq_ok_iff] at h
      obtain ⟨_, short, h⟩ := h
      simp only [Except.bind, ite_error_eq_ok, forM_eq_ok_iff, checkLength_eq_ok_iff] at h
      exact ⟨_, _, .registerApplication (checkLength_eq_ok_iff.1 short) (Nat.not_lt.1 h.1) h.2⟩
  | sendEvent payload application =>
      simp only [check, bind, Except.bind, throw, throwThe, MonadExceptOf.throw,
        ite_else_error_eq_ok] at h
      exact ⟨_, _, .sendEvent h.1 (checkLength_eq_ok_iff.1 h.2)⟩
  | sendReply id scores =>
      simp only [check, bind, bind_eq_ok_iff, event_eq_ok_iff] at h
      obtain ⟨e, there, h⟩ := h
      cases known : s.catalog.get? e.application with
      | none => simp [known, throw, throwThe, MonadExceptOf.throw] at h
      | some application => exact ⟨_, _, .sendReply there known (by simpa [known] using h)⟩
  | voteSolver id candidate =>
      simp only [check, bind, bind_eq_ok_iff, event_eq_ok_iff] at h
      obtain ⟨e, there, accepts⟩ := h
      exact ⟨_, _, .voteSolver there accepts⟩
  | solveEvent id =>
      simp only [check, bind, bind_eq_ok_iff, event_eq_ok_iff] at h
      obtain ⟨e, there, solver, accepts, _⟩ := h
      exact ⟨_, _, .solveEvent there accepts⟩

theorem apply_eq_ok_iff {s s' : State} {caller : Address} {command : Command}
    {outcome : Outcome} :
    s.apply caller command = .ok (s', outcome) ↔ Accepted s caller command s' outcome := by
  constructor
  · intro h
    simp only [apply, bind, bind_eq_ok_iff] at h
    obtain ⟨_, hcheck, hcarry⟩ := h
    obtain ⟨s'', outcome', haccepted⟩ := exists_accepted_of_check hcheck
    rw [haccepted.carryOut_eq_ok] at hcarry
    obtain ⟨rfl, rfl⟩ : s'' = s' ∧ outcome' = outcome := by simpa using hcarry
    exact haccepted
  · intro h
    simp [apply, h.check_eq_ok, h.carryOut_eq_ok, bind, Except.bind]

/-- What is refused when a command is run is what is refused when it is checked. -/
theorem apply_eq_error_iff {s : State} {caller : Address} {command : Command}
    {refusal : Refusal} :
    s.apply caller command = .error refusal ↔ s.check caller command = .error refusal := by
  cases hcheck : s.check caller command with
  | error refusal' => simp [apply, hcheck, bind, Except.bind]
  | ok _ =>
      obtain ⟨s', outcome, haccepted⟩ := exists_accepted_of_check hcheck
      simp [apply_eq_ok_iff.2 haccepted]

/-! ## What every accepted command has in common -/

namespace Accepted

variable {s s' : State} {caller : Address} {command : Command} {outcome : Outcome}

theorem version_eq (h : Accepted s caller command s' outcome) : s'.version = s.version + 1 := by
  cases h <;> rfl

theorem policy_eq (h : Accepted s caller command s' outcome) : s'.policy = s.policy := by
  cases h <;> rfl

end Accepted

/-!
## Numbers of sixty-four bits

A controller counts with numbers of sixty-four bits, and a state counts on behind the last of them.
What an accepted command does to a state is what it does in a controller as long as the numbers that
it hands out are such numbers.
-/

/-- The numbers that a command hands out when it is accepted: the next version, and the next number
of an application or an event. -/
def handsOut (s : State) : Command → List Nat
  | .registerApplication .. => [s.version + 1, s.catalog.nextId]
  | .sendEvent .. => [s.version + 1, s.docket.nextId]
  | .registerNode .. | .sendReply .. | .voteSolver .. | .solveEvent .. => [s.version + 1]

/-- There is room for a command as long as the numbers that it hands out are numbers of sixty-four
bits. -/
def HasRoom (s : State) (command : Command) : Prop :=
  ∀ n ∈ s.handsOut command, n < capacity 8

instance (s : State) (command : Command) : Decidable (s.HasRoom command) :=
  inferInstanceAs (Decidable (∀ n ∈ _, _))

/-- The version and the numbers given last are numbers of sixty-four bits. -/
structure CountsFit (s : State) : Prop where
  version : s.version < capacity 8
  applications : s.catalog.lastId < capacity 8
  events : s.docket.lastId < capacity 8

theorem HasRoom.version_lt {s : State} {command : Command} (h : s.HasRoom command) :
    s.version + 1 < capacity 8 := by
  apply h
  cases command <;> exact List.mem_cons_self

theorem Accepted.countsFit {s s' : State} {caller : Address} {command : Command}
    {outcome : Outcome} (h : Accepted s caller command s' outcome) (hs : s.CountsFit)
    (hroom : s.HasRoom command) : s'.CountsFit := by
  have hversion := hroom.version_lt
  cases h with
  | registerApplication =>
      have hnext : s.catalog.nextId < capacity 8 :=
        hroom _ (List.mem_cons_of_mem _ List.mem_cons_self)
      exact ⟨hversion, hnext, hs.events⟩
  | sendEvent =>
      have hnext : s.docket.nextId < capacity 8 :=
        hroom _ (List.mem_cons_of_mem _ List.mem_cons_self)
      exact ⟨hversion, hs.applications, hnext⟩
  | registerNode | sendReply | voteSolver | solveEvent =>
      exact ⟨hversion, hs.applications, hs.events⟩

end State

end Arbiter
