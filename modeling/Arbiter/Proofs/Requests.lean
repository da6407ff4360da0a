import Arbiter.Proofs.Accepted
import Arbiter.State.Requests

/-!
# Checks and requests

The check decides.  A command that passes it is carried out with an outcome of its own kind as long
as there is room for it: no step of the work on the state can fail any more, whatever the state is,
also one that no controller can be in.  A command that does not pass it is refused for the reason of
the check, and the work on the state has changed nothing.
-/

namespace Arbiter

/-- An outcome is of the kind of a command. -/
inductive Command.Yields : Command → Outcome → Prop
  | registerNode {spec : String} {created : Bool} :
      Yields (.registerNode spec) (.nodeRegistered created)
  | registerApplication {info : String} {requiredSpecs : List String} {multiReplyAllowed : Bool}
      {id : ApplicationId} :
      Yields (.registerApplication info requiredSpecs multiReplyAllowed)
        (.applicationRegistered id)
  | sendEvent {payload : String} {application : ApplicationId} {id : EventId} :
      Yields (.sendEvent payload application) (.eventSent id)
  | sendReply {id : EventId} {scores : List Score} {credited : Nat} :
      Yields (.sendReply id scores) (.replyRecorded credited)
  | voteSolver {id : EventId} {candidate : Address} {elected : Option Address} :
      Yields (.voteSolver id candidate) (.voteRecorded elected)
  | solveEvent {id : EventId} {solver : Address} :
      Yields (.solveEvent id) (.eventSolved solver)

namespace State

variable {s s' : State} {caller : Address} {command : Command} {outcome : Outcome}

theorem Accepted.yields (h : Accepted s caller command s' outcome) : command.Yields outcome := by
  cases h <;> constructor

theorem Accepted.application?_eq {info : String} {requiredSpecs : List String}
    {multiReplyAllowed : Bool}
    (h : Accepted s caller (.registerApplication info requiredSpecs multiReplyAllowed) s' outcome) :
    outcome.application? = some s.catalog.nextId := by
  cases h
  rfl

theorem Accepted.event?_eq {payload : String} {application : ApplicationId}
    (h : Accepted s caller (.sendEvent payload application) s' outcome) :
    outcome.event? = some s.docket.nextId := by
  cases h
  rfl

/-! ## Working in place -/

theorem run_ofExcept_ok {α : Type} (a : α) :
    (MonadExcept.ofExcept (.ok a) : Work α).run s = .ok a s :=
  rfl

theorem run_ofExcept_error {α : Type} (refusal : Refusal) :
    (MonadExcept.ofExcept (.error refusal) : Work α).run s = .error refusal s :=
  rfl

theorem run_lookUp {id : EventId} {e : Event} (he : s.docket.get? id = some e) :
    (lookUp id).run s = .ok e s := by
  simp only [lookUp, EStateM.run_bind, EStateM.run_get]
  rw [event_eq_ok_iff.2 he, run_ofExcept_ok]

theorem Accepted.run_carryOutInPlace (h : Accepted s caller command s' outcome) :
    (carryOutInPlace caller (s.version + 1) command).run s =
      .ok outcome { s' with version := s.version } := by
  cases h with
  | registerNode nonempty short => rfl
  | registerApplication short few shortSpecs => rfl
  | sendEvent known short => rfl
  | sendReply there known accepts =>
      simp only [carryOutInPlace, EStateM.run_bind, run_lookUp there]
      rfl
  | voteSolver there accepts =>
      simp only [carryOutInPlace, EStateM.run_bind, EStateM.run_get, run_lookUp there]
      rfl
  | solveEvent there accepts =>
      simp only [carryOutInPlace, EStateM.run_bind, EStateM.run_get, run_lookUp there, accepts,
        run_ofExcept_ok]
      rfl

/-- A command that is accepted does in place what it does. -/
theorem Accepted.run_perform (h : Accepted s caller command s' outcome) :
    (perform caller command).run s = .ok outcome s' := by
  simp only [perform, EStateM.run_bind, EStateM.run_get, h.check_eq_ok, run_ofExcept_ok,
    h.run_carryOutInPlace]
  rw [← h.version_eq]
  rfl

/-- A command that is refused leaves the state as it is. -/
theorem run_perform_of_refused {refusal : Refusal}
    (h : s.check caller command = .error refusal) :
    (perform caller command).run s = .error refusal s := by
  simp only [perform, EStateM.run_bind, EStateM.run_get, h, run_ofExcept_error]

/-- Running a command in place comes to the same as running it. -/
theorem run_perform (s : State) (caller : Address) (command : Command) :
    (perform caller command).run s =
      match s.apply caller command with
      | .ok (s', outcome) => .ok outcome s'
      | .error refusal => .error refusal s := by
  cases hcheck : s.check caller command with
  | error refusal => rw [apply_eq_error_iff.2 hcheck, run_perform_of_refused hcheck]
  | ok _ =>
      obtain ⟨s', outcome, accepted⟩ := exists_accepted_of_check hcheck
      rw [apply_eq_ok_iff.2 accepted, accepted.run_perform]

/-! ## Reading the outcome -/

theorem checkLength_ne_unexpected {name : LimitedText} {text : String} {limit : Nat} :
    checkLength name text limit ≠ .error (unexpected command outcome) := by
  simp only [checkLength, unexpected]
  split <;> simp

theorem forM_checkLength_ne_unexpected {texts : List String} {name : LimitedText} {limit : Nat} :
    texts.forM (checkLength name · limit) ≠ .error (unexpected command outcome) := by
  induction texts with
  | nil => simp [List.forM, pure, Except.pure]
  | cons text texts ih =>
      simp only [List.forM_eq_forM, List.forM_cons, bind, Except.bind]
      cases hfirst : checkLength name text limit with
      | error refusal =>
          rintro ⟨⟩
          exact checkLength_ne_unexpected hfirst
      | ok _ => exact ih

/-- A request whose answer can be read off what an accepted command produces comes to the same as
running the command. -/
theorem run_request {α : Type} {answer? : Outcome → Option α} {a : α}
    (hanswer : ∀ {s' outcome}, Accepted s caller command s' outcome → answer? outcome = some a) :
    (request caller command answer?).run s =
      match s.apply caller command with
      | .ok (s', _) => .ok a s'
      | .error refusal => .error refusal s := by
  simp only [request, EStateM.run_bind, run_perform]
  cases happly : s.apply caller command with
  | error refusal => rfl
  | ok result =>
      obtain ⟨s', outcome⟩ := result
      simp only [hanswer (apply_eq_ok_iff.1 happly)]
      rfl

theorem check_registerApplication_ne_unexpected {info : String} {requiredSpecs : List String}
    {multiReplyAllowed : Bool} :
    s.check caller (.registerApplication info requiredSpecs multiReplyAllowed) ≠
      .error (unexpected command outcome) := by
  simp only [check, bind, Except.bind, throw, throwThe, MonadExceptOf.throw]
  cases hinfo : checkLength .info info s.policy.maxTagLength with
  | error refusal =>
      rintro ⟨⟩
      exact checkLength_ne_unexpected hinfo
  | ok _ =>
      by_cases hmany : mostRequiredSpecs < requiredSpecs.length
      · simp [hmany, unexpected]
      · simpa [hmany] using forM_checkLength_ne_unexpected

theorem check_sendEvent_ne_unexpected {payload : String} {application : ApplicationId} :
    s.check caller (.sendEvent payload application) ≠ .error (unexpected command outcome) := by
  simp only [check, bind, Except.bind, throw, throwThe, MonadExceptOf.throw]
  by_cases hknown : s.catalog.contains application = true
  · simpa [hknown] using checkLength_ne_unexpected
  · simp [hknown, unexpected]

/-- A request never reports an outcome when the check of its command never does. -/
theorem run_request_ne_unexpected {α : Type} {answer? : Outcome → Option α} {a : α}
    (hanswer : ∀ {s' outcome}, Accepted s caller command s' outcome → answer? outcome = some a)
    {command' : Command} (hcheck : s.check caller command ≠ .error (unexpected command' outcome)) :
    (request caller command answer?).run s ≠ .error (unexpected command' outcome) s' := by
  rw [run_request hanswer]
  cases happly : s.apply caller command with
  | ok result => simp
  | error refusal =>
      rintro ⟨⟩
      exact hcheck (apply_eq_error_iff.1 happly)

/-! ## The check decides -/

theorem run_perform_eq_ok_iff :
    (perform caller command).run s = .ok outcome s' ↔ Accepted s caller command s' outcome := by
  rw [run_perform, ← apply_eq_ok_iff]
  cases s.apply caller command with
  | error refusal => simp
  | ok result => simp [Prod.ext_iff, and_comm]

theorem run_perform_eq_error_iff {refusal : Refusal} :
    (perform caller command).run s = .error refusal s' ↔
      s.check caller command = .error refusal ∧ s' = s := by
  rw [run_perform, ← apply_eq_error_iff]
  cases s.apply caller command with
  | error refusal' => simp [eq_comm]
  | ok result => simp

theorem check_eq_ok_iff_run_perform :
    s.check caller command = .ok () ↔
      ∃ outcome s', (perform caller command).run s = .ok outcome s' := by
  simp only [run_perform_eq_ok_iff]
  constructor
  · intro hcheck
    obtain ⟨s', outcome, accepted⟩ := exists_accepted_of_check hcheck
    exact ⟨outcome, s', accepted⟩
  · rintro ⟨outcome, s', accepted⟩
    exact accepted.check_eq_ok

theorem canSolve_eq_true_iff {id : EventId} :
    s.canSolve id caller = true ↔ ∃ s', (solveEvent caller id).run s = .ok () s' := by
  have hrun : (solveEvent caller id).run s =
      match s.apply caller (.solveEvent id) with
      | .ok (s', _) => .ok () s'
      | .error refusal => .error refusal s :=
    run_request fun _ => rfl
  simp only [canSolve, hrun]
  cases hcheck : s.check caller (.solveEvent id) with
  | error refusal => simp [apply_eq_error_iff.2 hcheck, Except.isOk, Except.toBool]
  | ok _ =>
      obtain ⟨s', outcome, accepted⟩ := exists_accepted_of_check hcheck
      simp [apply_eq_ok_iff.2 accepted, Except.isOk, Except.toBool]

/-- In every state, the check decides about a command.  A command that it refuses is refused for
that reason and leaves the state as it is, and no other command is refused.  A command that there is
room for is carried out exactly when it passes, and nothing fails after the check: the version grows
by one, the policy stays, the outcome is of the command's kind, and the counts still fit.  The
requests for a number never miss it in the outcome, and an event counts as closable exactly when the
request to close it succeeds. -/
theorem check_decides (s : State) (caller : Address) :
    (∀ command,
      (∀ refusal,
        s.check caller command = .error refusal ↔
          s.apply caller command = .error refusal) ∧
      (∀ refusal s',
        (perform caller command).run s = .error refusal s' ↔
          s.check caller command = .error refusal ∧ s' = s) ∧
      (s.HasRoom command →
        (s.check caller command = .ok () ↔
          ∃ outcome s', (perform caller command).run s = .ok outcome s') ∧
        ∀ outcome s',
          (perform caller command).run s = .ok outcome s' →
            s.apply caller command = .ok (s', outcome) ∧
            s.carryOut caller command = .ok (s', outcome) ∧
            s'.version = s.version + 1 ∧ s'.policy = s.policy ∧ command.Yields outcome ∧
            (s.CountsFit → s'.CountsFit))) ∧
    (∀ info requiredSpecs multiReplyAllowed,
      (s.HasRoom (.registerApplication info requiredSpecs multiReplyAllowed) →
        (registerApplication caller info requiredSpecs multiReplyAllowed).run s =
          (match s.apply caller (.registerApplication info requiredSpecs multiReplyAllowed) with
          | .ok (s', _) => .ok s.catalog.nextId s'
          | .error refusal => .error refusal s)) ∧
      ∀ command outcome s',
        (registerApplication caller info requiredSpecs multiReplyAllowed).run s ≠
          .error (unexpected command outcome) s') ∧
    (∀ payload application,
      (s.HasRoom (.sendEvent payload application) →
        (sendEvent caller payload application).run s =
          (match s.apply caller (.sendEvent payload application) with
          | .ok (s', _) => .ok s.docket.nextId s'
          | .error refusal => .error refusal s)) ∧
      ∀ command outcome s',
        (sendEvent caller payload application).run s ≠
          .error (unexpected command outcome) s') ∧
    ∀ id, s.HasRoom (.solveEvent id) →
      (s.canSolve id caller = true ↔ ∃ s', (solveEvent caller id).run s = .ok () s') := by
  refine ⟨?_, ?_, ?_, fun _ _ => canSolve_eq_true_iff⟩
  · intro command
    refine ⟨fun _ => apply_eq_error_iff.symm, fun _ _ => run_perform_eq_error_iff, ?_⟩
    intro hroom
    refine ⟨check_eq_ok_iff_run_perform, ?_⟩
    intro outcome s' hrun
    have accepted := run_perform_eq_ok_iff.1 hrun
    exact ⟨apply_eq_ok_iff.2 accepted, accepted.carryOut_eq_ok, accepted.version_eq,
      accepted.policy_eq, accepted.yields, fun hfits => accepted.countsFit hfits hroom⟩
  · intro info requiredSpecs multiReplyAllowed
    refine ⟨fun _ => run_request Accepted.application?_eq, fun command outcome s' => ?_⟩
    exact run_request_ne_unexpected Accepted.application?_eq
      check_registerApplication_ne_unexpected
  · intro payload application
    refine ⟨fun _ => run_request Accepted.event?_eq, fun command outcome s' => ?_⟩
    exact run_request_ne_unexpected Accepted.event?_eq check_sendEvent_ne_unexpected

/-- A state that no controller can be in: a solver is elected for its only event, but there are no
nodes, and the application is not there either.  It has room for one more command. -/
def orphaned : State where
  version := capacity 8 - 2
  docket := (({} : Docket).enter 7 "hello" default 3).modify 1
    ({ · with electedSolver := some default })

theorem check_decides_of_orphaned :
    (perform default (.sendReply 1 [])).run orphaned =
      .error (.notFound (.application 7)) orphaned ∧
    (∃ outcome s', (perform default (.registerNode "s")).run orphaned = .ok outcome s' ∧
      s'.version = capacity 8 - 1) ∧
    ∃ s', (solveEvent default 1).run orphaned = .ok () s' := by
  obtain ⟨hcommands, -, -, hclosable⟩ := check_decides orphaned default
  refine ⟨?_, ?_, (hclosable 1 (by decide)).1 (by decide)⟩
  · exact ((hcommands (.sendReply 1 [])).2.1 _ _).2 ⟨by decide, rfl⟩
  · obtain ⟨hpasses, hcarried⟩ := (hcommands (.registerNode "s")).2.2 (by decide)
    obtain ⟨outcome, s', hrun⟩ := hpasses.1 (by decide)
    obtain ⟨-, -, hversion, -⟩ := hcarried outcome s' hrun
    exact ⟨outcome, s', hrun, hversion.trans (by decide)⟩

end State

end Arbiter
