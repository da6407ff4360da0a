import Arbiter.Proofs.Views

/-!
# What answers depend on

A command is answered with its outcome or with a refusal.  The answer depends on the policy, on who
is a node, on the numbers given last, on which applications let replies disagree, and on the event
that the command names, seen through any view that keeps what the check reads.  It depends neither
on reputations nor on times nor on other events.
-/

namespace Arbiter

/-- Whether an application lets replies disagree; of one that is not there it is true. -/
def Catalog.lenient (c : Catalog) (number : ApplicationId) : Bool :=
  (c.get? number).all (·.multiReplyAllowed)

namespace State

open Event

/-- The answer to a command. -/
def answer (s : State) (c : Address × Command) : Except Refusal Outcome :=
  (s.apply c.1 c.2).map (·.2)

/-- The commands of a run, each with its answer. -/
def transcript (s : State) :
    List (Address × Command) → List ((Address × Command) × Except Refusal Outcome)
  | [] => []
  | c :: rest => (c, s.answer c) :: (s.step c).transcript rest

/-- Whether the application of an event lets replies disagree; of an event that is not there it is
true. -/
def lenient (s : State) (id : EventId) : Bool :=
  (s.docket.get? id).all fun e => s.catalog.lenient e.application

/-- Two commands are the same, or they are replies with the same targets to an event whose
application lets replies disagree. -/
inductive SameUpToPoints (s : State) : Command → Command → Prop
  | same {command : Command} : SameUpToPoints s command command
  | reply {id : EventId} {scores scores' : List Score} (free : s.lenient id = true)
      (targets : scores.map (·.target) = scores'.map (·.target)) :
      SameUpToPoints s (.sendReply id scores) (.sendReply id scores')

/-- Two states agree on all that decides how a command on an event, or on none, is answered. -/
structure AlikeFor (view : View) (id : EventId) (s t : State) : Prop where
  policy : s.policy = t.policy
  nodes : ∀ address, s.roster.contains address = t.roster.contains address
  lastApplication : s.catalog.lastId = t.catalog.lastId
  applications : ∀ number, (s.catalog.get? number).map (·.multiReplyAllowed) =
    (t.catalog.get? number).map (·.multiReplyAllowed)
  lastEvent : s.docket.lastId = t.docket.lastId
  event : (s.docket.get? id).map (through view) = (t.docket.get? id).map (through view)

variable {s t : State} {view : View} {id : EventId} {caller : Address} {command command' : Command}

theorem multiReplyAllowed_of_lenient (h : s.lenient id = true) {e : Event}
    (he : s.docket.get? id = some e) {a : Application}
    (ha : s.catalog.get? e.application = some a) : a.multiReplyAllowed = true := by
  simpa [lenient, Catalog.lenient, he, ha] using h

/-! ## Commands on one event -/

/-- Without the event that it names, a command is refused. -/
theorem check_of_none (hid : command.event? = some id) (he : s.docket.get? id = none) :
    s.check caller command = .error (.notFound (.event id)) ∧
      s.carryOut caller command = .error (.notFound (.event id)) := by
  have hnone : s.event id = .error (.notFound (.event id)) := by simp [State.event, he]
  cases command with
  | registerNode => simp [Command.event?] at hid
  | registerApplication => simp [Command.event?] at hid
  | sendEvent => simp [Command.event?] at hid
  | sendReply id' scores =>
      obtain rfl : id' = id := Option.some.inj hid
      simp [check, carryOut, hnone, bind, Except.bind]
  | voteSolver id' candidate =>
      obtain rfl : id' = id := Option.some.inj hid
      simp [check, carryOut, hnone, bind, Except.bind]
  | solveEvent id' =>
      obtain rfl : id' = id := Option.some.inj hid
      simp [check, carryOut, hnone, bind, Except.bind]

section

variable {e : Event} (he : s.docket.get? id = some e)

include he

theorem check_sendReply_of_none (ha : s.catalog.get? e.application = none)
    (scores : List Score) :
    s.check caller (.sendReply id scores) = .error (.notFound (.application e.application)) := by
  simp only [check, event_eq_ok_iff.2 he, bind, Except.bind, ha]
  rfl

theorem check_sendReply {a : Application} (ha : s.catalog.get? e.application = some a)
    (scores : List Score) :
    s.check caller (.sendReply id scores) = e.checkReply a s.roster caller scores := by
  simp only [check, event_eq_ok_iff.2 he, bind, Except.bind, ha]

theorem check_voteSolver (candidate : Address) :
    s.check caller (.voteSolver id candidate) = e.checkVote s.policy s.roster caller := by
  simp only [check, event_eq_ok_iff.2 he, bind, Except.bind]

theorem check_solveEvent :
    s.check caller (.solveEvent id) =
      (e.checkSolve s.policy s.roster caller).map fun _ => () := by
  simp only [check, event_eq_ok_iff.2 he, bind, Except.bind]
  rfl

theorem outcome_sendReply (scores : List Score) :
    (s.carryOut caller (.sendReply id scores)).map (·.2) =
      .ok (.replyRecorded (s.roster.credited scores)) := by
  simp only [carryOut, event_eq_ok_iff.2 he, bind, Except.bind]
  rfl

theorem outcome_voteSolver (candidate : Address) :
    (s.carryOut caller (.voteSolver id candidate)).map (·.2) =
      .ok (.voteRecorded (e.electedBy caller candidate s.roster.size)) := by
  simp only [carryOut, event_eq_ok_iff.2 he, bind, Except.bind]
  rfl

theorem outcome_solveEvent :
    (s.carryOut caller (.solveEvent id)).map (·.2) =
      (e.checkSolve s.policy s.roster caller).map .eventSolved := by
  simp only [carryOut, event_eq_ok_iff.2 he, bind, Except.bind]
  cases e.checkSolve s.policy s.roster caller <;> rfl

end

/-! ## States that agree on an event -/

namespace AlikeFor

theorem size_eq (h : AlikeFor view id s t) : s.roster.size = t.roster.size := by
  apply Nat.le_antisymm
  · exact OrderedMap.size_le_of_contains fun k hk => (h.nodes k).symm.trans hk
  · exact OrderedMap.size_le_of_contains fun k hk => (h.nodes k).trans hk

theorem contains_application (h : AlikeFor view id s t) (number : ApplicationId) :
    s.catalog.contains number = t.catalog.contains number := by
  have hsome := congrArg Option.isSome (h.applications number)
  simpa [Catalog.contains, Catalog.get?, OrderedMap.contains] using hsome

/-- The event is in neither of the states, or in both and seen as the same. -/
theorem event_cases (h : AlikeFor view id s t) :
    (s.docket.get? id = none ∧ t.docket.get? id = none) ∨
      ∃ e e', s.docket.get? id = some e ∧ t.docket.get? id = some e' ∧
        e.through view = e'.through view := by
  have hevent := h.event
  cases he : s.docket.get? id with
  | none =>
      rw [he, Option.map_none] at hevent
      exact .inl ⟨rfl, Option.map_eq_none_iff.1 hevent.symm⟩
  | some e =>
      rw [he, Option.map_some] at hevent
      obtain ⟨e', he', hsame⟩ := Option.map_eq_some_iff.1 hevent.symm
      exact .inr ⟨e, e', rfl, he', hsame.symm⟩

theorem checkReply_eq (h : AlikeFor view id s t) {e e' : Event}
    (hsame : e.through view = e'.through view) {a a' : Application}
    (hagree : a.multiReplyAllowed = a'.multiReplyAllowed)
    (hview : a.multiReplyAllowed = true ∨ view.KeepsScores) {scores scores' : List Score}
    (htargets : scores.map (·.target) = scores'.map (·.target))
    (hvalues : a.multiReplyAllowed = true ∨ scores = scores') :
    e.checkReply a s.roster caller scores = e'.checkReply a' t.roster caller scores' := by
  calc e.checkReply a s.roster caller scores
    _ = (e.through view).checkReply a s.roster caller scores := (checkReply_through hview).symm
    _ = (e'.through view).checkReply a s.roster caller scores := by rw [hsame]
    _ = e'.checkReply a s.roster caller scores := checkReply_through hview
    _ = e'.checkReply a' t.roster caller scores' :=
      checkReply_congr (h.nodes caller) h.size_eq hagree htargets hvalues

theorem checkVote_eq (h : AlikeFor view id s t) {e e' : Event}
    (hsame : e.through view = e'.through view) :
    e.checkVote s.policy s.roster caller = e'.checkVote t.policy t.roster caller := by
  calc e.checkVote s.policy s.roster caller
    _ = (e.through view).checkVote s.policy s.roster caller := checkVote_through.symm
    _ = (e'.through view).checkVote t.policy s.roster caller := by rw [hsame, h.policy]
    _ = e'.checkVote t.policy s.roster caller := checkVote_through
    _ = e'.checkVote t.policy t.roster caller := checkVote_congr (h.nodes caller)

theorem checkSolve_eq (h : AlikeFor view id s t) {e e' : Event}
    (hsame : e.through view = e'.through view) :
    e.checkSolve s.policy s.roster caller = e'.checkSolve t.policy t.roster caller := by
  calc e.checkSolve s.policy s.roster caller
    _ = (e.through view).checkSolve s.policy s.roster caller := checkSolve_through.symm
    _ = (e'.through view).checkSolve t.policy s.roster caller := by rw [hsame, h.policy]
    _ = e'.checkSolve t.policy s.roster caller := checkSolve_through
    _ = e'.checkSolve t.policy t.roster caller := checkSolve_congr (h.nodes caller) h.size_eq

theorem check_sendReply_eq (h : AlikeFor view id s t)
    (hview : s.lenient id = true ∨ view.KeepsScores) {scores scores' : List Score}
    (htargets : scores.map (·.target) = scores'.map (·.target))
    (hvalues : s.lenient id = true ∨ scores = scores') :
    s.check caller (.sendReply id scores) = t.check caller (.sendReply id scores') := by
  rcases h.event_cases with ⟨he, he'⟩ | ⟨e, e', he, he', hsame⟩
  · rw [(check_of_none rfl he).1, (check_of_none rfl he').1]
  · have happlication : (e.through view).application = (e'.through view).application := by
      rw [hsame]
    simp only [application_through] at happlication
    have hboth := h.applications e.application
    cases ha : s.catalog.get? e.application with
    | none =>
        rw [ha, Option.map_none] at hboth
        have ha' := Option.map_eq_none_iff.1 hboth.symm
        rw [happlication] at ha'
        rw [check_sendReply_of_none he ha, check_sendReply_of_none he' ha', happlication]
    | some a =>
        rw [ha, Option.map_some] at hboth
        obtain ⟨a', ha', hagree⟩ := Option.map_eq_some_iff.1 hboth.symm
        rw [happlication] at ha'
        have hfree : s.lenient id = true → a.multiReplyAllowed = true := fun hlenient =>
          multiReplyAllowed_of_lenient hlenient he ha
        rw [check_sendReply he ha, check_sendReply he' ha']
        exact h.checkReply_eq hsame hagree.symm (hview.imp_left hfree) htargets
          (hvalues.imp_left hfree)

/-- What is refused in one of the states is refused in the other, and for the same reason. -/
theorem check_eq (h : AlikeFor view id s t) (hview : s.lenient id = true ∨ view.KeepsScores)
    (hid : command.event? = none ∨ command.event? = some id)
    (hcommand : s.SameUpToPoints command command') :
    s.check caller command = t.check caller command' := by
  cases hcommand with
  | reply free targets =>
      obtain rfl : _ = id := by simpa [Command.event?] using hid
      exact h.check_sendReply_eq hview targets (.inl free)
  | same =>
      cases command with
      | registerNode spec => simp only [check, h.policy]
      | registerApplication info requiredSpecs multiReplyAllowed => simp only [check, h.policy]
      | sendEvent payload application =>
          simp only [check, h.policy, h.contains_application application]
      | sendReply id' scores =>
          obtain rfl : id' = id := by simpa [Command.event?] using hid
          exact h.check_sendReply_eq hview rfl (.inr rfl)
      | voteSolver id' candidate =>
          obtain rfl : id' = id := by simpa [Command.event?] using hid
          rcases h.event_cases with ⟨he, he'⟩ | ⟨e, e', he, he', hsame⟩
          · rw [(check_of_none rfl he).1, (check_of_none rfl he').1]
          · rw [check_voteSolver he, check_voteSolver he', h.checkVote_eq hsame]
      | solveEvent id' =>
          obtain rfl : id' = id := by simpa [Command.event?] using hid
          rcases h.event_cases with ⟨he, he'⟩ | ⟨e, e', he, he', hsame⟩
          · rw [(check_of_none rfl he).1, (check_of_none rfl he').1]
          · rw [check_solveEvent he, check_solveEvent he', h.checkSolve_eq hsame]

theorem credited_eq (h : AlikeFor view id s t) {scores scores' : List Score}
    (htargets : scores.map (·.target) = scores'.map (·.target)) :
    s.roster.credited scores = t.roster.credited scores' := by
  have hcount : ∀ (r : Roster) (scores : List Score),
      r.credited scores = (scores.map (·.target)).countP (r.contains ·) := by
    intro r scores
    rw [List.countP_map]
    rfl
  have hnodes : s.roster.contains = t.roster.contains := by
    funext address
    exact h.nodes address
  rw [hcount, hcount, htargets, hnodes]

theorem outcome_sendReply_eq (h : AlikeFor view id s t) {scores scores' : List Score}
    (htargets : scores.map (·.target) = scores'.map (·.target)) :
    (s.carryOut caller (.sendReply id scores)).map (·.2) =
      (t.carryOut caller (.sendReply id scores')).map (·.2) := by
  rcases h.event_cases with ⟨he, he'⟩ | ⟨e, e', he, he', hsame⟩
  · rw [(check_of_none rfl he).2, (check_of_none rfl he').2]
  · rw [outcome_sendReply he, outcome_sendReply he', h.credited_eq htargets]

/-- What is carried out in both states has the same outcome. -/
theorem outcome_eq (h : AlikeFor view id s t)
    (hid : command.event? = none ∨ command.event? = some id)
    (hcommand : s.SameUpToPoints command command') :
    (s.carryOut caller command).map (·.2) = (t.carryOut caller command').map (·.2) := by
  cases hcommand with
  | reply _ targets =>
      obtain rfl : _ = id := by simpa [Command.event?] using hid
      exact h.outcome_sendReply_eq targets
  | same =>
      cases command with
      | registerNode spec => simp [carryOut, Except.map, h.nodes caller]
      | registerApplication info requiredSpecs multiReplyAllowed =>
          simp [carryOut, Except.map, Catalog.nextId, h.lastApplication]
      | sendEvent payload application =>
          simp [carryOut, Except.map, Docket.nextId, h.lastEvent]
      | sendReply id' scores =>
          obtain rfl : id' = id := by simpa [Command.event?] using hid
          exact h.outcome_sendReply_eq rfl
      | voteSolver id' candidate =>
          obtain rfl : id' = id := by simpa [Command.event?] using hid
          rcases h.event_cases with ⟨he, he'⟩ | ⟨e, e', he, he', hsame⟩
          · rw [(check_of_none rfl he).2, (check_of_none rfl he').2]
          · have helected : (e.through view).electedBy caller candidate t.roster.size =
                (e'.through view).electedBy caller candidate t.roster.size := by
              rw [hsame]
            simp only [electedBy_through] at helected
            rw [outcome_voteSolver he, outcome_voteSolver he', h.size_eq, helected]
      | solveEvent id' =>
          obtain rfl : id' = id := by simpa [Command.event?] using hid
          rcases h.event_cases with ⟨he, he'⟩ | ⟨e, e', he, he', hsame⟩
          · rw [(check_of_none rfl he).2, (check_of_none rfl he').2]
          · rw [outcome_solveEvent he, outcome_solveEvent he', h.checkSolve_eq hsame]

/-- A command is given the same answer in both states. -/
theorem answer_eq (h : AlikeFor view id s t) (hview : s.lenient id = true ∨ view.KeepsScores)
    (hid : command.event? = none ∨ command.event? = some id)
    (hcommand : s.SameUpToPoints command command') :
    s.answer (caller, command) = t.answer (caller, command') := by
  have hcheck : s.check caller command = t.check caller command' :=
    h.check_eq hview hid hcommand
  have hcarry : (s.carryOut caller command).map (·.2) = (t.carryOut caller command').map (·.2) :=
    h.outcome_eq hid hcommand
  simp only [answer, apply, hcheck]
  cases t.check caller command' with
  | error refusal => rfl
  | ok _ => exact hcarry

end AlikeFor

/-- Of two commands that are given the same answer both are refused, or both are accepted. -/
theorem steps_of_answer_eq {c c' : Address × Command} (h : s.answer c = t.answer c') :
    (s.step c = s ∧ t.step c' = t) ∨
      ∃ outcome, Accepted s c.1 c.2 (s.step c) outcome ∧
        Accepted t c'.1 c'.2 (t.step c') outcome := by
  cases hs : s.apply c.1 c.2 with
  | error refusal =>
      cases ht : t.apply c'.1 c'.2 with
      | error refusal' => exact .inl ⟨by simp [step, hs], by simp [step, ht]⟩
      | ok _ => simp [answer, hs, ht, Except.map] at h
  | ok result =>
      obtain ⟨s', outcome⟩ := result
      cases ht : t.apply c'.1 c'.2 with
      | error _ => simp [answer, hs, ht, Except.map] at h
      | ok result' =>
          obtain ⟨t', outcome'⟩ := result'
          obtain rfl : outcome = outcome' := by simpa [answer, hs, ht, Except.map] using h
          have hstep : s.step c = s' := by simp [step, hs]
          have hstep' : t.step c' = t' := by simp [step, ht]
          exact .inr ⟨outcome, hstep ▸ apply_eq_ok_iff.1 hs, hstep' ▸ apply_eq_ok_iff.1 ht⟩

end State

end Arbiter
