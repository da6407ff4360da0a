import Arbiter.Proofs.Chronology
import Arbiter.Proofs.FirstMajority
import Arbiter.Proofs.Lifecycle

/-!
# What the record of a closed event says

The record of a closed event is written once, and the event is not changed any more.  So what the
record says is true of every later state, too: it names the solver, who was elected by a majority of
the nodes registered then, an account that was allowed to close the event, the time of the only
entry that closes it, and the ranking.
-/

namespace Arbiter

theorem Entry.map_filter_solveEvent (entries : List Entry) (id : EventId) :
    (entries.filter (·.command = .solveEvent id)).map (fun x => (x.caller, x.sequence)) =
      entries.filterMap (Entry.closingOf? id) := by
  induction entries with
  | nil => rfl
  | cons x entries ih =>
      by_cases hcloses : x.command = .solveEvent id
      · simp [Entry.closingOf?, hcloses, ih]
      · have hnot : x.closingOf? id = none := by
          unfold Entry.closingOf?
          split
          · next heq => simpa [heq] using hcloses
          · rfl
        simp [hcloses, hnot, ih]

/-- The account that closed an event was allowed to: every account is, or a node that had registered
before, or the solver. -/
def Resolution.Authorized (policy : Policy) (roster : Roster) (c : Resolution) : Prop :=
  match policy.solveAuthority with
  | .anyone => True
  | .registered => ∃ n, roster.get? c.solvedBy = some n ∧ n.registeredAt < c.solvedAt
  | .elected => c.solvedBy = c.solver

namespace State

open Event

variable {policy : Policy} {entries : List Entry} {s s' t t' : State} {caller : Address}
  {command : Command} {outcome : Outcome} {id : EventId} {e e' : Event} {x : Entry}

/-! ## The election -/

/-- An elected solver was elected by one of the entries. -/
theorem Trail.exists_election (h : Trail (initial policy) entries s) {solver : Address}
    (helected : s.electedSolver? id = some solver) :
    ∃ x t t', Passage (initial policy) entries s x t t' ∧ x.command = .voteSolver id solver ∧
      t.electedSolver? id = none ∧ t'.electedSolver? id = some solver ∧ t'.Majority id solver := by
  have hstart : ¬ (initial policy).electedSolver? id = some solver := by
    simp [initial, electedSolver?, Docket.get?]
  obtain ⟨x, t, t', hpassage, hnot, hnow⟩ := h.exists_passage
    (P := fun t => t.electedSolver? id = some solver) hstart helected
  obtain ⟨front, back, -, hfront, -⟩ := hpassage.there
  obtain ⟨outcome, haccepted⟩ := hpassage.accepted
  have hnumbered := hfront.reachable.numbered
  have hnone : t.electedSolver? id = none := by
    cases hbefore : t.electedSolver? id with
    | none => rfl
    | some solver' =>
        -- another solver would still be the elected one
        have hkept := haccepted.electedSolver?_of_some hnumbered hbefore
        rw [Option.some.inj (hkept.symm.trans hnow)] at hbefore
        exact absurd hbefore hnot
  obtain ⟨hvote, hmajority⟩ := haccepted.majority_of_elected hnumbered hnone hnow
  exact ⟨x, t, t', hpassage, hvote, hnone, hnow, hmajority⟩

/-! ## The closing -/

/-- An event is closed by a command of its own. -/
theorem EventStep.solve_of_solved (h : EventStep s caller id command e e')
    (hopen : e.isSolved = false) (hsolved : e'.isSolved = true) :
    ∃ solver, command = .solveEvent id ∧ e.checkSolve s.policy s.roster caller = .ok solver ∧
      e' = e.solve solver caller (s.version + 1) := by
  cases h with
  | other => simp [hopen] at hsolved
  | reply _ accepts =>
      obtain ⟨-, -, hnew, -⟩ := checkReply_eq_ok_iff.1 accepts
      rw [reply_of_new hnew] at hsolved
      exact absurd (hopen.symm.trans hsolved) (by simp)
  | vote => exact absurd (hopen.symm.trans hsolved) (by simp)
  | @solve _ solver accepts => exact ⟨solver, rfl, accepts, rfl⟩

/-- A closed event was closed by one of the entries, and is as that entry left it. -/
theorem Trail.exists_closing (h : Trail (initial policy) entries s)
    (he : s.docket.get? id = some e) (hsolved : e.isSolved = true) :
    ∃ x t t' e₀ solver, Passage (initial policy) entries s x t t' ∧
      t.docket.get? id = some e₀ ∧ e₀.checkSolve policy t.roster x.caller = .ok solver ∧
      e = e₀.solve solver x.caller x.sequence := by
  have hstart : ¬ ∃ e, (initial policy).docket.get? id = some e ∧ e.isSolved = true := by
    simp [initial, Docket.get?]
  obtain ⟨x, t, t', hpassage, hnot, e', he', hsolved'⟩ := h.exists_passage
    (P := fun t => ∃ e, t.docket.get? id = some e ∧ e.isSolved = true) hstart ⟨e, he, hsolved⟩
  obtain ⟨front, back, -, hfront, hback⟩ := hpassage.there
  obtain ⟨outcome, haccepted⟩ := hpassage.accepted
  have hnumbered := hfront.reachable.numbered
  rcases haccepted.event_cases hnumbered.nextId_fresh he' with
    ⟨-, _, _, -, -, rfl⟩ | ⟨e₀, he₀, hstep⟩
  · simp [Event.fresh, isSolved] at hsolved'
  · have hopen : e₀.isSolved = false := by
      rw [← Bool.not_eq_true]
      exact fun hsolved₀ => hnot ⟨e₀, he₀, hsolved₀⟩
    obtain ⟨solver, -, haccepts, hclosed⟩ := hstep.solve_of_solved hopen hsolved'
    -- after that the event has not changed
    obtain ⟨e₁, he₁, hcontinues⟩ := hback.event_continues (hnumbered.accepted haccepted) he'
    obtain rfl := Option.some.inj (he₁.symm.trans he)
    rw [hfront.policy_eq] at haccepts
    refine ⟨x, t, t', e₀, solver, hpassage, he₀, haccepts, ?_⟩
    rw [hcontinues.solved hsolved', hclosed, hpassage.sequence]

/-- There is one entry that closes a closed event. -/
theorem Trail.filter_solveEvent_eq (h : Trail (initial policy) entries s) {c : Resolution}
    (he : s.docket.get? id = some e) (hc : e.resolution = some c) :
    entries.filter (·.command = .solveEvent id) = [⟨c.solvedAt, c.solvedBy, .solveEvent id⟩] := by
  have hclosing : e.closings = [(c.solvedBy, c.solvedAt)] := by
    simp [closings, hc]
  rw [(h.holdsWhat.collected he).closing, ← Entry.map_filter_solveEvent] at hclosing
  obtain ⟨x, hfilter, hx⟩ := List.map_eq_singleton_iff.1 hclosing
  obtain ⟨hcaller, hsequence⟩ := Prod.mk.inj hx
  have hcommand : x.command = .solveEvent id := by
    have hmem : x ∈ entries.filter (·.command = .solveEvent id) := by simp [hfilter]
    exact of_decide_eq_true (List.mem_filter.1 hmem).2
  rw [hfilter, ← hcaller, ← hsequence, ← hcommand]

/-- What the policy asked of the account that closed an event is still to be seen in the roster. -/
theorem Trail.authorized (h : Trail t entries s) (ht : t.Dated) {c : Resolution}
    (hadmits : admits policy.solveAuthority t.roster c.solvedBy c.solver = true)
    (hnow : c.solvedAt = t.version + 1) : c.Authorized policy s.roster := by
  unfold Resolution.Authorized
  unfold admits at hadmits
  cases hauthority : policy.solveAuthority with
  | anyone => trivial
  | registered =>
      rw [hauthority] at hadmits
      obtain ⟨n, hn⟩ := OrderedMap.contains_iff.1 hadmits
      obtain ⟨n', hn', hsame⟩ := h.registered hn
      refine ⟨n', hn', ?_⟩
      rw [hsame, hnow]
      exact ht.registeredAt_lt hn
  | elected =>
      rw [hauthority] at hadmits
      exact eq_of_beq hadmits

/-- The record of a closed event, in any state that a controller can be in and whatever came after
the event was closed.  Its solver is the elected one, who was elected by one of the entries and held
the votes of more than half of the nodes registered then.  The account that closed the event was
allowed to by the policy.  The standings are the ranking as it is now.  One entry closes the event,
and every reply was accepted before it. -/
theorem resolution_stays_true (h : Trail (initial policy) entries s) {c : Resolution}
    (he : s.docket.get? id = some e) (hc : e.resolution = some c) :
    e.electedSolver = some c.solver ∧
    (∃ x t t', Trail.Passage (initial policy) entries s x t t' ∧
      x.command = .voteSolver id c.solver ∧ t.electedSolver? id = none ∧
      t'.electedSolver? id = some c.solver ∧ t'.Majority id c.solver) ∧
    c.Authorized policy s.roster ∧
    c.standings = e.ranking ∧
    entries.filter (·.command = .solveEvent id) = [⟨c.solvedAt, c.solvedBy, .solveEvent id⟩] ∧
    ∀ r ∈ e.replyList, r.submittedAt < c.solvedAt := by
  have hsolved : e.isSolved = true := by simp [isSolved, hc]
  obtain ⟨x, t, t', e₀, solver, hpassage, -, haccepts, rfl⟩ := h.exists_closing he hsolved
  obtain ⟨hopen, helected, hadmits⟩ := checkSolve_eq_ok_iff.1 haccepts
  obtain rfl : ⟨solver, x.caller, x.sequence, e₀.ranking⟩ = c := by
    simpa [solve, hopen] using hc
  have helection := h.exists_election (electedSolver?_eq_some_iff.2 ⟨_, he, helected⟩)
  refine ⟨helected, helection, ?_, rfl, h.filter_solveEvent_eq he hc, ?_⟩
  · obtain ⟨front, back, -, hfront, hback⟩ := hpassage.there
    obtain ⟨outcome, haccepted⟩ := hpassage.accepted
    exact (hback.cons haccepted).authorized hfront.reachable.proper.dated hadmits
      hpassage.sequence
  · intro r hr
    obtain ⟨author, hreply⟩ := OrderedMap.mem_values_iff.1 hr
    exact ((h.reachable.proper.events he).closing hc).2 hreply

/-- Two nodes elect an outsider, and two more register before one of the first closes the event. -/
def closedByNode : JournalRun :=
  (JournalRun.start { solveAuthority := .registered }).submits
    [(.ofLow 1, .registerNode "s"), (.ofLow 2, .registerNode "s"),
      (.ofLow 1, .registerApplication "i" [] false), (.ofLow 3, .sendEvent "p" 1),
      (.ofLow 2, .sendReply 1 [⟨.ofLow 1, 5⟩]), (.ofLow 1, .voteSolver 1 (.ofLow 9)),
      (.ofLow 2, .voteSolver 1 (.ofLow 9)), (.ofLow 3, .registerNode "s"),
      (.ofLow 4, .registerNode "s"), (.ofLow 5, .solveEvent 1), (.ofLow 2, .solveEvent 1),
      (.ofLow 5, .registerNode "s")]

theorem resolution_stays_true_of_closedByNode :
    ¬ closedByNode.state.Majority 1 (.ofLow 9) ∧
      ∃ e c, closedByNode.state.docket.get? 1 = some e ∧ e.resolution = some c ∧
        c = ⟨.ofLow 9, .ofLow 2, 10, [⟨.ofLow 1, 5, 1⟩]⟩ ∧
        (∃ x t t', Trail.Passage (initial { solveAuthority := .registered })
          closedByNode.journal.entries closedByNode.state x t t' ∧
          x.command = .voteSolver 1 c.solver ∧ t.electedSolver? 1 = none ∧
          t'.electedSolver? 1 = some c.solver ∧ t'.Majority 1 c.solver) ∧
        c.Authorized { solveAuthority := .registered } closedByNode.state.roster ∧
        closedByNode.journal.entries.filter (·.command = .solveEvent 1) =
          [⟨c.solvedAt, c.solvedBy, .solveEvent 1⟩] := by
  have hevent : (closedByNode.state.docket.get? 1).map
      (fun e => (e.resolution, e.votesFor (.ofLow 9))) =
      some (some ⟨.ofLow 9, .ofLow 2, 10, [⟨.ofLow 1, 5, 1⟩]⟩, 2) := by
    decide +kernel
  have hsize : closedByNode.state.roster.size = 5 := by decide +kernel
  obtain ⟨e, he, hparts⟩ := Option.map_eq_some_iff.1 hevent
  obtain ⟨hc, hvotes⟩ := Prod.mk.inj hparts
  have htraced : closedByNode.Traced { solveAuthority := .registered } :=
    (JournalRun.Traced.start _).submits _
  obtain ⟨-, helection, hauthorized, -, hclosing, -⟩ := resolution_stays_true htraced.trail he hc
  refine ⟨?_, e, _, he, hc, rfl, helection, hauthorized, hclosing⟩
  rintro ⟨e', he', hmajority⟩
  obtain rfl := Option.some.inj (he'.symm.trans he)
  omega

end State

end Arbiter
