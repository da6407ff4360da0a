import Arbiter.Proofs.Election
import Mathlib.Data.List.Induction

/-!
# The history of an election

What an event's elected solver says about the whole run that led to a state.
-/

namespace Arbiter.State

/-- A candidate holds the votes of more than half of the registered nodes for an event. -/
def Majority (s : State) (id : EventId) (candidate : Address) : Prop :=
  ∃ e, s.docket.get? id = some e ∧ s.roster.size < 2 * e.votesFor candidate

/-- The elected solver of an event, if there is such an event and it has one. -/
def electedSolver? (s : State) (id : EventId) : Option Address :=
  (s.docket.get? id).bind (·.electedSolver)

/-- The state after the first commands of a run. -/
def point (policy : Policy) (commands : List (Address × Command)) (i : Nat) : State :=
  (initial policy).run (commands.take i)

/-- A candidate holds a majority at some point of a run, and no candidate does at an earlier one. -/
def FirstMajority (policy : Policy) (commands : List (Address × Command)) (id : EventId)
    (candidate : Address) : Prop :=
  ∃ i ≤ commands.length, (point policy commands i).Majority id candidate ∧
    ∀ j < i, ∀ c, ¬ (point policy commands j).Majority id c

variable {policy : Policy} {s s' : State} {id : EventId} {c c' : Address}

/-! ## Single states -/

theorem electedSolver?_eq_some_iff :
    s.electedSolver? id = some c ↔
      ∃ e, s.docket.get? id = some e ∧ e.electedSolver = some c := by
  simp [electedSolver?, Option.bind_eq_some_iff]

theorem Fair.not_majority (h : s.Fair) (hnone : s.electedSolver? id = none) (c : Address) :
    ¬ s.Majority id c := by
  rintro ⟨e, he, hmajority⟩
  have hunelected : e.electedSolver = none := by
    simpa [electedSolver?, he] using hnone
  have hfew := (h id e he).unelected hunelected c
  exact absurd (quorum_le_iff.2 hmajority) (Nat.not_le.2 hfew)

theorem Fair.majority_unique (h : s.Fair) (hc : s.Majority id c) (hc' : s.Majority id c') :
    c = c' := by
  obtain ⟨e, he, hmajority⟩ := hc
  obtain ⟨e', he', hmajority'⟩ := hc'
  obtain rfl := Option.some.inj (he.symm.trans he')
  exact (h id e he).majority_unique hmajority hmajority'

/-! ## One command -/

/-- An elected solver stays elected. -/
theorem Accepted.electedSolver?_of_some {caller : Address} {command : Command} {outcome : Outcome}
    (h : Accepted s caller command s' outcome) (hs : s.Numbered)
    (helected : s.electedSolver? id = some c) : s'.electedSolver? id = some c := by
  obtain ⟨e, he, hsolver⟩ := electedSolver?_eq_some_iff.1 helected
  obtain ⟨e', he', hstep⟩ := h.event_step hs he
  exact electedSolver?_eq_some_iff.2 ⟨e', he', hstep.electedSolver_of_some hsolver⟩

/-- A solver is elected by a vote, and then it holds a majority. -/
theorem Accepted.majority_of_elected {caller : Address} {command : Command} {outcome : Outcome}
    (h : Accepted s caller command s' outcome) (hs : s.Numbered)
    (hnone : s.electedSolver? id = none) (helected : s'.electedSolver? id = some c) :
    command = .voteSolver id c ∧ s'.Majority id c := by
  obtain ⟨e', he', hsolver⟩ := electedSolver?_eq_some_iff.1 helected
  rcases h.event_cases hs.nextId_fresh he' with ⟨-, _, _, -, -, rfl⟩ | ⟨e, he, hstep⟩
  · exact absurd hsolver (by simp [Event.fresh])
  · have hunelected : e.electedSolver = none := by
      simpa [electedSolver?, he] using hnone
    obtain ⟨hcommand, hmajority⟩ := hstep.majority_of_elected hunelected hsolver
    have hsize : s'.roster.size = s.roster.size := h.size_roster_eq (by simp [hcommand])
    exact ⟨hcommand, e', he', hsize ▸ hmajority⟩

theorem electedSolver?_step (hs : s.Numbered) (x : Address × Command)
    (helected : s.electedSolver? id = some c) :
    (s.step x).electedSolver? id = some c := by
  rcases s.step_cases x with hsame | ⟨outcome, haccepted⟩
  · rw [hsame]
    exact helected
  · exact haccepted.electedSolver?_of_some hs helected

theorem majority_step (hs : s.Numbered) (x : Address × Command)
    (hnone : s.electedSolver? id = none) (helected : (s.step x).electedSolver? id = some c) :
    (s.step x).Majority id c := by
  rcases s.step_cases x with hsame | ⟨outcome, haccepted⟩
  · rw [hsame] at helected
    exact absurd (hnone.symm.trans helected) (by simp)
  · exact (haccepted.majority_of_elected hs hnone helected).2

/-! ## Runs -/

theorem reachable_point (policy : Policy) (commands : List (Address × Command)) (i : Nat) :
    Reachable policy (point policy commands i) :=
  reachable_run policy _

theorem point_length (policy : Policy) (commands : List (Address × Command)) :
    point policy commands commands.length = (initial policy).run commands := by
  simp [point]

theorem point_append_of_le {commands more : List (Address × Command)} {i : Nat}
    (hi : i ≤ commands.length) :
    point policy (commands ++ more) i = point policy commands i := by
  rw [point, point, List.take_append_of_le_length hi]

theorem run_append (s : State) (commands more : List (Address × Command)) :
    s.run (commands ++ more) = (s.run commands).run more :=
  List.foldl_append ..

/-- Whatever follows, the first majority is the same. -/
theorem FirstMajority.append {commands : List (Address × Command)}
    (h : FirstMajority policy commands id c) (more : List (Address × Command)) :
    FirstMajority policy (commands ++ more) id c := by
  obtain ⟨i, hi, hmajority, hfirst⟩ := h
  refine ⟨i, ?_, ?_, ?_⟩
  · rw [List.length_append]
    omega
  · rw [point_append_of_le hi]
    exact hmajority
  · intro j hj c'
    rw [point_append_of_le (by omega)]
    exact hfirst j hj c'

theorem electedSolver?_run (hs : Reachable policy s) (helected : s.electedSolver? id = some c)
    (more : List (Address × Command)) :
    (s.run more).electedSolver? id = some c := by
  induction more generalizing s with
  | nil => exact helected
  | cons x more ih => exact ih (hs.step x) (electedSolver?_step hs.numbered x helected)

/-- Until a solver is elected no candidate has held a majority, and the elected solver is the first
one that did. -/
theorem majority_history (policy : Policy) (commands : List (Address × Command)) (id : EventId) :
    (((initial policy).run commands).electedSolver? id = none →
      ∀ i ≤ commands.length, ∀ c, ¬ (point policy commands i).Majority id c) ∧
    ∀ {c : Address}, ((initial policy).run commands).electedSolver? id = some c →
      FirstMajority policy commands id c := by
  induction commands using List.reverseRecOn with
  | nil =>
      refine ⟨fun hnone i _ c => ?_, fun helected => ?_⟩
      · exact (reachable_point policy [] i).fair.not_majority (by simpa [point] using hnone) c
      · simp [run, initial, electedSolver?, Docket.get?] at helected
  | append_singleton commands x ih =>
      have hlast : (initial policy).run (commands ++ [x]) =
          ((initial policy).run commands).step x := run_append _ _ _
      have hnumbered := (reachable_run policy commands).numbered
      -- the points before the last one are those of the shorter run
      have hearlier : ((initial policy).run commands).electedSolver? id = none →
          ∀ i ≤ commands.length, ∀ c, ¬ (point policy (commands ++ [x]) i).Majority id c := by
        intro hnone i hi c
        rw [point_append_of_le hi]
        exact ih.1 hnone i hi c
      have hend : point policy (commands ++ [x]) (commands.length + 1) =
          (initial policy).run (commands ++ [x]) := by
        rw [← point_length]
        simp
      cases hbefore : ((initial policy).run commands).electedSolver? id with
      | none =>
          refine ⟨fun hnone i hi c => ?_, fun {c} helected => ?_⟩
          · rcases Nat.lt_or_ge commands.length i with hgt | hle
            · obtain rfl : i = commands.length + 1 := by
                simp only [List.length_append, List.length_singleton] at hi
                omega
              rw [hend]
              exact (reachable_run policy _).fair.not_majority hnone c
            · exact hearlier hbefore i hle c
          · refine ⟨commands.length + 1, by simp, ?_, ?_⟩
            · rw [hend]
              rw [hlast] at helected ⊢
              exact majority_step hnumbered x hbefore helected
            · intro j hj c'
              exact hearlier hbefore j (by omega) c'
      | some c₀ =>
          have hkept := electedSolver?_step hnumbered x hbefore
          rw [← hlast] at hkept
          refine ⟨fun hnone => ?_, fun {c} helected => ?_⟩
          · exact absurd (hkept.symm.trans hnone) (by simp)
          · obtain rfl := Option.some.inj (hkept.symm.trans helected)
            exact (ih.2 hbefore).append [x]

theorem FirstMajority.unique {commands : List (Address × Command)}
    (hc : FirstMajority policy commands id c) (hc' : FirstMajority policy commands id c') :
    c = c' := by
  obtain ⟨i, _, hmajority, hfirst⟩ := hc
  obtain ⟨i', _, hmajority', hfirst'⟩ := hc'
  obtain rfl : i = i' := by
    apply Nat.le_antisymm
    · by_contra hlt
      exact hfirst i' (Nat.lt_of_not_le hlt) c' hmajority'
    · by_contra hlt
      exact hfirst' i (Nat.lt_of_not_le hlt) c hmajority
  exact (reachable_point policy commands i).fair.majority_unique hmajority hmajority'

/-- The elected solver of an event is the first candidate that held the votes of more than half of
the nodes registered at some point of the run.  It stays elected whatever follows, and without one
no candidate has the votes that the present number of nodes asks for. -/
theorem first_majority_is_elected (policy : Policy) (commands : List (Address × Command))
    (id : EventId) {e : Event} (he : ((initial policy).run commands).docket.get? id = some e) :
    (e.electedSolver = none ↔
      ∀ i ≤ commands.length, ∀ c, ¬ (point policy commands i).Majority id c) ∧
    (∀ c, e.electedSolver = some c ↔ FirstMajority policy commands id c) ∧
    (∀ c more, e.electedSolver = some c →
      ((initial policy).run (commands ++ more)).electedSolver? id = some c) ∧
    (e.electedSolver = none →
      ∀ c, e.votesFor c < quorum ((initial policy).run commands).roster.size) := by
  have hsolver : ((initial policy).run commands).electedSolver? id = e.electedSolver := by
    simp [electedSolver?, he]
  obtain ⟨hnever, hfirst⟩ := majority_history policy commands id
  rw [hsolver] at hnever
  refine ⟨⟨hnever, fun hnone => ?_⟩, fun c => ⟨?_, ?_⟩, fun c more helected => ?_, ?_⟩
  · cases helected : e.electedSolver with
    | none => rfl
    | some c =>
        obtain ⟨i, hi, hmajority, _⟩ := hfirst (hsolver.trans helected)
        exact absurd hmajority (hnone i hi c)
  · intro helected
    exact hfirst (hsolver.trans helected)
  · intro hc
    cases helected : e.electedSolver with
    | none =>
        obtain ⟨i, hi, hmajority, _⟩ := hc
        exact absurd hmajority (hnever helected i hi c)
    | some c' =>
        rw [(hfirst (hsolver.trans helected)).unique hc]
  · rw [run_append]
    exact electedSolver?_run (reachable_run policy commands) (hsolver.trans helected) more
  · exact ((reachable_run policy commands).fair id e he).unelected

/-- Three nodes, two of which vote for the same outsider. -/
def twoOfThree : List (Address × Command) :=
  [(.ofLow 1, .registerNode "s"), (.ofLow 2, .registerNode "s"), (.ofLow 3, .registerNode "s"),
    (.ofLow 1, .registerApplication "i" [] false), (.ofLow 1, .sendEvent "p" 1),
    (.ofLow 1, .voteSolver 1 (.ofLow 9)), (.ofLow 2, .voteSolver 1 (.ofLow 9))]

theorem first_majority_is_elected_by_two_of_three :
    ∃ e, ((initial {}).run twoOfThree).docket.get? 1 = some e ∧
      e.electedSolver = some (.ofLow 9) ∧ FirstMajority {} twoOfThree 1 (.ofLow 9) := by
  have hsolver : ((initial {}).run twoOfThree).electedSolver? 1 = some (.ofLow 9) := by
    decide +kernel
  obtain ⟨e, he, helected⟩ := electedSolver?_eq_some_iff.1 hsolver
  exact ⟨e, he, helected, ((first_majority_is_elected {} twoOfThree 1 he).2.1 _).1 helected⟩

end Arbiter.State
