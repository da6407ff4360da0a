import Arbiter.Proofs.EventStep

/-!
# The first majority is elected

An event's elected solver is the first candidate that held the votes of more than half of the nodes
registered at some point, and it stays elected.  The bar moves as nodes register and only the
candidate of the newest vote is looked at, so the proof carries that an event without an elected
solver has no candidate at the quorum.
-/

namespace Arbiter

theorem quorum_le_iff {registered votes : Nat} :
    quorum registered ≤ votes ↔ registered < 2 * votes := by
  unfold quorum
  omega

namespace Event

variable {e : Event} {voter candidate c c' : Address} {registered : Nat}

/-! ## Counting votes -/

theorem votesFor_vote (hnew : e.hasVoted voter = false) (c : Address) :
    (e.vote voter candidate registered).votesFor c =
      e.votesFor c + if candidate = c then 1 else 0 := by
  have hfresh : e.votes.get? voter = none := OrderedMap.get?_eq_none_iff.2 hnew
  have hperm := OrderedMap.perm_toList_insert candidate hfresh
  change ((e.votes.insert voter candidate).toList).countP _ = _
  rw [hperm.countP_eq, List.countP_cons]
  simp [votesFor, votePairs]

theorem votesFor_add_votesFor_le (hne : c ≠ c') :
    e.votesFor c + e.votesFor c' ≤ e.votes.size := by
  have hothers : e.votesFor c' ≤ e.votePairs.countP fun pair => !(pair.2 == c) := by
    apply List.countP_mono_left
    intro pair _ hpair
    simp only [beq_iff_eq] at hpair
    simpa [hpair] using hne.symm
  have hall := List.length_eq_countP_add_countP (fun pair => pair.2 == c) (l := e.votePairs)
  simp only [votesFor, OrderedMap.size, votePairs] at hothers hall ⊢
  simp only [Bool.not_eq_true, Bool.decide_eq_false] at hall
  omega

/-! ## What a vote elects -/

theorem electedSolver_vote_of_some (helected : e.electedSolver = some c) :
    (e.vote voter candidate registered).electedSolver = some c := by
  simp [vote, helected]

theorem electedSolver_vote_of_none (hnone : e.electedSolver = none) :
    (e.vote voter candidate registered).electedSolver =
      if quorum registered ≤ (e.vote voter candidate registered).votesFor candidate
      then some candidate else none := by
  have hvotes : (e.vote voter candidate registered).votesFor candidate =
      votesFor { e with votes := e.votes.insert voter candidate } candidate := rfl
  rw [hvotes]
  simp [vote, hnone, electedBy]

/-- The votes of an event are in order: all voters are registered, and without an elected solver no
candidate has reached the quorum. -/
structure Fair (roster : Roster) (e : Event) : Prop where
  voters : ∀ {voter : Address}, e.hasVoted voter = true → roster.contains voter = true
  unelected : e.electedSolver = none → ∀ c, e.votesFor c < quorum roster.size

theorem Fair.size_votes_le {roster : Roster} (h : e.Fair roster) : e.votes.size ≤ roster.size :=
  OrderedMap.size_le_of_contains fun _ hk => h.voters hk

/-- Two candidates cannot both hold a majority. -/
theorem Fair.majority_unique {roster : Roster} (h : e.Fair roster)
    (hc : roster.size < 2 * e.votesFor c) (hc' : roster.size < 2 * e.votesFor c') :
    c = c' := by
  by_contra hne
  have hsum := votesFor_add_votesFor_le (e := e) hne
  have hsize := h.size_votes_le
  omega

/-- Only the votes and the elected solver matter. -/
theorem Fair.congr {roster : Roster} {e' : Event} (h : e.Fair roster) (hvotes : e'.votes = e.votes)
    (helected : e'.electedSolver = e.electedSolver) : e'.Fair roster := by
  have hcount : ∀ c, e'.votesFor c = e.votesFor c := by
    intro c
    simp [votesFor, votePairs, hvotes]
  constructor
  · intro voter hvoted
    apply h.voters
    simpa [hasVoted, hvotes] using hvoted
  · intro hnone c
    rw [hcount]
    exact h.unelected (helected ▸ hnone) c

/-- Nodes that register raise the bar. -/
theorem Fair.mono {roster roster' : Roster} (h : e.Fair roster)
    (hvoters : ∀ {voter}, roster.contains voter = true → roster'.contains voter = true)
    (hsize : roster.size ≤ roster'.size) : e.Fair roster' := by
  constructor
  · intro voter hvoted
    exact hvoters (h.voters hvoted)
  · intro hnone c
    have hfew := h.unelected hnone c
    unfold quorum at *
    omega

theorem Fair.vote {roster : Roster} (h : e.Fair roster) (hvoter : roster.contains voter = true)
    (hnew : e.hasVoted voter = false) : (e.vote voter candidate roster.size).Fair roster := by
  constructor
  · intro voter' hvoted
    rcases OrderedMap.contains_insert.1 hvoted with rfl | hbefore
    · exact hvoter
    · exact h.voters hbefore
  · intro hnone c
    have hbefore : e.electedSolver = none := by
      cases helected : e.electedSolver with
      | none => rfl
      | some c =>
          rw [electedSolver_vote_of_some helected] at hnone
          simp at hnone
    rw [electedSolver_vote_of_none hbefore] at hnone
    -- only the count of the new vote's candidate has changed
    by_cases hc : candidate = c
    · subst hc
      split at hnone
      · simp at hnone
      · next hfew => exact Nat.lt_of_not_le hfew
    · rw [votesFor_vote hnew, if_neg hc]
      exact h.unelected hbefore c

theorem fair_fresh (roster : Roster) (id : EventId) (application : ApplicationId)
    (payload : String) (sender : Address) (now : Version) :
    (fresh id application payload sender now).Fair roster where
  voters := by simp [fresh, hasVoted, OrderedMap.contains]
  unelected := by
    intro _ c
    have hzero : (fresh id application payload sender now).votesFor c = 0 := rfl
    rw [hzero]
    exact Nat.succ_pos _

end Event

namespace State

open Event

variable {s s' : State} {caller : Address} {command : Command} {outcome : Outcome}
  {id : EventId} {e e' : Event}

/-- An elected solver stays elected. -/
theorem EventStep.electedSolver_of_some (h : EventStep s caller id command e e') {c : Address}
    (helected : e.electedSolver = some c) :
    e'.electedSolver = some c := by
  cases h with
  | other => exact helected
  | reply =>
      unfold Event.reply
      split <;> exact helected
  | vote => exact electedSolver_vote_of_some helected
  | solve => exact helected

/-- A solver is elected by a vote that gives it a majority. -/
theorem EventStep.majority_of_elected (h : EventStep s caller id command e e') {c : Address}
    (hnone : e.electedSolver = none) (helected : e'.electedSolver = some c) :
    command = .voteSolver id c ∧ s.roster.size < 2 * e'.votesFor c := by
  cases h with
  | other => simp [hnone] at helected
  | reply =>
      unfold Event.reply at helected
      split at helected <;> simp [hnone] at helected
  | vote =>
      rw [electedSolver_vote_of_none hnone] at helected
      split at helected
      · next hquorum =>
          obtain rfl := Option.some.inj helected
          exact ⟨rfl, quorum_le_iff.1 hquorum⟩
      · simp at helected
  | solve =>
      have helected' : e.electedSolver = some c := helected
      simp [hnone] at helected'

theorem EventStep.fair (h : EventStep s caller id command e e') (hfair : e.Fair s.roster)
    (haccepted : Accepted s caller command s' outcome) :
    e'.Fair s'.roster := by
  have hbefore : e'.Fair s.roster := by
    cases h with
    | other => exact hfair
    | reply =>
        refine hfair.congr ?_ ?_ <;>
          · unfold Event.reply
            split <;> rfl
    | solve => exact hfair.congr rfl rfl
    | vote accepts =>
        obtain ⟨_, hregistered, hnew, _⟩ := checkVote_eq_ok_iff.1 accepts
        exact hfair.vote hregistered hnew
  exact hbefore.mono haccepted.contains_roster haccepted.size_roster_le

/-- The votes of all events are in order. -/
def Fair (s : State) : Prop :=
  ∀ (id : EventId) (e : Event), s.docket.get? id = some e → e.Fair s.roster

theorem Accepted.fair (h : Accepted s caller command s' outcome) (hs : s.Numbered)
    (hfair : s.Fair) :
    s'.Fair := by
  intro id e' he'
  rcases h.event_cases hs.nextId_fresh he' with ⟨-, _, _, -, -, rfl⟩ | ⟨e, he, hstep⟩
  · exact fair_fresh _ _ _ _ _ _
  · exact hstep.fair (hfair id e he) h

theorem Reachable.fair {policy : Policy} (h : Reachable policy s) : s.Fair := by
  refine h.invariant ?_ fun ht haccepted hfair => haccepted.fair ht.numbered hfair
  intro id e he
  simp [State.initial, Docket.get?] at he

end State

end Arbiter
