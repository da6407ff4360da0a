import Arbiter.Proofs.Election

/-!
# The order of ballots

Votes that are all accepted one after the other are accepted in every other order as well, and lead
to the same state.  Two ballots that follow each other may change places: on one event they come
from different voters, and they cannot elect two different candidates, since both would then hold
more than half of the nodes' votes.
-/

namespace Arbiter

/-- A vote of a node for a candidate in an event. -/
structure Ballot where
  voter : Address
  event : EventId
  candidate : Address
  deriving DecidableEq

/-- The command that casts a ballot, with its caller. -/
def Ballot.command (b : Ballot) : Address × Command :=
  (b.voter, .voteSolver b.event b.candidate)

/-! ## Two votes on one event -/

namespace Event

variable {e : Event} {voter voter' candidate candidate' : Address} {roster : Roster}

theorem hasVoted_vote {registered : Nat} :
    (e.vote voter candidate registered).hasVoted voter' = true ↔
      voter' = voter ∨ e.hasVoted voter' = true :=
  OrderedMap.contains_insert

theorem hasVoted_vote_of_ne {registered : Nat} (hne : voter ≠ voter')
    (hnew' : e.hasVoted voter' = false) :
    (e.vote voter candidate registered).hasVoted voter' = false := by
  rw [← Bool.not_eq_true, hasVoted_vote, not_or, Bool.not_eq_true]
  exact ⟨hne.symm, hnew'⟩

/-- The votes for a candidate after two new ones. -/
theorem votesFor_vote_vote {registered : Nat} (hne : voter ≠ voter')
    (hnew : e.hasVoted voter = false) (hnew' : e.hasVoted voter' = false) (c : Address) :
    ((e.vote voter candidate registered).vote voter' candidate' registered).votesFor c =
      e.votesFor c + (if candidate = c then 1 else 0) + (if candidate' = c then 1 else 0) := by
  rw [votesFor_vote (hasVoted_vote_of_ne hne hnew'), votesFor_vote hnew]

/-- Who is elected by two new votes: the candidate of the first one if that suffices, and otherwise
perhaps the candidate of the second one. -/
theorem electedSolver_vote_vote {registered : Nat} (hnone : e.electedSolver = none)
    (hne : voter ≠ voter') (hnew : e.hasVoted voter = false) (hnew' : e.hasVoted voter' = false) :
    ((e.vote voter candidate registered).vote voter' candidate' registered).electedSolver =
      if quorum registered ≤ e.votesFor candidate + 1 then some candidate
      else if quorum registered ≤
          e.votesFor candidate' + (if candidate = candidate' then 1 else 0) + 1 then
        some candidate'
      else none := by
  have hfirst : (e.vote voter candidate registered).electedSolver =
      if quorum registered ≤ e.votesFor candidate + 1 then some candidate else none := by
    rw [electedSolver_vote_of_none hnone, votesFor_vote hnew, if_pos rfl]
  by_cases hq : quorum registered ≤ e.votesFor candidate + 1
  · rw [if_pos hq] at hfirst ⊢
    exact electedSolver_vote_of_some hfirst
  · rw [if_neg hq] at hfirst ⊢
    rw [electedSolver_vote_of_none hfirst, votesFor_vote_vote hne hnew hnew', if_pos rfl]

/-- Two new votes of registered nodes do not both complete a majority. -/
theorem Fair.not_both_elected (h : e.Fair roster) (hne : voter ≠ voter')
    (hcandidates : candidate ≠ candidate') (hvoter : roster.contains voter = true)
    (hvoter' : roster.contains voter' = true) (hnew : e.hasVoted voter = false)
    (hnew' : e.hasVoted voter' = false) (hquorum : quorum roster.size ≤ e.votesFor candidate + 1)
    (hquorum' : quorum roster.size ≤ e.votesFor candidate' + 1) :
    False := by
  let after := (e.vote voter candidate roster.size).vote voter' candidate' roster.size
  have hcount : after.votesFor candidate = e.votesFor candidate + 1 := by
    simp [after, votesFor_vote_vote hne hnew hnew', hcandidates.symm]
  have hcount' : after.votesFor candidate' = e.votesFor candidate' + 1 := by
    simp [after, votesFor_vote_vote hne hnew hnew', hcandidates]
  have hsize : after.votes.size ≤ roster.size := by
    apply OrderedMap.size_le_of_contains
    intro k hk
    rcases hasVoted_vote.1 hk with rfl | hk
    · exact hvoter'
    · rcases hasVoted_vote.1 hk with rfl | hk
      · exact hvoter
      · exact h.voters hk
  have hsum := votesFor_add_votesFor_le (e := after) hcandidates
  rw [quorum_le_iff] at hquorum hquorum'
  omega

theorem Fair.electedSolver_vote_comm (h : e.Fair roster) (hne : voter ≠ voter')
    (hvoter : roster.contains voter = true) (hvoter' : roster.contains voter' = true)
    (hnew : e.hasVoted voter = false) (hnew' : e.hasVoted voter' = false) :
    ((e.vote voter candidate roster.size).vote voter' candidate' roster.size).electedSolver =
      ((e.vote voter' candidate' roster.size).vote voter candidate roster.size).electedSolver := by
  cases hsolver : e.electedSolver with
  | some c =>
      rw [electedSolver_vote_of_some (electedSolver_vote_of_some hsolver),
        electedSolver_vote_of_some (electedSolver_vote_of_some hsolver)]
  | none =>
      rw [electedSolver_vote_vote hsolver hne hnew hnew',
        electedSolver_vote_vote hsolver hne.symm hnew' hnew]
      by_cases hsame : candidate = candidate'
      · rw [hsame]
      · rw [if_neg hsame, if_neg (Ne.symm hsame)]
        by_cases hq : quorum roster.size ≤ e.votesFor candidate + 1
        · by_cases hq' : quorum roster.size ≤ e.votesFor candidate' + 1
          · exact (h.not_both_elected hne hsame hvoter hvoter' hnew hnew' hq hq').elim
          · simp [hq, hq']
        · simp [hq]

theorem Fair.vote_comm (h : e.Fair roster) (hne : voter ≠ voter')
    (hvoter : roster.contains voter = true) (hvoter' : roster.contains voter' = true)
    (hnew : e.hasVoted voter = false) (hnew' : e.hasVoted voter' = false) :
    (e.vote voter candidate roster.size).vote voter' candidate' roster.size =
      (e.vote voter' candidate' roster.size).vote voter candidate roster.size := by
  have hvotes : (e.votes.insert voter candidate).insert voter' candidate' =
      (e.votes.insert voter' candidate').insert voter candidate :=
    OrderedMap.insert_insert_comm hne
  have helected :
      ((e.vote voter candidate roster.size).vote voter' candidate' roster.size).electedSolver =
        ((e.vote voter' candidate' roster.size).vote voter candidate roster.size).electedSolver :=
    h.electedSolver_vote_comm hne hvoter hvoter' hnew hnew'
  simp only [Event.vote] at helected ⊢
  simp only [hvotes, helected]

end Event

namespace State

variable {s s' : State} {a b : Ballot}

/-- Runs commands one after the other as long as they are accepted. -/
def acceptAll (s : State) : List (Address × Command) → Except Refusal State
  | [] => .ok s
  | c :: rest =>
    match s.apply c.1 c.2 with
    | .error refusal => .error refusal
    | .ok (s', _) => s'.acceptAll rest

/-! ## Single ballots -/

/-- A ballot is accepted in a state. -/
def Admits (s : State) (b : Ballot) : Prop :=
  ∃ e, s.docket.get? b.event = some e ∧ e.checkVote s.policy s.roster b.voter = .ok ()

/-- The state after a ballot. -/
def cast (s : State) (b : Ballot) : State :=
  { s with
    version := s.version + 1
    docket := s.docket.modify b.event (·.vote b.voter b.candidate s.roster.size) }

theorem admits_iff {e : Event} (he : s.docket.get? b.event = some e) :
    s.Admits b ↔
      e.resolution = none ∧ s.roster.contains b.voter = true ∧ e.hasVoted b.voter = false ∧
        s.policy.minReplies ≤ e.replies.size := by
  simp [Admits, he, Event.checkVote_eq_ok_iff]

theorem Admits.accepted (h : s.Admits b) :
    ∃ outcome, Accepted s b.voter (.voteSolver b.event b.candidate) (s.cast b) outcome := by
  obtain ⟨e, he, hcheck⟩ := h
  exact ⟨_, .voteSolver he hcheck⟩

theorem acceptAll_ballots_cons {ballots : List Ballot} :
    s.acceptAll ((b :: ballots).map Ballot.command) = .ok s' ↔
      s.Admits b ∧ (s.cast b).acceptAll (ballots.map Ballot.command) = .ok s' := by
  simp only [List.map_cons, acceptAll, Ballot.command]
  constructor
  · intro h
    cases happly : s.apply b.voter (.voteSolver b.event b.candidate) with
    | error _ => simp [happly] at h
    | ok result =>
        obtain ⟨s₁, outcome⟩ := result
        rw [happly] at h
        cases apply_eq_ok_iff.1 happly with
        | voteSolver he hcheck => exact ⟨⟨_, he, hcheck⟩, h⟩
  · rintro ⟨hadmits, hrest⟩
    obtain ⟨outcome, haccepted⟩ := hadmits.accepted
    rw [apply_eq_ok_iff.2 haccepted]
    exact hrest

/-! ## Two ballots -/

/-- After one ballot another one is accepted exactly if it was accepted before and is not a second
vote of the same voter. -/
theorem admits_cast_iff (ha : s.Admits a) :
    (s.cast a).Admits b ↔ s.Admits b ∧ ¬ (a.event = b.event ∧ a.voter = b.voter) := by
  obtain ⟨e, he, _⟩ := ha
  by_cases hevent : b.event = a.event
  · have hafter : (s.cast a).docket.get? b.event =
        some (e.vote a.voter a.candidate s.roster.size) := by
      rw [hevent]
      exact Accepted.get?_modify_self he
    have hbefore : s.docket.get? b.event = some e := hevent ▸ he
    rw [admits_iff hafter, admits_iff hbefore, ← Bool.not_eq_true, ← Bool.not_eq_true,
      Event.hasVoted_vote, eq_comm (a := b.voter), hevent]
    simp only [Event.vote, cast]
    tauto
  · have hafter : (s.cast a).docket.get? b.event = s.docket.get? b.event :=
      Accepted.get?_modify_of_ne hevent
    unfold Admits
    rw [hafter]
    simp [cast, Ne.symm hevent]

theorem cast_comm (hfair : s.Fair) (ha : s.Admits a) (hb : s.Admits b)
    (hne : ¬ (a.event = b.event ∧ a.voter = b.voter)) :
    (s.cast a).cast b = (s.cast b).cast a := by
  have hevents : (s.docket.events.modify a.event
        (·.vote a.voter a.candidate s.roster.size)).modify b.event
          (·.vote b.voter b.candidate s.roster.size) =
      (s.docket.events.modify b.event (·.vote b.voter b.candidate s.roster.size)).modify a.event
        (·.vote a.voter a.candidate s.roster.size) := by
    by_cases hevent : a.event = b.event
    · have hvoters : a.voter ≠ b.voter := fun heq => hne ⟨hevent, heq⟩
      rw [hevent, OrderedMap.modify_modify, OrderedMap.modify_modify]
      apply OrderedMap.modify_congr
      intro e he
      obtain ⟨ea, hea, hchecka⟩ := ha
      obtain ⟨eb, heb, hcheckb⟩ := hb
      obtain rfl : ea = e := Option.some.inj (hea.symm.trans (hevent ▸ he))
      obtain rfl : eb = ea := Option.some.inj (heb.symm.trans he)
      obtain ⟨_, hregistered, hnew, _⟩ := Event.checkVote_eq_ok_iff.1 hchecka
      obtain ⟨_, hregistered', hnew', _⟩ := Event.checkVote_eq_ok_iff.1 hcheckb
      exact (hfair _ _ he).vote_comm hvoters hregistered hregistered' hnew hnew'
    · exact OrderedMap.modify_modify_comm hevent
  simp only [cast, Docket.modify, hevents]

/-! ## All orders -/

theorem acceptAll_of_perm {ballots ballots' : List Ballot} (hperm : ballots.Perm ballots')
    (hs : s.Numbered) (hfair : s.Fair)
    (hall : s.acceptAll (ballots.map Ballot.command) = .ok s') :
    s.acceptAll (ballots'.map Ballot.command) = .ok s' := by
  induction hperm generalizing s with
  | nil => exact hall
  | cons b _ ih =>
      obtain ⟨hadmits, hrest⟩ := acceptAll_ballots_cons.1 hall
      obtain ⟨_, haccepted⟩ := hadmits.accepted
      exact acceptAll_ballots_cons.2
        ⟨hadmits, ih (hs.accepted haccepted) (haccepted.fair hs hfair) hrest⟩
  | swap a b rest =>
      obtain ⟨hb, hrest⟩ := acceptAll_ballots_cons.1 hall
      obtain ⟨hab, hrest⟩ := acceptAll_ballots_cons.1 hrest
      obtain ⟨ha, hne⟩ := (admits_cast_iff hb).1 hab
      have hne' : ¬ (a.event = b.event ∧ a.voter = b.voter) := fun h => hne ⟨h.1.symm, h.2.symm⟩
      refine acceptAll_ballots_cons.2 ⟨ha, acceptAll_ballots_cons.2 ⟨?_, ?_⟩⟩
      · exact (admits_cast_iff ha).2 ⟨hb, hne'⟩
      · rw [cast_comm hfair ha hb hne']
        exact hrest
  | trans _ _ ih ih' => exact ih' hs hfair (ih hs hfair hall)

/-- Ballots that are all accepted in one order are all accepted in every order, and the state after
them is the same. -/
theorem ballots_in_every_order {policy : Policy} {ballots ballots' : List Ballot}
    (hs : Reachable policy s) (hall : s.acceptAll (ballots.map Ballot.command) = .ok s')
    (hperm : ballots.Perm ballots') :
    s.acceptAll (ballots'.map Ballot.command) = .ok s' :=
  acceptAll_of_perm hperm hs.numbered hs.fair hall

/-- Three nodes and two events to vote on. -/
def twoEvents : List (Address × Command) :=
  [(.ofLow 1, .registerNode "s"), (.ofLow 2, .registerNode "s"), (.ofLow 3, .registerNode "s"),
    (.ofLow 1, .registerApplication "i" [] false), (.ofLow 1, .sendEvent "p" 1),
    (.ofLow 1, .sendEvent "q" 1)]

/-- Ballots that elect a solver for the first event and leave the second one open. -/
def fiveBallots : List Ballot :=
  [⟨.ofLow 1, 1, .ofLow 9⟩, ⟨.ofLow 1, 2, .ofLow 7⟩, ⟨.ofLow 2, 1, .ofLow 8⟩,
    ⟨.ofLow 2, 2, .ofLow 9⟩, ⟨.ofLow 3, 1, .ofLow 9⟩]

theorem ballots_in_every_order_reversed :
    ∃ s, ((initial {}).run twoEvents).acceptAll (fiveBallots.map Ballot.command) = .ok s ∧
      ((initial {}).run twoEvents).acceptAll (fiveBallots.reverse.map Ballot.command) = .ok s := by
  have hall : (((initial {}).run twoEvents).acceptAll
      (fiveBallots.map Ballot.command)).toOption.isSome = true := by
    decide +kernel
  cases hs : ((initial {}).run twoEvents).acceptAll (fiveBallots.map Ballot.command) with
  | error _ => simp [hs, Except.toOption] at hall
  | ok s =>
      exact ⟨s, rfl, ballots_in_every_order (reachable_run {} twoEvents) hs
        (List.reverse_perm fiveBallots).symm⟩

end State

end Arbiter
