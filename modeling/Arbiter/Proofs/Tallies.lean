import Arbiter.Proofs.FirstMajority
import Arbiter.Proofs.Rankings
import Mathlib.Algebra.BigOperators.Group.List.Lemmas

/-!
# One tally for every event

The tally of an event has one line for every candidate that somebody voted for.  If every vote is
taken for one point, its lines are ordered as the standings of a ranking are, so there is one tally
only, in whatever order the votes are counted.  A candidate with a majority is the first in it.
-/

namespace Arbiter

/-! ## The order of lines -/

/-- The standing of a candidate to which every vote is one point. -/
def Standing.ofVotes (line : Address × Nat) : Standing :=
  ⟨line.1, line.2, line.2⟩

theorem Standing.injective_ofVotes : Function.Injective ofVotes := by
  intro a b hab
  simp only [ofVotes, Standing.mk.injEq] at hab
  exact Prod.ext hab.1 hab.2.2

theorem tallyBefore_eq (a b : Address × Nat) :
    tallyBefore a b = (Standing.ofVotes a).before (Standing.ofVotes b) := by
  rw [Bool.eq_iff_iff, Standing.before_iff]
  simp [tallyBefore, Standing.ofVotes]

/-- One line is above another: it has more votes, or equally many and its address is smaller. -/
def Outpolls (a b : Address × Nat) : Prop :=
  b.2 < a.2 ∨ b.2 = a.2 ∧ a.1 < b.1

theorem outpolls_iff {a b : Address × Nat} :
    Outpolls a b ↔ (Standing.ofVotes a).Above (Standing.ofVotes b) := by
  simp [Outpolls, Standing.Above, Standing.ofVotes]

/-- There is one way to put lines one above the other. -/
theorem eq_of_perm_of_outpolls {lines lines' : List (Address × Nat)} (hperm : lines.Perm lines')
    (h : lines.Pairwise Outpolls) (h' : lines'.Pairwise Outpolls) : lines = lines' := by
  apply Standing.injective_ofVotes.list_map
  apply Standing.eq_of_perm_of_above (hperm.map _)
  · exact List.pairwise_map.2 (h.imp outpolls_iff.1)
  · exact List.pairwise_map.2 (h'.imp outpolls_iff.1)

/-- Of lines of different candidates that were sorted, each one is above those behind it. -/
theorem pairwise_outpolls_mergeSort {lines : List (Address × Nat)}
    (hdistinct : (lines.map (·.1)).Nodup) :
    (lines.mergeSort tallyBefore).Pairwise Outpolls := by
  have hsame : (lines.mergeSort tallyBefore).map Standing.ofVotes =
      (lines.map Standing.ofVotes).mergeSort Standing.before := by
    apply List.map_mergeSort
    intro a _ b _
    exact tallyBefore_eq a b
  have hsorted : ((lines.mergeSort tallyBefore).map Standing.ofVotes).Pairwise Standing.Above := by
    rw [hsame]
    apply Standing.pairwise_above_mergeSort
    rw [List.map_map]
    exact hdistinct
  exact (List.pairwise_map.1 hsorted).imp outpolls_iff.2

/-! ## Counts -/

section

variable (counts : OrderedMap Address Nat) (candidates : List Address)

theorem getD_foldl_addVote (candidate : Address) :
    ((candidates.foldl addVote counts).get? candidate).getD 0 =
      (counts.get? candidate).getD 0 + candidates.count candidate := by
  induction candidates generalizing counts with
  | nil => rfl
  | cons c candidates ih =>
      rw [List.foldl_cons, ih, addVote, OrderedMap.get?_insert]
      by_cases hc : candidate = c
      · subst hc
        simp [Nat.add_assoc, Nat.add_comm 1]
      · simp [hc, Ne.symm hc]

theorem contains_foldl_addVote {candidate : Address} :
    (candidates.foldl addVote counts).contains candidate = true ↔
      candidate ∈ candidates ∨ counts.contains candidate = true := by
  induction candidates generalizing counts with
  | nil => simp
  | cons c candidates ih =>
      rw [List.foldl_cons, ih, addVote, OrderedMap.contains_insert, List.mem_cons]
      tauto

end

theorem mem_foldl_addVote_iff {candidates : List Address} {line : Address × Nat} :
    line ∈ (candidates.foldl addVote .empty).toList ↔
      line.1 ∈ candidates ∧ line.2 = candidates.count line.1 := by
  rw [OrderedMap.mem_toList_iff, OrderedMap.get?_eq_some_iff 0, contains_foldl_addVote,
    getD_foldl_addVote, OrderedMap.get?_empty]
  simp [OrderedMap.contains]

/-! ## Tallies -/

namespace Event

variable {e : Event} {tally : List (Address × Nat)}

/-- A list tallies the votes of an event: it has one line for every candidate that somebody voted
for, with the votes for it, and most votes come first. -/
structure TalliedBy (e : Event) (tally : List (Address × Nat)) : Prop where
  distinct : (tally.map (·.1)).Nodup
  voted : ∀ candidate, candidate ∈ tally.map (·.1) ↔
    ∃ voter, e.votes.get? voter = some candidate
  count : ∀ line ∈ tally, line.2 = e.votesFor line.1
  ordered : tally.Pairwise Outpolls

theorem mem_candidates_iff {candidate : Address} :
    candidate ∈ e.votePairs.map (·.2) ↔ ∃ voter, e.votes.get? voter = some candidate :=
  OrderedMap.mem_values_iff

theorem count_candidates (e : Event) (candidate : Address) :
    (e.votePairs.map (·.2)).count candidate = e.votesFor candidate := by
  rw [List.count, List.countP_map]
  rfl

/-- The votes may be counted in any order, and so may the counts be sorted. -/
theorem talliedBy_mergeSort {candidates : List Address} {counts : List (Address × Nat)}
    (hcandidates : candidates.Perm (e.votePairs.map (·.2)))
    (hcounts : counts.Perm (candidates.foldl addVote .empty).toList) :
    e.TalliedBy (counts.mergeSort tallyBefore) := by
  have hdistinct : (counts.map (·.1)).Nodup :=
    (hcounts.map _).nodup_iff.2 (candidates.foldl addVote .empty).nodup_keys
  have hmem : ∀ line, line ∈ counts.mergeSort tallyBefore ↔
      line.1 ∈ e.votePairs.map (·.2) ∧ line.2 = e.votesFor line.1 := by
    intro line
    rw [List.mem_mergeSort, hcounts.mem_iff, mem_foldl_addVote_iff, hcandidates.mem_iff,
      hcandidates.count_eq, count_candidates]
  refine ⟨?_, ?_, ?_, pairwise_outpolls_mergeSort hdistinct⟩
  · exact ((List.mergeSort_perm ..).map _).nodup_iff.2 hdistinct
  · intro candidate
    rw [← mem_candidates_iff, List.mem_map]
    constructor
    · rintro ⟨line, hline, rfl⟩
      exact ((hmem line).1 hline).1
    · intro hcandidate
      exact ⟨(candidate, e.votesFor candidate), (hmem _).2 ⟨hcandidate, rfl⟩, rfl⟩
  · intro line hline
    exact ((hmem line).1 hline).2

theorem talliedBy_tally (e : Event) : e.TalliedBy e.tally :=
  talliedBy_mergeSort (.refl _) (.refl _)

theorem TalliedBy.mem_iff (h : e.TalliedBy tally) {line : Address × Nat} :
    line ∈ tally ↔
      (∃ voter, e.votes.get? voter = some line.1) ∧ line.2 = e.votesFor line.1 := by
  rw [← h.voted]
  constructor
  · intro hline
    exact ⟨List.mem_map_of_mem hline, h.count line hline⟩
  · rintro ⟨hvoted, hcount⟩
    obtain ⟨other, hother, hcandidate⟩ := List.mem_map.1 hvoted
    have hsame : line = other := by
      apply Prod.ext hcandidate.symm
      rw [hcount, h.count other hother, hcandidate]
    rw [hsame]
    exact hother

/-- Only one list tallies the votes of an event. -/
theorem TalliedBy.eq_tally (h : e.TalliedBy tally) : tally = e.tally := by
  refine eq_of_perm_of_outpolls ?_ h.ordered e.talliedBy_tally.ordered
  rw [List.perm_ext_iff_of_nodup h.distinct.of_map e.talliedBy_tally.distinct.of_map]
  intro line
  rw [h.mem_iff, e.talliedBy_tally.mem_iff]

/-- The lines of a tally have all votes. -/
theorem TalliedBy.sum_eq (h : e.TalliedBy tally) : (tally.map (·.2)).sum = e.votes.size := by
  have hcandidates : (tally.map (·.1)).Perm (e.votePairs.map (·.2)).dedup := by
    rw [List.perm_ext_iff_of_nodup h.distinct (List.nodup_dedup _)]
    intro candidate
    rw [h.voted, List.mem_dedup, mem_candidates_iff]
  calc (tally.map (·.2)).sum
      = ((tally.map (·.1)).map e.votesFor).sum := by
        rw [List.map_map]
        exact congrArg List.sum (List.map_congr_left h.count)
    _ = ((e.votePairs.map (·.2)).dedup.map e.votesFor).sum := (hcandidates.map _).sum_eq
    _ = ((e.votePairs.map (·.2)).dedup.map (e.votePairs.map (·.2)).count).sum := by
        simp only [count_candidates]
    _ = e.votes.size := by
        rw [List.sum_map_count_dedup_eq_length, List.length_map]
        rfl

/-! ## Majorities in a tally -/

/-- No candidate behind the first one has a majority. -/
theorem Fair.lt_quorum_of_outpolled {roster : Roster} (h : e.Fair roster)
    {first line : Address × Nat} {rest : List (Address × Nat)} (htally : e.tally = first :: rest)
    (hline : line ∈ rest) : line.2 < quorum roster.size := by
  have htallied := e.talliedBy_tally
  rw [htally] at htallied
  have hfirst := htallied.count first List.mem_cons_self
  have hcount := htallied.count line (List.mem_cons_of_mem _ hline)
  have houtpolled : line.2 ≤ first.2 := by
    rcases (List.pairwise_cons.1 htallied.ordered).1 line hline with hless | ⟨hequal, -⟩
    · exact Nat.le_of_lt hless
    · exact Nat.le_of_eq hequal
  by_contra hquorum
  have hmajority := quorum_le_iff.1 (Nat.le_of_not_lt hquorum)
  have hsame : first.1 = line.1 := by
    apply h.majority_unique
    · omega
    · omega
  apply (List.nodup_cons.1 htallied.distinct).1
  exact List.mem_map.2 ⟨line, hline, hsame.symm⟩

theorem Fair.countP_quorum_le {roster : Roster} (h : e.Fair roster) :
    e.tally.countP (fun line => quorum roster.size ≤ line.2) ≤ 1 := by
  cases htally : e.tally with
  | nil => simp
  | cons first rest =>
      have hnone : rest.countP (fun line => quorum roster.size ≤ line.2) = 0 := by
        rw [List.countP_eq_zero]
        intro line hline
        simpa using h.lt_quorum_of_outpolled htally hline
      rw [List.countP_cons, hnone]
      split <;> omega

/-- A candidate with a majority is the first of the tally, and there is an elected solver. -/
theorem Fair.elected_of_quorum_le {roster : Roster} (h : e.Fair roster) {line : Address × Nat}
    (hline : line ∈ e.tally) (hquorum : quorum roster.size ≤ line.2) :
    e.tally.head? = some line ∧ ∃ solver, e.electedSolver = some solver := by
  constructor
  · cases htally : e.tally with
    | nil => simp [htally] at hline
    | cons first rest =>
        rw [htally] at hline
        rcases List.mem_cons.1 hline with rfl | hrest
        · rfl
        · exact absurd hquorum (Nat.not_le.2 (h.lt_quorum_of_outpolled htally hrest))
  · rw [← Option.isSome_iff_exists, Option.isSome_iff_ne_none]
    intro hnone
    have hfew := h.unelected hnone line.1
    rw [← e.talliedBy_tally.count line hline] at hfew
    exact absurd hquorum (Nat.not_le.2 hfew)

end Event

namespace State

open Event

/-- The tally of an event has one line for every candidate that somebody voted for and no other,
with the votes for it, each line is above those behind it, and the lines have all votes; no other
list is like this.  Counting the votes in any order, and sorting the counts from any order, gives
this tally.  In a state that a controller can be in, at most one line has the votes of more than
half of the registered nodes.  If there is one, it is the first, and the event has an elected
solver. -/
theorem tally_is_canonical (e : Event) :
    e.TalliedBy e.tally ∧
    (∀ tally, e.TalliedBy tally → tally = e.tally) ∧
    (∀ (candidates : List Address) (counts : List (Address × Nat)),
      candidates.Perm (e.votePairs.map (·.2)) →
      counts.Perm (candidates.foldl addVote .empty).toList →
      counts.mergeSort tallyBefore = e.tally) ∧
    (e.tally.map (·.2)).sum = e.votes.size ∧
    ∀ policy s id, Reachable policy s → s.docket.get? id = some e →
      e.tally.countP (fun line => quorum s.roster.size ≤ line.2) ≤ 1 ∧
      ∀ line ∈ e.tally, quorum s.roster.size ≤ line.2 →
        e.tally.head? = some line ∧ ∃ solver, e.electedSolver = some solver := by
  refine ⟨e.talliedBy_tally, ?_, ?_, e.talliedBy_tally.sum_eq, ?_⟩
  · intro tally htallied
    exact htallied.eq_tally
  · intro candidates counts hcandidates hcounts
    exact (talliedBy_mergeSort hcandidates hcounts).eq_tally
  · intro policy s id hs he
    have hfair := hs.fair id e he
    refine ⟨hfair.countP_quorum_le, ?_⟩
    intro line hline hquorum
    exact hfair.elected_of_quorum_le hline hquorum

/-- Two of three nodes elect a candidate, and of the seven nodes that there are later, four vote for
another one. -/
def laterMajority : List (Address × Command) :=
  [(.ofLow 1, .registerNode "s"), (.ofLow 2, .registerNode "s"), (.ofLow 3, .registerNode "s"),
    (.ofLow 1, .registerApplication "i" [] false), (.ofLow 1, .sendEvent "p" 1)] ++
  [1, 2].map (fun n => (Address.ofLow n, Command.voteSolver 1 (.ofLow 9))) ++
  [4, 5, 6, 7].map (fun n => (Address.ofLow n, Command.registerNode "s")) ++
  [3, 4, 5, 6].map (fun n => (Address.ofLow n, Command.voteSolver 1 (.ofLow 8)))

theorem tally_is_canonical_of_laterMajority :
    ∃ e, ((initial {}).run laterMajority).docket.get? 1 = some e ∧
      e.tally = [(.ofLow 8, 4), (.ofLow 9, 2)] ∧
      quorum ((initial {}).run laterMajority).roster.size = 4 ∧
      e.electedSolver = some (.ofLow 9) ∧
      e.tally.head? = some (.ofLow 8, 4) ∧ ∃ solver, e.electedSolver = some solver := by
  have hevent : (((initial {}).run laterMajority).docket.get? 1).map
      (fun e => (((e.votePairs.map (·.2)).foldl addVote .empty).toList, e.electedSolver)) =
      some ([(.ofLow 8, 4), (.ofLow 9, 2)], some (.ofLow 9)) := by
    decide +kernel
  have hquorum : quorum ((initial {}).run laterMajority).roster.size = 4 := by
    decide +kernel
  obtain ⟨e, he, hparts⟩ := Option.map_eq_some_iff.1 hevent
  obtain ⟨hcounts, helected⟩ := Prod.mk.inj hparts
  have htally : e.tally = [(.ofLow 8, 4), (.ofLow 9, 2)] := by
    rw [tally, hcounts]
    exact List.mergeSort_of_pairwise (by decide)
  obtain ⟨-, -, -, -, hreachable⟩ := tally_is_canonical e
  obtain ⟨-, hmajority⟩ := hreachable {} _ 1 (reachable_run {} laterMajority) he
  have hline : ((.ofLow 8, 4) : Address × Nat) ∈ e.tally := by simp [htally]
  exact ⟨e, he, htally, hquorum, helected, hmajority _ hline (Nat.le_of_eq hquorum)⟩

end State

end Arbiter
