import Arbiter.Proofs.Standings
import Mathlib.Data.List.Induction
import Mathlib.Order.Lattice

/-!
# Where sums are exact

The sum of a standing is kept within range after each score, in the order of the authors.  Points
that are lost at one end of the range do not come back when other points lead away from that end, so
the sum may be another one than the exact sum, even if that is in range, and it may depend on who
gave which points.  What a list of points leads to from the two ends of the range tells exactly
whether points are lost.
-/

namespace Arbiter

/-! ## Sums and the ends of the range -/

theorem clampPoints_le_clampPoints {a b : Int} (hab : a ≤ b) : clampPoints a ≤ clampPoints b := by
  unfold clampPoints
  omega

theorem addPoints_le_addPoints {a b : Int} (hab : a ≤ b) (p : Int) :
    addPoints a p ≤ addPoints b p :=
  clampPoints_le_clampPoints (Int.add_le_add_right hab p)

theorem foldl_addPoints_mono {a b : Int} (hab : a ≤ b) (points : List Int) :
    points.foldl addPoints a ≤ points.foldl addPoints b := by
  induction points generalizing a b with
  | nil => exact hab
  | cons p points ih => exact ih (addPoints_le_addPoints hab p)

/-- What points lead to from the lower end of the range. -/
def fromBottom (points : List Int) : Int :=
  points.foldl addPoints leastPoints

/-- What points lead to from the upper end of the range. -/
def fromTop (points : List Int) : Int :=
  points.foldl addPoints mostPoints

theorem inPoints_fromBottom (points : List Int) : InPoints (fromBottom points) :=
  inPoints_foldl_addPoints (by unfold InPoints leastPoints mostPoints; omega) points

theorem inPoints_fromTop (points : List Int) : InPoints (fromTop points) :=
  inPoints_foldl_addPoints (by unfold InPoints leastPoints mostPoints; omega) points

theorem fromBottom_le_fromTop (points : List Int) : fromBottom points ≤ fromTop points :=
  foldl_addPoints_mono (by decide) points

/-- A sum that is kept within range is the exact sum, kept between what the points lead to from the
two ends of the range. -/
theorem foldl_addPoints_eq {start : Int} (hstart : InPoints start) (points : List Int) :
    points.foldl addPoints start =
      max (fromBottom points) (min (fromTop points) (start + points.sum)) := by
  induction points using List.reverseRecOn with
  | nil =>
      simp only [fromBottom, fromTop, List.foldl_nil, List.sum_nil, Int.add_zero]
      unfold InPoints at hstart
      omega
  | append_singleton points p ih =>
      have hbottom := inPoints_addPoints (fromBottom points) p
      have htop := inPoints_addPoints (fromTop points) p
      simp only [fromBottom, fromTop, List.foldl_append, List.foldl_cons, List.foldl_nil,
        List.sum_append, List.sum_singleton] at ih hbottom htop ⊢
      have hmono : Monotone fun sum => addPoints sum p :=
        fun _ _ hab => addPoints_le_addPoints hab p
      rw [ih, hmono.map_max, hmono.map_min]
      -- the exact sum need not be in range itself, since the other two are
      generalize addPoints (points.foldl addPoints leastPoints) p = bottom at *
      generalize addPoints (points.foldl addPoints mostPoints) p = top at *
      unfold InPoints at hbottom htop
      unfold addPoints clampPoints
      omega

/-- No points are lost: the exact sum is not beyond what the points lead to from an end of the
range, unless that is this end itself. -/
def KeepsPoints (points : List Int) : Prop :=
  (points.sum ≤ fromTop points ∨ fromTop points = mostPoints) ∧
    (fromBottom points ≤ points.sum ∨ fromBottom points = leastPoints)

instance (points : List Int) : Decidable (KeepsPoints points) :=
  inferInstanceAs (Decidable (_ ∧ _))

theorem foldl_addPoints_eq_clampPoints_iff {points : List Int} :
    points.foldl addPoints 0 = clampPoints points.sum ↔ KeepsPoints points := by
  have hbottom := inPoints_fromBottom points
  have htop := inPoints_fromTop points
  have hends := fromBottom_le_fromTop points
  rw [foldl_addPoints_eq inPoints_zero, Int.zero_add]
  unfold KeepsPoints clampPoints
  unfold InPoints at hbottom htop
  omega

/-! ## Gains and losses -/

/-- What the points come to that are not negative. -/
def gains (points : List Int) : Int :=
  (points.filter (0 ≤ ·)).sum

/-- What the negative points come to. -/
def losses (points : List Int) : Int :=
  (points.filter (· < 0)).sum

theorem gains_cons (p : Int) (points : List Int) :
    gains (p :: points) = max p 0 + gains points := by
  unfold gains
  by_cases hp : 0 ≤ p
  · simp [hp]
  · simp [hp, Int.le_of_not_le hp]

theorem losses_cons (p : Int) (points : List Int) :
    losses (p :: points) = min p 0 + losses points := by
  unfold losses
  by_cases hp : p < 0
  · simp [hp, Int.le_of_lt hp]
  · simp [hp, Int.not_lt.1 hp]

theorem gains_nonneg (points : List Int) : 0 ≤ gains points := by
  apply List.sum_nonneg
  intro p hp
  simpa using (List.mem_filter.1 hp).2

theorem losses_nonpos (points : List Int) : losses points ≤ 0 := by
  induction points with
  | nil => exact Int.le_refl 0
  | cons p points ih =>
      rw [losses_cons]
      omega

theorem gains_add_losses (points : List Int) : gains points + losses points = points.sum := by
  induction points with
  | nil => rfl
  | cons p points ih =>
      rw [gains_cons, losses_cons, List.sum_cons]
      omega

theorem gains_perm {points points' : List Int} (hperm : points.Perm points') :
    gains points = gains points' :=
  (hperm.filter _).sum_eq

theorem losses_perm {points points' : List Int} (hperm : points.Perm points') :
    losses points = losses points' :=
  (hperm.filter _).sum_eq

/-- With room for all gains and for all losses, every sum on the way is in range. -/
theorem foldl_addPoints_of_room {start : Int} {points : List Int}
    (hlosses : leastPoints ≤ start + losses points) (hgains : start + gains points ≤ mostPoints) :
    points.foldl addPoints start = start + points.sum := by
  induction points generalizing start with
  | nil => simp
  | cons p points ih =>
      have hnonneg := gains_nonneg points
      have hnonpos := losses_nonpos points
      rw [losses_cons] at hlosses
      rw [gains_cons] at hgains
      have hfirst : addPoints start p = start + p := by
        unfold addPoints clampPoints
        omega
      rw [List.foldl_cons, hfirst, List.sum_cons, ih (by omega) (by omega)]
      omega

theorem gains_eq_zero_iff {points : List Int} : gains points = 0 ↔ ∀ p ∈ points, p ≤ 0 := by
  induction points with
  | nil => simp [gains]
  | cons p points ih =>
      have hnonneg := gains_nonneg points
      rw [gains_cons, List.forall_mem_cons, ← ih]
      omega

theorem losses_eq_zero_iff {points : List Int} : losses points = 0 ↔ ∀ p ∈ points, 0 ≤ p := by
  induction points with
  | nil => simp [losses]
  | cons p points ih =>
      have hnonpos := losses_nonpos points
      rw [losses_cons, List.forall_mem_cons, ← ih]
      omega

/-- There are no losses, or no gains, or there is room for all of both. -/
def KeepsInEveryOrder (points : List Int) : Prop :=
  losses points = 0 ∨ gains points = 0 ∨
    (leastPoints ≤ losses points ∧ gains points ≤ mostPoints)

instance (points : List Int) : Decidable (KeepsInEveryOrder points) :=
  inferInstanceAs (Decidable (_ ∨ _ ∨ _))

theorem KeepsInEveryOrder.foldl_addPoints_eq {points points' : List Int}
    (hkeeps : KeepsInEveryOrder points) (hperm : points'.Perm points) :
    points'.foldl addPoints 0 = clampPoints points.sum := by
  have hkeeps' : KeepsInEveryOrder points' := by
    rwa [KeepsInEveryOrder, losses_perm hperm, gains_perm hperm]
  rw [← hperm.sum_eq]
  rcases hkeeps' with hnone | hnone | ⟨hlosses, hgains⟩
  · rw [foldl_addPoints_of_same_sign inPoints_zero (.inl (losses_eq_zero_iff.1 hnone)),
      Int.zero_add]
  · rw [foldl_addPoints_of_same_sign inPoints_zero (.inr (gains_eq_zero_iff.1 hnone)),
      Int.zero_add]
  · have hnonneg := gains_nonneg points'
    have hnonpos := losses_nonpos points'
    rw [foldl_addPoints_of_room (by omega) (by omega), Int.zero_add, ← gains_add_losses]
    unfold clampPoints
    omega

/-- The points may come with all gains first or with all losses first. -/
theorem exists_perm_foldl_addPoints (points : List Int) :
    (∃ points' : List Int, points'.Perm points ∧
      points'.foldl addPoints 0 = clampPoints (clampPoints (gains points) + losses points)) ∧
    ∃ points' : List Int, points'.Perm points ∧
      points'.foldl addPoints 0 = clampPoints (clampPoints (losses points) + gains points) := by
  have hup : ∀ start, InPoints start →
      (points.filter (0 ≤ ·)).foldl addPoints start = clampPoints (start + gains points) := by
    intro start hstart
    refine foldl_addPoints_of_same_sign hstart (.inl ?_)
    intro p hp
    simpa using (List.mem_filter.1 hp).2
  have hdown : ∀ start, InPoints start →
      (points.filter (· < 0)).foldl addPoints start = clampPoints (start + losses points) := by
    intro start hstart
    refine foldl_addPoints_of_same_sign hstart (.inr ?_)
    intro p hp
    have hneg : p < 0 := by simpa using (List.mem_filter.1 hp).2
    exact Int.le_of_lt hneg
  have hboth : (points.filter (0 ≤ ·) ++ points.filter (· < 0)).Perm points := by
    have hrest : points.filter (· < 0) = points.filter (fun p => !decide (0 ≤ p)) := by
      apply List.filter_congr
      intro p _
      rw [Bool.eq_iff_iff]
      simp
    rw [hrest]
    exact List.filter_append_perm _ points
  constructor
  · refine ⟨_, hboth, ?_⟩
    rw [List.foldl_append, hup 0 inPoints_zero, Int.zero_add, hdown _ (inPoints_clampPoints _)]
  · refine ⟨_, List.perm_append_comm.trans hboth, ?_⟩
    rw [List.foldl_append, hdown 0 inPoints_zero, Int.zero_add, hup _ (inPoints_clampPoints _)]

/-- In whatever order the points come, their sum is the exact one, kept within range, if there is
room for all of them in one direction or in both, and only then. -/
theorem keepsInEveryOrder_iff {points : List Int} :
    KeepsInEveryOrder points ↔ ∀ points' : List Int, points'.Perm points →
      points'.foldl addPoints 0 = clampPoints points.sum := by
  constructor
  · intro hkeeps points' hperm
    exact hkeeps.foldl_addPoints_eq hperm
  · intro hall
    obtain ⟨⟨up, hup, hupSum⟩, down, hdown, hdownSum⟩ := exists_perm_foldl_addPoints points
    rw [hall up hup, ← gains_add_losses] at hupSum
    rw [hall down hdown, ← gains_add_losses] at hdownSum
    have hnonneg := gains_nonneg points
    have hnonpos := losses_nonpos points
    unfold KeepsInEveryOrder
    unfold clampPoints leastPoints mostPoints at *
    omega

theorem keepsInEveryOrder_replicate (count : Nat) (value : Int) :
    KeepsInEveryOrder (List.replicate count value) := by
  rcases Int.le_total 0 value with hvalue | hvalue
  · left
    rw [losses_eq_zero_iff]
    intro p hp
    rwa [List.eq_of_mem_replicate hp]
  · right
    left
    rw [gains_eq_zero_iff]
    intro p hp
    rwa [List.eq_of_mem_replicate hp]

/-! ## Rankings -/

namespace Event

variable {e : Event} {t : Standing}

/-- The exact sum of the points that the replies give to an account. -/
def exactSum (e : Event) (address : Address) : Int :=
  (pointsTo address e.replyList).sum

theorem total_eq_of_mem_ranking (ht : t ∈ e.ranking) :
    t.total = (pointsTo t.address e.replyList).foldl addPoints 0 :=
  e.rankedBy_ranking.total t ht

/-- Where no points are lost, the ranking goes by the exact sums, kept within range. -/
theorem pairwise_exactSum (e : Event) :
    e.ranking.Pairwise fun t u =>
      KeepsPoints (pointsTo t.address e.replyList) →
      KeepsPoints (pointsTo u.address e.replyList) →
        clampPoints (e.exactSum u.address) ≤ clampPoints (e.exactSum t.address) := by
  refine e.rankedBy_ranking.ordered.imp_of_mem ?_
  intro t u ht hu habove hkeeps hkeeps'
  have htotal := total_eq_of_mem_ranking ht
  have htotal' := total_eq_of_mem_ranking hu
  rw [foldl_addPoints_eq_clampPoints_iff.2 hkeeps] at htotal
  rw [foldl_addPoints_eq_clampPoints_iff.2 hkeeps'] at htotal'
  rw [exactSum, exactSum, ← htotal, ← htotal']
  rcases habove with hless | ⟨hequal, -⟩
  · exact Int.le_of_lt hless
  · exact Int.le_of_eq hequal

end Event

namespace State

open Event

variable {policy : Policy} {s : State} {id : EventId} {e : Event}

/-- In a state that a controller can be in, an account is given points once by every author that
scores it, and its standing has their exact sum, kept between what they lead to from the two ends of
the range.  This is the exact sum, kept within the range, exactly if no points are lost at an end,
and it is so whoever gives which of the points exactly if all gains and all losses have room, or
there are no gains, or no losses.  The latter is always so where the application does not allow
replies to differ.  Of accounts that lose no points none is ranked behind another one whose exact
sum, kept within the range, is smaller. -/
theorem sums_are_exact_unless_points_are_lost (hs : Reachable policy s)
    (he : s.docket.get? id = some e) :
    (∀ t ∈ e.ranking,
      pointsTo t.address e.replyList = e.replyList.filterMap (·.scoreFor t.address) ∧
      t.total = max (fromBottom (pointsTo t.address e.replyList))
        (min (fromTop (pointsTo t.address e.replyList)) (e.exactSum t.address)) ∧
      (t.total = clampPoints (e.exactSum t.address) ↔
        KeepsPoints (pointsTo t.address e.replyList)) ∧
      ((∀ points : List Int, points.Perm (pointsTo t.address e.replyList) →
          points.foldl addPoints 0 = clampPoints (e.exactSum t.address)) ↔
        KeepsInEveryOrder (pointsTo t.address e.replyList))) ∧
    (∀ a, s.catalog.get? e.application = some a → a.multiReplyAllowed = false →
      ∀ t ∈ e.ranking, KeepsInEveryOrder (pointsTo t.address e.replyList)) ∧
    e.ranking.Pairwise fun t u =>
      KeepsPoints (pointsTo t.address e.replyList) →
      KeepsPoints (pointsTo u.address e.replyList) →
        clampPoints (e.exactSum u.address) ≤ clampPoints (e.exactSum t.address) := by
  have hdistinct := hs.proper.distinct he
  refine ⟨?_, ?_, e.pairwise_exactSum⟩
  · intro t ht
    rw [total_eq_of_mem_ranking ht]
    refine ⟨Reply.pointsTo_eq hdistinct t.address, ?_, foldl_addPoints_eq_clampPoints_iff,
      keepsInEveryOrder_iff.symm⟩
    rw [foldl_addPoints_eq inPoints_zero, Int.zero_add]
    rfl
  · intro a ha hsingle t ht
    have hagreed : e.Agreed := hs.agreed id e a he ha hsingle
    obtain ⟨r, hr, x, hx, htarget⟩ := mem_targets_iff.1 (mem_ranking_iff.1 ht).1
    rw [← htarget, hagreed.pointsTo_eq hdistinct hr hx]
    exact keepsInEveryOrder_replicate _ _

/-- Three nodes give one account points, and the first of them gives another one almost as many as
possible. -/
def givenInTurn (first second third : Int) : List (Address × Command) :=
  [(.ofLow 1, .registerNode "s"), (.ofLow 2, .registerNode "s"), (.ofLow 3, .registerNode "s"),
    (.ofLow 1, .registerApplication "i" [] true), (.ofLow 1, .sendEvent "p" 1),
    (.ofLow 1, .sendReply 1 [⟨.ofLow 9, first⟩, ⟨.ofLow 8, mostPoints - 1⟩]),
    (.ofLow 2, .sendReply 1 [⟨.ofLow 9, second⟩]), (.ofLow 3, .sendReply 1 [⟨.ofLow 9, third⟩])]

theorem sums_are_exact_of_givenInTurn :
    ∃ e, ((initial {}).run (givenInTurn mostPoints (-3) 2)).docket.get? 1 = some e ∧
      pointsTo (.ofLow 9) e.replyList = [mostPoints, -3, 2] ∧
      KeepsPoints [mostPoints, -3, 2] ∧ ¬ KeepsInEveryOrder [mostPoints, -3, 2] ∧
      ∃ t ∈ e.ranking, t = ⟨.ofLow 9, mostPoints - 1, 3⟩ ∧
        t.total = clampPoints (e.exactSum (.ofLow 9)) ∧
        ¬ ∀ points : List Int, points.Perm [mostPoints, -3, 2] →
          points.foldl addPoints 0 = clampPoints (e.exactSum (.ofLow 9)) := by
  have hevent : (((initial {}).run (givenInTurn mostPoints (-3) 2)).docket.get? 1).map
      (fun e => (e.scores, pointsTo (.ofLow 9) e.replyList)) =
      some ([⟨.ofLow 9, mostPoints⟩, ⟨.ofLow 8, mostPoints - 1⟩, ⟨.ofLow 9, -3⟩, ⟨.ofLow 9, 2⟩],
        [mostPoints, -3, 2]) := by
    decide +kernel
  obtain ⟨e, he, hparts⟩ := Option.map_eq_some_iff.1 hevent
  obtain ⟨hscores, hpoints⟩ := Prod.mk.inj hparts
  have hranking : e.ranking =
      [⟨.ofLow 8, mostPoints - 1, 1⟩, ⟨.ofLow 9, mostPoints - 1, 3⟩] :=
    ranking_eq_of_perm hscores (by decide) (by decide)
  have hkeeps : KeepsPoints [mostPoints, -3, 2] := by decide
  have hloses : ¬ KeepsInEveryOrder [mostPoints, -3, 2] := by decide
  obtain ⟨hsums, -, -⟩ := sums_are_exact_unless_points_are_lost
    (reachable_run {} (givenInTurn mostPoints (-3) 2)) he
  have ht : (⟨.ofLow 9, mostPoints - 1, 3⟩ : Standing) ∈ e.ranking := by simp [hranking]
  obtain ⟨-, -, hexact, horders⟩ := hsums _ ht
  rw [hpoints] at hexact horders
  exact ⟨e, he, hpoints, hkeeps, hloses, _, ht, rfl, hexact.2 hkeeps, mt horders.1 hloses⟩

/-- An account that is given points up to the end of the range, beyond it and back is ranked behind
one with a smaller sum, and has another sum if the same points come from the same nodes the other
way round. -/
theorem points_lost_at_the_end_of_the_range :
    ∃ e e', ((initial {}).run (givenInTurn mostPoints 5 (-5))).docket.get? 1 = some e ∧
      ((initial {}).run (givenInTurn (-5) 5 mostPoints)).docket.get? 1 = some e' ∧
      e.ranking = [⟨.ofLow 8, mostPoints - 1, 1⟩, ⟨.ofLow 9, mostPoints - 5, 3⟩] ∧
      e.exactSum (.ofLow 8) = mostPoints - 1 ∧ e.exactSum (.ofLow 9) = mostPoints ∧
      e'.ranking = [⟨.ofLow 9, mostPoints, 3⟩, ⟨.ofLow 8, mostPoints - 1, 1⟩] ∧
      (pointsTo (.ofLow 9) e'.replyList).Perm (pointsTo (.ofLow 9) e.replyList) := by
  have hevent : (((initial {}).run (givenInTurn mostPoints 5 (-5))).docket.get? 1).map
      (fun e => (e.scores, e.exactSum (.ofLow 8), pointsTo (.ofLow 9) e.replyList)) =
      some ([⟨.ofLow 9, mostPoints⟩, ⟨.ofLow 8, mostPoints - 1⟩, ⟨.ofLow 9, 5⟩, ⟨.ofLow 9, -5⟩],
        mostPoints - 1, [mostPoints, 5, -5]) := by
    decide +kernel
  have hevent' : (((initial {}).run (givenInTurn (-5) 5 mostPoints)).docket.get? 1).map
      (fun e => (e.scores, pointsTo (.ofLow 9) e.replyList)) =
      some ([⟨.ofLow 9, -5⟩, ⟨.ofLow 8, mostPoints - 1⟩, ⟨.ofLow 9, 5⟩, ⟨.ofLow 9, mostPoints⟩],
        [-5, 5, mostPoints]) := by
    decide +kernel
  obtain ⟨e, he, hparts⟩ := Option.map_eq_some_iff.1 hevent
  obtain ⟨hscores, hparts⟩ := Prod.mk.inj hparts
  obtain ⟨heighth, hpoints⟩ := Prod.mk.inj hparts
  obtain ⟨e', he', hparts'⟩ := Option.map_eq_some_iff.1 hevent'
  obtain ⟨hscores', hpoints'⟩ := Prod.mk.inj hparts'
  refine ⟨e, e', he, he', ranking_eq_of_perm hscores (by decide) (by decide), heighth, ?_,
    ranking_eq_of_perm hscores' (by decide) (by decide), ?_⟩
  · rw [exactSum, hpoints]
    decide
  · rw [hpoints, hpoints']
    decide

end State

end Arbiter
