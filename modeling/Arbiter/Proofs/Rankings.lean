import Arbiter.Event.Ranking
import Arbiter.Proofs.Bindings
import Arbiter.Proofs.Capacity
import Mathlib.Algebra.Order.BigOperators.Group.List
import Mathlib.Algebra.Order.Ring.Int

/-!
# What a ranking is made of

The ranking of an event has one standing for every account that is scored, with the sum and the
number of the points it was given.  The sum is kept within the range of sixty-four bits after each
score; where all points have the same sign, this is the same as keeping only the last sum within it.
-/

namespace Arbiter

/-! ## Sums of points -/

theorem inPoints_clampPoints (n : Int) : InPoints (clampPoints n) := by
  unfold InPoints clampPoints leastPoints mostPoints
  omega

theorem inPoints_addPoints (a b : Int) : InPoints (addPoints a b) :=
  inPoints_clampPoints _

theorem inPoints_zero : InPoints 0 := by
  unfold InPoints leastPoints mostPoints
  omega

theorem inPoints_foldl_addPoints {start : Int} (hstart : InPoints start) (points : List Int) :
    InPoints (points.foldl addPoints start) := by
  induction points generalizing start with
  | nil => exact hstart
  | cons p points ih => exact ih (inPoints_addPoints start p)

/-- A sum that grows only, or falls only, leaves the range at one end and does not come back. -/
theorem foldl_addPoints_of_same_sign {start : Int} {points : List Int} (hstart : InPoints start)
    (hsign : (∀ p ∈ points, 0 ≤ p) ∨ ∀ p ∈ points, p ≤ 0) :
    points.foldl addPoints start = clampPoints (start + points.sum) := by
  induction points generalizing start with
  | nil =>
      rw [List.foldl_nil, List.sum_nil, Int.add_zero]
      unfold InPoints at hstart
      unfold clampPoints
      omega
  | cons p points ih =>
      simp only [List.forall_mem_cons] at hsign
      rw [List.foldl_cons, ih (inPoints_addPoints start p) (hsign.imp And.right And.right),
        List.sum_cons]
      have hsums : 0 ≤ p ∧ 0 ≤ points.sum ∨ p ≤ 0 ∧ points.sum ≤ 0 := by
        rcases hsign with ⟨hp, hpoints⟩ | ⟨hp, hpoints⟩
        · exact .inl ⟨hp, List.sum_nonneg hpoints⟩
        · exact .inr ⟨hp, by simpa using List.sum_le_card_nsmul points 0 hpoints⟩
      unfold InPoints at hstart
      unfold addPoints clampPoints
      omega

/-- The same points given several times. -/
theorem foldl_addPoints_replicate (count : Nat) (value : Int) :
    (List.replicate count value).foldl addPoints 0 = clampPoints (value * count) := by
  have hsign : (∀ p ∈ List.replicate count value, 0 ≤ p) ∨
      ∀ p ∈ List.replicate count value, p ≤ 0 := by
    refine (Int.le_total 0 value).imp ?_ ?_ <;>
      · intro hvalue p hp
        rwa [List.eq_of_mem_replicate hp]
  rw [foldl_addPoints_of_same_sign inPoints_zero hsign, Int.zero_add,
    List.sum_replicate_int, Int.mul_comm]

/-! ## Points of one account -/

/-- The points that scores give to an account, in the order of the scores. -/
def scoredPoints (address : Address) (scores : List Score) : List Int :=
  (scores.filter (·.target = address)).map (·.value)

/-- The points that replies give to an account, in the order of the replies. -/
def pointsTo (address : Address) (replies : List Reply) : List Int :=
  replies.flatMap fun r => scoredPoints address r.scores

theorem scoredPoints_flatMap (address : Address) (replies : List Reply) :
    scoredPoints address (replies.flatMap (·.scores)) = pointsTo address replies := by
  rw [scoredPoints, List.filter_flatMap, List.map_flatMap]
  rfl

theorem length_scoredPoints_le (address : Address) (scores : List Score) :
    (scoredPoints address scores).length ≤ scores.length := by
  rw [scoredPoints, List.length_map]
  exact List.length_filter_le _ _

section

variable (sums : OrderedMap Address (Int × Nat)) (scores : List Score)

/-- For every account, its points are added up and counted. -/
theorem getD_foldl_addScore (address : Address) :
    ((scores.foldl addScore sums).get? address).getD (0, 0) =
      ((scoredPoints address scores).foldl addPoints ((sums.get? address).getD (0, 0)).1,
        ((sums.get? address).getD (0, 0)).2 + (scoredPoints address scores).length) := by
  induction scores generalizing sums with
  | nil => rfl
  | cons score scores ih =>
      rw [List.foldl_cons, ih, addScore, OrderedMap.get?_insert]
      by_cases htarget : address = score.target
      · subst htarget
        simp [scoredPoints, Nat.add_assoc, Nat.add_comm 1]
      · simp [scoredPoints, htarget, Ne.symm htarget]

theorem contains_foldl_addScore {address : Address} :
    (scores.foldl addScore sums).contains address = true ↔
      address ∈ scores.map (·.target) ∨ sums.contains address = true := by
  induction scores generalizing sums with
  | nil => simp
  | cons score scores ih =>
      rw [List.foldl_cons, ih, addScore, OrderedMap.contains_insert, List.map_cons, List.mem_cons]
      tauto

end

/-! ## The order of standings -/

namespace Standing

variable {s t u : Standing}

theorem before_iff :
    s.before t = true ↔ t.total < s.total ∨
      (t.total = s.total ∧ (compare s.address t.address).isLE = true) := by
  simp [before]

theorem before_trans (hst : s.before t = true) (htu : t.before u = true) :
    s.before u = true := by
  rw [before_iff] at *
  rcases hst with hst | ⟨hst, haddress⟩
  · left
    rcases htu with htu | ⟨htu, -⟩ <;> omega
  · rcases htu with htu | ⟨htu, haddress'⟩
    · left
      omega
    · exact .inr ⟨htu.trans hst, Std.TransCmp.isLE_trans haddress haddress'⟩

theorem before_total (s t : Standing) : (s.before t || t.before s) = true := by
  rw [Bool.or_eq_true, before_iff, before_iff]
  rcases Int.lt_trichotomy s.total t.total with hlt | heq | hgt
  · exact .inr (.inl hlt)
  · cases haddress : compare s.address t.address with
    | lt => exact .inl (.inr ⟨heq.symm, rfl⟩)
    | eq => exact .inl (.inr ⟨heq.symm, rfl⟩)
    | gt =>
        have hswap : compare t.address s.address = .lt := Std.OrientedCmp.gt_iff_lt.1 haddress
        exact .inr (.inr ⟨heq, by rw [hswap]; rfl⟩)
  · exact .inl (.inl hgt)

/-- One standing is above another: its sum is greater, or the sums are equal and its address is
smaller. -/
def Above (s t : Standing) : Prop :=
  t.total < s.total ∨ t.total = s.total ∧ s.address < t.address

instance (s t : Standing) : Decidable (s.Above t) :=
  inferInstanceAs (Decidable (_ ∨ _))

theorem Above.not_above (h : s.Above t) : ¬ t.Above s := by
  intro h'
  rcases h with htotal | ⟨htotal, haddress⟩
  · rcases h' with htotal' | ⟨htotal', -⟩ <;> omega
  · rcases h' with htotal' | ⟨-, haddress'⟩
    · omega
    · exact Std.OrientedCmp.not_lt_of_lt haddress haddress'

theorem above_of_before (h : s.before t = true) (hne : s.address ≠ t.address) : s.Above t := by
  rcases before_iff.1 h with htotal | ⟨htotal, haddress⟩
  · exact .inl htotal
  · refine .inr ⟨htotal, ?_⟩
    cases hcompare : compare s.address t.address with
    | lt => exact hcompare
    | eq => exact absurd (Std.LawfulEqCmp.eq_of_compare hcompare) hne
    | gt => simp [hcompare] at haddress

/-- There is one way to put standings one above the other. -/
theorem eq_of_perm_of_above {standings standings' : List Standing}
    (hperm : standings.Perm standings') (h : standings.Pairwise Above)
    (h' : standings'.Pairwise Above) : standings = standings' :=
  hperm.eq_of_pairwise (fun _ _ _ _ hst hts => absurd hts hst.not_above) h h'

/-- Of standings of different accounts that were sorted, each one is above those behind it. -/
theorem pairwise_above_mergeSort {standings : List Standing}
    (hdistinct : (standings.map (·.address)).Nodup) :
    (standings.mergeSort before).Pairwise Above := by
  have hsorted : (standings.mergeSort before).Pairwise fun s t => s.before t = true := by
    apply List.pairwise_mergeSort
    · exact fun _ _ _ => before_trans
    · exact before_total
  have hsame : ((standings.mergeSort before).map (·.address)).Nodup :=
    ((List.mergeSort_perm ..).map _).nodup_iff.2 hdistinct
  exact hsorted.imp₂ (fun _ _ => above_of_before) (List.pairwise_map.1 hsame)

/-- Standings of different accounts have one ranking, however they were ordered before. -/
theorem mergeSort_eq_of_perm {standings standings' : List Standing}
    (hperm : standings.Perm standings') (hdistinct : (standings.map (·.address)).Nodup) :
    standings.mergeSort before = standings'.mergeSort before := by
  have hdistinct' : (standings'.map (·.address)).Nodup := (hperm.map _).nodup_iff.1 hdistinct
  apply eq_of_perm_of_above
  · exact (List.mergeSort_perm ..).trans (hperm.trans (List.mergeSort_perm ..).symm)
  · exact pairwise_above_mergeSort hdistinct
  · exact pairwise_above_mergeSort hdistinct'

end Standing

/-! ## Standings -/

/-- The standing that a sum and a number of points make. -/
def Standing.ofSum (sum : Address × Int × Nat) : Standing :=
  ⟨sum.1, sum.2.1, sum.2.2⟩

theorem Standing.nodup_ofSum (sums : OrderedMap Address (Int × Nat)) :
    ((sums.toList.map Standing.ofSum).map (·.address)).Nodup := by
  rw [List.map_map]
  exact sums.nodup_keys

namespace Event

variable {e : Event} {t : Standing}

/-- The ranking is what sorting the sums gives. -/
theorem ranking_eq (e : Event) :
    e.ranking =
      ((e.scores.foldl addScore .empty).toList.map Standing.ofSum).mergeSort Standing.before :=
  rfl

/-- The sums of the scores are the ranking as soon as they are in order. -/
theorem ranking_eq_of_perm {given : List Score} {ranking : List Standing}
    (hscores : e.scores = given)
    (hperm : ((given.foldl addScore .empty).toList.map Standing.ofSum).Perm ranking)
    (hordered : ranking.Pairwise Standing.Above) : e.ranking = ranking := by
  rw [ranking_eq, hscores]
  refine Standing.eq_of_perm_of_above ((List.mergeSort_perm ..).trans hperm) ?_ hordered
  exact Standing.pairwise_above_mergeSort (Standing.nodup_ofSum _)

/-- The standing of an account: what the points come to that the replies give to it, and how many
times it is scored. -/
def standing (e : Event) (address : Address) : Standing where
  address := address
  total := (pointsTo address e.replyList).foldl addPoints 0
  contributors := (pointsTo address e.replyList).length

/-- The ranking has a standing for every sum. -/
theorem mem_ranking_iff_sum :
    t ∈ e.ranking ↔
      (e.scores.foldl addScore .empty).get? t.address = some (t.total, t.contributors) := by
  simp only [ranking, List.mem_mergeSort, List.mem_map, Prod.exists, ← OrderedMap.mem_toList_iff]
  constructor
  · rintro ⟨address, total, contributors, hmem, rfl⟩
    exact hmem
  · intro hmem
    exact ⟨t.address, t.total, t.contributors, hmem, rfl⟩

/-- The ranking has the standings of the accounts that are scored, and no others. -/
theorem mem_ranking_iff :
    t ∈ e.ranking ↔ t.address ∈ e.scores.map (·.target) ∧ t = e.standing t.address := by
  have hpoints : scoredPoints t.address e.scores = pointsTo t.address e.replyList :=
    scoredPoints_flatMap t.address e.replyList
  have hstanding : (t.total, t.contributors) =
      ((pointsTo t.address e.replyList).foldl addPoints 0,
        (pointsTo t.address e.replyList).length) ↔ t = e.standing t.address := by
    cases t
    simp [standing]
  rw [mem_ranking_iff_sum, OrderedMap.get?_eq_some_iff (0, 0), contains_foldl_addScore,
    getD_foldl_addScore, OrderedMap.get?_empty, ← hstanding, hpoints]
  simp [OrderedMap.contains]

/-- The sum of a standing is in range, and it was not given more often than there are scores. -/
theorem inPoints_of_mem_ranking {s : Standing} (hs : s ∈ e.ranking) :
    InPoints s.total ∧ s.contributors ≤ e.scores.length := by
  obtain ⟨-, hstanding⟩ := mem_ranking_iff.1 hs
  rw [hstanding]
  constructor
  · exact inPoints_foldl_addPoints inPoints_zero _
  · have hle := length_scoredPoints_le s.address e.scores
    rwa [scores, scoredPoints_flatMap] at hle

end Event

end Arbiter
