import Arbiter.Proofs.Agreement
import Arbiter.Proofs.Isolation
import Mathlib.Data.Finset.Card

/-!
# One ranking for every event

The ranking of an event has exactly one standing for every account that a reply scores, and the
points that the replies give, taken in the order of their authors, leave one ranking only.  In
whatever order the sums stand before they are sorted, the ranking is the same, and so it is in
whatever order the replies were accepted.
-/

namespace Arbiter

/-! ## What determines a ranking -/

theorem pointsTo_ne_nil_iff {address : Address} {replies : List Reply} :
    pointsTo address replies ≠ [] ↔ ∃ r ∈ replies, ∃ x ∈ r.scores, x.target = address := by
  simp [pointsTo, scoredPoints]

/-- Among things of different keys the one of a key is found. -/
theorem find?_eq_some_iff_of_nodup {α κ : Type} [DecidableEq κ] {key : α → κ} {list : List α}
    (hdistinct : (list.map key).Nodup) {k : κ} {a : α} :
    list.find? (key · = k) = some a ↔ a ∈ list ∧ key a = k := by
  constructor
  · intro hfind
    exact ⟨List.mem_of_find?_eq_some hfind, by simpa using List.find?_some hfind⟩
  · rintro ⟨hmem, hkey⟩
    cases hfind : list.find? (key · = k) with
    | none => exact absurd hkey (by simpa using List.find?_eq_none.1 hfind a hmem)
    | some b =>
        have hb : key b = k := by simpa using List.find?_some hfind
        rw [List.inj_on_of_nodup_map hdistinct (List.mem_of_find?_eq_some hfind) hmem
          (hb.trans hkey.symm)]

namespace Event

variable {e e' : Event} {ranking : List Standing}

/-- A list ranks the accounts of an event: it has one standing for every account that a reply
scores, which adds up and counts the points for it in the order of the authors, and the greatest sum
comes first. -/
structure RankedBy (e : Event) (ranking : List Standing) : Prop where
  distinct : (ranking.map (·.address)).Nodup
  scored : ∀ address, address ∈ ranking.map (·.address) ↔
    ∃ r ∈ e.replyList, ∃ x ∈ r.scores, x.target = address
  total : ∀ t ∈ ranking, t.total = (pointsTo t.address e.replyList).foldl addPoints 0
  contributors : ∀ t ∈ ranking, t.contributors = (pointsTo t.address e.replyList).length
  ordered : ranking.Pairwise Standing.Above

theorem mem_targets_iff {address : Address} :
    address ∈ e.scores.map (·.target) ↔ ∃ r ∈ e.replyList, ∃ x ∈ r.scores, x.target = address := by
  simp only [scores, List.mem_map, List.mem_flatMap]
  constructor
  · rintro ⟨x, ⟨r, hr, hx⟩, htarget⟩
    exact ⟨r, hr, x, hx, htarget⟩
  · rintro ⟨r, hr, x, hx, htarget⟩
    exact ⟨x, ⟨r, hr, hx⟩, htarget⟩

theorem nodup_ranking (e : Event) : (e.ranking.map (·.address)).Nodup := by
  rw [ranking_eq]
  exact ((List.mergeSort_perm ..).map _).nodup_iff.2 (Standing.nodup_ofSum _)

theorem rankedBy_ranking (e : Event) : e.RankedBy e.ranking := by
  refine ⟨e.nodup_ranking, ?_, ?_, ?_, ?_⟩
  · intro address
    rw [← mem_targets_iff, List.mem_map]
    constructor
    · rintro ⟨t, ht, rfl⟩
      exact (mem_ranking_iff.1 ht).1
    · intro hscored
      exact ⟨e.standing address, mem_ranking_iff.2 ⟨hscored, rfl⟩, rfl⟩
  · intro t ht
    exact congrArg Standing.total (mem_ranking_iff.1 ht).2
  · intro t ht
    exact congrArg Standing.contributors (mem_ranking_iff.1 ht).2
  · exact Standing.pairwise_above_mergeSort (Standing.nodup_ofSum _)

theorem RankedBy.mem_iff (h : e.RankedBy ranking) {t : Standing} :
    t ∈ ranking ↔ t.address ∈ e.scores.map (·.target) ∧ t = e.standing t.address := by
  have hstanding : ∀ t ∈ ranking, t = e.standing t.address := by
    intro t ht
    rw [standing, ← h.total t ht, ← h.contributors t ht]
  rw [mem_targets_iff, ← h.scored]
  constructor
  · intro ht
    exact ⟨List.mem_map_of_mem ht, hstanding t ht⟩
  · rintro ⟨hscored, ht⟩
    obtain ⟨u, hu, haddress⟩ := List.mem_map.1 hscored
    rw [ht, ← haddress, ← hstanding u hu]
    exact hu

/-- Only one list ranks the accounts of an event. -/
theorem RankedBy.eq_ranking (h : e.RankedBy ranking) : ranking = e.ranking := by
  refine Standing.eq_of_perm_of_above ?_ h.ordered e.rankedBy_ranking.ordered
  rw [List.perm_ext_iff_of_nodup h.distinct.of_map e.nodup_ranking.of_map]
  intro t
  rw [h.mem_iff, mem_ranking_iff]

/-- The points that every account is given, in their order, determine the ranking. -/
theorem ranking_congr (hpoints : ∀ address,
    pointsTo address e.replyList = pointsTo address e'.replyList) : e.ranking = e'.ranking := by
  have hranked := e.rankedBy_ranking
  refine RankedBy.eq_ranking ⟨hranked.distinct, ?_, ?_, ?_, hranked.ordered⟩
  · intro address
    rw [hranked.scored, ← pointsTo_ne_nil_iff, hpoints, pointsTo_ne_nil_iff]
  · intro t ht
    rw [hranked.total t ht, hpoints]
  · intro t ht
    rw [hranked.contributors t ht, hpoints]

/-- Which points every author gives to every account determines the ranking. -/
theorem ranking_eq_of_points (hpoints : ∀ author address,
    (e.replies.get? author).map (fun r => scoredPoints address r.scores) =
      (e'.replies.get? author).map fun r => scoredPoints address r.scores) :
    e.ranking = e'.ranking := by
  apply ranking_congr
  intro address
  have hsame : e.replies.mapValues (fun r => scoredPoints address r.scores) =
      e'.replies.mapValues fun r => scoredPoints address r.scores := by
    apply OrderedMap.ext_get?
    intro author
    rw [OrderedMap.get?_mapValues, OrderedMap.get?_mapValues, hpoints]
  have hlist := congrArg OrderedMap.values hsame
  rw [OrderedMap.values_mapValues, OrderedMap.values_mapValues] at hlist
  exact congrArg List.flatten hlist

/-- Who gave which scores determines the ranking. -/
theorem ranking_eq_of_scores (hscores : ∀ author,
    (e.replies.get? author).map (·.scores) = (e'.replies.get? author).map (·.scores)) :
    e.ranking = e'.ranking := by
  apply ranking_eq_of_points
  intro author address
  have hpoints := congrArg (Option.map (scoredPoints address)) (hscores author)
  rw [Option.map_map, Option.map_map] at hpoints
  exact hpoints

/-! ## The order in which replies come -/

/-- The event after replies that came one after the other. -/
def collect (e : Event) (replies : List Reply) : Event :=
  replies.foldl (fun e r => e.reply r.author r.scores r.submittedAt) e

theorem get?_reply (e : Event) (r : Reply) (author : Address) :
    (e.reply r.author r.scores r.submittedAt).replies.get? author =
      (e.replies.get? author).or (if r.author = author then some r else none) := by
  by_cases hnew : e.hasReplied r.author = false
  · rw [reply_of_new hnew, OrderedMap.get?_insert]
    by_cases hauthor : author = r.author
    · have hnone : e.replies.get? author = none := by
        rw [hauthor]
        exact OrderedMap.get?_eq_none_iff.2 hnew
      rw [if_pos hauthor, if_pos hauthor.symm, hnone, Option.none_or]
    · rw [if_neg hauthor, if_neg (Ne.symm hauthor), Option.or_none]
  · have hreplied : e.hasReplied r.author = true := by simpa using hnew
    rw [reply, if_pos hreplied]
    by_cases hauthor : r.author = author
    · obtain ⟨earlier, hearlier⟩ := OrderedMap.contains_iff.1 hreplied
      rw [← hauthor, hearlier, Option.some_or]
    · rw [if_neg hauthor, Option.or_none]

/-- Of the replies of one author the first one counts. -/
theorem get?_collect (e : Event) (replies : List Reply) (author : Address) :
    (e.collect replies).replies.get? author =
      (e.replies.get? author).or (replies.find? (·.author = author)) := by
  induction replies generalizing e with
  | nil => exact Option.or_none.symm
  | cons r replies ih =>
      refine (ih _).trans ?_
      rw [get?_reply, Option.or_assoc, List.find?_cons]
      by_cases hauthor : r.author = author <;> simp [hauthor]

theorem scores_find?_eq_some_iff {replies : List Reply}
    (hdistinct : (replies.map (·.author)).Nodup) {author : Address} {scores : List Score} :
    (replies.find? (·.author = author)).map (·.scores) = some scores ↔
      (author, scores) ∈ replies.map fun r => (r.author, r.scores) := by
  simp only [Option.map_eq_some_iff, find?_eq_some_iff_of_nodup hdistinct, List.mem_map,
    Prod.mk.injEq, and_assoc]

/-- Replies of different authors may come in any order. -/
theorem ranking_collect_of_perm (e : Event) {replies replies' : List Reply}
    (hdistinct : (replies.map (·.author)).Nodup)
    (hperm : (replies.map fun r => (r.author, r.scores)).Perm
      (replies'.map fun r => (r.author, r.scores))) :
    (e.collect replies).ranking = (e.collect replies').ranking := by
  have hauthors := hperm.map Prod.fst
  simp only [List.map_map, Function.comp_def] at hauthors
  have hscores : ∀ author, (replies.find? (·.author = author)).map (·.scores) =
      (replies'.find? (·.author = author)).map (·.scores) := by
    intro author
    ext scores
    rw [scores_find?_eq_some_iff hdistinct,
      scores_find?_eq_some_iff (hauthors.nodup_iff.1 hdistinct), hperm.mem_iff]
  apply ranking_eq_of_scores
  intro author
  rw [get?_collect, get?_collect, Option.map_or, Option.map_or, hscores]

end Event

/-! ## Reachable states -/

namespace State

open Event

variable {policy : Policy} {s : State} {id : EventId} {e : Event}

/-- Every reply stands under its author. -/
theorem Proper.author_of_get? (h : s.Proper) (he : s.docket.get? id = some e) {author : Address}
    {r : Reply} (hr : e.replies.get? author = some r) : r.author = author :=
  ((h.events he).replies hr).1.author

theorem Proper.map_author (h : s.Proper) (he : s.docket.get? id = some e) :
    e.replyList.map (·.author) = e.replies.keys := by
  simp only [replyList, OrderedMap.values, OrderedMap.keys, List.map_map]
  apply List.map_congr_left
  intro b hb
  exact h.author_of_get? he (OrderedMap.mem_toList_iff.1 hb)

theorem Proper.pairwise_author (h : s.Proper) (he : s.docket.get? id = some e) :
    (e.replyList.map (·.author)).Pairwise (· < ·) := by
  rw [h.map_author he, OrderedMap.keys, List.pairwise_map]
  exact e.replies.ascending

/-- The authors that score an account. -/
theorem Proper.length_pointsTo (h : s.Proper) (he : s.docket.get? id = some e)
    (address : Address) :
    (pointsTo address e.replyList).length =
      ((e.replyList.filter fun r => address ∈ r.scores.map (·.target)).map
        (·.author)).toFinset.card := by
  have hscorer : ∀ r : Reply,
      (r.scoreFor address).isSome = decide (address ∈ r.scores.map (·.target)) := by
    intro r
    rw [Bool.eq_iff_iff]
    simp [Reply.scoreFor]
  have hauthors : ((e.replyList.filter fun r => address ∈ r.scores.map (·.target)).map
      (·.author)).Nodup := by
    refine (List.filter_sublist.map _).nodup ?_
    rw [h.map_author he]
    exact e.replies.nodup_keys
  rw [List.toFinset_card_of_nodup hauthors, List.length_map, Reply.pointsTo_eq (h.distinct he),
    List.length_filterMap_eq_countP, List.countP_eq_length_filter]
  simp only [hscorer]

/-- Who replied with which scores is what the replies say in the order in which they came. -/
theorem Proper.mem_replyOrder_iff (h : s.Proper) (he : s.docket.get? id = some e)
    {author : Address} {scores : List Score} :
    (author, scores) ∈ e.replyOrder ↔
      (e.replies.get? author).map (·.scores) = some scores := by
  simp only [replyOrder, repliesInOrder, List.mem_map, List.mem_mergeSort, Prod.mk.injEq,
    Option.map_eq_some_iff]
  constructor
  · rintro ⟨r, hr, hauthor, hscores⟩
    obtain ⟨author', hget⟩ := OrderedMap.mem_values_iff.1 hr
    rw [h.author_of_get? he hget] at hauthor
    exact ⟨r, hauthor ▸ hget, hscores⟩
  · rintro ⟨r, hget, hscores⟩
    exact ⟨r, OrderedMap.mem_values_iff.2 ⟨author, hget⟩, h.author_of_get? he hget, hscores⟩

/-- In whatever order the replies were accepted, in one controller or in two, the ranking is the
same. -/
theorem Reachable.ranking_eq_of_replyOrder {policy' : Policy} {s' : State} {id' : EventId}
    {e' : Event} (hs : Reachable policy s) (he : s.docket.get? id = some e)
    (hs' : Reachable policy' s') (he' : s'.docket.get? id' = some e')
    (hperm : e.replyOrder.Perm e'.replyOrder) : e.ranking = e'.ranking := by
  apply ranking_eq_of_scores
  intro author
  ext scores
  rw [← hs.proper.mem_replyOrder_iff he, ← hs'.proper.mem_replyOrder_iff he', hperm.mem_iff]

/-- The ranking of an event has one standing for every account that a reply scores and no other,
with the sum and the number of the points for it in the order of the authors, and each standing is
above those behind it; no other list is like this.  Sorting the sums gives the ranking in whatever
order they stand, and the replies may come in any order.  The leader is the first of the ranking.
In a state that a controller can be in the replies stand in the order of their authors, a standing
counts the authors that score its account, and the same replies, accepted in any other order there
or elsewhere, lead to the same ranking. -/
theorem ranking_is_canonical (e : Event) :
    e.RankedBy e.ranking ∧
    (∀ ranking, e.RankedBy ranking → ranking = e.ranking) ∧
    (∀ sums : List (Address × Int × Nat), sums.Perm (e.scores.foldl addScore .empty).toList →
      (sums.map Standing.ofSum).mergeSort Standing.before = e.ranking) ∧
    (∀ replies replies' : List Reply, (replies.map (·.author)).Nodup →
      (replies.map fun r => (r.author, r.scores)).Perm
        (replies'.map fun r => (r.author, r.scores)) →
      (e.collect replies).ranking = (e.collect replies').ranking) ∧
    e.leader = e.ranking.head? ∧
    ∀ policy s id, Reachable policy s → s.docket.get? id = some e →
      (e.replyList.map (·.author)).Pairwise (· < ·) ∧
      (∀ t ∈ e.ranking, t.contributors =
        ((e.replyList.filter fun r => t.address ∈ r.scores.map (·.target)).map
          (·.author)).toFinset.card) ∧
      ∀ policy' s' id' e', Reachable policy' s' → s'.docket.get? id' = some e' →
        e.replyOrder.Perm e'.replyOrder → e.ranking = e'.ranking := by
  refine ⟨e.rankedBy_ranking, ?_, ?_, ?_, rfl, ?_⟩
  · intro ranking hranked
    exact hranked.eq_ranking
  · intro sums hperm
    rw [ranking_eq]
    refine Standing.mergeSort_eq_of_perm (hperm.map _) ?_
    exact ((hperm.map _).map _).nodup_iff.2 (Standing.nodup_ofSum _)
  · intro replies replies' hdistinct hperm
    exact e.ranking_collect_of_perm hdistinct hperm
  · intro policy s id hs he
    refine ⟨hs.proper.pairwise_author he, ?_, ?_⟩
    · intro t ht
      rw [e.rankedBy_ranking.contributors t ht, hs.proper.length_pointsTo he]
    · intro policy' s' id' e' hs' he' hperm
      exact hs.ranking_eq_of_replyOrder he hs' he' hperm

/-- The scores that three nodes give, by the numbers of the nodes. -/
def givenBy : Nat → List Score
  | 1 => [⟨.ofLow 9, 2⟩, ⟨.ofLow 3, -5⟩]
  | 2 => [⟨.ofLow 8, 1⟩, ⟨.ofLow 3, 1⟩]
  | _ => [⟨.ofLow 8, 1⟩, ⟨.ofLow 9, 0⟩]

/-- Three nodes reply one after the other. -/
def repliesInTurn (turns : List Nat) : List (Address × Command) :=
  [(.ofLow 1, .registerNode "s"), (.ofLow 2, .registerNode "s"), (.ofLow 3, .registerNode "s"),
    (.ofLow 1, .registerApplication "i" [] true), (.ofLow 1, .sendEvent "p" 1)] ++
  turns.map fun n => (.ofLow n, .sendReply 1 (givenBy n))

theorem ranking_is_canonical_of_repliesInTurn :
    ∃ e e', ((initial {}).run (repliesInTurn [1, 2, 3])).docket.get? 1 = some e ∧
      ((initial {}).run (repliesInTurn [3, 1, 2])).docket.get? 1 = some e' ∧
      e.replyOrder ≠ e'.replyOrder ∧ e.ranking = e'.ranking ∧
      e'.ranking = [⟨.ofLow 8, 2, 2⟩, ⟨.ofLow 9, 2, 2⟩, ⟨.ofLow 3, -4, 2⟩] := by
  have hfirst : (((initial {}).run (repliesInTurn [1, 2, 3])).docket.get? 1).map replyList =
      some [⟨.ofLow 1, givenBy 1, 6⟩, ⟨.ofLow 2, givenBy 2, 7⟩, ⟨.ofLow 3, givenBy 3, 8⟩] := by
    decide +kernel
  have hsecond : (((initial {}).run (repliesInTurn [3, 1, 2])).docket.get? 1).map replyList =
      some [⟨.ofLow 1, givenBy 1, 7⟩, ⟨.ofLow 2, givenBy 2, 8⟩, ⟨.ofLow 3, givenBy 3, 6⟩] := by
    decide +kernel
  obtain ⟨e, he, hreplies⟩ := Option.map_eq_some_iff.1 hfirst
  obtain ⟨e', he', hreplies'⟩ := Option.map_eq_some_iff.1 hsecond
  have horder : e.replyOrder = [1, 2, 3].map fun n => (.ofLow n, givenBy n) := by
    rw [replyOrder, repliesInOrder, hreplies]
    exact congrArg (List.map _) (Reply.mergeSort_eq (.refl _) (by decide))
  have horder' : e'.replyOrder = [3, 1, 2].map fun n => (.ofLow n, givenBy n) := by
    have hturn : e'.repliesInOrder =
        [⟨.ofLow 3, givenBy 3, 6⟩, ⟨.ofLow 1, givenBy 1, 7⟩, ⟨.ofLow 2, givenBy 2, 8⟩] := by
      rw [repliesInOrder, hreplies']
      exact Reply.mergeSort_eq (by decide) (by decide)
    rw [replyOrder, hturn]
    rfl
  have hscores : e'.scores = [1, 2, 3].flatMap givenBy := by
    rw [scores, hreplies']
    rfl
  have hperm : e.replyOrder.Perm e'.replyOrder := by
    rw [horder, horder']
    exact List.Perm.map _ (by decide)
  obtain ⟨-, -, -, -, -, hreachable⟩ := ranking_is_canonical e
  obtain ⟨-, -, hsame⟩ := hreachable {} _ 1 (reachable_run {} (repliesInTurn [1, 2, 3])) he
  refine ⟨e, e', he, he', ?_, ?_, ranking_eq_of_perm hscores (by decide) (by decide)⟩
  · rw [horder, horder']
    decide
  · exact hsame {} _ 1 e' (reachable_run {} (repliesInTurn [3, 1, 2])) he' hperm

end State

end Arbiter
