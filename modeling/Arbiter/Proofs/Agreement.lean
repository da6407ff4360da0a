import Arbiter.Proofs.Chronology
import Arbiter.Proofs.Lifecycle
import Arbiter.Proofs.Rankings

/-!
# Replies that agree

Unless the application of an event allows its replies to differ, a reply is accepted only if it
gives no account other points than a reply before it does.  So all replies to such an event agree,
and the sum of a standing is what any of them gives to the account, times the number of those that
score it.
-/

namespace Arbiter

/-! ## Scores for different accounts -/

/-- Of scores for different accounts no two give points to one account. -/
theorem pairwise_scoredPoints {scores : List Score} (hdistinct : (scores.map (·.target)).Nodup)
    (target : Address) : (scoredPoints target scores).Pairwise fun _ _ => False := by
  rw [scoredPoints, List.pairwise_map, List.pairwise_filter]
  refine (List.pairwise_map.1 hdistinct).imp ?_
  intro x y hne hx hy
  exact hne ((of_decide_eq_true hx).trans (of_decide_eq_true hy).symm)

/-- Of scores for different accounts the order does not matter to any of them. -/
theorem scoredPoints_eq_of_perm {scores scores' : List Score}
    (hdistinct : (scores.map (·.target)).Nodup) (hperm : scores.Perm scores')
    (target : Address) : scoredPoints target scores = scoredPoints target scores' := by
  have hdistinct' : (scores'.map (·.target)).Nodup := (hperm.map _).nodup_iff.1 hdistinct
  have hpoints : (scoredPoints target scores).Perm (scoredPoints target scores') :=
    (hperm.filter _).map _
  refine hpoints.eq_of_pairwise ?_ (pairwise_scoredPoints hdistinct target)
    (pairwise_scoredPoints hdistinct' target)
  intro _ _ _ _ hfalse
  exact hfalse.elim

namespace Reply

variable {r : Reply} {target : Address} {value : Int}

/-- The score for an account is the first of the points that it is given. -/
theorem scoreFor_eq_head? (r : Reply) (target : Address) :
    r.scoreFor target = (scoredPoints target r.scores).head? := by
  rw [scoredPoints, List.head?_map, List.head?_filter, scoreFor]
  rfl

theorem scoredPoints_eq (hdistinct : (r.scores.map (·.target)).Nodup) (target : Address) :
    scoredPoints target r.scores = (r.scoreFor target).toList := by
  have halone := pairwise_scoredPoints hdistinct target
  rw [scoreFor_eq_head?]
  cases hpoints : scoredPoints target r.scores with
  | nil => rfl
  | cons p rest =>
      rw [hpoints, List.pairwise_cons] at halone
      rw [List.eq_nil_iff_forall_not_mem.2 halone.1]
      rfl

theorem scoreFor_eq_some_iff (hdistinct : (r.scores.map (·.target)).Nodup) :
    r.scoreFor target = some value ↔ ⟨target, value⟩ ∈ r.scores := by
  rw [← Option.mem_toList, ← scoredPoints_eq hdistinct]
  simp only [scoredPoints, List.mem_map, List.mem_filter, decide_eq_true_eq]
  constructor
  · rintro ⟨x, ⟨hx, rfl⟩, rfl⟩
    exact hx
  · intro hmem
    exact ⟨_, ⟨hmem, rfl⟩, rfl⟩

/-- The points that replies with scores for different accounts give to an account. -/
theorem pointsTo_eq {replies : List Reply}
    (hdistinct : ∀ r ∈ replies, (r.scores.map (·.target)).Nodup) (target : Address) :
    pointsTo target replies = replies.filterMap (·.scoreFor target) := by
  rw [pointsTo, List.filterMap_eq_flatMap_toList]
  apply List.flatMap_congr
  intro r hr
  exact scoredPoints_eq (hdistinct r hr) target

end Reply

namespace Event

/-! ## Conflicts -/

theorem conflict?_eq_none_iff {earlier : List Reply} {x : Score} :
    conflict? earlier x = none ↔
      ∀ r ∈ earlier, ∀ value, r.scoreFor x.target = some value → value = x.value := by
  simp only [conflict?, List.findSome?_eq_none_iff]
  refine forall₂_congr fun r _ => ?_
  cases r.scoreFor x.target with
  | none => simp
  | some value => simp

/-- All replies give the same points to an account that they score. -/
def Agreed (e : Event) : Prop :=
  ∀ r ∈ e.replyList, ∀ r' ∈ e.replyList, ∀ x ∈ r.scores, ∀ x' ∈ r'.scores,
    x.target = x'.target → x.value = x'.value

namespace Agreed

variable {e : Event}

theorem fresh (id : EventId) (application : ApplicationId) (payload : String) (sender : Address)
    (now : Version) : (fresh id application payload sender now).Agreed := by
  intro r hr
  simp [Event.fresh, replyList, OrderedMap.values, OrderedMap.empty] at hr

/-- A reply without a fault and without a conflict agrees with itself and with the others. -/
theorem reply (h : e.Agreed)
    (hdistinct : ∀ r ∈ e.replyList, (r.scores.map (·.target)).Nodup) {author : Address}
    (hnew : e.hasReplied author = false) {scores : List Score}
    (hfault : scoreFault? author [] scores = none)
    (hconflict : scores.findSome? (conflict? e.replyList) = none) {now : Version} :
    (e.reply author scores now).Agreed := by
  -- what a new score and an old one say about the same account
  have hagree : ∀ x ∈ scores, ∀ r ∈ e.replyList, ∀ x' ∈ r.scores,
      x.target = x'.target → x.value = x'.value := by
    intro x hx r hr x' hx' htarget
    have hnone := List.findSome?_eq_none_iff.1 hconflict x hx
    refine (conflict?_eq_none_iff.1 hnone r hr x'.value ?_).symm
    rw [htarget]
    exact (Reply.scoreFor_eq_some_iff (hdistinct r hr)).2 hx'
  intro r hr r' hr' x hx x' hx' htarget
  rcases mem_replyList_reply hnew hr with rfl | hr <;>
    rcases mem_replyList_reply hnew hr' with rfl | hr'
  · have hscores := (scoreFault?_eq_none_iff.1 hfault).1
    rw [List.inj_on_of_nodup_map hscores hx hx' htarget]
  · exact hagree x hx r' hr' x' hx' htarget
  · exact (hagree x' hx' r hr x hx htarget.symm).symm
  · exact h r hr r' hr' x hx x' hx' htarget

end Agreed

/-! ## Standings -/

/-- How many replies score an account. -/
def scorers (e : Event) (target : Address) : Nat :=
  e.replyList.countP fun r => (r.scoreFor target).isSome

/-- Where all replies agree, they give an account the same points over and over. -/
theorem Agreed.pointsTo_eq {e : Event} (h : e.Agreed)
    (hdistinct : ∀ r ∈ e.replyList, (r.scores.map (·.target)).Nodup) {r : Reply}
    (hr : r ∈ e.replyList) {x : Score} (hx : x ∈ r.scores) :
    pointsTo x.target e.replyList = List.replicate (e.scorers x.target) x.value := by
  rw [Reply.pointsTo_eq hdistinct, List.eq_replicate_iff]
  constructor
  · exact List.length_filterMap_eq_countP
  · intro value hvalue
    obtain ⟨r', hr', hscore⟩ := List.mem_filterMap.1 hvalue
    have hx' := (Reply.scoreFor_eq_some_iff (hdistinct r' hr')).1 hscore
    exact h r' hr' r hr _ hx' x hx rfl

/-- Where all replies agree, the sum of a standing is a multiple of what any of them gives. -/
theorem Agreed.standing_eq {e : Event} (h : e.Agreed)
    (hdistinct : ∀ r ∈ e.replyList, (r.scores.map (·.target)).Nodup) {r : Reply}
    (hr : r ∈ e.replyList) {x : Score} (hx : x ∈ r.scores) :
    e.standing x.target =
      ⟨x.target, clampPoints (x.value * e.scorers x.target), e.scorers x.target⟩ := by
  rw [standing, h.pointsTo_eq hdistinct hr hx, foldl_addPoints_replicate, List.length_replicate]

end Event

namespace State

open Event

variable {s s' : State} {caller : Address} {command : Command} {outcome : Outcome}
  {id : EventId} {e e' : Event}

/-! ## States -/

/-- The replies to an event agree, unless its application allows otherwise. -/
def Agreed (s : State) : Prop :=
  ∀ (id : EventId) (e : Event) (a : Application), s.docket.get? id = some e →
    s.catalog.get? e.application = some a → a.multiReplyAllowed = false → e.Agreed

theorem Proper.distinct (h : s.Proper) (he : s.docket.get? id = some e) :
    ∀ r ∈ e.replyList, (r.scores.map (·.target)).Nodup := by
  intro r hr
  obtain ⟨author, hreply⟩ := OrderedMap.mem_values_iff.1 hr
  exact ((h.events he).replies hreply).1.distinct

/-- What a command does to an event whose replies agree. -/
theorem EventStep.agreed (h : EventStep s caller id command e e') (hproper : s.Proper)
    (he : s.docket.get? id = some e) {a : Application}
    (ha : s.catalog.get? e.application = some a) (hsingle : a.multiReplyAllowed = false)
    (hagreed : e.Agreed) : e'.Agreed := by
  cases h with
  | other => exact hagreed
  | reply known accepts =>
      obtain rfl := Option.some.inj (known.symm.trans ha)
      obtain ⟨-, -, hnew, -, hfault, hallowed⟩ := checkReply_eq_ok_iff.1 accepts
      have hconflict := hallowed.resolve_left (by simp [hsingle])
      exact hagreed.reply (hproper.distinct he) hnew hfault hconflict
  | vote => exact hagreed
  | solve => exact hagreed

theorem Agreed.accepted (h : s.Agreed) (hs : s.Numbered) (hproper : s.Proper)
    (haccepted : Accepted s caller command s' outcome) : s'.Agreed := by
  intro id e' a he' ha hsingle
  rcases haccepted.event_cases hs.nextId_fresh he' with
    ⟨-, _, _, -, -, rfl⟩ | ⟨e, he, hstep⟩
  · exact .fresh _ _ _ _ _
  · -- the application is the one that the event had before the command
    obtain ⟨a', ha', -⟩ := (hproper.events he).application
    have hsame := haccepted.application hs ha'
    rw [← hstep.continues.application] at hsame
    obtain rfl := Option.some.inj (hsame.symm.trans ha)
    exact hstep.agreed hproper he ha' hsingle (h id e a' he ha' hsingle)

theorem Reachable.agreed {policy : Policy} (h : Reachable policy s) : s.Agreed := by
  refine h.invariant ?_ fun ht haccepted hagreed =>
    hagreed.accepted ht.numbered ht.proper haccepted
  intro id e a he
  simp [State.initial, Docket.get?] at he

/-- In a state that a controller can be in, all replies to an event whose application does not allow
them to differ give the same points to an account that they score.  The ranking has exactly one
standing for such an account.  Its sum is these points times the number of its contributors, which
are the replies that score the account, and is kept within the range. -/
theorem replies_agree_unless_allowed {policy : Policy} (hs : Reachable policy s)
    {a : Application} (he : s.docket.get? id = some e)
    (ha : s.catalog.get? e.application = some a) (hsingle : a.multiReplyAllowed = false) :
    (∀ r ∈ e.replyList, ∀ r' ∈ e.replyList, ∀ x ∈ r.scores, ∀ x' ∈ r'.scores,
      x.target = x'.target → x.value = x'.value) ∧
    ∀ r ∈ e.replyList, ∀ x ∈ r.scores, ∀ t : Standing,
      t ∈ e.ranking ∧ t.address = x.target ↔
        t = ⟨x.target, clampPoints (x.value * e.scorers x.target), e.scorers x.target⟩ := by
  have hagreed : e.Agreed := hs.agreed id e a he ha hsingle
  refine ⟨hagreed, ?_⟩
  intro r hr x hx t
  have hstanding := hagreed.standing_eq (hs.proper.distinct he) hr hx
  rw [← hstanding, mem_ranking_iff]
  constructor
  · rintro ⟨⟨-, ht⟩, haddress⟩
    rwa [haddress] at ht
  · rintro rfl
    have hscored : x.target ∈ e.scores.map (·.target) :=
      List.mem_map_of_mem (List.mem_flatMap.2 ⟨r, hr, hx⟩)
    exact ⟨⟨hscored, rfl⟩, rfl⟩

/-- Two of three nodes give the third one as many points as possible. -/
def mostPointsTwice : List (Address × Command) :=
  [(.ofLow 1, .registerNode "s"), (.ofLow 2, .registerNode "s"), (.ofLow 3, .registerNode "s"),
    (.ofLow 1, .registerApplication "i" [] false), (.ofLow 1, .sendEvent "p" 1),
    (.ofLow 2, .sendReply 1 [⟨.ofLow 3, 4⟩, ⟨.ofLow 1, mostPoints⟩]),
    (.ofLow 3, .sendReply 1 [⟨.ofLow 1, mostPoints⟩])]

theorem replies_agree_unless_allowed_of_mostPointsTwice :
    ∃ e, ((initial {}).run mostPointsTwice).docket.get? 1 = some e ∧
      e.replyList.map (·.scores) =
        [[⟨.ofLow 3, 4⟩, ⟨.ofLow 1, mostPoints⟩], [⟨.ofLow 1, mostPoints⟩]] ∧
      ∀ t : Standing, t ∈ e.ranking ∧ t.address = .ofLow 1 ↔ t = ⟨.ofLow 1, mostPoints, 2⟩ := by
  have hevent : (((initial {}).run mostPointsTwice).docket.get? 1).map
      (fun e => (e.application, e.replyList.map (·.scores), e.scorers (.ofLow 1))) =
      some (1, [[⟨.ofLow 3, 4⟩, ⟨.ofLow 1, mostPoints⟩], [⟨.ofLow 1, mostPoints⟩]], 2) := by
    decide +kernel
  have happlication : (((initial {}).run mostPointsTwice).catalog.get? 1).map
      (·.multiReplyAllowed) = some false := by
    decide +kernel
  obtain ⟨e, he, hparts⟩ := Option.map_eq_some_iff.1 hevent
  obtain ⟨a, ha, hsingle⟩ := Option.map_eq_some_iff.1 happlication
  obtain ⟨hone, hparts⟩ := Prod.mk.inj hparts
  obtain ⟨hscores, hscorers⟩ := Prod.mk.inj hparts
  obtain ⟨r, hr, hlast⟩ : ∃ r ∈ e.replyList, r.scores = [⟨.ofLow 1, mostPoints⟩] := by
    rw [← List.mem_map, hscores]
    simp
  obtain ⟨-, hranking⟩ :=
    replies_agree_unless_allowed (reachable_run {} mostPointsTwice) he (hone ▸ ha) hsingle
  have hstanding := hranking r hr ⟨.ofLow 1, mostPoints⟩ (by simp [hlast])
  rw [hscorers] at hstanding
  exact ⟨e, he, hscores, hstanding⟩

end State

end Arbiter
