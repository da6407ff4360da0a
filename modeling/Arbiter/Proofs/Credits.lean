import Arbiter.Proofs.Chronology
import Arbiter.Proofs.Rankings
import Mathlib.Data.Finset.Card

/-!
# What reputations are made of

The reputation of a node is a running number, kept in the roster and changed by every reply that
scores the node.  It is what the replies of all events come to, taken in the order in which they
were accepted and from the registration of the node on.  The order matters, since a sum that would
leave the allowed range stays at its end and is counted on from there.
-/

namespace Arbiter

/-! ## Points -/

/-- The reply of an entry. -/
def Entry.reply? (x : Entry) : Option Reply :=
  match x.command with
  | .sendReply _ scores => some ⟨x.caller, scores, x.sequence⟩
  | _ => none

theorem Entry.submittedAt_of_reply? {x : Entry} {r : Reply} (hr : x.reply? = some r) :
    r.submittedAt = x.sequence := by
  unfold reply? at hr
  split at hr
  · obtain rfl := Option.some.inj hr
    rfl
  · simp at hr

/-- The replies to all events, in the order in which they were accepted. -/
def Docket.repliesInOrder (d : Docket) : List Reply :=
  (d.toList.flatMap Event.replyList).mergeSort fun r r' => r.submittedAt ≤ r'.submittedAt

/-- What replies after a time come to for an account, kept within the allowed range after each
score. -/
def earned (replies : List Reply) (address : Address) (since : Version) : Int :=
  (pointsTo address (replies.filter (since < ·.submittedAt))).foldl addPoints 0

theorem earned_eq_zero {replies : List Reply} {address : Address} {since : Version}
    (hearlier : ∀ r ∈ replies, r.submittedAt ≤ since) : earned replies address since = 0 := by
  have hnone : replies.filter (since < ·.submittedAt) = [] := by
    rw [List.filter_eq_nil_iff]
    intro r hr
    simpa using hearlier r hr
  rw [earned, hnone]
  rfl

theorem earned_append {replies later : List Reply} {address : Address} {since : Version}
    (hlater : ∀ r ∈ later, since < r.submittedAt) :
    earned (replies ++ later) address since =
      (pointsTo address later).foldl addPoints (earned replies address since) := by
  have hall : later.filter (since < ·.submittedAt) = later := by
    rw [List.filter_eq_self]
    intro r hr
    simpa using hlater r hr
  rw [earned, List.filter_append, hall, pointsTo, List.flatMap_append, List.foldl_append]
  rfl

/-! ## Crediting -/

namespace Roster

variable {r : Roster} {address : Address} {n : Node}

theorem get?_creditAll (r : Roster) (scores : List Score) (address : Address) :
    (r.creditAll scores).get? address =
      (r.get? address).map fun n =>
        { n with reputation := (scoredPoints address scores).foldl addPoints n.reputation } := by
  induction scores generalizing r with
  | nil => simp [creditAll, scoredPoints]
  | cons score scores ih =>
      refine (ih (r.credit score)).trans ?_
      have hfirst : (r.credit score).get? address =
          if address = score.target then
            (r.get? address).map fun n =>
              { n with reputation := addPoints n.reputation score.value }
          else r.get? address := by
        simp only [get?, credit, OrderedMap.get?_modify]
        split
        · next heq => rw [heq]
        · rfl
      rw [hfirst]
      by_cases heq : address = score.target
      · subst heq
        simp [scoredPoints, Function.comp_def]
      · have hne : score.target ≠ address := Ne.symm heq
        simp [scoredPoints, heq, hne]

/-- Scores that give the same points to every account lead to the same reputations. -/
theorem creditAll_congr {scores scores' : List Score}
    (hpoints : ∀ address, scoredPoints address scores = scoredPoints address scores') :
    r.creditAll scores = r.creditAll scores' := by
  have hnodes : (r.creditAll scores).nodes = (r.creditAll scores').nodes := by
    apply OrderedMap.ext_get?
    intro address
    refine (get?_creditAll r scores address).trans ?_
    rw [hpoints]
    exact (get?_creditAll r scores' address).symm
  exact congrArg Roster.mk hnodes

theorem get?_register_of_known (hn : r.get? address = some n) (spec : String) (now : Version) :
    (r.register address spec now).get? address = some { n with spec := spec } := by
  have hknown : r.contains address = true := OrderedMap.contains_iff.2 ⟨n, hn⟩
  have hget : r.nodes.get? address = some n := hn
  rw [register, if_pos hknown]
  simp [get?, OrderedMap.get?_modify, hget]

theorem get?_register_of_new (hnone : r.get? address = none) (spec : String) (now : Version) :
    (r.register address spec now).get? address = some ⟨address, spec, 0, now⟩ := by
  have hnew : r.contains address = false := OrderedMap.get?_eq_none_iff.1 hnone
  rw [register, if_neg (by simp [hnew])]
  simp [get?]

/-- Of scores for different targets, those are credited whose targets are registered. -/
theorem credited_eq_card {scores : List Score} (hdistinct : (scores.map (·.target)).Nodup) :
    r.credited scores =
      {target ∈ (scores.map (·.target)).toFinset | r.contains target = true}.card := by
  have hcount : r.credited scores = (scores.map (·.target)).countP r.contains := by
    rw [List.countP_map]
    rfl
  rw [hcount, List.countP_eq_length_filter, ← List.toFinset_filter,
    List.toFinset_card_of_nodup (hdistinct.filter _)]

end Roster

namespace State

open Event

variable {s s' : State} {entries : List Entry} {caller : Address} {command : Command}
  {outcome : Outcome}

/-- What an accepted command does to a node: it was not there and registers, or it is given the
points of the reply that the command sends. -/
theorem Accepted.node_cases (h : Accepted s caller command s' outcome) {address : Address}
    {n' : Node} (hn' : s'.roster.get? address = some n') :
    (s.roster.get? address = none ∧ n'.reputation = 0 ∧ n'.registeredAt = s.version + 1) ∨
    ∃ n, s.roster.get? address = some n ∧ n'.registeredAt = n.registeredAt ∧
      n'.reputation = (pointsTo address
        (Entry.mk (s.version + 1) caller command).reply?.toList).foldl addPoints n.reputation := by
  cases h with
  | @registerNode spec =>
      by_cases haddress : address = caller
      · subst haddress
        cases hn : s.roster.get? address with
        | none =>
            rw [Roster.get?_register_of_new hn] at hn'
            obtain rfl := Option.some.inj hn'
            exact .inl ⟨rfl, rfl, rfl⟩
        | some n =>
            rw [Roster.get?_register_of_known hn] at hn'
            obtain rfl := Option.some.inj hn'
            exact .inr ⟨n, rfl, rfl, rfl⟩
      · rw [Roster.get?_register_of_ne haddress] at hn'
        exact .inr ⟨n', hn', rfl, rfl⟩
  | @sendReply _ scores =>
      rw [Roster.get?_creditAll] at hn'
      obtain ⟨n, hn, rfl⟩ := Option.map_eq_some_iff.1 hn'
      exact .inr ⟨n, hn, rfl, by simp [Entry.reply?, pointsTo]⟩
  | registerApplication => exact .inr ⟨n', hn', rfl, rfl⟩
  | sendEvent => exact .inr ⟨n', hn', rfl, rfl⟩
  | voteSolver => exact .inr ⟨n', hn', rfl, rfl⟩
  | solveEvent => exact .inr ⟨n', hn', rfl, rfl⟩

/-- An accepted command adds its reply to those of the docket, and no other one. -/
theorem Accepted.replies_perm (h : Accepted s caller command s' outcome) (hs : s.Numbered) :
    (s'.docket.toList.flatMap replyList).Perm
      ((Entry.mk (s.version + 1) caller command).reply?.toList ++
        s.docket.toList.flatMap replyList) := by
  cases h with
  | @sendEvent payload application =>
      have hadded : (s.docket.enter application payload caller (s.version + 1)).toList =
          s.docket.toList ++ [.fresh s.docket.nextId application payload caller (s.version + 1)] :=
        OrderedMap.values_insert_of_last _ hs.events
      rw [hadded, List.flatMap_append]
      exact .of_eq (List.append_nil _)
  | sendReply there _ accepts =>
      obtain ⟨-, -, hnew, -⟩ := checkReply_eq_ok_iff.1 accepts
      have hfresh := OrderedMap.get?_eq_none_iff.2 hnew
      refine OrderedMap.perm_flatMap_modify there ?_
      rw [reply_of_new hnew]
      exact OrderedMap.perm_values_insert (Reply.mk caller _ (s.version + 1)) hfresh
  | voteSolver there => exact OrderedMap.perm_flatMap_modify there (.refl _)
  | solveEvent there => exact OrderedMap.perm_flatMap_modify there (.refl _)
  | registerNode => exact .refl _
  | registerApplication => exact .refl _

/-! ## Running -/

/-- The replies of a docket are those of the entries. -/
theorem Trail.replies_perm {policy : Policy} (h : Trail (initial policy) entries s) :
    (s.docket.toList.flatMap replyList).Perm (entries.filterMap Entry.reply?) := by
  induction h with
  | start => exact .refl _
  | accept before accepted ih =>
      rw [filterMap_concat]
      refine (accepted.replies_perm before.reachable.numbered).trans ?_
      exact (List.perm_append_comm).trans (ih.append_right _)

theorem Trail.pairwise_reply (h : Trail s entries s') :
    (entries.filterMap Entry.reply?).Pairwise fun r r' => r.submittedAt < r'.submittedAt := by
  refine h.pairwise_sequence.filterMap _ fun x y hlt r hr r' hr' => ?_
  rwa [Entry.submittedAt_of_reply? hr, Entry.submittedAt_of_reply? hr']

theorem Trail.repliesInOrder_eq {policy : Policy} (h : Trail (initial policy) entries s) :
    s.docket.repliesInOrder = entries.filterMap Entry.reply? :=
  Reply.mergeSort_eq h.replies_perm h.pairwise_reply

theorem Trail.submittedAt_le (h : Trail s entries s') {r : Reply}
    (hr : r ∈ entries.filterMap Entry.reply?) : r.submittedAt ≤ s'.version := by
  obtain ⟨x, hx, hreply⟩ := List.mem_filterMap.1 hr
  rw [Entry.submittedAt_of_reply? hreply]
  exact (h.sequence_mem hx).2

/-- A node has earned its reputation by the replies of the entries. -/
theorem Trail.reputation_eq {policy : Policy} (h : Trail (initial policy) entries s)
    {address : Address} {n : Node} (hn : s.roster.get? address = some n) :
    n.reputation = earned (entries.filterMap Entry.reply?) address n.registeredAt := by
  induction h generalizing n with
  | start => simp [State.initial, Roster.get?] at hn
  | @accept entries t t' caller command outcome before accepted ih =>
      rcases accepted.node_cases hn with ⟨-, hzero, hnow⟩ | ⟨n₀, hn₀, hsame, hcredited⟩
      · rw [hzero, hnow.trans accepted.version_eq.symm]
        exact (earned_eq_zero fun r hr => (before.accept accepted).submittedAt_le hr).symm
      · have hdated := before.reachable.proper.dated
        rw [filterMap_concat, hcredited, ih hn₀, hsame]
        refine (earned_append fun r hr => ?_).symm
        rw [Entry.submittedAt_of_reply? (Option.mem_toList.1 hr)]
        exact hdated.registeredAt_lt hn₀

/-- In a state that a controller can be in, the reputation of a node is what the replies to all
events after its registration come to, from zero and in the order of their times, which are all
different.  Registering again changes the spec of the node and nothing else of it, and no event.
The number that answers a reply says how many of its targets are nodes at that moment. -/
theorem reputation_is_earned {policy : Policy} (hs : Reachable policy s) :
    (s.docket.repliesInOrder.Pairwise fun r r' => r.submittedAt < r'.submittedAt) ∧
    (∀ address n, s.roster.get? address = some n →
      n.reputation =
        (pointsTo address (s.docket.repliesInOrder.filter (n.registeredAt < ·.submittedAt))).foldl
          addPoints 0) ∧
    (∀ address n spec s' outcome, s.roster.get? address = some n →
      s.apply address (.registerNode spec) = .ok (s', outcome) →
        s'.roster.get? address = some { n with spec := spec } ∧ s'.docket = s.docket) ∧
    ∀ author id scores s' outcome,
      s.apply author (.sendReply id scores) = .ok (s', outcome) →
        outcome = .replyRecorded
          {target ∈ (scores.map (·.target)).toFinset | s.roster.contains target = true}.card := by
  obtain ⟨entries, htrail⟩ := hs
  refine ⟨?_, ?_, ?_, ?_⟩
  · rw [htrail.repliesInOrder_eq]
    exact htrail.pairwise_reply
  · intro address n hn
    rw [htrail.repliesInOrder_eq]
    exact htrail.reputation_eq hn
  · intro address n spec s' outcome hn happly
    cases apply_eq_ok_iff.1 happly
    exact ⟨Roster.get?_register_of_known hn spec _, rfl⟩
  · intro author id scores s' outcome happly
    cases apply_eq_ok_iff.1 happly with
    | sendReply _ _ accepts =>
        obtain ⟨-, -, -, -, hfault, -⟩ := checkReply_eq_ok_iff.1 accepts
        rw [Roster.credited_eq_card (scoreFault?_eq_none_iff.1 hfault).1]

/-- The first account is scored up to the end of the range, beyond it and back, and registers again
in between; the third one is scored before it registers and after. -/
def scoredOverTime : List (Address × Command) :=
  [(.ofLow 1, .registerNode "s"), (.ofLow 2, .registerNode "s"),
    (.ofLow 1, .registerApplication "i" [] true), (.ofLow 1, .sendEvent "p" 1),
    (.ofLow 1, .sendEvent "q" 1), (.ofLow 1, .sendEvent "r" 1), (.ofLow 1, .sendEvent "t" 1),
    (.ofLow 2, .sendReply 1 [⟨.ofLow 1, mostPoints⟩]), (.ofLow 2, .sendReply 3 [⟨.ofLow 1, 5⟩]),
    (.ofLow 1, .sendReply 2 [⟨.ofLow 3, 4⟩]), (.ofLow 3, .registerNode "s"),
    (.ofLow 1, .registerNode "u"),
    (.ofLow 2, .sendReply 2 [⟨.ofLow 1, -7⟩, ⟨.ofLow 3, 3⟩])]

theorem reputation_is_earned_of_scoredOverTime :
    ∃ n n', ((initial {}).run scoredOverTime).roster.get? (.ofLow 1) = some n ∧
      n.reputation = mostPoints - 7 ∧ n.reputation =
        (pointsTo (.ofLow 1) (((initial {}).run scoredOverTime).docket.repliesInOrder.filter
          (n.registeredAt < ·.submittedAt))).foldl addPoints 0 ∧
      ((initial {}).run scoredOverTime).roster.get? (.ofLow 3) = some n' ∧
      n'.reputation = 3 ∧ n'.reputation =
        (pointsTo (.ofLow 3) (((initial {}).run scoredOverTime).docket.repliesInOrder.filter
          (n'.registeredAt < ·.submittedAt))).foldl addPoints 0 := by
  obtain ⟨-, hearned, -, -⟩ := reputation_is_earned (reachable_run {} scoredOverTime)
  have hfirst : (((initial {}).run scoredOverTime).roster.get? (.ofLow 1)).map (·.reputation) =
      some (mostPoints - 7) := by
    decide +kernel
  have hthird : (((initial {}).run scoredOverTime).roster.get? (.ofLow 3)).map (·.reputation) =
      some 3 := by
    decide +kernel
  obtain ⟨n, hn, hpoints⟩ := Option.map_eq_some_iff.1 hfirst
  obtain ⟨n', hn', hpoints'⟩ := Option.map_eq_some_iff.1 hthird
  exact ⟨n, n', hn, hpoints, hearned _ n hn, hn', hpoints', hearned _ n' hn'⟩

end State

end Arbiter
