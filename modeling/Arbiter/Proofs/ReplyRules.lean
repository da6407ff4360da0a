import Arbiter.Proofs.Credits
import Arbiter.Proofs.Standings

/-!
# The rules for a reply

The check of a reply looks at its scores one after the other and, where replies have to agree, at
the replies before it.  What it asks for are rules that do not mention any order, so a reply is
accepted with its scores in every order or in none.  Since its scores are for different accounts,
the order does not matter to reputations and rankings either.
-/

namespace Arbiter

namespace Event

variable {e : Event} {application : Application} {roster : Roster} {author : Address}
  {scores scores' : List Score}

/-! ## Rules -/

/-- A reply keeps to the rules: the event is open, the author is registered and has not replied, the
scores are fewer than the registered nodes, none is for the author and no two for one account, and
where replies have to agree, every reply before it gives the same points to the accounts that both
score. -/
structure KeepsToRules (e : Event) (application : Application) (roster : Roster)
    (author : Address) (scores : List Score) : Prop where
  unsolved : e.isSolved = false
  registered : roster.contains author = true
  first : e.hasReplied author = false
  few : scores.length < roster.size
  selfless : ∀ x ∈ scores, x.target ≠ author
  distinct : (scores.map (·.target)).Nodup
  agreeing : application.multiReplyAllowed = false → ∀ x ∈ scores, ∀ r ∈ e.replyList, ∀ value,
    r.scoreFor x.target = some value → value = x.value

/-- A reply is accepted exactly if it keeps to the rules. -/
theorem checkReply_eq_ok_iff_keepsToRules :
    e.checkReply application roster author scores = .ok () ↔
      e.KeepsToRules application roster author scores := by
  rw [checkReply_eq_ok_iff, scoreFault?_eq_none_iff, List.findSome?_eq_none_iff,
    ← isSolved_eq_false_iff]
  constructor
  · rintro ⟨hopen, hregistered, hnew, hfew, ⟨hdistinct, hselfless⟩, hagree⟩
    -- a registered author leaves room for at most one score less than there are nodes
    have hsome : 0 < roster.size := OrderedMap.size_pos_of_contains hregistered
    refine ⟨hopen, hregistered, hnew, by omega, ?_, hdistinct, ?_⟩
    · intro x hx
      exact (hselfless x hx).1
    · intro hsingle x hx
      have hnone := hagree.resolve_left (by simp [hsingle]) x hx
      exact conflict?_eq_none_iff.1 hnone
  · intro h
    refine ⟨h.unsolved, h.registered, h.first, ?_, ⟨h.distinct, ?_⟩, ?_⟩
    · have hfew := h.few
      omega
    · intro x hx
      exact ⟨h.selfless x hx, List.not_mem_nil⟩
    · by_cases hmulti : application.multiReplyAllowed = true
      · exact .inl hmulti
      · right
        intro x hx
        exact conflict?_eq_none_iff.2 (h.agreeing (by simpa using hmulti) x hx)

theorem KeepsToRules.of_perm (h : e.KeepsToRules application roster author scores)
    (hperm : scores.Perm scores') : e.KeepsToRules application roster author scores' where
  unsolved := h.unsolved
  registered := h.registered
  first := h.first
  few := by
    rw [← hperm.length_eq]
    exact h.few
  selfless := by
    intro x hx
    exact h.selfless x (hperm.mem_iff.2 hx)
  distinct := (hperm.map _).nodup_iff.1 h.distinct
  agreeing := by
    intro hsingle x hx
    exact h.agreeing hsingle x (hperm.mem_iff.2 hx)

/-- A reply is accepted with its scores in every order or in none. -/
theorem checkReply_eq_ok_iff_of_perm (hperm : scores.Perm scores') :
    e.checkReply application roster author scores = .ok () ↔
      e.checkReply application roster author scores' = .ok () := by
  rw [checkReply_eq_ok_iff_keepsToRules, checkReply_eq_ok_iff_keepsToRules]
  constructor
  · intro h
    exact h.of_perm hperm
  · intro h
    exact h.of_perm hperm.symm

/-- Replies of one author that give the same points to every account lead to the same ranking. -/
theorem ranking_reply_congr
    (hpoints : ∀ address, scoredPoints address scores = scoredPoints address scores')
    (now : Version) :
    (e.reply author scores now).ranking = (e.reply author scores' now).ranking := by
  by_cases hnew : e.hasReplied author = false
  · rw [reply_of_new hnew, reply_of_new hnew]
    apply ranking_eq_of_points
    intro author' address
    rw [OrderedMap.get?_insert, OrderedMap.get?_insert]
    by_cases hauthor : author' = author
    · rw [if_pos hauthor, if_pos hauthor, Option.map_some, Option.map_some, hpoints]
    · rw [if_neg hauthor, if_neg hauthor]
  · have hreplied : e.hasReplied author = true := by simpa using hnew
    rw [reply, reply, if_pos hreplied, if_pos hreplied]

end Event

/-! ## Commands -/

namespace State

open Event

variable {s t : State} {author : Address} {id : EventId} {scores scores' : List Score}
  {outcome : Outcome}

/-- With its scores in another order an accepted reply is accepted as well, has the same outcome,
and leads to a state that has the same reputations and rankings and differs in nothing but the
docket. -/
theorem apply_sendReply_of_perm (h : s.apply author (.sendReply id scores) = .ok (t, outcome))
    (hperm : scores.Perm scores') :
    ∃ t', s.apply author (.sendReply id scores') = .ok (t', outcome) ∧
      t' = { t with docket := t'.docket } ∧
      ∀ id', (t'.docket.get? id').map ranking = (t.docket.get? id').map ranking := by
  cases apply_eq_ok_iff.1 h with
  | @sendReply _ _ e application there known accepts =>
      have hdistinct := (checkReply_eq_ok_iff_keepsToRules.1 accepts).distinct
      have hpoints := scoredPoints_eq_of_perm hdistinct hperm
      have hcredited : s.roster.credited scores = s.roster.credited scores' := hperm.countP_eq _
      have haccepts := (checkReply_eq_ok_iff_of_perm hperm).1 accepts
      rw [Roster.creditAll_congr hpoints, hcredited]
      refine ⟨_, apply_eq_ok_iff.2 (.sendReply there known haccepts), rfl, ?_⟩
      intro id'
      simp only [Docket.get?, Docket.modify, OrderedMap.get?_modify]
      by_cases hid : id' = id
      · rw [if_pos hid, if_pos hid, Option.map_map, Option.map_map]
        congr 1
        funext e'
        exact (ranking_reply_congr hpoints _).symm
      · rw [if_neg hid, if_neg hid]

/-- A reply is accepted exactly if it keeps to the rules, and these do not mention the order of its
scores.  In every order of its scores it is accepted or in none, by the check and by the controller
in any state, and when it is accepted, the outcome, the reputations of all nodes and the rankings of
all events are the same in every order. -/
theorem replies_keep_to_rules_in_any_order (author : Address) (scores : List Score) :
    (∀ (e : Event) (application : Application) (roster : Roster),
      (e.checkReply application roster author scores = .ok () ↔
        e.KeepsToRules application roster author scores) ∧
      ∀ scores' : List Score, scores.Perm scores' →
        (e.checkReply application roster author scores = .ok () ↔
          e.checkReply application roster author scores' = .ok ())) ∧
    ∀ (s : State) (id : EventId) (scores' : List Score), scores.Perm scores' →
      ∀ t outcome, s.apply author (.sendReply id scores) = .ok (t, outcome) →
        ∃ t', s.apply author (.sendReply id scores') = .ok (t', outcome) ∧
          t' = { t with docket := t'.docket } ∧
          ∀ id', (t'.docket.get? id').map ranking = (t.docket.get? id').map ranking := by
  constructor
  · intro e application roster
    refine ⟨checkReply_eq_ok_iff_keepsToRules, ?_⟩
    intro scores' hperm
    exact checkReply_eq_ok_iff_of_perm hperm
  · intro s id scores' hperm t outcome haccepted
    exact apply_sendReply_of_perm haccepted hperm

/-- Three nodes, one of which has replied to an event whose replies have to agree. -/
def oneReply : List (Address × Command) :=
  [(.ofLow 1, .registerNode "s"), (.ofLow 2, .registerNode "s"), (.ofLow 3, .registerNode "s"),
    (.ofLow 1, .registerApplication "i" [] false), (.ofLow 1, .sendEvent "p" 1),
    (.ofLow 2, .sendReply 1 [⟨.ofLow 9, 3⟩, ⟨.ofLow 8, 1⟩])]

theorem replies_keep_to_rules_in_any_order_of_oneReply :
    ∃ t t', ((initial {}).run oneReply).apply (.ofLow 1)
        (.sendReply 1 [⟨.ofLow 9, 3⟩, ⟨.ofLow 3, 5⟩]) = .ok (t, .replyRecorded 1) ∧
      ((initial {}).run oneReply).apply (.ofLow 1)
        (.sendReply 1 [⟨.ofLow 3, 5⟩, ⟨.ofLow 9, 3⟩]) = .ok (t', .replyRecorded 1) ∧
      t' = { t with docket := t'.docket } ∧
      (t.docket.get? 1).map ranking =
        some [⟨.ofLow 9, 6, 2⟩, ⟨.ofLow 3, 5, 1⟩, ⟨.ofLow 8, 1, 1⟩] ∧
      (t'.docket.get? 1).map ranking = (t.docket.get? 1).map ranking := by
  obtain ⟨t, ht⟩ : ∃ t, ((initial {}).run oneReply).apply (.ofLow 1)
      (.sendReply 1 [⟨.ofLow 9, 3⟩, ⟨.ofLow 3, 5⟩]) = .ok (t, .replyRecorded 1) := ⟨_, rfl⟩
  have hscores : ((((initial {}).run oneReply).step
      (.ofLow 1, .sendReply 1 [⟨.ofLow 9, 3⟩, ⟨.ofLow 3, 5⟩])).docket.get? 1).map scores =
      some [⟨.ofLow 9, 3⟩, ⟨.ofLow 3, 5⟩, ⟨.ofLow 9, 3⟩, ⟨.ofLow 8, 1⟩] := by
    decide +kernel
  obtain ⟨-, hstates⟩ :=
    replies_keep_to_rules_in_any_order (.ofLow 1) [⟨.ofLow 9, 3⟩, ⟨.ofLow 3, 5⟩]
  obtain ⟨t', ht', hsame, hrankings⟩ := hstates ((initial {}).run oneReply) 1
    [⟨.ofLow 3, 5⟩, ⟨.ofLow 9, 3⟩] (by decide) t _ ht
  simp only [step, ht] at hscores
  obtain ⟨e, he, hscores⟩ := Option.map_eq_some_iff.1 hscores
  have hranking : e.ranking = [⟨.ofLow 9, 6, 2⟩, ⟨.ofLow 3, 5, 1⟩, ⟨.ofLow 8, 1, 1⟩] :=
    ranking_eq_of_perm hscores (by decide) (by decide)
  exact ⟨t, t', ht, ht', hsame, by rw [he, Option.map_some, hranking], hrankings 1⟩

end State

end Arbiter
