import Arbiter.Proofs.EventStep

/-!
# Events seen through a view

A view replaces the times, the replies and the closing of an event by others and leaves the rest.
Who replied, who voted for whom and who is elected can be told through any view, and so a vote or a
closing is checked and carried out through it as well as without it.  A reply is, as long as the
view keeps the scores or the application lets them disagree.
-/

namespace Arbiter

/-! ## Maps with other values -/

namespace OrderedMap

variable {κ : Type u} {α : Type v} {β : Type w} [Ord κ]

/-- The map of the same keys with every value replaced. -/
def mapValues (f : α → β) (m : OrderedMap κ α) : OrderedMap κ β where
  toList := m.toList.map fun b => (b.1, f b.2)
  ascending := List.pairwise_map.2 m.ascending

variable {m : OrderedMap κ α} {f : α → β}

@[simp]
theorem size_mapValues : (m.mapValues f).size = m.size :=
  List.length_map _

@[simp]
theorem values_mapValues : (m.mapValues f).values = m.values.map f := by
  simp [values, mapValues]

variable [Std.LawfulEqOrd κ] [DecidableEq κ]

theorem find?_map_values (k : κ) (bindings : List (κ × α)) :
    find? k (bindings.map fun b => (b.1, f b.2)) = (find? k bindings).map f := by
  induction bindings with
  | nil => rfl
  | cons b rest ih =>
      rw [List.map_cons, find?_cons, find?_cons]
      by_cases hk : k = b.1
      · rw [if_pos hk, if_pos hk, Option.map_some]
      · rw [if_neg hk, if_neg hk, ih]

@[simp]
theorem get?_mapValues (k : κ) : (m.mapValues f).get? k = (m.get? k).map f :=
  find?_map_values k m.toList

@[simp]
theorem contains_mapValues (k : κ) : (m.mapValues f).contains k = m.contains k := by
  simp [contains]

theorem mapValues_insert [Std.TransOrd κ] (k : κ) (v : α) :
    (m.insert k v).mapValues f = (m.mapValues f).insert k (f v) := by
  apply ext_get?
  intro k'
  simp only [get?_mapValues, get?_insert]
  split <;> rfl

/-- A change of a value is seen as a change of what is seen of it. -/
theorem mapValues_modify [Std.TransOrd κ] {k : κ} {g : α → α} {g' : β → β}
    (hg : ∀ v, m.get? k = some v → f (g v) = g' (f v)) :
    (m.modify k g).mapValues f = (m.mapValues f).modify k g' := by
  apply ext_get?
  intro k'
  simp only [get?_mapValues, get?_modify]
  split
  · cases hv : m.get? k with
    | none => rfl
    | some v => simp [hg v hv]
  · rfl

/-- A change that is not seen. -/
theorem mapValues_modify_of_same [Std.TransOrd κ] {k : κ} {g : α → α}
    (hg : ∀ v, f (g v) = f v) : (m.modify k g).mapValues f = m.mapValues f := by
  apply ext_get?
  intro k'
  simp only [get?_mapValues, get?_modify]
  by_cases hk : k' = k
  · rw [if_pos hk, hk, Option.map_map]
    congr 1
    funext v
    exact hg v
  · rw [if_neg hk]

theorem mapValues_congr [Std.TransOrd κ] {f' : α → β}
    (hf : ∀ k v, m.get? k = some v → f v = f' v) : m.mapValues f = m.mapValues f' := by
  apply ext_get?
  intro k
  simp only [get?_mapValues]
  cases hv : m.get? k with
  | none => rfl
  | some v => simp [hf k v hv]

end OrderedMap

/-! ## Checks that read the same -/

namespace Event

variable {e : Event} {policy : Policy} {roster roster' : Roster}
  {application application' : Application} {author voter caller : Address}
  {scores scores' : List Score}

/-- Of a list of scores only the targets decide whether it has a fault of its own. -/
theorem scoreFault?_congr {seen : List Address}
    (htargets : scores.map (·.target) = scores'.map (·.target)) :
    scoreFault? author seen scores = scoreFault? author seen scores' := by
  induction scores generalizing seen scores' with
  | nil =>
      obtain rfl := List.map_eq_nil_iff.1 htargets.symm
      rfl
  | cons s rest ih =>
      obtain ⟨s', rest', rfl⟩ : ∃ s' rest', scores' = s' :: rest' := by
        cases scores' with
        | nil => simp at htargets
        | cons s' rest' => exact ⟨s', rest', rfl⟩
      simp only [List.map_cons, List.cons.injEq] at htargets
      simp only [scoreFault?, htargets.1, ih htargets.2]

/-- A reply is checked with regard to whether its author is a node, how many nodes there are, the
targets of its scores, and their values only where replies have to agree. -/
theorem checkReply_congr (hnodes : roster.contains author = roster'.contains author)
    (hsize : roster.size = roster'.size)
    (hagree : application.multiReplyAllowed = application'.multiReplyAllowed)
    (htargets : scores.map (·.target) = scores'.map (·.target))
    (hvalues : application.multiReplyAllowed = true ∨ scores = scores') :
    e.checkReply application roster author scores =
      e.checkReply application' roster' author scores' := by
  have hlength : scores.length = scores'.length := by
    simpa using congrArg List.length htargets
  simp only [checkReply, hnodes, hsize, hlength, scoreFault?_congr htargets, ← hagree]
  rcases hvalues with hmulti | rfl
  · simp [hmulti]
  · rfl

theorem checkVote_congr (hnodes : roster.contains voter = roster'.contains voter) :
    e.checkVote policy roster voter = e.checkVote policy roster' voter := by
  simp only [checkVote, hnodes]

theorem checkSolve_congr (hnodes : roster.contains caller = roster'.contains caller)
    (hsize : roster.size = roster'.size) :
    e.checkSolve policy roster caller = e.checkSolve policy roster' caller := by
  have hadmits : ∀ solver, admits policy.solveAuthority roster caller solver =
      admits policy.solveAuthority roster' caller solver := by
    intro solver
    unfold admits
    split
    · rfl
    · exact hnodes
    · rfl
  simp only [checkSolve, hsize, hadmits]

/-! ## Views -/

/-- What is shown of an event in place of its times, its replies and its closing. -/
structure View where
  time : Version → Version
  reply : Reply → Reply
  closing : Resolution → Resolution

/-- The event seen through a view. -/
def through (view : View) (e : Event) : Event :=
  { e with
    createdAt := view.time e.createdAt
    replies := e.replies.mapValues view.reply
    resolution := e.resolution.map view.closing }

variable {view : View} {now now' : Version}

@[simp]
theorem id_through : (e.through view).id = e.id := rfl

@[simp]
theorem application_through : (e.through view).application = e.application := rfl

@[simp]
theorem electedSolver_through : (e.through view).electedSolver = e.electedSolver := rfl

@[simp]
theorem isSolved_through : (e.through view).isSolved = e.isSolved := by
  simp [isSolved, through]

@[simp]
theorem hasReplied_through : (e.through view).hasReplied author = e.hasReplied author := by
  simp [hasReplied, through]

@[simp]
theorem hasVoted_through : (e.through view).hasVoted voter = e.hasVoted voter := rfl

@[simp]
theorem replyList_through : (e.through view).replyList = e.replyList.map view.reply := by
  simp [replyList, through]

@[simp]
theorem checkVote_through :
    (e.through view).checkVote policy roster voter = e.checkVote policy roster voter := by
  have hcount : (e.through view).replies.size = e.replies.size := OrderedMap.size_mapValues
  simp only [checkVote, isSolved_through, hasVoted_through, id_through, hcount]

@[simp]
theorem checkSolve_through :
    (e.through view).checkSolve policy roster caller = e.checkSolve policy roster caller := by
  have hbest : (e.through view).bestCount = e.bestCount := rfl
  simp only [checkSolve, isSolved_through, electedSolver_through, id_through, hbest]

/-- A view keeps the scores of every reply. -/
def View.KeepsScores (view : View) : Prop :=
  ∀ r, (view.reply r).author = r.author ∧ (view.reply r).scores = r.scores

/-- The ranking of an event is made of its scores. -/
theorem ranking_through (hview : view.KeepsScores) : (e.through view).ranking = e.ranking := by
  have hscores : (e.through view).scores = e.scores := by
    rw [scores, scores, replyList_through, List.flatMap_map]
    congr 1
    funext r
    exact (hview r).2
  rw [ranking, ranking, hscores]

theorem conflict?_through (hview : view.KeepsScores) (s : Score) :
    conflict? (e.through view).replyList s = conflict? e.replyList s := by
  rw [replyList_through, conflict?, conflict?, List.findSome?_map]
  congr 1
  funext r
  obtain ⟨hauthor, hscores⟩ := hview r
  simp [Reply.scoreFor, hauthor, hscores]

theorem checkReply_through (hview : application.multiReplyAllowed = true ∨ view.KeepsScores) :
    (e.through view).checkReply application roster author scores =
      e.checkReply application roster author scores := by
  simp only [checkReply, isSolved_through, hasReplied_through, id_through]
  rcases hview with hmulti | hkeeps
  · simp [hmulti]
  · have hconflict : conflict? (e.through view).replyList = conflict? e.replyList := by
      funext s
      exact conflict?_through hkeeps s
    rw [hconflict]

@[simp]
theorem electedBy_through {candidate : Address} {registered : Nat} :
    (e.through view).electedBy voter candidate registered =
      e.electedBy voter candidate registered := rfl

/-! ### What is carried out -/

theorem through_vote {candidate : Address} {registered : Nat} :
    (e.vote voter candidate registered).through view =
      (e.through view).vote voter candidate registered := rfl

theorem through_reply
    (hshown : view.reply ⟨author, scores, now⟩ = ⟨author, scores', now'⟩) :
    (e.reply author scores now).through view =
      (e.through view).reply author scores' now' := by
  by_cases hreplied : e.hasReplied author = true
  · have hreplied' : (e.through view).hasReplied author = true := by simpa using hreplied
    rw [reply, if_pos hreplied, reply, if_pos hreplied']
  · have hnew : e.hasReplied author = false := by simpa using hreplied
    have hnew' : (e.through view).hasReplied author = false := by simpa using hnew
    rw [reply_of_new hnew, reply_of_new hnew']
    simp only [through, OrderedMap.mapValues_insert, hshown]

theorem through_solve {solver : Address}
    (hshown : view.closing ⟨solver, caller, now, e.ranking⟩ =
      ⟨solver, caller, now', (e.through view).ranking⟩) :
    (e.solve solver caller now).through view =
      (e.through view).solve solver caller now' := by
  unfold solve
  cases hclosing : e.resolution with
  | none => simpa [through, hclosing] using hshown
  | some c => simp [through, hclosing]

end Event

end Arbiter
