import Arbiter.Proofs.Answers
import Arbiter.Proofs.Chronology
import Arbiter.Proofs.Rankings

/-!
# Reputation decides nothing

Where an application lets replies disagree, the points of a reply are stored, added up in the
reputations of nodes and in rankings, and kept when the event is closed, and nothing else is done
with them.  Two runs whose replies give other points to the same targets get the same answers and
end in states that differ in points only.
-/

namespace Arbiter

/-! ## Rankings without points -/

/-- The score without its points. -/
def Score.pointless (s : Score) : Score :=
  { s with value := 0 }

/-- The reply without the points of its scores. -/
def Reply.pointless (r : Reply) : Reply :=
  { r with scores := r.scores.map Score.pointless }

/-- The standing without its points. -/
def Standing.pointless (s : Standing) : Standing :=
  { s with total := 0 }

/-- The record of a closing without points, its standings in address order. -/
def Resolution.pointless (c : Resolution) : Resolution :=
  { c with standings := (c.standings.map Standing.pointless).mergeSort Standing.before }

/-- The node without its reputation. -/
def Node.pointless (n : Node) : Node :=
  { n with reputation := 0 }

theorem map_pointless_eq_iff {scores scores' : List Score} :
    scores.map Score.pointless = scores'.map Score.pointless ↔
      scores.map (·.target) = scores'.map (·.target) := by
  have hscore : ∀ list : List Score,
      list.map Score.pointless = (list.map (·.target)).map (Score.mk · 0) := by
    intro list
    rw [List.map_map]
    rfl
  rw [hscore, hscore, List.map_inj_right]
  intro target target' heq
  exact congrArg Score.target heq

theorem addScore_pointless (sums : OrderedMap Address (Int × Nat)) (score : Score) :
    addScore (sums.mapValues fun sum => (0, sum.2)) score.pointless =
      (addScore sums score).mapValues fun sum => (0, sum.2) := by
  simp only [addScore, OrderedMap.mapValues_insert, OrderedMap.get?_mapValues, Score.pointless]
  cases sums.get? score.target <;> rfl

theorem foldl_addScore_pointless (sums : OrderedMap Address (Int × Nat)) (scores : List Score) :
    (scores.map Score.pointless).foldl addScore (sums.mapValues fun sum => (0, sum.2)) =
      (scores.foldl addScore sums).mapValues fun sum => (0, sum.2) := by
  induction scores generalizing sums with
  | nil => rfl
  | cons score scores ih =>
      rw [List.map_cons, List.foldl_cons, List.foldl_cons, addScore_pointless]
      exact ih _

namespace Event

variable {e : Event}

/-- All of an event is seen. -/
def View.whole : View := ⟨fun t => t, fun r => r, fun c => c⟩

/-- All of an event is seen but points. -/
def View.pointless : View := ⟨fun t => t, Reply.pointless, Resolution.pointless⟩

@[simp]
theorem through_whole : e.through .whole = e := by
  have hreplies : e.replies.mapValues (fun r => r) = e.replies := by
    apply OrderedMap.ext_get?
    intro author
    simp
  simp [through, hreplies, View.whole]

theorem keepsScores_whole : View.whole.KeepsScores :=
  fun _ => ⟨rfl, rfl⟩

theorem application_reply (e : Event) (author : Address) (scores : List Score) (now : Version) :
    (e.reply author scores now).application = e.application := by
  unfold reply
  split <;> rfl

theorem scores_through_pointless :
    (e.through .pointless).scores = e.scores.map Score.pointless := by
  rw [scores, scores, replyList_through, List.map_flatMap, List.flatMap_map]
  rfl

/-- An event without points has the ranking that its points leave without them. -/
theorem ranking_through_pointless :
    (e.through .pointless).ranking =
      (e.ranking.map Standing.pointless).mergeSort Standing.before := by
  -- the standings in address order, with and without points
  let standings : List Standing := (e.scores.foldl addScore .empty).toList.map Standing.ofSum
  have hpointless : (e.through .pointless).ranking =
      (standings.map Standing.pointless).mergeSort Standing.before := by
    have hsums : (e.through .pointless).scores.foldl addScore .empty =
        (e.scores.foldl addScore .empty).mapValues fun sum => (0, sum.2) := by
      rw [scores_through_pointless]
      exact foldl_addScore_pointless .empty e.scores
    simp only [ranking_eq, hsums, OrderedMap.mapValues, List.map_map, standings]
    rfl
  have hdistinct : ((standings.map Standing.pointless).map (·.address)).Nodup := by
    rw [List.map_map]
    exact Standing.nodup_ofSum _
  rw [hpointless, ranking_eq]
  exact Standing.mergeSort_eq_of_perm ((List.mergeSort_perm ..).symm.map _) hdistinct

end Event

/-! ## Rosters without reputations -/

namespace Roster

/-- The roster without reputations. -/
def pointless (r : Roster) : Roster where
  nodes := r.nodes.mapValues Node.pointless

@[simp]
theorem contains_pointless (r : Roster) (address : Address) :
    r.pointless.contains address = r.contains address :=
  OrderedMap.contains_mapValues address

theorem pointless_register (r : Roster) (address : Address) (spec : String) (now : Version) :
    (r.register address spec now).pointless = r.pointless.register address spec now := by
  unfold register
  rw [contains_pointless]
  by_cases hknown : r.contains address = true
  · rw [if_pos hknown, if_pos hknown]
    simp only [pointless, mk.injEq]
    apply OrderedMap.mapValues_modify
    intro n _
    rfl
  · rw [if_neg hknown, if_neg hknown]
    simp only [pointless, OrderedMap.mapValues_insert]
    rfl

theorem pointless_creditAll (r : Roster) (scores : List Score) :
    (r.creditAll scores).pointless = r.pointless := by
  induction scores generalizing r with
  | nil => rfl
  | cons score scores ih =>
      refine (ih (r.credit score)).trans ?_
      simp only [pointless, credit, mk.injEq]
      apply OrderedMap.mapValues_modify_of_same
      intro n
      rfl

end Roster

/-! ## Dockets without points -/

namespace Catalog

variable {c : Catalog} {number : ApplicationId}

/-- How events of an application are seen: without points if replies to them may disagree. -/
def view (c : Catalog) (number : ApplicationId) : Event.View :=
  if c.lenient number then .pointless else .whole

/-- How scores for events of an application are seen. -/
def viewScores (c : Catalog) (number : ApplicationId) (scores : List Score) : List Score :=
  if c.lenient number then scores.map Score.pointless else scores

theorem view_reply (c : Catalog) (number : ApplicationId) (author : Address)
    (scores : List Score) (now : Version) :
    (c.view number).reply ⟨author, scores, now⟩ = ⟨author, c.viewScores number scores, now⟩ := by
  unfold view viewScores
  split <;> rfl

theorem view_closing (c : Catalog) (number : ApplicationId) (e : Event) (solver caller : Address)
    (now : Version) :
    (c.view number).closing ⟨solver, caller, now, e.ranking⟩ =
      ⟨solver, caller, now, (e.through (c.view number)).ranking⟩ := by
  unfold view
  split
  · rw [Event.ranking_through_pointless]
    rfl
  · rw [Event.through_whole]
    rfl

end Catalog

namespace Docket

variable {d : Docket} {c : Catalog} {id : EventId} {e : Event} {caller : Address} {now : Version}

/-- The docket without the points of events whose applications let replies disagree. -/
def pointless (d : Docket) (c : Catalog) : Docket :=
  { d with events := d.events.mapValues fun e => e.through (c.view e.application) }

theorem get?_pointless (d : Docket) (c : Catalog) (id : EventId) :
    (d.pointless c).get? id = (d.get? id).map fun e => e.through (c.view e.application) :=
  OrderedMap.get?_mapValues id

theorem pointless_enter (d : Docket) (c : Catalog) (application : ApplicationId)
    (payload : String) (sender : Address) (now : Version) :
    (d.enter application payload sender now).pointless c =
      (d.pointless c).enter application payload sender now := by
  have hfresh : (Event.fresh d.nextId application payload sender now).through
      (c.view application) = .fresh d.nextId application payload sender now := by
    unfold Catalog.view
    split <;> rfl
  simp only [pointless, enter, OrderedMap.mapValues_insert, nextId] at hfresh ⊢
  exact congrArg (Docket.mk · _) (congrArg _ hfresh)

theorem pointless_modify {f f' : Event → Event}
    (hf : ∀ e, d.get? id = some e → (f e).application = e.application ∧
      (f e).through (c.view e.application) = f' (e.through (c.view e.application))) :
    (d.modify id f).pointless c = (d.pointless c).modify id f' := by
  simp only [pointless, modify, mk.injEq, and_true]
  apply OrderedMap.mapValues_modify
  intro e he
  obtain ⟨happlication, hsame⟩ := hf e he
  rw [happlication, hsame]

theorem pointless_reply (he : d.get? id = some e) (scores : List Score) :
    (d.modify id (·.reply caller scores now)).pointless c =
      (d.pointless c).modify id (·.reply caller (c.viewScores e.application scores) now) := by
  apply pointless_modify
  intro e' he'
  obtain rfl := Option.some.inj (he.symm.trans he')
  exact ⟨e.application_reply .., Event.through_reply (c.view_reply ..)⟩

theorem pointless_vote {candidate : Address} {registered : Nat} :
    (d.modify id (·.vote caller candidate registered)).pointless c =
      (d.pointless c).modify id (·.vote caller candidate registered) :=
  pointless_modify fun _ _ => ⟨rfl, rfl⟩

theorem pointless_solve {solver : Address} :
    (d.modify id (·.solve solver caller now)).pointless c =
      (d.pointless c).modify id (·.solve solver caller now) :=
  pointless_modify fun _ _ => ⟨rfl, Event.through_solve (c.view_closing ..)⟩

/-- With more applications an event is seen as before, if its application was there. -/
theorem pointless_congr {c' : Catalog}
    (hevents : ∀ {id : EventId} {e : Event}, d.get? id = some e →
      c.get? e.application = c'.get? e.application) :
    d.pointless c = d.pointless c' := by
  simp only [pointless, mk.injEq, and_true]
  apply OrderedMap.mapValues_congr
  intro id e he
  have hlenient : c.lenient e.application = c'.lenient e.application := by
    rw [Catalog.lenient, Catalog.lenient, hevents he]
  rw [Catalog.view, Catalog.view, hlenient]

end Docket

/-! ## States without points -/

namespace State

open Event

variable {policy : Policy} {s s' t t' : State} {caller : Address} {command command' : Command}
  {outcome outcome' : Outcome} {id : EventId} {e : Event} {scores scores' : List Score}

/-- The state without reputations, and without the points of events whose applications let replies
disagree. -/
def pointless (s : State) : State :=
  { s with
    roster := s.roster.pointless
    docket := s.docket.pointless s.catalog }

theorem pointless_eq_iff :
    s.pointless = t.pointless ↔ s.version = t.version ∧ s.policy = t.policy ∧
      s.roster.pointless = t.roster.pointless ∧ s.catalog = t.catalog ∧
        s.docket.pointless s.catalog = t.docket.pointless t.catalog :=
  iff_of_eq (mk.injEq ..)

theorem contains_eq_of_pointless (h : s.pointless = t.pointless) (address : Address) :
    s.roster.contains address = t.roster.contains address := by
  obtain ⟨-, -, hroster, -⟩ := pointless_eq_iff.1 h
  rw [← Roster.contains_pointless, hroster, Roster.contains_pointless]

theorem event_eq_of_pointless (h : s.pointless = t.pointless) (he : s.docket.get? id = some e) :
    ∃ e', t.docket.get? id = some e' ∧ e.application = e'.application ∧
      e.through (s.catalog.view e.application) = e'.through (s.catalog.view e.application) := by
  obtain ⟨-, -, -, hcatalog, hdocket⟩ := pointless_eq_iff.1 h
  have hget := congrArg (·.get? id) hdocket
  simp only [Docket.get?_pointless, he, Option.map_some] at hget
  obtain ⟨e', he', hsame⟩ := Option.map_eq_some_iff.1 hget.symm
  have happlication : e'.application = e.application := by
    simpa using congrArg (fun seen : Event => seen.application) hsame
  rw [← hcatalog, happlication] at hsame
  exact ⟨e', he', happlication.symm, hsame.symm⟩

/-- States that differ in points agree on all that decides how a command is answered. -/
theorem exists_alikeFor (h : s.pointless = t.pointless) (id : EventId) :
    ∃ view, AlikeFor view id s t ∧ (s.lenient id = true ∨ view.KeepsScores) := by
  obtain ⟨-, hpolicy, -, hcatalog, hdocket⟩ := pointless_eq_iff.1 h
  have hget := congrArg (·.get? id) hdocket
  have halike : ∀ view, (s.docket.get? id).map (through view) =
      (t.docket.get? id).map (through view) → AlikeFor view id s t := by
    intro view hevent
    exact ⟨hpolicy, contains_eq_of_pointless h, congrArg Catalog.lastId hcatalog,
      fun number => by rw [hcatalog], congrArg (·.lastId) hdocket, hevent⟩
  cases he : s.docket.get? id with
  | none =>
      simp only [Docket.get?_pointless, he, Option.map_none] at hget
      have he' : t.docket.get? id = none := Option.map_eq_none_iff.1 hget.symm
      refine ⟨.pointless, halike _ (by rw [he, he']), .inl ?_⟩
      simp [lenient, he]
  | some e =>
      obtain ⟨e', he', -, hsame⟩ := event_eq_of_pointless h he
      -- the scores are hidden only where the check of a reply does not read them
      refine ⟨s.catalog.view e.application, halike _ (by rw [he, he']; simp [hsame]), ?_⟩
      by_cases hlenient : s.catalog.lenient e.application = true
      · left
        simpa [lenient, he] using hlenient
      · right
        rw [Catalog.view, if_neg hlenient]
        exact keepsScores_whole

/-- Registering an application shows events as before. -/
theorem pointless_docket_register (hs : Reachable policy s) (info : String)
    (requiredSpecs : List String) (multiReplyAllowed : Bool) (owner : Address) (now : Version) :
    s.docket.pointless (s.catalog.register info requiredSpecs multiReplyAllowed owner now) =
      s.docket.pointless s.catalog := by
  have hfresh := OrderedMap.get?_eq_none_iff.1 hs.numbered.nextApplication_fresh
  apply Docket.pointless_congr
  intro id e he
  obtain ⟨a, ha, -⟩ := (hs.proper.events he).application
  rw [ha]
  exact OrderedMap.get?_insert_of_fresh hfresh ha

theorem viewScores_eq (hcommand : s.SameUpToPoints (.sendReply id scores) (.sendReply id scores'))
    (he : s.docket.get? id = some e) :
    s.catalog.viewScores e.application scores = s.catalog.viewScores e.application scores' := by
  cases hcommand with
  | same => rfl
  | reply free targets =>
      have hlenient : s.catalog.lenient e.application = true := by
        simpa [lenient, he] using free
      rw [Catalog.viewScores, Catalog.viewScores, if_pos hlenient, if_pos hlenient]
      exact map_pointless_eq_iff.2 targets

/-- Commands that are the same up to points keep two states the same up to points. -/
theorem Accepted.pointless_eq (h : Accepted s caller command s' outcome)
    (h' : Accepted t caller command' t' outcome') (houtcome : outcome = outcome')
    (hs : Reachable policy s) (ht : Reachable policy t) (hsame : s.pointless = t.pointless)
    (hcommand : s.SameUpToPoints command command') : s'.pointless = t'.pointless := by
  obtain ⟨hversion, hpolicy, hroster, hcatalog, hdocket⟩ := pointless_eq_iff.1 hsame
  have hsize : s.roster.size = t.roster.size := by
    obtain ⟨view, halike, -⟩ := exists_alikeFor hsame 0
    exact halike.size_eq
  rw [pointless_eq_iff]
  cases h with
  | registerNode =>
      cases hcommand
      cases h'
      refine ⟨by rw [hversion], hpolicy, ?_, hcatalog, hdocket⟩
      rw [Roster.pointless_register, Roster.pointless_register, hroster, hversion]
  | registerApplication =>
      cases hcommand
      cases h'
      refine ⟨by rw [hversion], hpolicy, hroster, by rw [hcatalog, hversion], ?_⟩
      simp only [pointless_docket_register hs, pointless_docket_register ht, hdocket]
  | sendEvent =>
      cases hcommand
      cases h'
      refine ⟨by rw [hversion], hpolicy, hroster, hcatalog, ?_⟩
      simp only [Docket.pointless_enter, hdocket, hversion]
  | @sendReply id scores e _ there =>
      obtain ⟨scores', rfl⟩ : ∃ scores', command' = .sendReply id scores' := by
        cases hcommand with
        | same => exact ⟨scores, rfl⟩
        | @reply _ _ scores' => exact ⟨scores', rfl⟩
      -- where the scores differ, both dockets are seen without their points
      have hscores := viewScores_eq hcommand there
      obtain ⟨e', there', happlication, -⟩ := event_eq_of_pointless hsame there
      rw [happlication] at hscores
      cases h' with
      | sendReply =>
          refine ⟨by rw [hversion], hpolicy, ?_, hcatalog, ?_⟩
          · simp only [Roster.pointless_creditAll, hroster]
          · simp only [Docket.pointless_reply there, Docket.pointless_reply there', hdocket,
              happlication, hscores, hversion, ← hcatalog]
  | voteSolver =>
      cases hcommand
      cases h'
      refine ⟨by rw [hversion], hpolicy, hroster, hcatalog, ?_⟩
      simp only [Docket.pointless_vote, hdocket, hsize]
  | solveEvent =>
      cases hcommand
      cases h'
      obtain rfl := Outcome.eventSolved.inj houtcome
      refine ⟨by rw [hversion], hpolicy, hroster, hcatalog, ?_⟩
      simp only [Docket.pointless_solve, hdocket, hversion]

/-! ## Runs -/

/-- Two lists of commands, of which the first is run from a state, have the same callers and the
same commands up to the points of replies to events whose applications let replies disagree. -/
inductive AgreeUpToPoints : State → List (Address × Command) → List (Address × Command) → Prop
  | nil {s : State} : AgreeUpToPoints s [] []
  | cons {s : State} {caller : Address} {command command' : Command}
      {rest rest' : List (Address × Command)} (first : s.SameUpToPoints command command')
      (later : AgreeUpToPoints (s.step (caller, command)) rest rest') :
      AgreeUpToPoints s ((caller, command) :: rest) ((caller, command') :: rest')

theorem answer_eq_of_pointless (hsame : s.pointless = t.pointless)
    (hcommand : s.SameUpToPoints command command') :
    s.answer (caller, command) = t.answer (caller, command') := by
  cases hid : command.event? with
  | none =>
      obtain ⟨view, halike, hview⟩ := exists_alikeFor hsame 0
      exact halike.answer_eq hview (.inl hid) hcommand
  | some id =>
      obtain ⟨view, halike, hview⟩ := exists_alikeFor hsame id
      exact halike.answer_eq hview (.inr hid) hcommand

theorem step_pointless_eq (hs : Reachable policy s) (ht : Reachable policy t)
    (hsame : s.pointless = t.pointless) (hcommand : s.SameUpToPoints command command') :
    (s.step (caller, command)).pointless = (t.step (caller, command')).pointless := by
  have hanswer : s.answer (caller, command) = t.answer (caller, command') :=
    answer_eq_of_pointless hsame hcommand
  rcases steps_of_answer_eq hanswer with ⟨hstep, hstep'⟩ | ⟨outcome, haccepted, haccepted'⟩
  · rw [hstep, hstep', hsame]
  · exact haccepted.pointless_eq haccepted' rfl hs ht hsame hcommand

theorem run_pointless_eq {commands commands' : List (Address × Command)}
    (h : AgreeUpToPoints s commands commands') (hs : Reachable policy s)
    (ht : Reachable policy t) (hsame : s.pointless = t.pointless) :
    (s.transcript commands).map (·.2) = (t.transcript commands').map (·.2) ∧
      (s.run commands).pointless = (t.run commands').pointless := by
  induction h generalizing t with
  | nil => exact ⟨rfl, hsame⟩
  | cons first later ih =>
      obtain ⟨hanswers, hend⟩ := ih (hs.step _) (ht.step _) (step_pointless_eq hs ht hsame first)
      refine ⟨?_, hend⟩
      simp only [transcript, List.map_cons]
      rw [answer_eq_of_pointless hsame first, hanswers]

/-- Of two runs whose commands are the same up to the points of replies that may disagree, every
command is given the same answer, and the states they end in are the same up to such points, to
reputations, and to the totals and the order of the rankings kept with such events. -/
theorem reputation_decides_nothing (policy : Policy) {commands commands' : List (Address × Command)}
    (h : AgreeUpToPoints (initial policy) commands commands') :
    ((initial policy).transcript commands).map (·.2) =
        ((initial policy).transcript commands').map (·.2) ∧
      ((initial policy).run commands).pointless = ((initial policy).run commands').pointless :=
  run_pointless_eq h (reachable_run policy []) (reachable_run policy []) rfl

/-- Two of three nodes reply and vote, and the event is closed; the first reply gives some points to
one of its targets. -/
def scoredWith (points : Int) : List (Address × Command) :=
  [(.ofLow 1, .registerNode "s"), (.ofLow 2, .registerNode "s"), (.ofLow 3, .registerNode "s"),
    (.ofLow 1, .registerApplication "i" [] true), (.ofLow 1, .sendEvent "p" 1),
    (.ofLow 1, .sendReply 1 [⟨.ofLow 2, points⟩, ⟨.ofLow 3, 1⟩]),
    (.ofLow 2, .sendReply 1 [⟨.ofLow 3, 4⟩]), (.ofLow 1, .voteSolver 1 (.ofLow 2)),
    (.ofLow 2, .voteSolver 1 (.ofLow 2)), (.ofLow 3, .solveEvent 1)]

theorem reputation_decides_nothing_of_scoredWith :
    (initial {}).run (scoredWith 7) ≠ (initial {}).run (scoredWith (-7)) ∧
      ((initial {}).transcript (scoredWith 7)).map (·.2) =
        ((initial {}).transcript (scoredWith (-7))).map (·.2) ∧
      ((initial {}).run (scoredWith 7)).pointless =
        ((initial {}).run (scoredWith (-7))).pointless := by
  have hagree : AgreeUpToPoints (initial {}) (scoredWith 7) (scoredWith (-7)) := by
    refine .cons .same (.cons .same (.cons .same (.cons .same (.cons .same (.cons ?_ ?_)))))
    · exact .reply (by decide +kernel) rfl
    · exact .cons .same (.cons .same (.cons .same (.cons .same .nil)))
  exact ⟨by decide +kernel, reputation_decides_nothing {} hagree⟩

end State

end Arbiter
