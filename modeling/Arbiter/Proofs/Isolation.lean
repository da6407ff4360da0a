import Arbiter.Proofs.Answers
import Arbiter.Proofs.Projection

/-!
# Events do not influence each other

The replies, votes and closings of other events move the version on and change reputations, and
that is all an event notices of them.  Run without them, the remaining commands get the answers that
they get with them, and the event collects the same in the same order, only at other times.
-/

namespace Arbiter

/-- Whether a command names no event but the given one. -/
def Command.concerns (id : EventId) (command : Command) : Bool :=
  command.event?.all (· == id)

theorem Command.concerns_iff {id : EventId} {command : Command} :
    command.concerns id = true ↔ command.event? = none ∨ command.event? = some id := by
  unfold concerns
  cases command.event? <;> simp

namespace Event

variable {e : Event}

/-- All of an event is seen but times. -/
def View.undated : View where
  time _ := 0
  reply r := { r with submittedAt := 0 }
  closing c := { c with solvedAt := 0 }

theorem keepsScores_undated : View.undated.KeepsScores :=
  fun _ => ⟨rfl, rfl⟩

/-- Who replied with which scores, in the order in which the replies were accepted. -/
def replyOrder (e : Event) : List (Address × List Score) :=
  e.repliesInOrder.map fun r => (r.author, r.scores)

end Event

namespace State

open Event

variable {policy : Policy} {s s' t t' : State} {caller : Address} {command : Command}
  {outcome outcome' : Outcome} {id id' : EventId} {e e' : Event}

/-- Two states agree on an event, up to times, and on all that decides how commands on it are
answered. -/
structure AgreeOn (id : EventId) (s t : State) : Prop extends AlikeFor .undated id s t where
  order : (s.docket.get? id).map replyOrder = (t.docket.get? id).map replyOrder

theorem AgreeOn.refl (id : EventId) (s : State) : AgreeOn id s s :=
  ⟨⟨rfl, fun _ => rfl, rfl, fun _ => rfl, rfl, rfl⟩, rfl⟩

/-! ## Commands on other events -/

/-- A command on an event changes that event and, but for reputations, nothing else. -/
theorem Accepted.modifies (h : Accepted s caller command s' outcome)
    (hid : command.event? = some id) :
    ∃ f, s'.docket = s.docket.modify id f ∧ s'.catalog = s.catalog ∧
      ∀ address, s'.roster.contains address = s.roster.contains address := by
  cases h with
  | registerNode => simp [Command.event?] at hid
  | registerApplication => simp [Command.event?] at hid
  | sendEvent => simp [Command.event?] at hid
  | sendReply =>
      obtain rfl := Option.some.inj hid
      exact ⟨_, rfl, rfl, contains_creditAll _ _⟩
  | voteSolver =>
      obtain rfl := Option.some.inj hid
      exact ⟨_, rfl, rfl, fun _ => rfl⟩
  | solveEvent =>
      obtain rfl := Option.some.inj hid
      exact ⟨_, rfl, rfl, fun _ => rfl⟩

/-- A command on another event leaves the agreement as it is. -/
theorem AgreeOn.step_elsewhere (h : AgreeOn id s t) {c : Address × Command}
    (hc : c.2.concerns id = false) : AgreeOn id (s.step c) t := by
  obtain ⟨id', hid, hne⟩ : ∃ id', c.2.event? = some id' ∧ id ≠ id' := by
    unfold Command.concerns at hc
    cases hid : c.2.event? with
    | none => simp [hid] at hc
    | some id' =>
        have hne : id' ≠ id := by simpa [hid] using hc
        exact ⟨id', rfl, hne.symm⟩
  rcases s.step_cases c with hsame | ⟨outcome, haccepted⟩
  · rwa [hsame]
  · obtain ⟨f, hdocket, hcatalog, hnodes⟩ := haccepted.modifies hid
    have hevent : (s.step c).docket.get? id = s.docket.get? id := by
      rw [hdocket]
      exact Accepted.get?_modify_of_ne hne
    refine ⟨⟨?_, ?_, ?_, ?_, ?_, ?_⟩, ?_⟩
    · exact haccepted.policy_eq.trans h.policy
    · intro address
      exact (hnodes address).trans (h.nodes address)
    · rw [hcatalog, h.lastApplication]
    · intro number
      rw [hcatalog, h.applications]
    · rw [hdocket]
      exact h.lastEvent
    · rw [hevent, h.event]
    · rw [hevent, h.order]

/-! ## Commands on the event and commands on none -/

/-- An accepted command adds its reply behind those that were accepted before. -/
theorem Accepted.repliesInOrder_append (h : Accepted s caller command s' outcome)
    (hs : Reachable policy s) (he : s.docket.get? id = some e)
    (he' : s'.docket.get? id = some e') :
    e'.repliesInOrder = e.repliesInOrder ++
      ((Entry.mk (s.version + 1) caller command).replyTo? id).toList := by
  obtain ⟨entries, htrail⟩ := hs
  rw [htrail.projectionOf.replies he, (htrail.accept h).projectionOf.replies he',
    filterMap_concat]

theorem Accepted.replyOrder_append (h : Accepted s caller command s' outcome)
    (hs : Reachable policy s) (he : s.docket.get? id = some e)
    (he' : s'.docket.get? id = some e') :
    e'.replyOrder = e.replyOrder ++
      ((Entry.mk 0 caller command).replyTo? id).toList.map fun r => (r.author, r.scores) := by
  have hreply : ((Entry.mk (s.version + 1) caller command).replyTo? id).toList.map
        (fun r => (r.author, r.scores)) =
      ((Entry.mk 0 caller command).replyTo? id).toList.map fun r => (r.author, r.scores) := by
    unfold Entry.replyTo?
    cases command with
    | sendReply id' scores => by_cases hid : id' = id <;> simp [hid]
    | _ => rfl
  rw [Event.replyOrder, h.repliesInOrder_append hs he he', List.map_append, hreply]
  rfl

theorem get?_enter (d : Docket) (application : ApplicationId) (payload : String)
    (sender : Address) (now : Version) (id : EventId) :
    (d.enter application payload sender now).get? id =
      if id = d.nextId then some (.fresh d.nextId application payload sender now)
      else d.get? id :=
  OrderedMap.get?_insert ..

/-- Changes of an event that are seen as the same change. -/
theorem AgreeOn.modify_eq (h : AgreeOn id s t) {f f' : Event → Event} (g : Event → Event)
    (hf : ∀ e, (f e).through .undated = g (e.through .undated))
    (hf' : ∀ e, (f' e).through .undated = g (e.through .undated)) :
    ((s.docket.modify id f).get? id).map (through .undated) =
      ((t.docket.modify id f').get? id).map (through .undated) := by
  rcases h.event_cases with ⟨he, he'⟩ | ⟨e, e', he, he', hsame⟩
  · have hnone : ∀ {d : Docket} (f : Event → Event), d.get? id = none →
        (d.modify id f).get? id = none := by
      intro d f hd
      have hd' : d.events.get? id = none := hd
      simp [Docket.get?, Docket.modify, OrderedMap.get?_modify, hd']
    rw [hnone f he, hnone f' he']
  · rw [Accepted.get?_modify_self he, Accepted.get?_modify_self he', Option.map_some,
      Option.map_some, hf, hf', hsame]

/-- The same command, accepted in two states that agree on an event, does the same to the event. -/
theorem Accepted.event_eq (h : Accepted s caller command s' outcome)
    (h' : Accepted t caller command t' outcome') (houtcome : outcome = outcome')
    (hagree : AgreeOn id s t) (hcommand : command.concerns id = true) :
    (s'.docket.get? id).map (through .undated) = (t'.docket.get? id).map (through .undated) := by
  have hevent := hagree.event
  cases h with
  | registerNode =>
      cases h'
      exact hevent
  | registerApplication =>
      cases h'
      exact hevent
  | sendEvent =>
      cases h'
      have hnext : s.docket.nextId = t.docket.nextId := congrArg (· + 1) hagree.lastEvent
      rw [get?_enter, get?_enter, hnext]
      split
      · rfl
      · exact hevent
  | @sendReply id' scores =>
      cases h'
      obtain rfl : id' = id := by simpa [Command.concerns, Command.event?] using hcommand
      -- the two states have different versions, which the view hides
      have hreply : ∀ now e, (Event.reply e caller scores now).through .undated =
          (e.through .undated).reply caller scores 0 := fun _ _ => through_reply rfl
      exact hagree.modify_eq (·.reply caller scores 0) (hreply _) (hreply _)
  | @voteSolver id' candidate =>
      cases h'
      obtain rfl : id' = id := by simpa [Command.concerns, Command.event?] using hcommand
      have hvote : ∀ e, (Event.vote e caller candidate t.roster.size).through .undated =
          (e.through .undated).vote caller candidate t.roster.size := fun _ => through_vote
      rw [hagree.size_eq]
      exact hagree.modify_eq (·.vote caller candidate t.roster.size) hvote hvote
  | @solveEvent id' e solver =>
      cases h'
      obtain rfl : id' = id := by simpa [Command.concerns, Command.event?] using hcommand
      obtain rfl := Outcome.eventSolved.inj houtcome
      have hsolve : ∀ now e, (Event.solve e solver caller now).through .undated =
          (e.through .undated).solve solver caller 0 := by
        intro now e
        apply through_solve
        rw [ranking_through keepsScores_undated]
        rfl
      exact hagree.modify_eq (·.solve solver caller 0) (hsolve _) (hsolve _)

theorem Accepted.order_eq (h : Accepted s caller command s' outcome)
    (h' : Accepted t caller command t' outcome') (hs : Reachable policy s)
    (ht : Reachable policy t) (hagree : AgreeOn id s t)
    (hevent : (s'.docket.get? id).map (through .undated) =
      (t'.docket.get? id).map (through .undated)) :
    (s'.docket.get? id).map replyOrder = (t'.docket.get? id).map replyOrder := by
  rcases hagree.event_cases with ⟨he, he'⟩ | ⟨e, e', he, he', -⟩
  · -- the command sends the event, in both states or in neither
    cases he₁ : s'.docket.get? id with
    | none =>
        rw [he₁, Option.map_none] at hevent
        rw [Option.map_eq_none_iff.1 hevent.symm]
    | some e₁ =>
        rw [he₁, Option.map_some] at hevent
        obtain ⟨e₁', he₁', -⟩ := Option.map_eq_some_iff.1 hevent.symm
        obtain ⟨_, _, -, -, -, hsent⟩ := h.event_fresh he he₁
        obtain ⟨_, _, -, -, -, hsent'⟩ := h'.event_fresh he' he₁'
        rw [he₁', hsent, hsent']
        rfl
  · obtain ⟨e₁, he₁, -⟩ := h.event_step hs.numbered he
    obtain ⟨e₁', he₁', -⟩ := h'.event_step ht.numbered he'
    have horder := hagree.order
    simp only [he, he', Option.map_some, Option.some.injEq] at horder
    rw [he₁, he₁', Option.map_some, Option.map_some, h.replyOrder_append hs he he₁,
      h'.replyOrder_append ht he' he₁', horder]

/-- The same command, accepted in two states that agree on an event, keeps the agreement. -/
theorem Accepted.agreeOn (h : Accepted s caller command s' outcome)
    (h' : Accepted t caller command t' outcome') (houtcome : outcome = outcome')
    (hs : Reachable policy s) (ht : Reachable policy t) (hagree : AgreeOn id s t)
    (hcommand : command.concerns id = true) : AgreeOn id s' t' := by
  have hevent := h.event_eq h' houtcome hagree hcommand
  have horder := h.order_eq h' hs ht hagree hevent
  have hpolicy : s'.policy = t'.policy := by
    rw [h.policy_eq, h'.policy_eq, hagree.policy]
  cases hid : command.event? with
  | some id' =>
      obtain ⟨f, hdocket, hcatalog, hnodes⟩ := h.modifies hid
      obtain ⟨f', hdocket', hcatalog', hnodes'⟩ := h'.modifies hid
      refine ⟨⟨hpolicy, ?_, ?_, ?_, ?_, hevent⟩, horder⟩
      · intro address
        rw [hnodes, hnodes', hagree.nodes]
      · rw [hcatalog, hcatalog', hagree.lastApplication]
      · intro number
        rw [hcatalog, hcatalog', hagree.applications]
      · rw [hdocket, hdocket']
        exact hagree.lastEvent
  | none =>
      cases h with
      | registerNode =>
          cases h'
          refine ⟨⟨hpolicy, ?_, hagree.lastApplication, hagree.applications, hagree.lastEvent,
            hevent⟩, horder⟩
          intro address
          rw [Bool.eq_iff_iff, contains_register, contains_register, hagree.nodes]
      | registerApplication =>
          cases h'
          refine ⟨⟨hpolicy, hagree.nodes, ?_, ?_, hagree.lastEvent, hevent⟩, horder⟩
          · exact congrArg (· + 1) hagree.lastApplication
          · intro number
            simp only [Catalog.get?, Catalog.register, Catalog.nextId, OrderedMap.get?_insert,
              hagree.lastApplication]
            split
            · rfl
            · exact hagree.applications number
      | sendEvent =>
          cases h'
          exact ⟨⟨hpolicy, hagree.nodes, hagree.lastApplication, hagree.applications,
            congrArg (· + 1) hagree.lastEvent, hevent⟩, horder⟩
      | sendReply => simp [Command.event?] at hid
      | voteSolver => simp [Command.event?] at hid
      | solveEvent => simp [Command.event?] at hid

/-! ## Runs -/

theorem AgreeOn.answer_eq_of_concerns (h : AgreeOn id s t) {c : Address × Command}
    (hc : c.2.concerns id = true) : s.answer c = t.answer c :=
  h.answer_eq (.inr keepsScores_undated) (Command.concerns_iff.1 hc) .same

theorem AgreeOn.step (h : AgreeOn id s t) (hs : Reachable policy s) (ht : Reachable policy t)
    {c : Address × Command} (hc : c.2.concerns id = true) : AgreeOn id (s.step c) (t.step c) := by
  rcases steps_of_answer_eq (h.answer_eq_of_concerns hc) with
    ⟨hsame, hsame'⟩ | ⟨outcome, haccepted, haccepted'⟩
  · rwa [hsame, hsame']
  · exact haccepted.agreeOn haccepted' rfl hs ht h hc

/-- Of two runs, the second of which leaves out the commands on other events. -/
theorem AgreeOn.run (h : AgreeOn id s t) (hs : Reachable policy s) (ht : Reachable policy t)
    (commands : List (Address × Command)) :
    (s.transcript commands).filter (·.1.2.concerns id) =
        t.transcript (commands.filter (·.2.concerns id)) ∧
      AgreeOn id (s.run commands) (t.run (commands.filter (·.2.concerns id))) := by
  induction commands generalizing s t with
  | nil => exact ⟨rfl, h⟩
  | cons c rest ih =>
      by_cases hc : c.2.concerns id = true
      · obtain ⟨hanswers, hend⟩ := ih (h.step hs ht hc) (hs.step c) (ht.step c)
        simp only [transcript, List.filter_cons, hc, if_true]
        rw [hanswers, h.answer_eq_of_concerns hc]
        exact ⟨rfl, hend⟩
      · have helsewhere := h.step_elsewhere (Bool.eq_false_of_not_eq_true hc)
        simp only [transcript, List.filter_cons, hc]
        exact ih helsewhere (hs.step c) ht

/-- Leaving the replies, votes and closings of other events out of a run changes neither the answer
to any other command nor the event: up to times it is the same event, with the same votes, the same
elected solver and the same closing, and with the same replies in the same order. -/
theorem other_events_change_nothing (policy : Policy) (commands : List (Address × Command))
    (id : EventId) :
    ((initial policy).transcript commands).filter (·.1.2.concerns id) =
        (initial policy).transcript (commands.filter (·.2.concerns id)) ∧
      (((initial policy).run commands).docket.get? id).map (through .undated) =
        (((initial policy).run (commands.filter (·.2.concerns id))).docket.get? id).map
          (through .undated) ∧
      (((initial policy).run commands).docket.get? id).map replyOrder =
        (((initial policy).run (commands.filter (·.2.concerns id))).docket.get? id).map
          replyOrder := by
  obtain ⟨hanswers, hend⟩ :=
    (AgreeOn.refl id (initial policy)).run (reachable_run policy []) (reachable_run policy [])
      commands
  exact ⟨hanswers, hend.event, hend.order⟩

end State

end Arbiter
