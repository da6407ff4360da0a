import Arbiter.Proofs.Numbering

/-!
# What a command does to an event

An accepted command leaves an event as it is unless it names that event, and then adds a reply, a
vote or a resolution to it.  An event that was not there before was just sent and is fresh.  The
roster only grows.
-/

namespace Arbiter

/-- A first reply is added to the others. -/
theorem Event.reply_of_new {e : Event} {author : Address} {scores : List Score} {now : Version}
    (hnew : e.hasReplied author = false) :
    e.reply author scores now =
      { e with replies := e.replies.insert author ⟨author, scores, now⟩ } := by
  rw [reply, if_neg (by simp [hnew])]

namespace State

/-- What a command accepted in a state does to an event that is there. -/
inductive EventStep (s : State) (caller : Address) (id : EventId) :
    Command → Event → Event → Prop
  | other {command : Command} {e : Event} (elsewhere : command.event? ≠ some id) :
      EventStep s caller id command e e
  | reply {scores : List Score} {e : Event} {application : Application}
      (known : s.catalog.get? e.application = some application)
      (accepts : e.checkReply application s.roster caller scores = .ok ()) :
      EventStep s caller id (.sendReply id scores) e (e.reply caller scores (s.version + 1))
  | vote {candidate : Address} {e : Event}
      (accepts : e.checkVote s.policy s.roster caller = .ok ()) :
      EventStep s caller id (.voteSolver id candidate) e (e.vote caller candidate s.roster.size)
  | solve {e : Event} {solver : Address}
      (accepts : e.checkSolve s.policy s.roster caller = .ok solver) :
      EventStep s caller id (.solveEvent id) e (e.solve solver caller (s.version + 1))

namespace Accepted

variable {s s' : State} {caller : Address} {command : Command} {outcome : Outcome}

theorem get?_modify_self {d : Docket} {id : EventId} {f : Event → Event} {e : Event}
    (he : d.get? id = some e) :
    (d.modify id f).get? id = some (f e) := by
  have he' : d.events.get? id = some e := he
  simp [Docket.get?, Docket.modify, OrderedMap.get?_modify, he']

theorem get?_modify_of_ne {d : Docket} {id id' : EventId} {f : Event → Event}
    (hne : id' ≠ id) :
    (d.modify id f).get? id' = d.get? id' := by
  simp [Docket.get?, Docket.modify, OrderedMap.get?_modify, hne]

/-- A command changes the event that it names and leaves the others. -/
theorem event_step_of_modify {id id' : EventId} {e e₀ : Event} {f : Event → Event}
    (hcommand : command.event? = some id') (there : s.docket.get? id' = some e₀)
    (hstep : EventStep s caller id' command e₀ (f e₀)) (he : s.docket.get? id = some e) :
    ∃ e', (s.docket.modify id' f).get? id = some e' ∧ EventStep s caller id command e e' := by
  by_cases hid : id = id'
  · subst hid
    obtain rfl := Option.some.inj (there.symm.trans he)
    exact ⟨_, get?_modify_self he, hstep⟩
  · refine ⟨e, (get?_modify_of_ne hid).trans he, .other ?_⟩
    rw [hcommand]
    exact fun heq => hid (Option.some.inj heq).symm

/-- An event that is there stays there, if the next number is free. -/
theorem event_step_of_fresh (h : Accepted s caller command s' outcome)
    (hfresh : s.docket.get? s.docket.nextId = none) {id : EventId} {e : Event}
    (he : s.docket.get? id = some e) :
    ∃ e', s'.docket.get? id = some e' ∧ EventStep s caller id command e e' := by
  cases h with
  | registerNode => exact ⟨e, he, .other (by simp [Command.event?])⟩
  | registerApplication => exact ⟨e, he, .other (by simp [Command.event?])⟩
  | sendEvent =>
      have hne : id ≠ s.docket.nextId := by
        rintro rfl
        rw [hfresh] at he
        exact absurd he (by simp)
      refine ⟨e, ?_, .other (by simp [Command.event?])⟩
      simpa [Docket.get?, Docket.enter, OrderedMap.get?_insert, hne] using he
  | sendReply there known accepts =>
      exact event_step_of_modify rfl there (.reply known accepts) he
  | voteSolver there accepts => exact event_step_of_modify rfl there (.vote accepts) he
  | solveEvent there accepts => exact event_step_of_modify rfl there (.solve accepts) he

theorem event_step (h : Accepted s caller command s' outcome) (hs : s.Numbered) {id : EventId}
    {e : Event} (he : s.docket.get? id = some e) :
    ∃ e', s'.docket.get? id = some e' ∧ EventStep s caller id command e e' :=
  h.event_step_of_fresh hs.nextId_fresh he

/-- An event that was not there was just sent. -/
theorem event_fresh (h : Accepted s caller command s' outcome) {id : EventId} {e : Event}
    (hnone : s.docket.get? id = none) (he : s'.docket.get? id = some e) :
    ∃ payload application, command = .sendEvent payload application ∧ id = s.docket.nextId ∧
      s.catalog.contains application = true ∧
      e = .fresh id application payload caller (s.version + 1) := by
  have hmodify : ∀ (id' : EventId) (f : Event → Event),
      (s.docket.modify id' f).get? id = none := by
    intro id' f
    have hnone' : s.docket.events.get? id = none := hnone
    simp only [Docket.get?, Docket.modify, OrderedMap.get?_modify]
    split
    · next heq =>
        subst heq
        simp [hnone']
    · exact hnone'
  cases h with
  | registerNode => exact absurd (hnone.symm.trans he) (by simp)
  | registerApplication => exact absurd (hnone.symm.trans he) (by simp)
  | sendEvent known =>
      simp only [Docket.get?, Docket.enter, OrderedMap.get?_insert] at he
      split at he
      · next heq =>
          obtain rfl := Option.some.inj he
          exact ⟨_, _, rfl, heq, known, by rw [heq]⟩
      · exact absurd (hnone.symm.trans he) (by simp)
  | sendReply => exact absurd ((hmodify _ _).symm.trans he) (by simp)
  | voteSolver => exact absurd ((hmodify _ _).symm.trans he) (by simp)
  | solveEvent => exact absurd ((hmodify _ _).symm.trans he) (by simp)

/-- An event that is there after a command was just sent, or else it comes from one that was there
before. -/
theorem event_cases (h : Accepted s caller command s' outcome)
    (hfresh : s.docket.get? s.docket.nextId = none) {id : EventId} {e' : Event}
    (he' : s'.docket.get? id = some e') :
    (s.docket.get? id = none ∧ ∃ payload application, command = .sendEvent payload application ∧
      s.catalog.contains application = true ∧
      e' = .fresh id application payload caller (s.version + 1)) ∨
    ∃ e, s.docket.get? id = some e ∧ EventStep s caller id command e e' := by
  cases he : s.docket.get? id with
  | none =>
      obtain ⟨payload, application, hcommand, -, hknown, hsent⟩ := h.event_fresh he he'
      exact .inl ⟨rfl, payload, application, hcommand, hknown, hsent⟩
  | some e =>
      obtain ⟨e'', he'', hstep⟩ := h.event_step_of_fresh hfresh he
      obtain rfl := Option.some.inj (he''.symm.trans he')
      exact .inr ⟨e, rfl, hstep⟩

/-- The event that a command names is there. -/
theorem event_there (h : Accepted s caller command s' outcome) {id : EventId}
    (hid : command.event? = some id) : ∃ e, s.docket.get? id = some e := by
  cases h with
  | registerNode => simp [Command.event?] at hid
  | registerApplication => simp [Command.event?] at hid
  | sendEvent => simp [Command.event?] at hid
  | sendReply there =>
      obtain rfl := Option.some.inj hid
      exact ⟨_, there⟩
  | voteSolver there =>
      obtain rfl := Option.some.inj hid
      exact ⟨_, there⟩
  | solveEvent there =>
      obtain rfl := Option.some.inj hid
      exact ⟨_, there⟩

/-! ## The roster -/

theorem contains_creditAll (r : Roster) (scores : List Score) (address : Address) :
    (r.creditAll scores).contains address = r.contains address := by
  induction scores generalizing r with
  | nil => rfl
  | cons score scores ih =>
      rw [Roster.creditAll, List.foldl_cons]
      exact (ih _).trans (OrderedMap.contains_modify ..)

theorem contains_register (r : Roster) (address : Address) (spec : String) (now : Version)
    (address' : Address) :
    (r.register address spec now).contains address' = true ↔
      address' = address ∨ r.contains address' = true := by
  unfold Roster.register
  split
  · next hthere =>
      rw [Roster.contains, OrderedMap.contains_modify]
      constructor
      · exact .inr
      · rintro (rfl | h)
        · exact hthere
        · exact h
  · exact OrderedMap.contains_insert

/-- A registered node stays registered. -/
theorem contains_roster (h : Accepted s caller command s' outcome) {address : Address}
    (haddress : s.roster.contains address = true) :
    s'.roster.contains address = true := by
  cases h with
  | registerNode => exact (contains_register ..).2 (.inr haddress)
  | sendReply => exact (contains_creditAll ..).trans haddress
  | registerApplication => exact haddress
  | sendEvent => exact haddress
  | voteSolver => exact haddress
  | solveEvent => exact haddress

theorem size_roster_le (h : Accepted s caller command s' outcome) :
    s.roster.size ≤ s'.roster.size :=
  OrderedMap.size_le_of_contains fun _ hk => h.contains_roster hk

/-- Only the registration of a node changes how many there are. -/
theorem size_roster_eq (h : Accepted s caller command s' outcome)
    (hcommand : ∀ spec, command ≠ .registerNode spec) :
    s'.roster.size = s.roster.size := by
  cases h with
  | @registerNode spec => exact absurd rfl (hcommand spec)
  | sendReply =>
      exact Nat.le_antisymm
        (OrderedMap.size_le_of_contains fun k hk => (contains_creditAll _ _ k).symm.trans hk)
        (OrderedMap.size_le_of_contains fun k hk => (contains_creditAll _ _ k).trans hk)
  | registerApplication => rfl
  | sendEvent => rfl
  | voteSolver => rfl
  | solveEvent => rfl

end Accepted

end State

end Arbiter
