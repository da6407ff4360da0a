import Arbiter.Proofs.Trail

/-!
# Numbers of applications and events

Applications and events are numbered from 1 on without gaps, each is stored under its own number,
and the next number is free.
-/

namespace Arbiter

/-- What is stored behind all keys comes last. -/
theorem OrderedMap.toList_insert_of_lt {α : Type v} {m : OrderedMap Nat α} {k : Nat} (v : α)
    (hkeys : ∀ k' ∈ m.keys, k' < k) : (m.insert k v).toList = m.toList ++ [(k, v)] := by
  apply place_of_forall_lt
  intro b hb
  exact Nat.compare_eq_lt.2 (hkeys b.1 (List.mem_map_of_mem hb))

theorem OrderedMap.values_insert_of_lt {α : Type v} {m : OrderedMap Nat α} {k : Nat} (v : α)
    (hkeys : ∀ k' ∈ m.keys, k' < k) : (m.insert k v).values = m.values ++ [v] := by
  rw [values, toList_insert_of_lt v hkeys, List.map_append]
  rfl

theorem OrderedMap.lt_of_mem_keys {α : Type v} {m : OrderedMap Nat α} {n : Nat}
    (hkeys : m.keys = List.range' 1 n) : ∀ k ∈ m.keys, k < n + 1 := by
  intro k hk
  rw [hkeys, List.mem_range'_1] at hk
  omega

theorem OrderedMap.values_insert_of_last {α : Type v} {m : OrderedMap Nat α} {n : Nat} (v : α)
    (hkeys : m.keys = List.range' 1 n) :
    (m.insert (n + 1) v).values = m.values ++ [v] :=
  values_insert_of_lt v (lt_of_mem_keys hkeys)

theorem OrderedMap.keys_insert_of_last {α : Type v} {m : OrderedMap Nat α} {n : Nat} (v : α)
    (hkeys : m.keys = List.range' 1 n) :
    (m.insert (n + 1) v).keys = List.range' 1 (n + 1) := by
  rw [keys, toList_insert_of_lt v (lt_of_mem_keys hkeys), List.map_append, List.range'_concat]
  simp [← hkeys, keys, Nat.add_comm]

theorem OrderedMap.length_values_of_keys {α : Type v} {m : OrderedMap Nat α} {n : Nat}
    (hkeys : m.keys = List.range' 1 n) : m.values.length = n := by
  have hlength := congrArg List.length hkeys
  simpa [keys, values] using hlength

theorem OrderedMap.contains_iff_of_keys {α : Type v} {m : OrderedMap Nat α} {n k : Nat}
    (hkeys : m.keys = List.range' 1 n) :
    m.contains k = true ↔ 1 ≤ k ∧ k ≤ n := by
  rw [← mem_keys_iff, hkeys, List.mem_range'_1]
  omega

theorem Event.id_reply (e : Event) (author : Address) (scores : List Score) (now : Version) :
    (e.reply author scores now).id = e.id := by
  unfold reply
  split <;> rfl

theorem Event.id_vote (e : Event) (voter candidate : Address) (registered : Nat) :
    (e.vote voter candidate registered).id = e.id := rfl

theorem Event.id_solve (e : Event) (solver caller : Address) (now : Version) :
    (e.solve solver caller now).id = e.id := rfl

namespace State

/-- An application that is there after a command was there before or was just registered. -/
theorem Accepted.application_cases {s s' : State} {caller : Address} {command : Command}
    {outcome : Outcome} (h : Accepted s caller command s' outcome) {id : ApplicationId}
    {a : Application} (ha : s'.catalog.get? id = some a) :
    s.catalog.get? id = some a ∨ a.id = id ∧ a.createdAt = s.version + 1 := by
  cases h with
  | registerApplication =>
      simp only [Catalog.get?, Catalog.register, OrderedMap.get?_insert] at ha
      split at ha
      · next heq =>
          obtain rfl := Option.some.inj ha
          exact .inr ⟨heq.symm, rfl⟩
      · exact .inl ha
  | registerNode => exact .inl ha
  | sendEvent => exact .inl ha
  | sendReply => exact .inl ha
  | voteSolver => exact .inl ha
  | solveEvent => exact .inl ha

/-- The applications and events are numbered from 1 on. -/
structure Numbered (s : State) : Prop where
  applications : s.catalog.applications.keys = List.range' 1 s.catalog.lastId
  events : s.docket.events.keys = List.range' 1 s.docket.lastId
  applicationId : ∀ {id : ApplicationId} {a : Application},
    s.catalog.get? id = some a → a.id = id
  eventId : ∀ {id : EventId} {e : Event}, s.docket.get? id = some e → e.id = id

namespace Numbered

variable {s s' : State}

theorem event_le_lastId (h : s.Numbered) {id : EventId} {e : Event}
    (he : s.docket.get? id = some e) :
    1 ≤ id ∧ id ≤ s.docket.lastId :=
  (OrderedMap.contains_iff_of_keys h.events).1 (OrderedMap.contains_iff.2 ⟨e, he⟩)

theorem application_le_lastId (h : s.Numbered) {id : ApplicationId} {a : Application}
    (ha : s.catalog.get? id = some a) :
    1 ≤ id ∧ id ≤ s.catalog.lastId :=
  (OrderedMap.contains_iff_of_keys h.applications).1 (OrderedMap.contains_iff.2 ⟨a, ha⟩)

theorem nextId_fresh (h : s.Numbered) : s.docket.get? s.docket.nextId = none := by
  apply OrderedMap.get?_eq_none_iff.2
  rw [← Bool.not_eq_true, OrderedMap.contains_iff_of_keys h.events, Docket.nextId]
  omega

theorem nextApplication_fresh (h : s.Numbered) : s.catalog.get? s.catalog.nextId = none := by
  apply OrderedMap.get?_eq_none_iff.2
  rw [← Bool.not_eq_true, OrderedMap.contains_iff_of_keys h.applications, Catalog.nextId]
  omega

theorem initial (policy : Policy) : (initial policy).Numbered where
  applications := rfl
  events := rfl
  applicationId := by simp [State.initial, Catalog.get?]
  eventId := by simp [State.initial, Docket.get?]

/-- Changing an event does not change its number. -/
theorem eventId_modify (h : s.Numbered) {id : EventId} {f : Event → Event}
    (hf : ∀ e, (f e).id = e.id) {id' : EventId} {e : Event}
    (he : (s.docket.modify id f).get? id' = some e) : e.id = id' := by
  simp only [Docket.get?, Docket.modify, OrderedMap.get?_modify] at he
  split at he
  · next heq =>
      subst heq
      obtain ⟨e₀, he₀, rfl⟩ := Option.map_eq_some_iff.1 he
      exact (hf e₀).trans (h.eventId he₀)
  · exact h.eventId he

theorem accepted (h : s.Numbered) {caller : Address} {command : Command} {outcome : Outcome}
    (haccepted : Accepted s caller command s' outcome) :
    s'.Numbered := by
  have happlicationId : ∀ {id : ApplicationId} {a : Application},
      s'.catalog.get? id = some a → a.id = id := by
    intro id a ha
    rcases haccepted.application_cases ha with hbefore | ⟨hid, -⟩
    · exact h.applicationId hbefore
    · exact hid
  cases haccepted with
  | registerNode => exact ⟨h.applications, h.events, happlicationId, h.eventId⟩
  | registerApplication =>
      exact ⟨OrderedMap.keys_insert_of_last _ h.applications, h.events, happlicationId,
        h.eventId⟩
  | sendEvent =>
      refine ⟨h.applications, OrderedMap.keys_insert_of_last _ h.events, happlicationId, ?_⟩
      intro id e he
      simp only [Docket.get?, Docket.enter, OrderedMap.get?_insert] at he
      split at he
      · next heq =>
          obtain rfl := Option.some.inj he
          exact heq.symm
      · exact h.eventId he
  | sendReply =>
      exact ⟨h.applications, (OrderedMap.keys_modify ..).trans h.events, happlicationId,
        h.eventId_modify fun e => e.id_reply ..⟩
  | voteSolver =>
      exact ⟨h.applications, (OrderedMap.keys_modify ..).trans h.events, happlicationId,
        h.eventId_modify fun e => e.id_vote ..⟩
  | solveEvent =>
      exact ⟨h.applications, (OrderedMap.keys_modify ..).trans h.events, happlicationId,
        h.eventId_modify fun e => e.id_solve ..⟩

theorem step (hs : s.Numbered) (c : Address × Command) : (s.step c).Numbered := by
  rcases s.step_cases c with hsame | ⟨outcome, haccepted⟩
  · rw [hsame]
    exact hs
  · exact hs.accepted haccepted

end Numbered

theorem Reachable.numbered {policy : Policy} {s : State} (h : Reachable policy s) :
    s.Numbered :=
  h.invariant (.initial policy) fun _ haccepted hnumbered => hnumbered.accepted haccepted

end State

end Arbiter
