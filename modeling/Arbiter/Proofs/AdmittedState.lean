import Arbiter.Proofs.StateImage

/-!
# States that were read from a snapshot

The audit looks at what is stored in the order of the keys, while commands go by the keys and by the
numbers given last.  A state that was read stays in order, whatever commands follow, exactly when
there are as many applications and events as the numbers given last say, and none is stored behind
these.  That is more than the audit asks for: a snapshot whose last number is too small is read, and
the next registration takes the place of an application that was there.
-/

namespace Arbiter

/-! ## Numbers given last -/

namespace OrderedMap

variable {α : Type v} {m : OrderedMap Nat α} {n : Nat} {v : α} {number : α → Nat}

theorem length_values (m : OrderedMap Nat α) : m.values.length = m.size :=
  List.length_map _

/-- There are as many bindings as the number given last says, and none behind it. -/
structure CountedBy (m : OrderedMap Nat α) (n : Nat) : Prop where
  size : m.size = n
  le : ∀ k ∈ m.keys, k ≤ n

instance (m : OrderedMap Nat α) (n : Nat) : Decidable (m.CountedBy n) :=
  decidable_of_iff (m.size = n ∧ ∀ k ∈ m.keys, k ≤ n)
    ⟨fun h => ⟨h.1, h.2⟩, fun h => ⟨h.size, h.le⟩⟩

namespace CountedBy

theorem of_keys (hkeys : m.keys = List.range' 1 n) : m.CountedBy n where
  size := by
    rw [← m.length_values]
    exact length_values_of_keys hkeys
  le k hk := Nat.lt_succ_iff.1 (lt_of_mem_keys hkeys k hk)

theorem lt (h : m.CountedBy n) : ∀ k ∈ m.keys, k < n + 1 :=
  fun k hk => Nat.lt_succ_of_le (h.le k hk)

theorem fresh (h : m.CountedBy n) : m.get? (n + 1) = none := by
  rw [get?_eq_none_iff, ← Bool.not_eq_true, ← mem_keys_iff]
  exact fun hmem => Nat.lt_irrefl _ (h.lt _ hmem)

theorem insert (h : m.CountedBy n) (v : α) : (m.insert (n + 1) v).CountedBy (n + 1) := by
  have hlist := toList_insert_of_lt v h.lt
  refine ⟨?_, fun k hk => ?_⟩
  · rw [OrderedMap.size, hlist, List.length_append, ← OrderedMap.size, h.size]
    rfl
  · rw [keys, hlist, List.map_append, List.mem_append] at hk
    rcases hk with hk | hk
    · exact Nat.le_succ_of_le (h.le k hk)
    · exact Nat.le_of_eq (List.mem_singleton.1 hk)

theorem modify (h : m.CountedBy n) (k : Nat) (f : α → α) : (m.modify k f).CountedBy n := by
  refine ⟨?_, ?_⟩
  · rw [← h.size]
    simp [OrderedMap.size, OrderedMap.modify]
  · rw [keys_modify]
    exact h.le

end CountedBy

/-- The next number goes on with the numbering. -/
theorem CountedBy.map_values_insert (h : m.CountedBy n)
    (hnumbers : m.values.map number = List.range' 1 m.values.length) (hv : number v = n + 1) :
    (m.insert (n + 1) v).values.map number =
      List.range' 1 (m.insert (n + 1) v).values.length := by
  have hlength : m.values.length = n := m.length_values.trans h.size
  rw [values_insert_of_lt v h.lt, List.map_append, hnumbers, List.length_append,
    List.length_singleton, List.range'_concat, hlength]
  simp [hv, Nat.add_comm]

theorem number_of_getElem? {values : List α} {i : Nat} {w : α}
    (hnumbers : values.map number = List.range' 1 values.length) (hw : values[i]? = some w) :
    number w = i + 1 := by
  have hi : i < values.length := (List.getElem?_eq_some_iff.1 hw).1
  have hnumber : (values.map number)[i]? = some (number w) := by simp [hw]
  rw [hnumbers, List.getElem?_range' hi] at hnumber
  have heq := Option.some.inj hnumber
  omega

/-- Only behind all others does a new binding go on with the numbering. -/
theorem countedBy_of_map_values_insert
    (hnumbers : m.values.map number = List.range' 1 m.values.length) (hv : number v = n + 1)
    (hfresh : m.get? (n + 1) = none)
    (hnumbers' : (m.insert (n + 1) v).values.map number =
      List.range' 1 (m.insert (n + 1) v).values.length) :
    m.CountedBy n := by
  obtain ⟨front, back, hlist, hlist', hfront⟩ := exists_toList_insert_split v hfresh
  have hvalues : m.values = front.map (·.2) ++ back.map (·.2) := by
    rw [values, hlist, List.map_append]
  have hvalues' : (m.insert (n + 1) v).values = front.map (·.2) ++ v :: back.map (·.2) := by
    rw [values, hlist', List.map_append, List.map_cons]
  have hplace : number v = front.length + 1 :=
    number_of_getElem? hnumbers' (by simp [hvalues'])
  -- A binding behind the new one would have its old number and the next one.
  have hback : back = [] := by
    cases back with
    | nil => rfl
    | cons b back =>
        have hold : number b.2 = front.length + 1 :=
          number_of_getElem? hnumbers (by simp [hvalues])
        have hnew : number b.2 = front.length + 1 + 1 :=
          number_of_getElem? hnumbers' (by simp [hvalues'])
        omega
  rw [hback, List.append_nil] at hlist
  refine ⟨?_, fun k hk => ?_⟩
  · rw [size, hlist]
    omega
  · rw [keys, hlist] at hk
    obtain ⟨b, hb, rfl⟩ := List.mem_map.1 hk
    exact Nat.lt_succ_iff.1 (Nat.compare_eq_lt.1 (hfront b hb))

end OrderedMap

namespace State

variable {s s' : State} {caller : Address} {command : Command} {outcome : Outcome}

/-- The applications and the events are counted by the numbers given last. -/
structure Counted (s : State) : Prop where
  applications : s.catalog.applications.CountedBy s.catalog.lastId
  events : s.docket.events.CountedBy s.docket.lastId

instance (s : State) : Decidable s.Counted :=
  decidable_of_iff (s.catalog.applications.CountedBy s.catalog.lastId ∧
    s.docket.events.CountedBy s.docket.lastId) ⟨fun h => ⟨h.1, h.2⟩, fun h => ⟨h.1, h.2⟩⟩

theorem Numbered.counted (hs : s.Numbered) : s.Counted where
  applications := .of_keys hs.applications
  events := .of_keys hs.events

/-! ## What an accepted command leaves in order -/

theorem Counted.accepted (h : s.Counted) (haccepted : Accepted s caller command s' outcome) :
    s'.Counted := by
  have hmodify : ∀ (id : EventId) (f : Event → Event),
      (s.docket.modify id f).events.CountedBy s.docket.lastId := h.events.modify
  cases haccepted with
  | registerNode => exact ⟨h.applications, h.events⟩
  | registerApplication => exact ⟨h.applications.insert _, h.events⟩
  | sendEvent => exact ⟨h.applications, h.events.insert _⟩
  | sendReply => exact ⟨h.applications, hmodify _ _⟩
  | voteSolver => exact ⟨h.applications, hmodify _ _⟩
  | solveEvent => exact ⟨h.applications, hmodify _ _⟩

theorem Counted.nextId_fresh (h : s.Counted) : s.docket.get? s.docket.nextId = none :=
  h.events.fresh

theorem Counted.nextApplication_fresh (h : s.Counted) :
    s.catalog.get? s.catalog.nextId = none :=
  h.applications.fresh

theorem Audited.events_accepted (h : s.Audited) (hcounted : s.Counted)
    (haccepted : Accepted s caller command s' outcome) :
    s'.docket.toList.map (·.id) = List.range' 1 s'.docket.toList.length := by
  have hmodify : ∀ {id : EventId} {f : Event → Event}, (∀ e, (f e).id = e.id) →
      (s.docket.modify id f).toList.map (·.id) =
        List.range' 1 (s.docket.modify id f).toList.length := by
    intro id f hf
    have hlength : (s.docket.modify id f).toList.length = s.docket.toList.length := by
      simp [Docket.toList, Docket.modify, OrderedMap.values, OrderedMap.modify]
    rw [hlength, ← h.events]
    exact OrderedMap.map_values_modify hf
  cases haccepted with
  | registerNode => exact h.events
  | registerApplication => exact h.events
  | sendEvent => exact hcounted.events.map_values_insert h.events rfl
  | sendReply => exact hmodify fun e => e.id_reply ..
  | voteSolver => exact hmodify fun e => e.id_vote ..
  | solveEvent => exact hmodify fun e => e.id_solve ..

theorem Audited.accepted (h : s.Audited) (hcounted : s.Counted)
    (haccepted : Accepted s caller command s' outcome) : s'.Audited := by
  have hpast : ∀ a ∈ s'.catalog.toList, a.createdAt ≤ s'.version := by
    intro a ha
    obtain ⟨id, hid⟩ := OrderedMap.mem_values_iff.1 ha
    rw [haccepted.version_eq]
    rcases haccepted.application_cases hid with hbefore | ⟨-, hnow⟩
    · exact Nat.le_succ_of_le (h.past a (OrderedMap.mem_values_iff.2 ⟨id, hbefore⟩))
    · exact Nat.le_of_eq hnow
  have hevent : ∀ e' ∈ s'.docket.toList, e'.Audited s'.catalog := by
    intro e' he'
    obtain ⟨id, hid'⟩ := OrderedMap.mem_values_iff.1 he'
    rcases haccepted.event_cases hcounted.nextId_fresh hid' with
      ⟨-, _, _, -, hknown, rfl⟩ | ⟨e, hid, hstep⟩
    · exact .fresh (haccepted.contains_catalog hknown) _ _ _
    · have he : e ∈ s.docket.toList := OrderedMap.mem_values_iff.2 ⟨id, hid⟩
      exact (hstep.audited (h.event e he)).mono fun _ => haccepted.contains_catalog
  have hevents := h.events_accepted hcounted haccepted
  cases haccepted with
  | registerApplication =>
      exact ⟨hcounted.applications.map_values_insert h.applications rfl, hevents, hpast, hevent⟩
  | registerNode => exact ⟨h.applications, hevents, hpast, hevent⟩
  | sendEvent => exact ⟨h.applications, hevents, hpast, hevent⟩
  | sendReply => exact ⟨h.applications, hevents, hpast, hevent⟩
  | voteSolver => exact ⟨h.applications, hevents, hpast, hevent⟩
  | solveEvent => exact ⟨h.applications, hevents, hpast, hevent⟩

/-! ## Staying in order -/

/-- The state after an accepted command passes the audit, and what was registered or sent has a
number of its own. -/
structure InOrder (s s' : State) (outcome : Outcome) : Prop where
  audit : s'.audit = .ok ()
  registered : ∀ {id : ApplicationId}, outcome = .applicationRegistered id →
    s.catalog.get? id = none ∧
      ∀ {id' : ApplicationId} {a : Application},
        s.catalog.get? id' = some a → s'.catalog.get? id' = some a
  sent : ∀ {id : EventId}, outcome = .eventSent id →
    s.docket.get? id = none ∧
      ∀ {id' : EventId} {e : Event},
        s.docket.get? id' = some e → s'.docket.get? id' = some e

/-- Every command that is accepted later on leaves a state in order, as long as the version is a
number of sixty-four bits. -/
def StaysInOrder (s : State) : Prop :=
  ∀ (commands : List (Address × Command)) (caller : Address) (command : Command) (s' : State)
    (outcome : Outcome), (s.run commands).apply caller command = .ok (s', outcome) →
      s'.version < capacity 8 → (s.run commands).InOrder s' outcome

theorem Counted.inOrder (h : s.Counted) (haudited : s.Audited)
    (haccepted : Accepted s caller command s' outcome) : s.InOrder s' outcome := by
  refine ⟨audit_eq_ok_iff.2 (haudited.accepted h haccepted), ?_, ?_⟩
  · rintro id rfl
    cases haccepted
    have hfresh := OrderedMap.get?_eq_none_iff.1 h.nextApplication_fresh
    exact ⟨h.nextApplication_fresh, OrderedMap.get?_insert_of_fresh hfresh⟩
  · rintro id rfl
    cases haccepted
    have hfresh := OrderedMap.get?_eq_none_iff.1 h.nextId_fresh
    exact ⟨h.nextId_fresh, OrderedMap.get?_insert_of_fresh hfresh⟩

theorem Trail.counted {entries : List Entry} (h : Trail s entries s') (hcounted : s.Counted)
    (haudited : s.Audited) : s'.Counted ∧ s'.Audited := by
  apply h.invariant (P := fun t => t.Counted ∧ t.Audited) ⟨hcounted, haudited⟩
  intro t t' caller command outcome _ haccepted ht
  exact ⟨ht.1.accepted haccepted, ht.2.accepted ht.1 haccepted⟩

theorem Counted.staysInOrder (h : s.Counted) (haudited : s.Audited) : s.StaysInOrder := by
  intro commands caller command s' outcome happly _
  obtain ⟨entries, htrail⟩ := s.exists_trail_run commands
  obtain ⟨hcounted, haudited'⟩ := htrail.counted h haudited
  exact hcounted.inOrder haudited' (apply_eq_ok_iff.1 happly)

/-- A controller that has not read a snapshot is in no danger. -/
theorem Reachable.staysInOrder {policy : Policy} (h : Reachable policy s) : s.StaysInOrder := by
  obtain ⟨entries, htrail⟩ := h
  have hnumbered := Numbered.initial policy
  have haudited := (Sound.initial policy).audited hnumbered
  obtain ⟨hcounted, haudited'⟩ := htrail.counted hnumbered.counted haudited
  exact hcounted.staysInOrder haudited'

/-- The applications are counted if one more can be registered in order. -/
theorem InOrder.applications_counted {info : String} {requiredSpecs : List String}
    {multiReplyAllowed : Bool} (haudited : s.Audited)
    (haccepted : Accepted s caller (.registerApplication info requiredSpecs multiReplyAllowed) s'
      outcome) (h : s.InOrder s' outcome) :
    s.catalog.applications.CountedBy s.catalog.lastId := by
  have haudited' := audit_eq_ok_iff.1 h.audit
  cases haccepted
  exact OrderedMap.countedBy_of_map_values_insert haudited.applications rfl (h.registered rfl).1
    haudited'.applications

/-- The events are counted if one more can be sent in order. -/
theorem InOrder.events_counted {payload : String} {application : ApplicationId}
    (haudited : s.Audited)
    (haccepted : Accepted s caller (.sendEvent payload application) s' outcome)
    (h : s.InOrder s' outcome) : s.docket.events.CountedBy s.docket.lastId := by
  have haudited' := audit_eq_ok_iff.1 h.audit
  cases haccepted
  exact OrderedMap.countedBy_of_map_values_insert haudited.events rfl (h.sent rfl).1
    haudited'.events

theorem StaysInOrder.counted (h : s.StaysInOrder) (haudited : s.Audited)
    (hversion : s.version + 2 < capacity 8) : s.Counted := by
  -- There need not be an application to send an event for, so one is registered first.
  obtain ⟨s₁, outcome, hregistered⟩ : ∃ s₁ outcome,
      Accepted s default (.registerApplication "" [] false) s₁ outcome :=
    ⟨_, _, .registerApplication (Nat.zero_le _) (Nat.zero_le _) (by simp)⟩
  have hversion₁ := hregistered.version_eq
  have hinOrder : s.InOrder s₁ outcome :=
    h [] _ _ _ _ (apply_eq_ok_iff.2 hregistered) (hversion₁ ▸ Nat.lt_of_succ_lt hversion)
  have hknown : s₁.catalog.contains s.catalog.nextId = true := by
    cases hregistered
    exact OrderedMap.contains_insert.2 (.inl rfl)
  obtain ⟨s₂, outcome', hsent⟩ : ∃ s₂ outcome',
      Accepted s₁ default (.sendEvent "" s.catalog.nextId) s₂ outcome' :=
    ⟨_, _, .sendEvent hknown (Nat.zero_le _)⟩
  have hversion₂ : s₂.version = s.version + 2 := by rw [hsent.version_eq, hversion₁]
  have hrun : s.run [(default, .registerApplication "" [] false)] = s₁ := by
    simp [run, step, apply_eq_ok_iff.2 hregistered]
  have hinOrder' : s₁.InOrder s₂ outcome' := by
    have hlater := h [(default, .registerApplication "" [] false)]
    rw [hrun] at hlater
    exact hlater _ _ _ _ (apply_eq_ok_iff.2 hsent) (hversion₂ ▸ hversion)
  have hdocket : s₁.docket = s.docket := by
    cases hregistered
    rfl
  have hevents := hinOrder'.events_counted (audit_eq_ok_iff.1 hinOrder.audit) hsent
  rw [hdocket] at hevents
  exact ⟨hinOrder.applications_counted haudited hregistered, hevents⟩

end State

/-- What is read from a snapshot passed the audit. -/
theorem Snapshot.audit_of_decode {bytes : Bytes} {s : State} (h : decode bytes = .ok s) :
    s.audit = .ok () := by
  simp only [decode, bind, pure, Except.pure, throw, throwThe, MonadExceptOf.throw,
    bind_eq_ok_iff] at h
  obtain ⟨header, -, h⟩ := h
  simp only [Except.bind, ite_error_eq_ok] at h
  obtain ⟨-, -, -, h⟩ := h
  split at h
  · simp at h
  · obtain ⟨-, h⟩ := ite_error_eq_ok.1 h
    split at h
    · simp at h
    · next haudit =>
        obtain rfl := Except.ok.inj h
        exact haudit

/-- A state was read from a snapshot.  Every state that accepted commands lead to from there passes
the audit, and nothing that is registered or sent takes the place of anything else, exactly when the
applications and the events are counted by the numbers given last. -/
theorem admitted_state_stays_in_order {bytes : Bytes} {s : State}
    (hread : Snapshot.decode bytes = .ok s) :
    (s.Counted → s.StaysInOrder) ∧
      (s.version + 2 < capacity 8 → s.StaysInOrder → s.Counted) := by
  have haudited := State.audit_eq_ok_iff.1 (Snapshot.audit_of_decode hread)
  exact ⟨fun h => h.staysInOrder haudited, fun hversion h => h.counted haudited hversion⟩

/-! ## A number that was given before -/

/-- One application was registered, whatever number is said to be given last. -/
def oneApplication (lastId : Nat) : State where
  version := 1
  catalog := ⟨.ofList [(1, ⟨1, "first", [], false, .ofLow 1, 1⟩)], lastId⟩

theorem decode_oneApplication {lastId : Nat} (h : lastId < 6) :
    Snapshot.decode (Snapshot.encode (oneApplication lastId)) = .ok (oneApplication lastId) := by
  have hone : 1 < capacity 8 := by decide
  have hlastId : lastId < capacity 8 := Nat.lt_trans h (by decide)
  have hrange : (oneApplication lastId).InRange := by
    refine ⟨hone, Policy.inRange_default, ?_, ⟨?_, hlastId⟩,
      ⟨?_, Nat.lt_trans Nat.zero_lt_one hone⟩⟩
    · exact fun _ hb => absurd hb List.not_mem_nil
    · intro b hb
      obtain rfl := List.mem_singleton.1 hb
      exact ⟨hone, hone, hone⟩
    · exact fun _ hb => absurd hb List.not_mem_nil
  have hall : ∀ lastId < 6, (oneApplication lastId).encode.length + 32 < capacity 8 := by
    decide +kernel
  have hlength : (Snapshot.encode (oneApplication lastId)).length < capacity 8 := by
    rw [Snapshot.length_encode]
    exact hall lastId h
  have hshort : (oneApplication lastId).encode.length < capacity 8 :=
    Nat.lt_of_le_of_lt (Nat.le_add_right _ 32) (hall lastId h)
  exact Snapshot.decode_encode (State.covers_codec _ hrange hshort) rfl hone hlength

theorem admitted_state_stays_in_order_of_oneApplication :
    (oneApplication 1).StaysInOrder ∧ ¬ (oneApplication 5).StaysInOrder := by
  have hread := decode_oneApplication (show 1 < 6 by decide)
  have hread' := decode_oneApplication (show 5 < 6 by decide)
  refine ⟨(admitted_state_stays_in_order hread).1 (by decide), fun h => ?_⟩
  have hcounted := (admitted_state_stays_in_order hread').2 (by decide) h
  exact absurd hcounted (by decide)

/-- A registration takes the place of an application if the number given last is too small, and
leaves a state that does not pass the audit if it is too large. -/
theorem registration_after_wrong_lastId :
    Snapshot.decode (Snapshot.encode (oneApplication 0)) = .ok (oneApplication 0) ∧
      (oneApplication 0).catalog.get? 1 = some ⟨1, "first", [], false, .ofLow 1, 1⟩ ∧
      (∃ s', (oneApplication 0).apply (.ofLow 2) (.registerApplication "second" [] false) =
          .ok (s', .applicationRegistered 1) ∧
        s'.catalog.get? 1 = some ⟨1, "second", [], false, .ofLow 2, 2⟩) ∧
      Snapshot.decode (Snapshot.encode (oneApplication 5)) = .ok (oneApplication 5) ∧
      ∃ s', (oneApplication 5).apply (.ofLow 2) (.registerApplication "second" [] false) =
          .ok (s', .applicationRegistered 6) ∧
        s'.audit = .error (.applicationOutOfSequence 6) := by
  have hshort : "second".utf8ByteSize ≤ ({} : Policy).maxTagLength := by decide
  have hregister : ∀ lastId, State.Accepted (oneApplication lastId) (.ofLow 2)
      (.registerApplication "second" [] false) _ _ := fun lastId =>
    .registerApplication hshort (by decide) (by simp)
  exact ⟨decode_oneApplication (by decide), rfl,
    ⟨_, State.apply_eq_ok_iff.2 (hregister 0), rfl⟩, decode_oneApplication (by decide),
    ⟨_, State.apply_eq_ok_iff.2 (hregister 5), rfl⟩⟩

end Arbiter
