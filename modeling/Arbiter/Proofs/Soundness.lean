import Arbiter.Proofs.Audit
import Arbiter.Proofs.Rankings

/-!
# Sound states

What a reachable state says about its past agrees with itself: nothing is from the future, no reply
scores its author, an elected solver has votes, and the record of a closed event names the elected
solver and keeps the ranking.  All sums stay within the range of sixty-four bits.  Such a state
passes the audit.
-/

namespace Arbiter

/-! ## Sound events -/

namespace Event

variable {e : Event}

/-- What an event says about its past agrees with itself and with the present. -/
structure Sound (catalog : Catalog) (now : Version) (e : Event) : Prop where
  application : catalog.contains e.application = true
  createdAt : e.createdAt ≤ now
  submittedAt : ∀ r ∈ e.replyList, r.submittedAt ≤ now
  selfless : ∀ r ∈ e.replyList, ∀ s ∈ r.scores, s.target ≠ r.author
  points : ∀ r ∈ e.replyList, ∀ s ∈ r.scores, InPoints s.value
  elected : ∀ {solver : Address}, e.electedSolver = some solver → 0 < e.votesFor solver
  solver : ∀ {r : Resolution}, e.resolution = some r → e.electedSolver = some r.solver
  solvedAt : ∀ {r : Resolution}, e.resolution = some r → r.solvedAt ≤ now
  standings : ∀ {r : Resolution}, e.resolution = some r → r.standings = e.ranking

namespace Sound

variable {catalog catalog' : Catalog} {now : Version}

theorem audited (h : e.Sound catalog now) : e.Audited catalog :=
  ⟨h.application, h.selfless, h.elected, h.solver⟩

theorem fresh {application : ApplicationId} (happlication : catalog.contains application = true)
    (id : EventId) (payload : String) (sender : Address) :
    (fresh id application payload sender now).Sound catalog now where
  application := happlication
  createdAt := Nat.le_refl now
  submittedAt := by simp [Event.fresh, replyList, OrderedMap.values, OrderedMap.empty]
  selfless := (Audited.fresh happlication id payload sender).selfless
  points := by simp [Event.fresh, replyList, OrderedMap.values, OrderedMap.empty]
  elected := by simp [Event.fresh]
  solver := by simp [Event.fresh]
  solvedAt := by simp [Event.fresh]
  standings := by simp [Event.fresh]

/-- Later, and with more applications, an event is as sound as before. -/
theorem mono {now' : Version} (h : e.Sound catalog now)
    (hcatalog : ∀ id, catalog.contains id = true → catalog'.contains id = true)
    (hnow : now ≤ now') : e.Sound catalog' now' where
  __ := h
  application := hcatalog _ h.application
  createdAt := Nat.le_trans h.createdAt hnow
  submittedAt r hr := Nat.le_trans (h.submittedAt r hr) hnow
  solvedAt hr := Nat.le_trans (h.solvedAt hr) hnow

theorem reply (h : e.Sound catalog now) (hopen : e.resolution = none) {author : Address}
    (hnew : e.hasReplied author = false) {scores : List Score}
    (hself : scoreFault? author [] scores = none) (hpoints : ∀ s ∈ scores, InPoints s.value) :
    (e.reply author scores now).Sound catalog now := by
  have haudited : (e.reply author scores now).Audited catalog :=
    h.audited.reply hopen hnew hself
  have hkept : e.reply author scores now =
      { e with replies := e.replies.insert author ⟨author, scores, now⟩ } := reply_of_new hnew
  have hresolution : (e.reply author scores now).resolution = none := by
    rw [hkept]
    exact hopen
  refine ⟨haudited.application, ?_, ?_, haudited.selfless, ?_, haudited.elected, haudited.solver,
    by simp [hresolution], by simp [hresolution]⟩
  case refine_1 =>
    rw [hkept]
    exact h.createdAt
  case refine_2 =>
    intro r hr
    rcases mem_replyList_reply hnew hr with rfl | hr
    · exact Nat.le_refl _
    · exact h.submittedAt r hr
  case refine_3 =>
    intro r hr
    rcases mem_replyList_reply hnew hr with rfl | hr
    · exact hpoints
    · exact h.points r hr

theorem vote (h : e.Sound catalog now) (hopen : e.resolution = none) {voter candidate : Address}
    (hnew : e.hasVoted voter = false) {registered : Nat} :
    (e.vote voter candidate registered).Sound catalog now := by
  have haudited : (e.vote voter candidate registered).Audited catalog :=
    h.audited.vote hopen hnew
  have hresolution : (e.vote voter candidate registered).resolution = none := hopen
  exact ⟨h.application, h.createdAt, h.submittedAt, h.selfless, h.points, haudited.elected,
    haudited.solver, by simp [hresolution], by simp [hresolution]⟩

theorem solve (h : e.Sound catalog now) (hopen : e.resolution = none) {solver caller : Address}
    (helected : e.electedSolver = some solver) :
    (e.solve solver caller now).Sound catalog now := by
  have haudited : (e.solve solver caller now).Audited catalog := h.audited.solve hopen helected
  have hresolution : (e.solve solver caller now).resolution =
      some ⟨solver, caller, now, e.ranking⟩ := by
    simp [Event.solve, hopen]
  refine ⟨h.application, h.createdAt, h.submittedAt, h.selfless, h.points, h.elected,
    haudited.solver, ?_, ?_⟩
    <;> intro r hr <;> obtain rfl := Option.some.inj (hresolution.symm.trans hr)
  · exact Nat.le_refl _
  · rfl

end Sound

end Event

/-! ## Sound rosters -/

namespace Roster

variable {r : Roster} {now now' : Version}

/-- No node is from the future, and all reputations are in range. -/
def Sound (now : Version) (r : Roster) : Prop :=
  ∀ (address : Address) (n : Node), r.get? address = some n →
    n.registeredAt ≤ now ∧ InPoints n.reputation

theorem Sound.mono (h : r.Sound now) (hnow : now ≤ now') : r.Sound now' := by
  intro address n hn
  exact ⟨Nat.le_trans (h address n hn).1 hnow, (h address n hn).2⟩

theorem Sound.creditAll (h : r.Sound now) (scores : List Score) :
    (r.creditAll scores).Sound now := by
  induction scores generalizing r with
  | nil => exact h
  | cons score scores ih =>
      refine ih (r := r.credit score) ?_
      intro address n hn
      simp only [get?, credit, OrderedMap.get?_modify] at hn
      split at hn
      · obtain ⟨before, hbefore, rfl⟩ := Option.map_eq_some_iff.1 hn
        exact ⟨(h _ before hbefore).1, inPoints_addPoints _ _⟩
      · exact h address n hn

theorem Sound.register (h : r.Sound now) (address : Address) (spec : String) :
    (r.register address spec now).Sound now := by
  intro address' n hn
  unfold Roster.register at hn
  split at hn
  · simp only [get?, OrderedMap.get?_modify] at hn
    split at hn
    · obtain ⟨before, hbefore, rfl⟩ := Option.map_eq_some_iff.1 hn
      exact h address before hbefore
    · exact h address' n hn
  · simp only [get?, OrderedMap.get?_insert] at hn
    split at hn
    · obtain rfl := Option.some.inj hn
      exact ⟨Nat.le_refl _, inPoints_zero⟩
    · exact h address' n hn

end Roster

namespace State

open Event

variable {s s' : State} {caller : Address} {command : Command} {outcome : Outcome}
  {id : EventId} {e e' : Event}

/-! ## What a command does to a sound event -/

theorem EventStep.sound (h : EventStep s caller id command e e')
    (hsound : e.Sound s.catalog s.version) (hcommand : command.InRange) :
    e'.Sound s.catalog (s.version + 1) := by
  have hlater : e.Sound s.catalog (s.version + 1) :=
    hsound.mono (fun _ hid => hid) (Nat.le_succ _)
  cases h with
  | other => exact hlater
  | reply _ accepts =>
      obtain ⟨hopen, _, hnew, _, hself, _⟩ := checkReply_eq_ok_iff.1 accepts
      exact hlater.reply hopen hnew hself hcommand.2
  | vote accepts =>
      obtain ⟨hopen, _, hnew, _⟩ := checkVote_eq_ok_iff.1 accepts
      exact hlater.vote hopen hnew
  | solve accepts =>
      obtain ⟨hopen, helected, -⟩ := checkSolve_eq_ok_iff.1 accepts
      exact hlater.solve hopen helected

/-! ## Sound states -/

/-- What a state says about its past agrees with itself. -/
structure Sound (s : State) : Prop where
  roster : s.roster.Sound s.version
  lastApplication : s.catalog.lastId ≤ s.version
  lastEvent : s.docket.lastId ≤ s.version
  applications : ∀ {id : ApplicationId} {a : Application},
    s.catalog.get? id = some a → a.createdAt ≤ s.version
  events : ∀ {id : EventId} {e : Event},
    s.docket.get? id = some e → e.Sound s.catalog s.version

theorem Accepted.contains_catalog (h : Accepted s caller command s' outcome) {id : ApplicationId}
    (hid : s.catalog.contains id = true) : s'.catalog.contains id = true := by
  cases h with
  | registerApplication => exact OrderedMap.contains_insert.2 (.inr hid)
  | registerNode => exact hid
  | sendEvent => exact hid
  | sendReply => exact hid
  | voteSolver => exact hid
  | solveEvent => exact hid

namespace Sound

theorem initial (policy : Policy) : (initial policy).Sound where
  roster := by intro address n hn; simp [State.initial, Roster.get?] at hn
  lastApplication := Nat.le_refl 0
  lastEvent := Nat.le_refl 0
  applications := by simp [State.initial, Catalog.get?]
  events := by simp [State.initial, Docket.get?]

theorem events_accepted (h : s.Sound) (hs : s.Numbered) (hcommand : command.InRange)
    (haccepted : Accepted s caller command s' outcome) {e' : Event}
    (he' : s'.docket.get? id = some e') : e'.Sound s'.catalog s'.version := by
  rw [haccepted.version_eq]
  rcases haccepted.event_cases hs.nextId_fresh he' with
    ⟨-, _, _, -, hknown, rfl⟩ | ⟨e, he, hstep⟩
  · exact Event.Sound.fresh (haccepted.contains_catalog hknown) _ _ _
  · exact (hstep.sound (h.events he) hcommand).mono
      (fun _ hid => haccepted.contains_catalog hid) (Nat.le_refl _)

theorem accepted (h : s.Sound) (hs : s.Numbered) (hcommand : command.InRange)
    (haccepted : Accepted s caller command s' outcome) : s'.Sound := by
  have hevents : ∀ {id : EventId} {e' : Event}, s'.docket.get? id = some e' →
      e'.Sound s'.catalog s'.version := h.events_accepted hs hcommand haccepted
  have hroster : s.roster.Sound (s.version + 1) := h.roster.mono (Nat.le_succ _)
  have happlications : ∀ {id : ApplicationId} {a : Application},
      s'.catalog.get? id = some a → a.createdAt ≤ s'.version := by
    intro id a ha
    rw [haccepted.version_eq]
    rcases haccepted.application_cases ha with hbefore | ⟨-, hnow⟩
    · exact Nat.le_succ_of_le (h.applications hbefore)
    · exact Nat.le_of_eq hnow
  have hlastApplication := Nat.le_succ_of_le h.lastApplication
  have hlastEvent := Nat.le_succ_of_le h.lastEvent
  cases haccepted with
  | registerNode =>
      exact ⟨hroster.register _ _, hlastApplication, hlastEvent, happlications, hevents⟩
  | registerApplication =>
      exact ⟨hroster, Nat.succ_le_succ h.lastApplication, hlastEvent, happlications, hevents⟩
  | sendEvent =>
      exact ⟨hroster, hlastApplication, Nat.succ_le_succ h.lastEvent, happlications, hevents⟩
  | sendReply =>
      exact ⟨hroster.creditAll _, hlastApplication, hlastEvent, happlications, hevents⟩
  | voteSolver => exact ⟨hroster, hlastApplication, hlastEvent, happlications, hevents⟩
  | solveEvent => exact ⟨hroster, hlastApplication, hlastEvent, happlications, hevents⟩

end Sound

theorem Trail.sound {entries : List Entry} (h : Trail s entries s') (hs : s.Numbered)
    (hsound : s.Sound) (hentries : ∀ e ∈ entries, e.command.InRange) : s'.Sound :=
  (h.invariant (P := fun t => t.Numbered ∧ t.Sound) ⟨hs, hsound⟩ fun hmem haccepted ht =>
    ⟨ht.1.accepted haccepted, ht.2.accepted ht.1 (hentries _ hmem) haccepted⟩).2

/-! ## The audit -/

/-- The values of a numbered map are numbered like its keys. -/
theorem map_id_values {α : Type} {m : OrderedMap Nat α} {number : α → Nat} {n : Nat}
    (hkeys : m.keys = List.range' 1 n) (hnumber : ∀ {k v}, m.get? k = some v → number v = k) :
    m.values.map number = List.range' 1 m.values.length := by
  have hlength : m.values.length = m.keys.length := by simp [OrderedMap.values, OrderedMap.keys]
  have hsame : m.values.map number = m.keys := by
    simp only [OrderedMap.values, OrderedMap.keys, List.map_map]
    refine List.map_congr_left fun b hb => ?_
    exact hnumber (OrderedMap.mem_toList_iff.1 hb)
  rw [hsame, hlength, hkeys, List.length_range']

theorem Sound.audited (h : s.Sound) (hs : s.Numbered) : s.Audited where
  applications := map_id_values hs.applications hs.applicationId
  events := map_id_values hs.events hs.eventId
  past a ha := by
    obtain ⟨id, hid⟩ := OrderedMap.mem_values_iff.1 ha
    exact h.applications hid
  event e he := by
    obtain ⟨id, hid⟩ := OrderedMap.mem_values_iff.1 he
    exact (h.events hid).audited

/-- A sound state passes the audit. -/
theorem Sound.audit (h : s.Sound) (hs : s.Numbered) : s.audit = .ok () :=
  audit_eq_ok_iff.2 (h.audited hs)

end State

end Arbiter
