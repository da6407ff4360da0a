import Arbiter.Proofs.Election
import Arbiter.State.Audit

/-!
# What the audit asks for

A state passes the audit exactly when its applications and its events, taken in the order of their
keys, are numbered from 1 on, no application is from the future and no event disagrees with itself.
What is asked of an event is kept by every accepted command.  The keys themselves are not looked at,
and neither are the numbers that were given last.
-/

namespace Arbiter

namespace Event

variable {e : Event} {catalog catalog' : Catalog} {now : Version}

theorem target_ne_of_scoreFault? {author : Address} {seen : List Address} {scores : List Score}
    (h : scoreFault? author seen scores = none) {s : Score} (hs : s ∈ scores) :
    s.target ≠ author := by
  induction scores generalizing seen with
  | nil => simp at hs
  | cons first rest ih =>
      rw [scoreFault?] at h
      split at h
      · simp at h
      · split at h
        · simp at h
        · rcases List.mem_cons.1 hs with rfl | hs
          · assumption
          · exact ih h hs

theorem mem_replyList_reply {author : Address} {scores : List Score}
    (hnew : e.hasReplied author = false) {r : Reply}
    (hr : r ∈ (e.reply author scores now).replyList) :
    r = ⟨author, scores, now⟩ ∨ r ∈ e.replyList := by
  simp only [reply, hnew, replyList, OrderedMap.mem_values_iff, Bool.false_eq_true, if_false,
    OrderedMap.get?_insert] at hr ⊢
  obtain ⟨k, hk⟩ := hr
  split at hk
  · exact .inl (Option.some.inj hk).symm
  · exact .inr ⟨k, hk⟩

/-! ## Events that agree with themselves -/

/-- An event that is for a known application, without scores of an author for itself, and with votes
for the elected solver, who is the solver of the resolution too. -/
structure Audited (catalog : Catalog) (e : Event) : Prop where
  application : catalog.contains e.application = true
  selfless : ∀ r ∈ e.replyList, ∀ s ∈ r.scores, s.target ≠ r.author
  elected : ∀ {solver : Address}, e.electedSolver = some solver → 0 < e.votesFor solver
  solver : ∀ {r : Resolution}, e.resolution = some r → e.electedSolver = some r.solver

namespace Audited

theorem fresh {application : ApplicationId} (happlication : catalog.contains application = true)
    (id : EventId) (payload : String) (sender : Address) :
    (fresh id application payload sender now).Audited catalog where
  application := happlication
  selfless := by simp [Event.fresh, replyList, OrderedMap.values, OrderedMap.empty]
  elected := by simp [Event.fresh]
  solver := by simp [Event.fresh]

theorem mono (h : e.Audited catalog)
    (hcatalog : ∀ id, catalog.contains id = true → catalog'.contains id = true) :
    e.Audited catalog' where
  __ := h
  application := hcatalog _ h.application

theorem reply (h : e.Audited catalog) (hopen : e.resolution = none) {author : Address}
    (hnew : e.hasReplied author = false) {scores : List Score}
    (hself : scoreFault? author [] scores = none) :
    (e.reply author scores now).Audited catalog := by
  have hkept : e.reply author scores now =
      { e with replies := e.replies.insert author ⟨author, scores, now⟩ } := reply_of_new hnew
  constructor
  case application =>
    rw [hkept]
    exact h.application
  case selfless =>
    intro r hr
    rcases mem_replyList_reply hnew hr with rfl | hr
    · exact fun _ => target_ne_of_scoreFault? hself
    · exact h.selfless r hr
  case elected =>
    rw [hkept]
    exact h.elected
  case solver =>
    rw [hkept]
    simp [hopen]

theorem vote (h : e.Audited catalog) (hopen : e.resolution = none) {voter candidate : Address}
    (hnew : e.hasVoted voter = false) {registered : Nat} :
    (e.vote voter candidate registered).Audited catalog := by
  have hresolution : (e.vote voter candidate registered).resolution = none := hopen
  refine ⟨h.application, h.selfless, ?_, by simp [hresolution]⟩
  intro solver helected
  cases hbefore : e.electedSolver with
  | none =>
      rw [electedSolver_vote_of_none hbefore] at helected
      split at helected
      · next hquorum =>
          obtain rfl := Option.some.inj helected
          rw [quorum_le_iff] at hquorum
          omega
      · simp at helected
  | some solver' =>
      obtain rfl : solver' = solver := by
        simpa [electedSolver_vote_of_some hbefore] using helected
      have hpositive := h.elected hbefore
      rw [votesFor_vote hnew]
      omega

theorem solve (h : e.Audited catalog) (hopen : e.resolution = none) {solver caller : Address}
    (helected : e.electedSolver = some solver) :
    (e.solve solver caller now).Audited catalog := by
  have hresolution : (e.solve solver caller now).resolution =
      some ⟨solver, caller, now, e.ranking⟩ := by
    simp [Event.solve, hopen]
  refine ⟨h.application, h.selfless, h.elected, ?_⟩
  intro r hr
  obtain rfl := Option.some.inj (hresolution.symm.trans hr)
  exact helected

end Audited

end Event

namespace State

variable {s s' : State} {caller : Address} {command : Command} {outcome : Outcome}
  {id : EventId} {e e' : Event} {catalog : Catalog} {now : Version}

theorem EventStep.audited (h : EventStep s caller id command e e') (he : e.Audited s.catalog) :
    e'.Audited s.catalog := by
  cases h with
  | other => exact he
  | reply _ accepts =>
      obtain ⟨hopen, _, hnew, _, hself, _⟩ := Event.checkReply_eq_ok_iff.1 accepts
      exact he.reply hopen hnew hself
  | vote accepts =>
      obtain ⟨hopen, _, hnew, _⟩ := Event.checkVote_eq_ok_iff.1 accepts
      exact he.vote hopen hnew
  | solve accepts =>
      obtain ⟨hopen, helected, -⟩ := Event.checkSolve_eq_ok_iff.1 accepts
      exact he.solve hopen helected

/-! ## The audit -/

theorem auditEvent_eq_ok_iff : auditEvent catalog e = .ok () ↔ e.Audited catalog := by
  have hself : (e.replyList.find? fun r => r.scores.any (·.target == r.author)) = none ↔
      ∀ r ∈ e.replyList, ∀ s ∈ r.scores, s.target ≠ r.author := by
    simp
  have hparts : e.Audited catalog ↔ catalog.contains e.application = true ∧
      (e.replyList.find? fun r => r.scores.any (·.target == r.author)) = none ∧
      (∀ {solver}, e.electedSolver = some solver → 0 < e.votesFor solver) ∧
      ∀ {r : Resolution}, e.resolution = some r → e.electedSolver = some r.solver := by
    rw [hself]
    exact ⟨fun h => ⟨h.application, h.selfless, h.elected, h.solver⟩,
      fun h => ⟨h.1, h.2.1, h.2.2.1, h.2.2.2⟩⟩
  rw [hparts]
  unfold auditEvent
  cases catalog.contains e.application
  · simp [bind, Except.bind, throw, throwThe, MonadExceptOf.throw]
  cases e.replyList.find? fun r => r.scores.any (·.target == r.author)
  case some r => simp [bind, Except.bind, throw, throwThe, MonadExceptOf.throw]
  cases e.electedSolver <;> cases e.resolution <;>
    simp [bind, Except.bind, pure, Except.pure, throw, throwThe, MonadExceptOf.throw,
      Nat.pos_iff_ne_zero, ite_error_eq_ok]

theorem auditEvents_eq_ok_iff {place : Nat} {events : List Event} :
    auditEvents catalog place events = .ok () ↔
      events.map (·.id) = List.range' place events.length ∧ ∀ e ∈ events, e.Audited catalog := by
  induction events generalizing place with
  | nil => simp [auditEvents]
  | cons e events ih =>
      simp only [auditEvents, bind, ite_error_eq_ok, bind_eq_ok_iff, List.map_cons,
        List.length_cons, List.range'_succ, List.cons.injEq, List.forall_mem_cons, not_not, ih]
      constructor
      · rintro ⟨hid, _, hevent, hids, hevents⟩
        exact ⟨⟨hid, hids⟩, auditEvent_eq_ok_iff.1 hevent, hevents⟩
      · rintro ⟨⟨hid, hids⟩, hevent, hevents⟩
        exact ⟨hid, (), auditEvent_eq_ok_iff.2 hevent, hids, hevents⟩

theorem auditApplications_eq_ok_iff {place : Nat} {applications : List Application} :
    auditApplications now place applications = .ok () ↔
      applications.map (·.id) = List.range' place applications.length ∧
        ∀ a ∈ applications, a.createdAt ≤ now := by
  induction applications generalizing place with
  | nil => simp [auditApplications]
  | cons a applications ih =>
      simp only [auditApplications, ite_error_eq_ok, List.map_cons, List.length_cons,
        List.range'_succ, List.cons.injEq, List.forall_mem_cons, not_not, Nat.not_lt, ih]
      constructor
      · rintro ⟨hid, hpast, hids, hrest⟩
        exact ⟨⟨hid, hids⟩, hpast, hrest⟩
      · rintro ⟨⟨hid, hids⟩, hpast, hrest⟩
        exact ⟨hid, hpast, hids, hrest⟩

/-- What is stored in the order of the keys is numbered from 1 on and agrees with itself. -/
structure Audited (s : State) : Prop where
  applications : s.catalog.toList.map (·.id) = List.range' 1 s.catalog.toList.length
  events : s.docket.toList.map (·.id) = List.range' 1 s.docket.toList.length
  past : ∀ a ∈ s.catalog.toList, a.createdAt ≤ s.version
  event : ∀ e ∈ s.docket.toList, e.Audited s.catalog

theorem audit_eq_ok_iff : s.audit = .ok () ↔ s.Audited := by
  constructor
  · intro h
    obtain ⟨⟨⟩, happlications, hevents⟩ := bind_eq_ok_iff.1 h
    obtain ⟨hnumbers, hpast⟩ := auditApplications_eq_ok_iff.1 happlications
    obtain ⟨hnumbers', hevent⟩ := auditEvents_eq_ok_iff.1 hevents
    exact ⟨hnumbers, hnumbers', hpast, hevent⟩
  · intro h
    exact bind_eq_ok_iff.2 ⟨(), auditApplications_eq_ok_iff.2 ⟨h.applications, h.past⟩,
      auditEvents_eq_ok_iff.2 ⟨h.events, h.event⟩⟩

end State

end Arbiter
