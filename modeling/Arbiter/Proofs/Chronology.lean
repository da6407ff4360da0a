import Arbiter.Proofs.Audit
import Arbiter.Proofs.Projection

/-!
# Who appears where, and when

Nodes, applications, events, replies and closings carry the time at which they were accepted.  A
command records the time it is accepted at, and records it at most once, so all times of a state are
different.  What an event refers to was there before it: its application, and the nodes that reply
to it and vote on it.
-/

namespace Arbiter

/-! ## The times of an event -/

namespace Event

variable {e : Event} {author solver caller : Address} {scores : List Score} {now : Version}

/-- The times that an event records. -/
def times (e : Event) : List Version :=
  e.createdAt :: (e.replyList.map (·.submittedAt) ++ (e.resolution.map (·.solvedAt)).toList)

theorem times_reply (hnew : e.hasReplied author = false) :
    (e.reply author scores now).times.Perm (now :: e.times) := by
  have hfresh : e.replies.get? author = none := OrderedMap.get?_eq_none_iff.2 hnew
  have hadded := OrderedMap.perm_values_insert (Reply.mk author scores now) hfresh
  have hreplies := (hadded.map (·.submittedAt)).append_right
    (e.resolution.map (·.solvedAt)).toList
  rw [reply_of_new hnew]
  exact (hreplies.cons e.createdAt).trans (List.Perm.swap ..)

theorem times_solve (hopen : e.resolution = none) :
    (e.solve solver caller now).times.Perm (now :: e.times) := by
  have hclosed : (e.solve solver caller now).times =
      e.createdAt :: (e.replyList.map (·.submittedAt) ++ [now]) := by
    simp [times, solve, hopen, replyList]
  have hbefore : e.times = e.createdAt :: e.replyList.map (·.submittedAt) := by
    simp [times, hopen]
  rw [hclosed, hbefore]
  exact ((List.perm_append_singleton _ _).cons _).trans (List.Perm.swap ..)

end Event

/-! ## The times of a roster -/

namespace Roster

variable {r : Roster} {address : Address}

theorem times_register_of_known (hknown : r.contains address = true) (spec : String)
    (now : Version) :
    (r.register address spec now).toList.map (·.registeredAt) =
      r.toList.map (·.registeredAt) := by
  rw [register, if_pos hknown]
  apply OrderedMap.map_values_modify
  intro n
  rfl

theorem times_register_of_new (hnew : r.contains address = false) (spec : String)
    (now : Version) :
    ((r.register address spec now).toList.map (·.registeredAt)).Perm
      (now :: r.toList.map (·.registeredAt)) := by
  have hfresh : r.nodes.get? address = none := OrderedMap.get?_eq_none_iff.2 hnew
  rw [register, if_neg (by simp [hnew])]
  exact (OrderedMap.perm_values_insert (Node.mk address spec 0 now) hfresh).map _

theorem times_creditAll (r : Roster) (scores : List Score) :
    (r.creditAll scores).toList.map (·.registeredAt) = r.toList.map (·.registeredAt) := by
  induction scores generalizing r with
  | nil => rfl
  | cons score scores ih =>
      refine (ih (r.credit score)).trans ?_
      apply OrderedMap.map_values_modify
      intro n
      rfl

end Roster

namespace State

open Event

variable {s s' : State} {caller : Address} {command : Command} {outcome : Outcome}
  {id : EventId} {e e' : Event}

/-- The times that a state records. -/
def times (s : State) : List Version :=
  s.roster.toList.map (·.registeredAt) ++ s.catalog.toList.map (·.createdAt) ++
    s.docket.toList.flatMap Event.times

/-- A time that is recorded with the events only. -/
theorem times_of_docket {now : Version}
    (hroster : s'.roster.toList.map (·.registeredAt) = s.roster.toList.map (·.registeredAt))
    (hcatalog : s'.catalog = s.catalog)
    (hdocket : (s'.docket.toList.flatMap Event.times).Perm
      (now :: s.docket.toList.flatMap Event.times)) :
    s'.times.Perm (now :: s.times) := by
  simp only [times, hroster, hcatalog]
  exact (hdocket.append_left _).trans List.perm_middle

theorem times_modify {f : Event → Event} {now : Version} (he : s.docket.get? id = some e)
    (hf : (f e).times.Perm (now :: e.times)) :
    ((s.docket.modify id f).toList.flatMap Event.times).Perm
      (now :: s.docket.toList.flatMap Event.times) :=
  OrderedMap.perm_flatMap_modify he (show (f e).times.Perm ([now] ++ e.times) from hf)

/-- A command records no time but its own, and that at most once. -/
theorem Accepted.times_perm (h : Accepted s caller command s' outcome) (hs : s.Numbered) :
    s'.times.Perm s.times ∨ s'.times.Perm ((s.version + 1) :: s.times) := by
  cases h with
  | @registerNode spec =>
      by_cases hknown : s.roster.contains caller = true
      · left
        have hsame := Roster.times_register_of_known hknown spec (s.version + 1)
        simp only [times, hsame]
        exact .refl _
      · right
        have hadded := Roster.times_register_of_new (Bool.not_eq_true _ ▸ hknown) spec
          (s.version + 1)
        exact (hadded.append_right _).append_right _
  | @registerApplication info requiredSpecs multiReplyAllowed =>
      right
      have hadded : (s.catalog.register info requiredSpecs multiReplyAllowed caller
          (s.version + 1)).toList = s.catalog.toList ++ [_] :=
        OrderedMap.values_insert_of_last _ hs.applications
      simp only [times, hadded, List.map_append, List.map_cons, List.map_nil]
      rw [← List.append_assoc]
      exact (List.perm_append_singleton _ _).append_right _
  | @sendEvent payload application =>
      right
      have hadded : (s.docket.enter application payload caller (s.version + 1)).toList =
          s.docket.toList ++ [_] :=
        OrderedMap.values_insert_of_last _ hs.events
      refine times_of_docket rfl rfl ?_
      rw [hadded, List.flatMap_append]
      exact List.perm_append_singleton _ _
  | sendReply there _ accepts =>
      right
      obtain ⟨_, _, hnew, _⟩ := checkReply_eq_ok_iff.1 accepts
      exact times_of_docket (Roster.times_creditAll ..) rfl
        (times_modify there (times_reply hnew))
  | @voteSolver id candidate e there =>
      left
      have hsame : ((s.docket.modify id (·.vote caller candidate s.roster.size)).toList.flatMap
          Event.times).Perm ([] ++ s.docket.toList.flatMap Event.times) :=
        OrderedMap.perm_flatMap_modify there (.refl e.times)
      exact hsame.append_left _
  | solveEvent there accepts =>
      right
      obtain ⟨hopen, _⟩ := checkSolve_eq_ok_iff.1 accepts
      exact times_of_docket rfl rfl (times_modify there (times_solve hopen))

/-- All times are different, and none is later than the version. -/
structure Dated (s : State) : Prop where
  distinct : s.times.Nodup
  past : ∀ t ∈ s.times, 1 ≤ t ∧ t ≤ s.version

theorem Dated.initial (policy : Policy) : (initial policy).Dated where
  distinct := List.nodup_nil
  past := by
    intro t ht
    exact absurd ht List.not_mem_nil

theorem Dated.accepted (h : s.Dated) (hs : s.Numbered)
    (haccepted : Accepted s caller command s' outcome) : s'.Dated := by
  have hnew : s.version + 1 ∉ s.times := by
    intro hmem
    exact Nat.not_succ_le_self _ (h.past _ hmem).2
  rcases haccepted.times_perm hs with hperm | hperm
  · constructor
    · exact hperm.nodup_iff.2 h.distinct
    · intro t ht
      obtain ⟨hlow, hhigh⟩ := h.past t (hperm.mem_iff.1 ht)
      rw [haccepted.version_eq]
      exact ⟨hlow, Nat.le_succ_of_le hhigh⟩
  · constructor
    · exact hperm.nodup_iff.2 (List.nodup_cons.2 ⟨hnew, h.distinct⟩)
    · intro t ht
      rw [haccepted.version_eq]
      rcases List.mem_cons.1 (hperm.mem_iff.1 ht) with rfl | ht
      · exact ⟨Nat.succ_pos _, Nat.le_refl _⟩
      · exact ⟨(h.past t ht).1, Nat.le_succ_of_le (h.past t ht).2⟩

/-! ### Where the times are found -/

theorem registeredAt_mem_times {address : Address} {n : Node}
    (hn : s.roster.get? address = some n) : n.registeredAt ∈ s.times := by
  have hmem : n ∈ s.roster.toList := OrderedMap.mem_values_iff.2 ⟨address, hn⟩
  simp only [times, List.mem_append]
  exact .inl (.inl (List.mem_map_of_mem hmem))

theorem application_mem_times {a : Application} {number : ApplicationId}
    (ha : s.catalog.get? number = some a) : a.createdAt ∈ s.times := by
  have hmem : a ∈ s.catalog.toList := OrderedMap.mem_values_iff.2 ⟨number, ha⟩
  simp only [times, List.mem_append]
  exact .inl (.inr (List.mem_map_of_mem hmem))

theorem event_mem_times (he : s.docket.get? id = some e) {t : Version} (ht : t ∈ e.times) :
    t ∈ s.times := by
  have hmem : e ∈ s.docket.toList := OrderedMap.mem_values_iff.2 ⟨id, he⟩
  simp only [times, List.mem_append]
  exact .inr (List.mem_flatMap.2 ⟨e, hmem, ht⟩)

end State

/-! ## What an event refers to -/

theorem Event.scoreFault?_eq_none_iff {author : Address} {seen : List Address}
    {scores : List Score} :
    Event.scoreFault? author seen scores = none ↔
      (scores.map (·.target)).Nodup ∧ ∀ s ∈ scores, s.target ≠ author ∧ s.target ∉ seen := by
  induction scores generalizing seen with
  | nil => simp [Event.scoreFault?]
  | cons first rest ih =>
      rw [Event.scoreFault?]
      by_cases hself : first.target = author
      · simp [hself]
      by_cases hseen : first.target ∈ seen
      · simp [hself, hseen]
      · have hmem : ∀ s : Score, s.target ∉ first.target :: seen ↔
            s.target ≠ first.target ∧ s.target ∉ seen := by
          intro s
          rw [List.mem_cons, not_or]
        rw [if_neg hself, if_neg (by simpa using hseen), ih]
        simp only [hmem, List.map_cons, List.nodup_cons, List.forall_mem_cons, List.mem_map]
        grind

/-- A reply of a node that was registered before it, with scores for different accounts other than
its author's, and for fewer of them than there are nodes. -/
structure Reply.Proper (roster : Roster) (address : Address) (r : Reply) : Prop where
  author : r.author = address
  registered : ∃ n, roster.get? address = some n ∧ n.registeredAt < r.submittedAt
  distinct : (r.scores.map (·.target)).Nodup
  selfless : ∀ s ∈ r.scores, s.target ≠ r.author
  few : r.scores.length < roster.size

namespace Event

/-- An event whose application, voters and authors of replies were there before, with votes only
after enough replies, and which nobody replied to before it was sent or after it was closed. -/
structure Proper (policy : Policy) (roster : Roster) (catalog : Catalog) (e : Event) : Prop where
  application : ∃ a, catalog.get? e.application = some a ∧ a.createdAt < e.createdAt
  replies : ∀ {author : Address} {r : Reply}, e.replies.get? author = some r →
    r.Proper roster author ∧ e.createdAt < r.submittedAt
  voters : ∀ {voter : Address}, e.hasVoted voter = true → roster.contains voter = true
  quota : e.votes.isEmpty = false → policy.minReplies ≤ e.replies.size
  closing : ∀ {c : Resolution}, e.resolution = some c → e.createdAt < c.solvedAt ∧
    ∀ {author : Address} {r : Reply}, e.replies.get? author = some r → r.submittedAt < c.solvedAt

namespace Proper

variable {policy : Policy} {roster roster' : Roster} {catalog catalog' : Catalog} {e : Event}
  {now : Version}

theorem contains_of_hasReplied (h : e.Proper policy roster catalog) {author : Address}
    (hreplied : e.hasReplied author = true) : roster.contains author = true := by
  obtain ⟨r, hr⟩ := OrderedMap.contains_iff.1 hreplied
  obtain ⟨n, hn, -⟩ := (h.replies hr).1.registered
  exact OrderedMap.contains_iff.2 ⟨n, hn⟩

/-- Replies and votes are no more than the nodes. -/
theorem size_le (h : e.Proper policy roster catalog) :
    e.replies.size ≤ roster.size ∧ e.votes.size ≤ roster.size :=
  ⟨OrderedMap.size_le_of_contains fun _ hk => h.contains_of_hasReplied hk,
    OrderedMap.size_le_of_contains fun _ hk => h.voters hk⟩

theorem fresh {application : ApplicationId} {a : Application}
    (ha : catalog.get? application = some a) (hbefore : a.createdAt < now) (id : EventId)
    (payload : String) (sender : Address) :
    (fresh id application payload sender now).Proper policy roster catalog where
  application := ⟨a, ha, hbefore⟩
  replies := by simp [Event.fresh]
  voters := by simp [Event.fresh, hasVoted, OrderedMap.contains]
  quota := by simp [Event.fresh, OrderedMap.isEmpty, OrderedMap.empty]
  closing := by simp [Event.fresh]

/-- With more nodes and applications an event is as proper as before. -/
theorem mono (h : e.Proper policy roster catalog)
    (hroster : ∀ {address : Address} {n : Node}, roster.get? address = some n →
      ∃ n', roster'.get? address = some n' ∧ n'.registeredAt = n.registeredAt)
    (hcatalog : ∀ {number : ApplicationId} {a : Application},
      catalog.get? number = some a → catalog'.get? number = some a) :
    e.Proper policy roster' catalog' := by
  have hcontains : ∀ {address : Address}, roster.contains address = true →
      roster'.contains address = true := by
    intro address haddress
    obtain ⟨n, hn⟩ := OrderedMap.contains_iff.1 haddress
    obtain ⟨n', hn', -⟩ := hroster hn
    exact OrderedMap.contains_iff.2 ⟨n', hn'⟩
  have hsize : roster.size ≤ roster'.size :=
    OrderedMap.size_le_of_contains fun _ hk => hcontains hk
  obtain ⟨a, ha, hbefore⟩ := h.application
  refine ⟨⟨a, hcatalog ha, hbefore⟩, ?_, fun hvoted => hcontains (h.voters hvoted), h.quota,
    h.closing⟩
  intro author r hr
  obtain ⟨hproper, hcreated⟩ := h.replies hr
  obtain ⟨n, hn, hregistered⟩ := hproper.registered
  obtain ⟨n', hn', hsame⟩ := hroster hn
  refine ⟨⟨hproper.author, ⟨n', hn', ?_⟩, hproper.distinct, hproper.selfless, ?_⟩, hcreated⟩
  · rw [hsame]
    exact hregistered
  · exact Nat.lt_of_lt_of_le hproper.few hsize

theorem reply (h : e.Proper policy roster catalog) {application : Application} {author : Address}
    {scores : List Score} {n : Node} (hn : roster.get? author = some n)
    (haccepts : e.checkReply application roster author scores = .ok ())
    (hregistered : n.registeredAt < now) (hcreated : e.createdAt < now) :
    (e.reply author scores now).Proper policy roster catalog := by
  obtain ⟨hopen, hcontains, hnew, hcount, hfault, -⟩ := checkReply_eq_ok_iff.1 haccepts
  obtain ⟨hdistinct, hself⟩ := scoreFault?_eq_none_iff.1 hfault
  have hfew : scores.length < roster.size := by
    have hpositive : 0 < roster.size := OrderedMap.size_pos_of_contains hcontains
    omega
  have hfresh : e.replies.get? author = none := OrderedMap.get?_eq_none_iff.2 hnew
  have hsize : e.replies.size ≤ (e.replies.insert author ⟨author, scores, now⟩).size :=
    OrderedMap.size_le_of_contains fun _ hk => OrderedMap.contains_insert.2 (.inr hk)
  rw [reply_of_new hnew]
  refine ⟨h.application, ?_, h.voters, fun hvotes => Nat.le_trans (h.quota hvotes) hsize, ?_⟩
  · intro author' r hr
    rw [OrderedMap.get?_insert] at hr
    split at hr
    · next heq =>
        obtain rfl := Option.some.inj hr
        subst heq
        exact ⟨⟨rfl, ⟨n, hn, hregistered⟩, hdistinct, fun s hs => (hself s hs).1, hfew⟩,
          hcreated⟩
    · exact h.replies hr
  · intro c hc
    exact absurd (hopen.symm.trans hc) (by simp)

theorem vote (h : e.Proper policy roster catalog) {voter candidate : Address} {registered : Nat}
    (haccepts : e.checkVote policy roster voter = .ok ()) :
    (e.vote voter candidate registered).Proper policy roster catalog := by
  obtain ⟨-, hcontains, -, hquota⟩ := checkVote_eq_ok_iff.1 haccepts
  refine ⟨h.application, h.replies, ?_, fun _ => hquota, h.closing⟩
  intro voter' hvoted
  rcases OrderedMap.contains_insert.1 hvoted with rfl | hbefore
  · exact hcontains
  · exact h.voters hbefore

theorem solve (h : e.Proper policy roster catalog) {solver caller : Address}
    (hopen : e.resolution = none) (hcreated : e.createdAt < now)
    (hsubmitted : ∀ {author : Address} {r : Reply}, e.replies.get? author = some r →
      r.submittedAt < now) :
    (e.solve solver caller now).Proper policy roster catalog := by
  refine ⟨h.application, h.replies, h.voters, h.quota, ?_⟩
  intro c hc
  have hclosing : (e.solve solver caller now).resolution =
      some ⟨solver, caller, now, e.ranking⟩ := by
    simp [Event.solve, hopen]
  obtain rfl := Option.some.inj (hclosing.symm.trans hc)
  exact ⟨hcreated, hsubmitted⟩

end Proper

end Event

namespace State

open Event

variable {s s' : State} {caller : Address} {command : Command} {outcome : Outcome}
  {id : EventId} {e e' : Event}

/-! ## States -/

/-- A registered node stays, and so does the time of its registration. -/
theorem Accepted.registered (h : Accepted s caller command s' outcome) {address : Address}
    {n : Node} (hn : s.roster.get? address = some n) :
    ∃ n', s'.roster.get? address = some n' ∧ n'.registeredAt = n.registeredAt := by
  cases h with
  | @registerNode spec =>
      by_cases haddress : address = caller
      · subst haddress
        have hself := s.roster.enrolment_register_self address spec (s.version + 1)
        rw [hn] at hself
        obtain ⟨n', hn', henrolment⟩ := Option.map_eq_some_iff.1 hself
        exact ⟨n', hn', congrArg (·.2.2) henrolment⟩
      · rw [Roster.get?_register_of_ne haddress]
        exact ⟨n, hn, rfl⟩
  | @sendReply _ scores =>
      have hsame := s.roster.enrolment_creditAll scores address
      rw [hn] at hsame
      obtain ⟨n', hn', henrolment⟩ := Option.map_eq_some_iff.1 hsame
      exact ⟨n', hn', congrArg (·.2.2) henrolment⟩
  | registerApplication => exact ⟨n, hn, rfl⟩
  | sendEvent => exact ⟨n, hn, rfl⟩
  | voteSolver => exact ⟨n, hn, rfl⟩
  | solveEvent => exact ⟨n, hn, rfl⟩

theorem Trail.registered {entries : List Entry} (h : Trail s entries s') {address : Address}
    {n : Node} (hn : s.roster.get? address = some n) :
    ∃ n', s'.roster.get? address = some n' ∧ n'.registeredAt = n.registeredAt := by
  refine h.invariant (P := fun t => ∃ n', t.roster.get? address = some n' ∧
    n'.registeredAt = n.registeredAt) ⟨n, hn, rfl⟩ ?_
  rintro t t' caller command outcome - haccepted ⟨n₁, hn₁, hsame⟩
  obtain ⟨n', hn', hkept⟩ := haccepted.registered hn₁
  exact ⟨n', hn', hkept.trans hsame⟩

/-- An application stays as it is. -/
theorem Accepted.application (h : Accepted s caller command s' outcome) (hs : s.Numbered)
    {number : ApplicationId} {a : Application} (ha : s.catalog.get? number = some a) :
    s'.catalog.get? number = some a := by
  cases h with
  | registerApplication =>
      have hfresh := OrderedMap.get?_eq_none_iff.1 hs.nextApplication_fresh
      exact OrderedMap.get?_insert_of_fresh hfresh ha
  | registerNode => exact ha
  | sendEvent => exact ha
  | sendReply => exact ha
  | voteSolver => exact ha
  | solveEvent => exact ha

theorem Dated.createdAt_lt (h : s.Dated) (he : s.docket.get? id = some e) :
    e.createdAt < s.version + 1 :=
  Nat.lt_succ_of_le (h.past _ (event_mem_times he (by simp [Event.times]))).2

theorem Dated.submittedAt_lt (h : s.Dated) (he : s.docket.get? id = some e) {author : Address}
    {r : Reply} (hr : e.replies.get? author = some r) : r.submittedAt < s.version + 1 := by
  have hmem : r ∈ e.replyList := OrderedMap.mem_values_iff.2 ⟨author, hr⟩
  refine Nat.lt_succ_of_le (h.past _ (event_mem_times he ?_)).2
  simp only [Event.times, List.mem_cons, List.mem_append]
  exact .inr (.inl (List.mem_map_of_mem hmem))

theorem Dated.registeredAt_lt (h : s.Dated) {address : Address} {n : Node}
    (hn : s.roster.get? address = some n) : n.registeredAt < s.version + 1 :=
  Nat.lt_succ_of_le (h.past _ (registeredAt_mem_times hn)).2

/-- What a command does to a proper event. -/
theorem EventStep.proper (h : EventStep s caller id command e e') (hdated : s.Dated)
    (he : s.docket.get? id = some e) (hproper : e.Proper s.policy s.roster s.catalog) :
    e'.Proper s.policy s.roster s.catalog := by
  cases h with
  | other => exact hproper
  | reply _ accepts =>
      obtain ⟨-, hcontains, -⟩ := checkReply_eq_ok_iff.1 accepts
      obtain ⟨n, hn⟩ := OrderedMap.contains_iff.1 hcontains
      exact hproper.reply hn accepts (hdated.registeredAt_lt hn) (hdated.createdAt_lt he)
  | vote accepts => exact hproper.vote accepts
  | solve accepts =>
      obtain ⟨hopen, -⟩ := checkSolve_eq_ok_iff.1 accepts
      exact hproper.solve hopen (hdated.createdAt_lt he) (hdated.submittedAt_lt he)

/-- A state whose times are in order and whose events are proper. -/
structure Proper (s : State) : Prop where
  dated : s.Dated
  events : ∀ {id : EventId} {e : Event},
    s.docket.get? id = some e → e.Proper s.policy s.roster s.catalog

theorem Proper.initial (policy : Policy) : (initial policy).Proper where
  dated := .initial policy
  events := by simp [State.initial, Docket.get?]

theorem Proper.accepted (h : s.Proper) (hs : s.Numbered)
    (haccepted : Accepted s caller command s' outcome) : s'.Proper := by
  refine ⟨h.dated.accepted hs haccepted, ?_⟩
  intro id e' he'
  -- the event as it is with the nodes and applications from before the command
  have hbefore : e'.Proper s.policy s.roster s.catalog := by
    rcases haccepted.event_cases hs.nextId_fresh he' with
      ⟨-, _, application, -, hknown, rfl⟩ | ⟨e, he, hstep⟩
    · obtain ⟨a, ha⟩ := OrderedMap.contains_iff.1 hknown
      exact .fresh ha (Nat.lt_succ_of_le (h.dated.past _ (application_mem_times ha)).2) _ _ _
    · exact hstep.proper h.dated he (h.events he)
  rw [haccepted.policy_eq]
  exact hbefore.mono haccepted.registered (haccepted.application hs)

theorem Reachable.proper {policy : Policy} (h : Reachable policy s) : s.Proper :=
  h.invariant (.initial policy) fun ht haccepted hproper => hproper.accepted ht.numbered haccepted

/-- In a state that a controller can be in all times are different and lie between 1 and the
version.  Every event has an application that was registered before it was sent, replies of nodes
that were registered before they replied, after the event was sent and before it was closed, and
votes of nodes, and votes only with as many replies as the policy asks for.  There are no more
replies and no more votes than nodes. -/
theorem who_appears_where_and_when {policy : Policy} (hs : Reachable policy s) :
    s.times.Nodup ∧ (∀ t ∈ s.times, 1 ≤ t ∧ t ≤ s.version) ∧
      ∀ (id : EventId) (e : Event), s.docket.get? id = some e →
        e.Proper policy s.roster s.catalog ∧ e.replies.size ≤ s.roster.size ∧
          e.votes.size ≤ s.roster.size := by
  have hproper := hs.proper
  refine ⟨hproper.dated.distinct, hproper.dated.past, ?_⟩
  intro id e he
  have hevent := hproper.events he
  obtain ⟨hreplies, hvotes⟩ := hevent.size_le
  rw [hs.policy_eq] at hevent
  exact ⟨hevent, hreplies, hvotes⟩

/-- Two nodes, one of which registers twice; the other one replies, both vote, and the event is
closed. -/
def closedAfterReply : List (Address × Command) :=
  [(.ofLow 1, .registerNode "s"), (.ofLow 2, .registerNode "s"), (.ofLow 1, .registerNode "t"),
    (.ofLow 1, .registerApplication "i" [] false), (.ofLow 3, .sendEvent "p" 1),
    (.ofLow 2, .voteSolver 1 (.ofLow 1)), (.ofLow 2, .sendReply 1 [⟨.ofLow 1, 5⟩]),
    (.ofLow 2, .voteSolver 1 (.ofLow 1)), (.ofLow 1, .voteSolver 1 (.ofLow 1)),
    (.ofLow 1, .solveEvent 1)]

theorem who_appears_where_and_when_of_closedAfterReply :
    ((initial { minReplies := 1 }).run closedAfterReply).times = [1, 2, 4, 5, 6, 9] ∧
      ((initial { minReplies := 1 }).run closedAfterReply).times.Nodup ∧
        ∃ e, ((initial { minReplies := 1 }).run closedAfterReply).docket.get? 1 = some e ∧
          e.phase = .solved ∧
            e.Proper { minReplies := 1 } ((initial { minReplies := 1 }).run closedAfterReply).roster
              ((initial { minReplies := 1 }).run closedAfterReply).catalog := by
  obtain ⟨hdistinct, -, hevents⟩ :=
    who_appears_where_and_when (reachable_run { minReplies := 1 } closedAfterReply)
  have hphase : (((initial { minReplies := 1 }).run closedAfterReply).docket.get? 1).map
      (·.phase) = some .solved := by
    decide +kernel
  obtain ⟨e, he, hsolved⟩ := Option.map_eq_some_iff.1 hphase
  exact ⟨by decide +kernel, hdistinct, e, he, hsolved, (hevents 1 e he).1⟩

end State

end Arbiter
