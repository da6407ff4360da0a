import Arbiter.Proofs.BallotOrder
import Arbiter.Proofs.Chronology
import Arbiter.Proofs.Lifecycle
import Mathlib.Algebra.Group.Nat.Defs

/-!
# No event is stuck

The votes on an event may be split, and votes are final, but newcomers can still decide it.  More of
them than there are nodes, and enough for the quota of replies, register, reply without scores and
vote for one candidate.  Then they hold a majority, and so a solver is elected, be it their
candidate or another one.  Whoever it is registers and closes the event, which every authority
admits.
-/

namespace Arbiter

/-! ## Newcomers -/

theorem Address.ofLow_inj {n n' : Nat} (hn : n < capacity 8) (hn' : n' < capacity 8)
    (h : Address.ofLow n = Address.ofLow n') : n = n' := by
  have hbytes : List.replicate 12 0 ++ (leBytes 8 n).reverse =
      List.replicate 12 0 ++ (leBytes 8 n').reverse := congrArg Address.bytes h
  have hlow : leBytes 8 n = leBytes 8 n' :=
    List.reverse_inj.1 (List.append_cancel_left hbytes)
  calc n
    _ = leNat (leBytes 8 n) := (leNat_leBytes hn).symm
    _ = leNat (leBytes 8 n') := by rw [hlow]
    _ = n' := leNat_leBytes hn'

namespace Roster

variable {r : Roster} {address : Address}

/-- There are enough addresses for some that are not registered. -/
theorem exists_newcomers (r : Roster) (count : Nat) (hroom : r.size + count ≤ capacity 8) :
    ∃ news : List Address, news.length = count ∧ news.Nodup ∧
      ∀ a ∈ news, r.contains a = false := by
  let all := (List.range (r.size + count)).map Address.ofLow
  have hall : all.Nodup := by
    apply List.Nodup.map_on _ List.nodup_range
    intro n hn n' hn' heq
    rw [List.mem_range] at hn hn'
    exact Address.ofLow_inj (by omega) (by omega) heq
  have hknown : (all.filter r.contains).length ≤ r.size := by
    have hsubset : all.filter r.contains ⊆ r.nodes.keys := by
      intro a ha
      exact OrderedMap.mem_keys_iff.2 (List.mem_filter.1 ha).2
    have hlength := (List.subperm_of_subset (hall.filter _) hsubset).length_le
    simpa [OrderedMap.keys, size, OrderedMap.size] using hlength
  have hparts := List.length_eq_length_filter_add (l := all) r.contains
  have hcount : count ≤ (all.filter (!r.contains ·)).length := by
    have hlength : all.length = r.size + count := by simp [all]
    omega
  refine ⟨(all.filter (!r.contains ·)).take count, by simpa using hcount, ?_, ?_⟩
  · exact (hall.filter _).sublist (List.take_sublist _ _)
  · intro a ha
    have hmem := (List.mem_filter.1 (List.mem_of_mem_take ha)).2
    simpa using hmem

theorem size_register_of_new (hnew : r.contains address = false) (spec : String)
    (now : Version) : (r.register address spec now).size = r.size + 1 := by
  rw [register, if_neg (by simp [hnew])]
  exact OrderedMap.size_insert _ (OrderedMap.get?_eq_none_iff.2 hnew)

end Roster

/-- An event that waits for replies and for votes for a candidate, from different accounts that
have not replied and not voted yet. -/
structure Event.Waits (candidate : Address) (news replying voting : List Address)
    (e : Event) : Prop where
  opened : e.resolution = none
  replies : news.length ≤ e.replies.size + replying.length
  votes : news.length ≤ e.votesFor candidate + voting.length
  unreplied : ∀ a ∈ replying, e.hasReplied a = false
  unvoted : ∀ a ∈ voting, e.hasVoted a = false

namespace State

open Event

variable {policy : Policy} {s s' s'' : State} {caller candidate solver : Address}
  {command : Command} {outcome : Outcome} {id : EventId} {e e' : Event}
  {news registering replying voting rest : List Address} {nodes : Nat}

/-! ## Runs of accepted commands -/

theorem acceptAll_cons_of_accepted (h : Accepted s caller command s' outcome)
    (more : List (Address × Command)) :
    s.acceptAll ((caller, command) :: more) = s'.acceptAll more := by
  simp only [acceptAll, apply_eq_ok_iff.2 h]

theorem acceptAll_append {commands : List (Address × Command)}
    (h : s.acceptAll commands = .ok s') (more : List (Address × Command)) :
    s.acceptAll (commands ++ more) = s'.acceptAll more := by
  induction commands generalizing s with
  | nil =>
      obtain rfl := Except.ok.inj h
      rfl
  | cons c rest ih =>
      simp only [List.cons_append, acceptAll] at h ⊢
      cases happly : s.apply c.1 c.2 with
      | error _ => simp [happly] at h
      | ok result =>
          rw [happly] at h
          exact ih h

theorem version_of_acceptAll {commands : List (Address × Command)}
    (h : s.acceptAll commands = .ok s') : s'.version = s.version + commands.length := by
  induction commands generalizing s with
  | nil =>
      obtain rfl := Except.ok.inj h
      rfl
  | cons c rest ih =>
      simp only [acceptAll] at h
      cases happly : s.apply c.1 c.2 with
      | error _ => simp [happly] at h
      | ok result =>
          rw [happly] at h
          rw [ih h, (apply_eq_ok_iff.1 happly).version_eq, List.length_cons, Nat.add_assoc,
            Nat.add_comm 1]

/-- One command, given by several callers in turn, each of whom leaves things to the others. -/
theorem exists_acceptAll_map {P : List Address → State → Prop} {command : Command}
    (hstep : ∀ {a : Address} {rest : List Address} {s : State}, P (a :: rest) s →
      ∃ s' outcome, Accepted s a command s' outcome ∧ P rest s')
    {callers : List Address} (h : P callers s) :
    ∃ s', s.acceptAll (callers.map (·, command)) = .ok s' ∧ P [] s' := by
  induction callers generalizing s with
  | nil => exact ⟨s, rfl, h⟩
  | cons a rest ih =>
      obtain ⟨s₁, outcome, haccepted, h₁⟩ := hstep h
      obtain ⟨s', hrest, h'⟩ := ih h₁
      exact ⟨s', (acceptAll_cons_of_accepted haccepted _).trans hrest, h'⟩

/-! ## The newcomers' campaign -/

/-- The state after a registration under a spec of one letter. -/
def afterRegistering (s : State) (address : Address) : State :=
  { s with
    version := s.version + 1
    roster := s.roster.register address "s" (s.version + 1) }

theorem contains_afterRegistering {address address' : Address} :
    (s.afterRegistering address).roster.contains address' = true ↔
      address' = address ∨ s.roster.contains address' = true :=
  Accepted.contains_register ..

theorem Reachable.accepted_afterRegistering (hs : Reachable policy s)
    (hpolicy : 1 ≤ policy.maxTagLength) (address : Address) :
    Accepted s address (.registerNode "s") (s.afterRegistering address)
      (.nodeRegistered (!s.roster.contains address)) := by
  apply Accepted.registerNode rfl
  rw [hs.policy_eq]
  exact hpolicy

/-- How far newcomers have come who register, reply to an event and vote for a candidate: which of
them have still to do so. -/
structure Campaign (policy : Policy) (id : EventId) (candidate : Address) (nodes : Nat)
    (news registering replying voting : List Address) (s : State) : Prop where
  reachable : Reachable policy s
  event : ∃ e, s.docket.get? id = some e ∧ e.Waits candidate news replying voting
  registered : ∀ a ∈ news, a ∈ registering ∨ s.roster.contains a = true
  unregistered : ∀ a ∈ registering, s.roster.contains a = false
  size : s.roster.size + registering.length = nodes
  left : registering.Sublist news ∧ replying.Sublist news ∧ voting.Sublist news

namespace Campaign

theorem start (hs : Reachable policy s) (he : s.docket.get? id = some e)
    (hopen : e.resolution = none) (hnews : ∀ a ∈ news, s.roster.contains a = false) :
    Campaign policy id candidate (s.roster.size + news.length) news news news news s := by
  have hproper := hs.proper.events he
  refine ⟨hs, ⟨e, he, hopen, by omega, by omega, ?_, ?_⟩, fun a ha => .inl ha, hnews, rfl,
    .refl _, .refl _, .refl _⟩
  · intro a ha
    by_contra hreplied
    have hknown := hproper.contains_of_hasReplied (Bool.eq_true_of_not_eq_false hreplied)
    simp [hnews a ha] at hknown
  · intro a ha
    by_contra hvoted
    have hknown := hproper.voters (Bool.eq_true_of_not_eq_false hvoted)
    simp [hnews a ha] at hknown

/-- The next one in turn is a newcomer, and not among those that follow. -/
theorem next_of_sublist {a : Address} (hdistinct : news.Nodup) (h : (a :: rest).Sublist news) :
    a ∈ news ∧ (∀ b ∈ rest, b ≠ a) ∧ rest.Sublist news := by
  refine ⟨h.subset List.mem_cons_self, ?_, (List.sublist_cons_self a rest).trans h⟩
  rintro b hb rfl
  exact (List.nodup_cons.1 (hdistinct.sublist h)).1 hb

variable {a : Address}

theorem register (h : Campaign policy id candidate nodes news (a :: rest) replying voting s)
    (hdistinct : news.Nodup) (hpolicy : 1 ≤ policy.maxTagLength) :
    ∃ s' outcome, Accepted s a (.registerNode "s") s' outcome ∧
      Campaign policy id candidate nodes news rest replying voting s' := by
  obtain ⟨hregistering, hreplying, hvoting⟩ := h.left
  obtain ⟨hmem, hothers, hrest⟩ := next_of_sublist hdistinct hregistering
  have hnew := h.unregistered a List.mem_cons_self
  have haccepted := h.reachable.accepted_afterRegistering hpolicy a
  refine ⟨_, _, haccepted, h.reachable.accepted haccepted, h.event, ?_, ?_, ?_, hrest, hreplying,
    hvoting⟩
  · intro b hb
    rw [contains_afterRegistering]
    rcases h.registered b hb with hlater | hbefore
    · rcases List.mem_cons.1 hlater with rfl | hlater
      · exact .inr (.inl rfl)
      · exact .inl hlater
    · exact .inr (.inr hbefore)
  · intro b hb
    apply Bool.eq_false_of_not_eq_true
    rw [contains_afterRegistering, not_or, h.unregistered b (List.mem_cons_of_mem a hb)]
    exact ⟨hothers b hb, by simp⟩
  · have hsize := h.size
    have hgrown : (s.afterRegistering a).roster.size = s.roster.size + 1 :=
      Roster.size_register_of_new hnew ..
    simp only [List.length_cons] at hsize
    omega

theorem reply (h : Campaign policy id candidate nodes news [] (a :: rest) voting s)
    (hdistinct : news.Nodup) :
    ∃ s' outcome, Accepted s a (.sendReply id []) s' outcome ∧
      Campaign policy id candidate nodes news [] rest voting s' := by
  obtain ⟨hregistering, hreplying, hvoting⟩ := h.left
  obtain ⟨hmem, hothers, hrest⟩ := next_of_sublist hdistinct hreplying
  obtain ⟨e, he, hwaits⟩ := h.event
  have hregistered : s.roster.contains a = true := by
    simpa using h.registered a hmem
  have hnew := hwaits.unreplied a List.mem_cons_self
  obtain ⟨application, hknown, -⟩ := (h.reachable.proper.events he).application
  have haccepts : e.checkReply application s.roster a [] = .ok () :=
    checkReply_eq_ok_iff.2 ⟨hwaits.opened, hregistered, hnew, Nat.zero_le _, rfl, .inr rfl⟩
  have haccepted := Accepted.sendReply he hknown haccepts
  refine ⟨_, _, haccepted, h.reachable.accepted haccepted,
    ⟨_, Accepted.get?_modify_self he, ?_⟩, h.registered, h.unregistered, h.size, hregistering,
    hrest, hvoting⟩
  have hsize : (e.replies.insert a ⟨a, [], s.version + 1⟩).size = e.replies.size + 1 :=
    OrderedMap.size_insert _ (OrderedMap.get?_eq_none_iff.2 hnew)
  have hreplies := hwaits.replies
  simp only [List.length_cons] at hreplies
  rw [reply_of_new hnew]
  refine ⟨hwaits.opened, ?_, hwaits.votes, ?_, hwaits.unvoted⟩
  · simp only [hsize]
    omega
  · intro b hb
    apply Bool.eq_false_of_not_eq_true
    rw [hasReplied, OrderedMap.contains_insert, not_or]
    have hbefore := hwaits.unreplied b (List.mem_cons_of_mem a hb)
    exact ⟨hothers b hb, by simpa [hasReplied] using hbefore⟩

theorem vote (h : Campaign policy id candidate nodes news [] [] (a :: rest) s)
    (hdistinct : news.Nodup) (hquota : policy.minReplies ≤ news.length) :
    ∃ s' outcome, Accepted s a (.voteSolver id candidate) s' outcome ∧
      Campaign policy id candidate nodes news [] [] rest s' := by
  obtain ⟨hregistering, hreplying, hvoting⟩ := h.left
  obtain ⟨hmem, hothers, hrest⟩ := next_of_sublist hdistinct hvoting
  obtain ⟨e, he, hwaits⟩ := h.event
  have hregistered : s.roster.contains a = true := by
    simpa using h.registered a hmem
  have hnew := hwaits.unvoted a List.mem_cons_self
  have hreplies : policy.minReplies ≤ e.replies.size := hquota.trans hwaits.replies
  have haccepts : e.checkVote s.policy s.roster a = .ok () := by
    rw [h.reachable.policy_eq]
    exact checkVote_eq_ok_iff.2 ⟨hwaits.opened, hregistered, hnew, hreplies⟩
  have haccepted : Accepted s a (.voteSolver id candidate) _ _ := .voteSolver he haccepts
  refine ⟨_, _, haccepted, h.reachable.accepted haccepted,
    ⟨_, Accepted.get?_modify_self he, ?_⟩, h.registered, h.unregistered, h.size, hregistering,
    hreplying, hrest⟩
  have hvotes := hwaits.votes
  simp only [List.length_cons] at hvotes
  refine ⟨hwaits.opened, hwaits.replies, ?_, hwaits.unreplied, ?_⟩
  · rw [votesFor_vote hnew, if_pos rfl]
    omega
  · intro b hb
    exact hasVoted_vote_of_ne (hothers b hb).symm
      (hwaits.unvoted b (List.mem_cons_of_mem a hb))

/-- When all newcomers have voted they hold a majority, so that somebody is elected. -/
theorem elects (h : Campaign policy id candidate nodes news [] [] [] s)
    (hmajority : nodes < 2 * news.length) :
    ∃ e solver, s.docket.get? id = some e ∧ e.resolution = none ∧
      e.electedSolver = some solver := by
  obtain ⟨e, he, hwaits⟩ := h.event
  cases helected : e.electedSolver with
  | some solver => exact ⟨e, solver, he, hwaits.opened, helected⟩
  | none =>
      -- without an elected solver no candidate holds a majority, but theirs does
      have hfew := (h.reachable.fair id e he).unelected helected candidate
      have hvotes := hwaits.votes
      have hsize := h.size
      simp only [List.length_nil, Nat.add_zero] at hvotes hsize
      rw [← Nat.not_le, quorum_le_iff] at hfew
      omega

end Campaign

/-! ## Closing -/

/-- An elected solver can always register and close its event. -/
theorem exists_closing (hs : Reachable policy s) (hpolicy : 1 ≤ policy.maxTagLength)
    (he : s.docket.get? id = some e) (hopen : e.resolution = none)
    (helected : e.electedSolver = some solver) :
    ∃ s' e', s.acceptAll [(solver, .registerNode "s"), (solver, .solveEvent id)] = .ok s' ∧
      s'.docket.get? id = some e' ∧ e'.phase = .solved := by
  have hregister := hs.accepted_afterRegistering hpolicy solver
  have hregistered : (s.afterRegistering solver).roster.contains solver = true :=
    contains_afterRegistering.2 (.inl rfl)
  have hadmits : admits s.policy.solveAuthority (s.afterRegistering solver).roster solver solver =
      true := by
    unfold admits
    cases s.policy.solveAuthority with
    | anyone => rfl
    | registered => exact hregistered
    | elected => exact beq_self_eq_true solver
  have he' : (s.afterRegistering solver).docket.get? id = some e := he
  have hsolve : Accepted (s.afterRegistering solver) solver (.solveEvent id) _ _ :=
    .solveEvent he' (checkSolve_eq_ok_iff.2 ⟨hopen, helected, hadmits⟩)
  have hall := (acceptAll_cons_of_accepted hregister _).trans
    (acceptAll_cons_of_accepted hsolve [])
  refine ⟨_, _, hall, Accepted.get?_modify_self he', ?_⟩
  rw [phase_eq_solved_iff]
  simp [isSolved, Event.solve]

/-- No event is stuck: whatever was voted and replied so far, and whoever may close events, some
commands are all accepted and leave the event closed, and the version still fits into eight
bytes. -/
theorem no_event_is_stuck (hs : Reachable policy s) (hpolicy : 1 ≤ policy.maxTagLength)
    (hnodes : s.roster.size < 2 ^ 60) (hversion : s.version < 2 ^ 60)
    (hquota : policy.minReplies < 2 ^ 60) (he : s.docket.get? id = some e)
    (hunsolved : e.phase ≠ .solved) :
    ∃ commands s' e', s.acceptAll commands = .ok s' ∧ s'.docket.get? id = some e' ∧
      e'.phase = .solved ∧ s'.version < capacity 8 := by
  have hopen : e.resolution = none := by
    rw [ne_eq, phase_eq_solved_iff, Bool.not_eq_true] at hunsolved
    exact isSolved_eq_false_iff.1 hunsolved
  obtain ⟨news, hcount, hdistinct, hnews⟩ :=
    s.roster.exists_newcomers (s.roster.size + 1 + policy.minReplies) (by
      simp only [capacity_eight]
      omega)
  have hstart : Campaign policy id .zero (s.roster.size + news.length) news news news news s :=
    .start hs he hopen hnews
  -- they register, reply and vote, one kind of command after the other
  obtain ⟨s₁, hall₁, hregistered⟩ := exists_acceptAll_map
    (P := fun todo => Campaign policy id .zero (s.roster.size + news.length) news todo news news)
    (fun h => h.register hdistinct hpolicy) hstart
  obtain ⟨s₂, hall₂, hreplied⟩ := exists_acceptAll_map
    (P := fun todo => Campaign policy id .zero (s.roster.size + news.length) news [] todo news)
    (fun h => h.reply hdistinct) hregistered
  obtain ⟨s₃, hall₃, hvoted⟩ := exists_acceptAll_map
    (P := fun todo => Campaign policy id .zero (s.roster.size + news.length) news [] [] todo)
    (fun h => h.vote hdistinct (by omega)) hreplied
  obtain ⟨e₃, solver, he₃, hopen₃, helected⟩ := hvoted.elects (by omega)
  obtain ⟨s', e', hclosing, he', hsolved⟩ :=
    exists_closing hvoted.reachable hpolicy he₃ hopen₃ helected
  have hall := (acceptAll_append hall₁ _).trans
    ((acceptAll_append hall₂ _).trans ((acceptAll_append hall₃ _).trans hclosing))
  refine ⟨_, s', e', hall, he', hsolved, ?_⟩
  have hfits : ∀ v n q : Nat, v < 2 ^ 60 → n < 2 ^ 60 → q < 2 ^ 60 →
      v + ((n + 1 + q) + ((n + 1 + q) + ((n + 1 + q) + 2))) < capacity 8 := by
    intro v n q hv hn hq
    rw [capacity_eight]
    omega
  rw [version_of_acceptAll hall]
  simp only [List.length_append, List.length_map, List.length_cons, List.length_nil, hcount]
  exact hfits _ _ _ hversion hnodes hquota

/-- Two nodes voted, each for itself, after one of them replied. -/
def splitVote : List (Address × Command) :=
  [(.ofLow 1, .registerNode "s"), (.ofLow 2, .registerNode "s"),
    (.ofLow 1, .registerApplication "i" [] false), (.ofLow 3, .sendEvent "p" 1),
    (.ofLow 2, .sendReply 1 [⟨.ofLow 1, 5⟩]), (.ofLow 1, .voteSolver 1 (.ofLow 1)),
    (.ofLow 2, .voteSolver 1 (.ofLow 2))]

/-- A policy that asks for a reply and lets only the elected solver close an event. -/
def strictPolicy : Policy :=
  { solveAuthority := .elected, minReplies := 1, maxTagLength := 1 }

theorem no_event_is_stuck_of_splitVote :
    ∃ e commands s' e', ((initial strictPolicy).run splitVote).docket.get? 1 = some e ∧
      e.phase = .voting ∧
      ((initial strictPolicy).run splitVote).acceptAll commands = .ok s' ∧
      s'.docket.get? 1 = some e' ∧ e'.phase = .solved := by
  have hphase : (((initial strictPolicy).run splitVote).docket.get? 1).map (·.phase) =
      some .voting := by
    decide +kernel
  obtain ⟨e, he, hvoting⟩ := Option.map_eq_some_iff.1 hphase
  obtain ⟨commands, s', e', hall, he', hsolved, -⟩ :=
    no_event_is_stuck (reachable_run strictPolicy splitVote) (by decide) (by decide +kernel)
      (by decide +kernel) (by decide) he (by simp [hvoting])
  exact ⟨e, commands, s', e', he, hvoting, hall, he', hsolved⟩

end State

end Arbiter
