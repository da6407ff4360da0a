import Arbiter.Offline.Report
import Arbiter.Proofs.Acknowledged
import Arbiter.Proofs.OfflineAgreement

/-!
# Loading under another policy

A journal does not say under which policy its entries were accepted.  What is loaded from it without
a snapshot is always loaded under the default policy.  That policy lets everyone close an event and
asks for no replies, so it refuses an entry only for the length of a text.  The state that is loaded
is the one of the live host except for its policy, and so it is the live one for no policy but the
default one.
-/

namespace Arbiter

/-! ## Lengths -/

/-- The texts of a command are no longer than a policy allows. -/
def Command.Within (policy : Policy) : Command → Prop
  | .registerNode spec => spec.utf8ByteSize ≤ policy.maxTagLength
  | .registerApplication info requiredSpecs _ =>
      info.utf8ByteSize ≤ policy.maxTagLength ∧
        ∀ spec ∈ requiredSpecs, spec.utf8ByteSize ≤ policy.maxTagLength
  | .sendEvent payload _ => payload.utf8ByteSize ≤ policy.maxPayloadLength
  | .sendReply .. | .voteSolver .. | .solveEvent .. => True

namespace State

open Event

/-- The state as it would be under a policy. -/
def under (s : State) (policy : Policy) : State :=
  { s with policy := policy }

variable {s s' : State} {policy lenient : Policy} {entries : List Entry} {caller : Address}
  {command : Command} {outcome : Outcome}

theorem Accepted.within (h : Accepted s caller command s' outcome) : command.Within s.policy := by
  cases h with
  | registerNode _ short => exact short
  | registerApplication short _ shortSpecs => exact ⟨short, shortSpecs⟩
  | sendEvent _ short => exact short
  | sendReply => trivial
  | voteSolver => trivial
  | solveEvent => trivial

/-- A policy that lets everyone close an event and asks for no replies accepts what another one
accepts, unless a text is too long for it. -/
theorem Accepted.under (h : Accepted s caller command s' outcome)
    (hanyone : lenient.solveAuthority = .anyone) (hreplies : lenient.minReplies = 0)
    (hwithin : command.Within lenient) :
    Accepted (s.under lenient) caller command (s'.under lenient) outcome := by
  cases h with
  | registerNode nonempty _ => exact .registerNode nonempty hwithin
  | registerApplication _ few _ => exact .registerApplication hwithin.1 few hwithin.2
  | sendEvent known _ => exact .sendEvent known hwithin
  | sendReply there known accepts => exact .sendReply there known accepts
  | voteSolver there accepts =>
      obtain ⟨hopen, hknown, hfirst, -⟩ := checkVote_eq_ok_iff.1 accepts
      refine .voteSolver there (checkVote_eq_ok_iff.2 ⟨hopen, hknown, hfirst, ?_⟩)
      exact hreplies ▸ Nat.zero_le _
  | solveEvent there accepts =>
      obtain ⟨hopen, helected, -⟩ := checkSolve_eq_ok_iff.1 accepts
      refine .solveEvent there (checkSolve_eq_ok_iff.2 ⟨hopen, helected, ?_⟩)
      rw [State.under, hanyone]
      rfl

theorem Trail.within (h : Trail s entries s') : ∀ e ∈ entries, e.command.Within s.policy := by
  induction h with
  | start => exact fun e he => absurd he List.not_mem_nil
  | accept before accepted ih =>
      intro e he
      rcases List.mem_append.1 he with he | he
      · exact ih e he
      · obtain rfl := List.mem_singleton.1 he
        exact before.policy_eq ▸ accepted.within

theorem Trail.under (h : Trail s entries s') (hanyone : lenient.solveAuthority = .anyone)
    (hreplies : lenient.minReplies = 0) (hwithin : ∀ e ∈ entries, e.command.Within lenient) :
    Trail (s.under lenient) entries (s'.under lenient) := by
  induction h with
  | start => exact .start
  | accept before accepted ih =>
      simp only [List.forall_mem_append, List.forall_mem_singleton] at hwithin
      exact (ih hwithin.1).accept (accepted.under hanyone hreplies hwithin.2)

/-- A replay that is not stopped follows the entries one by one if they continue the state. -/
theorem trail_of_replay {t : State} {applied : Nat}
    (hnumbers : entries.map (·.sequence) = List.range' (s.version + 1) entries.length)
    (hreplay : s.replay entries = ⟨t, .ok applied⟩) : Trail s entries t := by
  obtain ⟨taken, hpart, htrail⟩ := exists_trail_replayFrom s 0 entries
  have hversion := version_replayFrom hnumbers (Nat.le_refl _) (congrArg Replay.ending hreplay)
  have hreached : (s.replayFrom 0 entries).state = t := congrArg Replay.state hreplay
  rw [hreached] at htrail
  rw [hreached, Nat.max_eq_right (Nat.le_add_right _ _)] at hversion
  rw [htrail.version_eq, Nat.add_right_comm] at hversion
  have hlength : taken.length = entries.length := Nat.add_left_cancel hversion
  rwa [hpart.eq_of_length hlength] at htrail

end State

/-! ## A host on a disk that works -/

namespace HostRun

variable {r : HostRun} {policy : Policy} {path : Path} {place : Place}

/-- The disk did not fail. -/
def Works (r : HostRun) : Prop :=
  ∀ call ∈ r.log, ∀ fault, call.2 ≠ .error (.journal (.disk fault))

/-- The host holds what the acknowledged entries lead to, and its journal holds nothing else. -/
def Clean (policy : Policy) (path : Path) (place : Place) (r : HostRun) : Prop :=
  r.host.Holds policy path place r.disk (acknowledged r.log) fun _ => False

theorem Clean.submit (h : r.Clean policy path place) {c : Address × Command}
    (hstorable : r.host.state.check c.1 c.2 = .ok () → (r.host.nextEntry c.1 c.2).Storable)
    (hworks : ∀ fault, ((r.host.submit c.1 c.2).run r.disk).1.2 ≠ .error (.journal (.disk fault))) :
    (r.submit c).Clean policy path place := by
  obtain ⟨h', result, d', hsubmit, -, -, hcases⟩ := Host.Holds.submit h hstorable
  rw [hsubmit] at hworks
  simp only [HostRun.submit, hsubmit, Clean]
  rcases hcases with ⟨refusal, rfl, rfl, rfl⟩ | ⟨outcome, rfl, hholds⟩ | ⟨fault, rfl, -⟩ |
    ⟨rfl, rfl, rfl⟩
  · rwa [acknowledged_concat_error]
  · rwa [acknowledged_concat_ok]
  · exact absurd rfl (hworks fault)
  · rwa [acknowledged_concat_error]

theorem Clean.submits (h : r.Clean policy path place) {commands : List (Address × Command)}
    (hframed : (r.submits commands).Framed) (hworks : (r.submits commands).Works) :
    (r.submits commands).Clean policy path place := by
  induction commands generalizing r with
  | nil => exact h
  | cons c commands ih =>
      have hcons : r.submits (c :: commands) = (r.submit c).submits commands := rfl
      rw [hcons] at hframed hworks ⊢
      have hcall : (r.host.nextEntry c.1 c.2, ((r.host.submit c.1 c.2).run r.disk).1.2) ∈
          ((r.submit c).submits commands).log := by
        refine ((r.submit c).log_prefix_submits commands).subset ?_
        rw [log_submit]
        exact List.mem_append_right _ (List.mem_singleton.2 rfl)
      refine ih (h.submit (fun hcheck => ?_) (hworks _ hcall)) hframed hworks
      exact hframed _ hcall (Host.run_submit_ne_refused hcheck r.disk)

/-- A host that started a new journal and found no snapshot has nothing in either. -/
theorem exists_clean_of_recover {settings : Settings} {d d' : Disk} {h : Host}
    (hjournal : settings.journalPath = some path) (hsound : d.Sound)
    (hnew : JournalWriter.hasContents d path = false)
    (hfree : ∀ snapshot, settings.snapshotPath = some snapshot → d.holds snapshot = false)
    (hrecover : d.perform (Host.recover settings) = (.ok h, d')) :
    ∃ place, Clean settings.policy path place ⟨h, d', []⟩ := by
  obtain ⟨base, w, contents, s, hbase, hopen, hcatch, rfl⟩ :=
    Host.exists_of_recover hjournal hrecover
  obtain ⟨hentries, ⟨place, hkeeps⟩, -⟩ := JournalWriter.openAt_new_eq_ok hsound hnew hopen
  have hbegin : Host.baseState d settings = .ok (.initial settings.policy) := by
    cases hpath : settings.snapshotPath with
    | none => simp [Host.baseState, hpath]
    | some snapshot => simp [Host.baseState, hpath, hfree snapshot hpath]
  obtain rfl := Except.ok.inj (hbegin.symm.trans hbase)
  rw [hentries, Host.catchUp_nil] at hcatch
  obtain rfl := Except.ok.inj hcatch
  rw [hentries]
  exact ⟨place, .start, rfl, w, rfl, hkeeps⟩

/-- What the journal file holds can be read back. -/
theorem Clean.exists_scan (h : r.Clean policy path place) :
    ∃ bytes contents, r.disk.read path = .ok bytes ∧ scan bytes = .ok contents ∧
      contents.entries = acknowledged r.log := by
  obtain ⟨w, -, hkeeps⟩ := h.keeps
  obtain ⟨bytes, contents, hread, hscan, hentries | ⟨e, hnone, -⟩⟩ := hkeeps.exists_scan
  · exact ⟨bytes, contents, hread, hscan, hentries⟩
  · exact hnone.elim

/-- What is loaded from the journal is where its entries lead under the default policy. -/
theorem Clean.trail_of_load (h : r.Clean policy path place) {history : Offline.History}
    (hload : Offline.load r.disk.read path none none = .ok history) :
    history.entries = acknowledged r.log ∧
      State.Trail (.initial {}) (acknowledged r.log) history.state := by
  obtain ⟨bytes, contents, hread, hscan, hentries⟩ := h.exists_scan
  obtain ⟨contents', base, hscan', hbase, hreplay, hloaded, -⟩ :=
    (Offline.load_whole_eq_ok_iff hread).1 hload
  obtain rfl := Except.ok.inj (hscan.symm.trans hscan')
  obtain rfl := Except.ok.inj hbase
  rw [hentries] at hreplay hloaded
  exact ⟨hloaded, State.trail_of_replay h.trail.map_sequence hreplay⟩

theorem Clean.exists_load (h : r.Clean policy path place) {t : State}
    (htrail : State.Trail (.initial {}) (acknowledged r.log) t) :
    ∃ history, Offline.load r.disk.read path none none = .ok history ∧ history.state = t := by
  obtain ⟨bytes, contents, hread, hscan, hentries⟩ := h.exists_scan
  have hreplay := htrail.replayFrom 0
  rw [← hentries] at hreplay
  exact ⟨⟨t, contents.entries, _, contents.tornTail⟩, (Offline.load_whole_eq_ok_iff hread).2
    ⟨contents, _, hscan, rfl, hreplay, rfl, rfl⟩, rfl⟩

/-- What the acknowledged entries lead to under the default policy is the state of the host under
it, and they lead there when no text is too long. -/
theorem Clean.trail_under (h : r.Clean policy path place)
    (hwithin : ∀ e ∈ acknowledged r.log, e.command.Within {}) :
    State.Trail (.initial {}) (acknowledged r.log) (r.host.state.under {}) :=
  h.trail.under rfl rfl hwithin

end HostRun

/-- A host starts a new journal, without a snapshot, and commands are submitted to it while its disk
does not fail.  Loading the journal without a snapshot gives the acknowledged entries and the state
of the host under the default policy, and it fails exactly when the policy of the host lets longer
texts pass than the default one and an entry has such a text.  So the state of the host itself is
loaded exactly when its policy is the default one, and then the hash that is printed is its own. -/
theorem live_state_is_loaded_under_default_policy {settings : Settings} {path : Path}
    {d₀ d : Disk} {h : Host} {commands : List (Address × Command)} {r : HostRun}
    (hjournal : settings.journalPath = some path) (hsound : d₀.Sound)
    (hnew : JournalWriter.hasContents d₀ path = false)
    (hfree : ∀ snapshot, settings.snapshotPath = some snapshot → d₀.holds snapshot = false)
    (hrecover : d₀.perform (Host.recover settings) = (.ok h, d))
    (hrun : r = HostRun.submits ⟨h, d, []⟩ commands) (hframed : r.Framed) (hworks : r.Works) :
    (∀ history, Offline.load r.disk.read path none none = .ok history →
      history.entries = acknowledged r.log ∧ history.state = r.host.state.under {}) ∧
    ((∃ history, Offline.load r.disk.read path none none = .ok history) ↔
      ∀ e ∈ acknowledged r.log, e.command.Within {}) ∧
    ((∃ history, Offline.load r.disk.read path none none = .ok history ∧
      history.state = r.host.state) ↔ settings.policy = {}) ∧
    (settings.policy = {} → ∃ history,
      (∀ asJson, (Offline.Task.replay path none none asJson).report r.disk.read =
        ⟨if asJson then Offline.replayJson history else Offline.replayText history, none⟩) ∧
      history.stateHash = Text.Hex.text r.host.proof.stateHash) := by
  obtain ⟨place, hstart⟩ :=
    HostRun.exists_clean_of_recover hjournal hsound hnew hfree hrecover
  have hclean : r.Clean settings.policy path place := by
    rw [hrun] at hframed hworks ⊢
    exact hstart.submits hframed hworks
  have hloaded : ∀ history, Offline.load r.disk.read path none none = .ok history →
      history.entries = acknowledged r.log ∧ history.state = r.host.state.under {} := by
    intro history hload
    obtain ⟨hentries, htrail⟩ := hclean.trail_of_load hload
    exact ⟨hentries, htrail.unique (hclean.trail_under htrail.within)⟩
  have hpolicy : r.host.state.policy = settings.policy := hclean.trail.policy_eq
  have hdefault : settings.policy = {} → ∃ history,
      Offline.load r.disk.read path none none = .ok history ∧ history.state = r.host.state := by
    intro heq
    refine hclean.exists_load ?_
    have htrail := hclean.trail
    rwa [heq] at htrail
  refine ⟨hloaded, ⟨?_, ?_⟩, ⟨?_, hdefault⟩, ?_⟩
  · rintro ⟨history, hload⟩
    exact (hclean.trail_of_load hload).2.within
  · intro hwithin
    obtain ⟨history, hload, -⟩ := hclean.exists_load (hclean.trail_under hwithin)
    exact ⟨history, hload⟩
  · rintro ⟨history, hload, hstate⟩
    rw [← hpolicy, ← hstate, (hloaded history hload).2]
    rfl
  · intro heq
    obtain ⟨history, hload, hstate⟩ := hdefault heq
    refine ⟨history, fun asJson => ?_, ?_⟩
    · cases asJson <;> simp [Offline.Task.report, Offline.reportOn, hload]
    · rw [Offline.History.stateHash, hstate]
      rfl

/-- A host that starts on an empty disk and takes commands. -/
def startedAnew (settings : Settings) (commands : List (Address × Command)) : HostRun :=
  HostRun.submits ⟨(comeBack settings {}).1, (comeBack settings {}).2, []⟩ commands

/-- Two nodes register, one of them replies to an event, both vote, one of them once too often, and
the event is closed. -/
def solvedAfterReply : List (Address × Command) :=
  [(.ofLow 1, .registerNode "s"), (.ofLow 2, .registerNode "s"),
    (.ofLow 1, .registerApplication "i" [] false), (.ofLow 3, .sendEvent "p" 1),
    (.ofLow 2, .sendReply 1 [⟨.ofLow 1, 5⟩]), (.ofLow 1, .voteSolver 1 (.ofLow 2)),
    (.ofLow 1, .voteSolver 1 (.ofLow 1)), (.ofLow 2, .voteSolver 1 (.ofLow 2)),
    (.ofLow 3, .solveEvent 1)]

theorem live_state_is_loaded_of_solvedAfterReply :
    ∃ history e,
      Offline.load (startedAnew keepingSettings solvedAfterReply).disk.read ⟨"/journal"⟩ none none =
        .ok history ∧
      history.state = (startedAnew keepingSettings solvedAfterReply).host.state ∧
      history.state.docket.get? 1 = some e ∧
      e.phase = .solved ∧ e.replies.size = 1 ∧ e.votes.size = 2 := by
  have hanswers : (startedAnew keepingSettings solvedAfterReply).log.map (·.2) =
      [.ok (.nodeRegistered true), .ok (.nodeRegistered true), .ok (.applicationRegistered 1),
        .ok (.eventSent 1), .ok (.replyRecorded 1), .ok (.voteRecorded none),
        .error (.refused (.alreadyDone .voted)), .ok (.voteRecorded (some (.ofLow 2))),
        .ok (.eventSolved (.ofLow 2))] := by
    decide +kernel
  have hframed : (startedAnew keepingSettings solvedAfterReply).Framed := by
    have hstorable : ∀ call ∈ (startedAnew keepingSettings solvedAfterReply).log,
        call.1.Storable := by
      decide +kernel
    exact fun call hcall _ => hstorable call hcall
  have hworks : (startedAnew keepingSettings solvedAfterReply).Works := by
    intro call hcall fault hfault
    have hanswer := List.mem_map_of_mem (f := (·.2)) hcall
    rw [hanswers, hfault] at hanswer
    simp at hanswer
  have hjournal : keepingSettings.journalPath = some ⟨"/journal"⟩ := rfl
  have hnew : JournalWriter.hasContents {} ⟨"/journal"⟩ = false := by decide +kernel
  have hfree : ∀ snapshot, keepingSettings.snapshotPath = some snapshot →
      ({} : Disk).holds snapshot = false := by
    rintro snapshot ⟨rfl⟩
    decide +kernel
  have hall := live_state_is_loaded_under_default_policy hjournal Disk.noFiles_empty.tidy.sound
    hnew hfree (perform_recover_of_isOk (by decide +kernel)) rfl hframed hworks
  obtain ⟨history, hload, hstate⟩ := hall.2.2.1.2 rfl
  have hevent : ((startedAnew keepingSettings solvedAfterReply).host.state.docket.get? 1).map
      (fun e => (e.phase, e.replies.size, e.votes.size)) = some (.solved, 1, 2) := by
    decide +kernel
  obtain ⟨e, he, hparts⟩ := Option.map_eq_some_iff.1 hevent
  simp only [Prod.mk.injEq] at hparts
  exact ⟨history, e, hload, hstate, hstate ▸ he, hparts⟩

/-- A host that starts on an empty disk and takes a registration. -/
def oneRegistration (settings : Settings) : HostRun :=
  startedAnew settings [(.ofLow 1, .registerNode "s")]

/-- The settings of a node that asks for a reply before it accepts votes. -/
def carefulSettings : Settings :=
  { keepingSettings with policy := { minReplies := 1 } }

/-- The registration is accepted under either policy, and from its journal another state is loaded
than the one of the host, with another hash. -/
theorem other_state_is_loaded_under_other_policy :
    (oneRegistration carefulSettings).log =
        [(⟨1, .ofLow 1, .registerNode "s"⟩, .ok (.nodeRegistered true))] ∧
      ∃ history,
        Offline.load (oneRegistration carefulSettings).disk.read ⟨"/journal"⟩ none none =
          .ok history ∧
        history.state ≠ (oneRegistration carefulSettings).host.state ∧
        history.stateHash ≠
          Text.Hex.text (oneRegistration carefulSettings).host.proof.stateHash := by
  have hload : (Offline.load (oneRegistration carefulSettings).disk.read ⟨"/journal"⟩ none
      none).map (·.state) = .ok ((State.initial {}).run [(.ofLow 1, .registerNode "s")]) := by
    decide +kernel
  cases hhistory : Offline.load (oneRegistration carefulSettings).disk.read ⟨"/journal"⟩ none
      none with
  | error failure =>
      rw [hhistory] at hload
      cases hload
  | ok history =>
      rw [hhistory] at hload
      have hstate : history.state = (State.initial {}).run [(.ofLow 1, .registerNode "s")] :=
        Except.ok.inj hload
      refine ⟨by decide +kernel, history, rfl, ?_, ?_⟩
      · rw [hstate]
        decide +kernel
      · rw [Offline.History.stateHash, hstate]
        decide +kernel

end Arbiter
