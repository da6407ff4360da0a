import Arbiter.Http.Service
import Arbiter.Proofs.Entering

/-!
# What answering a request comes to

A request is turned down, or something is looked at, or it gives a command, or it has a snapshot
saved.  `Http.Answer` says once what each of these leaves behind.  So a request that fails leaves a
host as it was, apart from the writer of its journal, and one that gives a command and succeeds has
entered just that command, as long as there is room for it.
-/

namespace Arbiter

open Disk

theorem HostFault.le_status (f : HostFault) : 400 ≤ f.status := by
  unfold status
  split <;> decide

namespace Http

/-! ## Being turned down -/

/-- Whoever is turned down is told so by the status. -/
def TurnsDown {α : Type} (x : Except Rejection α) : Prop :=
  ∀ rejection, x = .error rejection → 400 ≤ rejection.response.status

namespace TurnsDown

variable {α β : Type}

theorem ok (a : α) : TurnsDown (.ok a) :=
  nofun

theorem fault (f : HostFault) : TurnsDown (.error (.fault f) : Except Rejection α) := by
  rintro _ ⟨rfl⟩
  exact f.le_status

theorem bare {status : Nat} (hstatus : 400 ≤ status) :
    TurnsDown (.error (.bare status) : Except Rejection α) := by
  rintro _ ⟨rfl⟩
  exact hstatus

theorem bind {x : Except Rejection α} {f : α → Except Rejection β} (hx : TurnsDown x)
    (hf : ∀ a, TurnsDown (f a)) : TurnsDown (x >>= f) := by
  intro rejection hrejected
  cases x with
  | error found =>
      obtain rfl := Except.error.inj hrejected
      exact hx found rfl
  | ok a => exact hf a rejection hrejected

theorem guard {p : Prop} [Decidable p] {status : Nat} {x : Except Rejection α}
    (hstatus : 400 ≤ status) (hx : TurnsDown x) :
    TurnsDown (if p then .error (.bare status) else x) := by
  split
  · exact .bare hstatus
  · exact hx

end TurnsDown

theorem turnsDown_callerOf (r : Request) : TurnsDown (callerOf r) := by
  unfold callerOf
  split
  · exact .fault _
  · split
    · exact .fault _
    · split
      · exact .fault _
      · exact .ok _

theorem turnsDown_numberOf (slot : Slot) : TurnsDown (numberOf slot) := by
  have htext : TurnsDown (textOf slot) := by
    unfold textOf
    split
    · exact .bare (by decide)
    · exact .ok _
  refine htext.bind fun text => ?_
  split
  · exact .bare (by decide)
  · exact .ok _

theorem turnsDown_readBody {α : Type} (shape : Json.Reader α) (r : Request) :
    TurnsDown (readBody shape r) := by
  refine .guard (by decide) (.guard (by decide) ?_)
  split
  · exact .bare (by decide)
  · exact .bare (by decide)
  · exact .ok _

theorem turnsDown_commandOf (r : Request) (order : Order) : TurnsDown (commandOf r order) := by
  cases order with
  | registerNode =>
      exact (turnsDown_callerOf r).bind fun _ => (turnsDown_readBody _ r).bind fun _ => .ok _
  | registerApplication =>
      exact (turnsDown_callerOf r).bind fun _ => (turnsDown_readBody _ r).bind fun _ => .ok _
  | sendEvent =>
      exact (turnsDown_callerOf r).bind fun _ => (turnsDown_readBody _ r).bind fun _ => .ok _
  | sendReply slot =>
      refine (turnsDown_callerOf r).bind fun _ => (turnsDown_numberOf slot).bind fun _ =>
        (turnsDown_readBody _ r).bind fun written => ?_
      split
      · exact .fault _
      · exact .ok _
  | voteSolver slot =>
      exact (turnsDown_callerOf r).bind fun _ => (turnsDown_numberOf slot).bind fun _ =>
        (turnsDown_readBody _ r).bind fun _ => .ok _
  | solveEvent slot =>
      exact (turnsDown_callerOf r).bind fun _ => (turnsDown_numberOf slot).bind fun _ => .ok _

/-- A command is given on behalf of the caller that the request names. -/
theorem callerOf_of_commandOf {r : Request} {order : Order} {caller : Address} {command : Command}
    (h : commandOf r order = .ok (caller, command)) : callerOf r = .ok caller := by
  cases order with
  | sendReply slot =>
      obtain ⟨caller', hcaller, h⟩ := bind_eq_ok_iff.1 h
      obtain ⟨event, -, h⟩ := bind_eq_ok_iff.1 h
      obtain ⟨written, -, h⟩ := bind_eq_ok_iff.1 h
      split at h
      · simp [throw, throwThe, MonadExceptOf.throw] at h
      · obtain ⟨rfl, -⟩ := Prod.mk.inj (Except.ok.inj h)
        exact hcaller
  | _ =>
      simp only [commandOf, bind, bind_eq_ok_iff, pure, Except.pure, Except.ok.injEq,
        Prod.mk.injEq] at h
      obtain ⟨caller', hcaller, h⟩ := h
      grind

/-! ## Being told about a command -/

/-- Whatever command was carried out, its caller can be told about it. -/
theorem exists_view_of_accepted {s s' : State} {caller : Address} {command : Command}
    {outcome : Outcome} (h : State.Accepted s caller command s' outcome) :
    ∃ value, View.outcome s' caller command outcome = .ok value := by
  cases h with
  | registerNode => exact ⟨_, rfl⟩
  | registerApplication => exact ⟨_, rfl⟩
  | sendEvent => exact ⟨_, rfl⟩
  | sendReply => exact ⟨_, rfl⟩
  | @voteSolver id candidate e there accepts =>
      have hstill : (s.docket.modify id (·.vote caller candidate s.roster.size)).get? id =
          some (e.vote caller candidate s.roster.size) := by
        rw [Docket.get?, Docket.modify, OrderedMap.get?_modify, if_pos rfl, ← Docket.get?, there]
        rfl
      simp only [View.outcome, State.event, hstill]
      exact ⟨_, rfl⟩
  | solveEvent => exact ⟨_, rfl⟩

/-! ## Answers -/

variable {token : Option String} {h h' : Host} {r : Request} {d d' : Disk} {response : Response}

/-- What answering a request comes to: what becomes of the host, what is answered, and what becomes
of the disk. -/
inductive Answer (h : Host) (r : Request) (d : Disk) : Host → Response → Disk → Prop
  /-- Nothing is done, and whoever gives a command is told so. -/
  | idle {response : Response}
      (told : ∀ order, Route.ofPath? r.path = some (.order order) → r.method = "POST" →
        400 ≤ response.status) :
      Answer h r d h response d
  | notEntered {entry : Entry} {fault : JournalFault} {h₁ : Host} {d' : Disk}
      (posted : r.method = "POST") (entered : (h.enter entry).run d = ((h₁, .error fault), d')) :
      Answer h r d h₁ (View.fault (.journal fault)) d'
  | accepted {order : Order} {caller : Address} {command : Command} {s : State}
      {outcome : Outcome} {h₁ : Host} {value : Json} {d' : Disk} (posted : r.method = "POST")
      (given : commandOf r order = .ok (caller, command))
      (path : Route.ofPath? r.path = some (.order order))
      (accepted : State.Accepted h.state caller command s outcome)
      (entered : (h.enter (h.nextEntry caller command)).run d = ((h₁, .ok ()), d')) :
      Answer h r d
        { h₁ with state := s, hasher := h.hasher.update (h.nextEntry caller command) }
        (.ok value) d'
  | notSaved {path : Path} {fault : DiskFault} {d' : Disk} (posted : r.method = "POST")
      (failed : d.perform (replace path (Host.draftOf path) (Snapshot.encode h.state)) =
        (.error fault, d')) :
      Answer h r d h (View.fault (.disk fault)) d'
  | saved {path : Path} {value : Json} {d' : Disk} (posted : r.method = "POST")
      (route : Route.ofPath? r.path = some .snapshot)
      (replaced : d.perform (replace path (Host.draftOf path) (Snapshot.encode h.state)) =
        (.ok (), d')) :
      Answer h r d { h with snapshotHash := some (Blake3.digest (Snapshot.encode h.state)) }
        (.ok value) d'

theorem run_submit (h : Host) (caller : Address) (command : Command) (d : Disk) :
    (submit h caller command).run d =
      match (h.submit caller command).run d with
      | ((h', .error fault), d') => ((h', View.fault fault), d')
      | ((h', .ok outcome), d') =>
        match View.outcome h'.state caller command outcome with
        | .error fault => ((h', View.fault fault), d')
        | .ok value => ((h', .ok value), d') := by
  unfold submit
  rw [StateT.run_bind]
  rcases (h.submit caller command).run d with ⟨⟨h', _ | outcome⟩, d'⟩
  · rfl
  · change StateT.run (match View.outcome h'.state caller command outcome with
      | .error fault => _ | .ok value => _) d' = _
    simp only
    cases View.outcome h'.state caller command outcome <;> rfl

/-- Where the host and the disk are as they were, only what is answered matters. -/
theorem answer_of_eq {other : Response}
    (htold : ∀ order, Route.ofPath? r.path = some (.order order) → r.method = "POST" →
      400 ≤ other.status)
    (heq : ((h, other), d) = ((h', response), d')) : Answer h r d h' response d' := by
  obtain ⟨hpair, rfl⟩ := Prod.mk.inj heq
  obtain ⟨rfl, rfl⟩ := Prod.mk.inj hpair
  exact .idle htold

theorem answer_of_order {order : Order} (hposted : r.method = "POST")
    (hpath : Route.ofPath? r.path = some (.order order))
    (hrun : (order.carryOut h r).run d = ((h', response), d')) : Answer h r d h' response d' := by
  unfold Order.carryOut at hrun
  cases hgiven : commandOf r order with
  | error rejection =>
      rw [hgiven] at hrun
      exact answer_of_eq (fun _ _ _ => turnsDown_commandOf r order rejection hgiven) hrun
  | ok given =>
      obtain ⟨caller, command⟩ := given
      simp only [hgiven] at hrun
      rw [run_submit, Host.run_submit] at hrun
      cases hcheck : h.state.check caller command with
      | error refusal =>
          rw [hcheck] at hrun
          exact answer_of_eq (fun _ _ _ => (HostFault.refused refusal).le_status) hrun
      | ok _ =>
          rcases hentered : (h.enter (h.nextEntry caller command)).run d with ⟨⟨h₁, fault | _⟩, d₁⟩
          · simp only [hcheck, hentered] at hrun
            obtain ⟨hpair, rfl⟩ := Prod.mk.inj hrun
            obtain ⟨rfl, rfl⟩ := Prod.mk.inj hpair
            exact .notEntered hposted hentered
          · obtain ⟨s, outcome, haccepted⟩ := State.exists_accepted_of_check hcheck
            obtain ⟨value, hvalue⟩ := exists_view_of_accepted haccepted
            -- The command is carried out on the state it was checked on: entering left that alone.
            have hcarry : h₁.carryOut caller command =
                ({ h₁ with
                    state := s
                    hasher := h.hasher.update (h.nextEntry caller command) }, .ok outcome) := by
              rw [Host.eq_of_enter hentered]
              exact Host.carryOut_of_accepted haccepted
            simp only [hcheck, hentered, hcarry, hvalue] at hrun
            obtain ⟨hpair, rfl⟩ := Prod.mk.inj hrun
            obtain ⟨rfl, rfl⟩ := Prod.mk.inj hpair
            exact .accepted hposted hgiven hpath haccepted hentered

theorem exists_run_saveSnapshot (h : Host) (r : Request) (d : Disk) :
    ∃ wanted, (saveSnapshot h r).run d =
      match (h.save wanted).run d with
      | ((h', .error fault), d') => ((h', View.fault fault), d')
      | ((h', .ok path), d') => ((h', .ok (View.saved path h'.state.version)), d') := by
  cases hbody : readBody snapshotShape r with
  | error rejection =>
      refine ⟨none, ?_⟩
      simp only [saveSnapshot, hbody]
      rw [StateT.run_bind]
      rcases (h.save none).run d with ⟨⟨h', _ | _⟩, d'⟩ <;> rfl
  | ok wanted =>
      refine ⟨wanted, ?_⟩
      simp only [saveSnapshot, hbody]
      rw [StateT.run_bind]
      rcases (h.save wanted).run d with ⟨⟨h', _ | _⟩, d'⟩ <;> rfl

theorem answer_of_snapshot (hposted : r.method = "POST")
    (hroute : Route.ofPath? r.path = some .snapshot)
    (hrun : (saveSnapshot h r).run d = ((h', response), d')) : Answer h r d h' response d' := by
  obtain ⟨wanted, hsave⟩ := exists_run_saveSnapshot h r d
  rw [hsave] at hrun
  cases hpath : wanted.or h.snapshotPath with
  | none =>
      rw [Host.run_save_of_none hpath] at hrun
      exact answer_of_eq (fun order horder => by simp [hroute] at horder) hrun
  | some path =>
      rw [Host.run_save_of_some hpath] at hrun
      rcases hreplace : d.perform (replace path (Host.draftOf path) (Snapshot.encode h.state)) with
        ⟨fault | _, d₁⟩ <;> simp only [hreplace] at hrun <;>
        obtain ⟨hpair, rfl⟩ := Prod.mk.inj hrun <;> obtain ⟨rfl, rfl⟩ := Prod.mk.inj hpair
      · exact .notSaved hposted hreplace
      · exact .saved hposted hroute hreplace

theorem answer_of_route {route : Route} (hroute : Route.ofPath? r.path = some route)
    (hrun : (route.respond h r).run d = ((h', response), d')) : Answer h r d h' response d' := by
  cases route with
  | query query =>
      have htold : ∀ {other : Response} (order : Order),
          Route.ofPath? r.path = some (.order order) → r.method = "POST" →
            400 ≤ other.status := by
        intro other order horder
        simp [hroute] at horder
      simp only [Route.respond] at hrun
      split at hrun
      · exact answer_of_eq htold hrun
      · split at hrun
        · exact answer_of_eq htold hrun
        · exact answer_of_eq htold hrun
  | order order =>
      simp only [Route.respond] at hrun
      split at hrun
      · exact answer_of_order ‹_› hroute hrun
      · exact answer_of_eq (fun _ _ _ => (by decide : 400 ≤ 405)) hrun
  | snapshot =>
      simp only [Route.respond] at hrun
      split at hrun
      · exact answer_of_snapshot ‹_› hroute hrun
      · exact answer_of_eq (fun _ _ _ => (by decide : 400 ≤ 405)) hrun

theorem answer_of_respond (hrun : (respond token h r).run d = ((h', response), d')) :
    Answer h r d h' response d' := by
  unfold respond at hrun
  split at hrun
  · next hoptions =>
      refine answer_of_eq (fun order _ hposted => ?_) hrun
      simp [hposted] at hoptions
  · split at hrun
    · exact answer_of_eq (fun _ _ _ => (by decide : 400 ≤ 401)) hrun
    · split at hrun
      · exact answer_of_eq (fun _ _ _ => (by decide : 400 ≤ 404)) hrun
      · next route hroute => exact answer_of_route hroute hrun

/-! ## Hosts that serve -/

/-- A host that has served requests, and the disk by then.  It was started anew or came back from
disk, and whatever else became of the disk meanwhile, no file was lost that someone holds. -/
inductive Served (settings : Settings) (token : Option String) : Host → Disk → Prop
  | fresh (d : Disk) : Served settings token (Host.fresh settings) d
  | recovered {h : Host} {d d' : Disk} (sound : d.Sound)
      (recovered : d.perform (Host.recover settings) = (.ok h, d')) :
      Served settings token h d'
  | answered {h h' : Host} {d d' : Disk} {r : Request} {response : Response}
      (before : Served settings token h d)
      (answered : (respond token h r).run d = ((h', response), d')) :
      Served settings token h' d'
  | meanwhile {h : Host} {d d' : Disk} (before : Served settings token h d)
      (kept : d.contents.length ≤ d'.contents.length) : Served settings token h d'

/-- One request does not lose the journal. -/
theorem Answer.onDisk (hanswer : Answer h r d h' response d') (hfile : h.OnDisk d) :
    h'.OnDisk d' := by
  cases hanswer with
  | idle told => exact hfile
  | notEntered posted entered => exact hfile.enter entered
  | accepted posted given path accepted entered => exact fun w hw => hfile.enter entered w hw
  | notSaved posted failed => exact hfile.mono ((Grows.replace _ _ _).le failed)
  | saved posted route replaced => exact hfile.mono ((Grows.replace _ _ _).le replaced)

theorem Served.onDisk {settings : Settings} (hserved : Served settings token h d) :
    h.OnDisk d := by
  induction hserved with
  | fresh d => exact fun w hw => by simp [Host.fresh] at hw
  | recovered sound recovered => exact Host.onDisk_of_recover sound recovered
  | answered before answered ih => exact (answer_of_respond answered).onDisk ih
  | meanwhile before kept ih => exact ih.mono kept

/-! ## Failed requests -/

/-- Whether a response says that a request was successful. -/
def Response.Succeeds (response : Response) : Prop :=
  200 ≤ response.status ∧ response.status < 300

instance (response : Response) : Decidable response.Succeeds :=
  inferInstanceAs (Decidable (_ ∧ _))

theorem succeeds_ok (value : Json) : (Response.ok value).Succeeds :=
  ⟨Nat.le_refl 200, (by decide : 200 < 300)⟩

theorem not_succeeds_of_le (hstatus : 400 ≤ response.status) : ¬ response.Succeeds := by
  intro hsucceeds
  have hlt := hsucceeds.2
  omega

theorem not_succeeds_fault (f : HostFault) : ¬ (View.fault f).Succeeds :=
  not_succeeds_of_le f.le_status

/-- A request that fails, and one that only looks, leaves the state, the journal hash, the proof and
the hash of the last snapshot as they were.  A request that gives a command and succeeds gave one
command of its caller.  If there is room for it, just this command was accepted, the version grew by
one, the counts still fit, and if there is a journal, the frame of that very entry was added to it,
and nothing else was changed on the disk. -/
theorem failed_requests_leave_no_trace {settings : Settings} (hserved : Served settings token h d)
    (hrespond : (respond token h r).run d = ((h', response), d')) :
    (¬ response.Succeeds ∨ r.method = "GET" →
      h'.state = h.state ∧ h'.hasher = h.hasher ∧ h'.proof = h.proof ∧
        h'.snapshotHash = h.snapshotHash) ∧
    ∀ order, Route.ofPath? r.path = some (.order order) → r.method = "POST" →
      response.Succeeds →
        ∃ caller command, callerOf r = .ok caller ∧ commandOf r order = .ok (caller, command) ∧
          (h.state.HasRoom command → ∃ outcome,
            h.state.apply caller command = .ok (h'.state, outcome) ∧
            h'.state.version = h.state.version + 1 ∧
            (h.state.CountsFit → h'.state.CountsFit) ∧
            h'.hasher = h.hasher.update (h.nextEntry caller command) ∧
            (h.writer = none → h'.writer = none ∧ d' = d) ∧
            ∀ w, h.writer = some w → ∃ w', h'.writer = some w' ∧
              (w.append (h.nextEntry caller command)).run d = ((w', .ok ()), d') ∧
              d'.content w.file = d.content w.file ++ (h.nextEntry caller command).frame ∧
              Touched w.file d d') := by
  cases answer_of_respond hrespond with
  | idle told =>
      refine ⟨fun _ => ⟨rfl, rfl, rfl, rfl⟩, fun order hpath hposted hsucceeds => ?_⟩
      exact absurd hsucceeds (not_succeeds_of_le (told order hpath hposted))
  | notEntered posted entered =>
      refine ⟨fun _ => ?_, fun _ _ _ hsucceeds => ?_⟩
      · rw [Host.eq_of_enter entered]
        exact ⟨rfl, rfl, rfl, rfl⟩
      · exact absurd hsucceeds (not_succeeds_fault _)
  | notSaved posted failed =>
      refine ⟨fun _ => ⟨rfl, rfl, rfl, rfl⟩, fun _ _ _ hsucceeds => ?_⟩
      exact absurd hsucceeds (not_succeeds_fault _)
  | saved posted route replaced =>
      constructor
      · rintro (hfails | hget)
        · exact absurd (succeeds_ok _) hfails
        · simp [posted] at hget
      · intro order horder
        simp [route] at horder
  | @accepted order caller command s outcome h₁ value _ posted given path accepted entered =>
      constructor
      · rintro (hfails | hget)
        · exact absurd (succeeds_ok value) hfails
        · simp [posted] at hget
      · intro order' hpath' _ _
        obtain rfl : order = order' := by simpa [path] using hpath'
        refine ⟨caller, command, callerOf_of_commandOf given, given, ?_⟩
        intro hroom
        refine ⟨outcome, State.apply_eq_ok_iff.2 accepted, accepted.version_eq,
          fun hfits => accepted.countsFit hfits hroom, rfl, ?_, ?_⟩
        · intro hwriter
          rw [Host.run_enter_of_none hwriter] at entered
          obtain ⟨hpair, rfl⟩ := Prod.mk.inj entered
          obtain ⟨rfl, -⟩ := Prod.mk.inj hpair
          exact ⟨hwriter, rfl⟩
        · intro w hwriter
          obtain ⟨w', happend, rfl⟩ := Host.exists_append_of_enter hwriter entered
          have hstored := JournalWriter.content_of_append (hserved.onDisk w hwriter) happend
          exact ⟨w', rfl, happend, hstored⟩

/-- A node asks to be registered. -/
def registration : Request where
  method := "POST"
  target := "/v1/nodes"
  headers := [("x-caller-address", "0x0000000000000000000000000000000000000001"),
    ("content-type", "application/json")]
  body := some "\x7b\"spec\": \"s\"\x7d"

/-- What comes of a request to a host on a disk that it came back from. -/
def answerTo (r : Request) : (Host × Response) × Disk :=
  (respond none (comeBack keepingSettings {}).1 r).run (comeBack keepingSettings {}).2

theorem failed_requests_leave_no_trace_of_registration :
    (answerTo registration).1.1.state.version = 1 ∧
    (answerTo registration).2.content 0 = (comeBack keepingSettings {}).2.content 0 ++
      (⟨1, .ofLow 1, .registerNode "s"⟩ : Entry).frame ∧
    (answerTo { registration with headers := [] }).1.1.proof =
      (comeBack keepingSettings {}).1.proof := by
  have hserved : Served keepingSettings none (comeBack keepingSettings {}).1
      (comeBack keepingSettings {}).2 :=
    .recovered noFiles_empty.tidy.sound (perform_recover_of_isOk (by decide +kernel))
  have hwriter : (comeBack keepingSettings {}).1.writer =
      some ⟨⟨"/journal"⟩, 0, 0, journalHeaderLength, false⟩ := by
    decide +kernel
  have hversion : (comeBack keepingSettings {}).1.state.version = 0 := by decide +kernel
  obtain ⟨caller, command, -, hgiven, hdone⟩ :=
    (failed_requests_leave_no_trace hserved (r := registration) rfl).2 .registerNode
      (by decide +kernel) rfl (by decide +kernel)
  have hgiven' : (commandOf registration .registerNode).toOption =
      some (.ofLow 1, .registerNode "s") := by
    decide +kernel
  obtain ⟨rfl, rfl⟩ : caller = .ofLow 1 ∧ command = .registerNode "s" := by
    simpa [hgiven, Except.toOption] using hgiven'
  obtain ⟨outcome, -, hnext, -, -, -, hentered⟩ := hdone (by decide +kernel)
  obtain ⟨w', -, -, hcontent, -⟩ := hentered _ hwriter
  rw [Host.nextEntry, hversion] at hcontent
  rw [hversion] at hnext
  refine ⟨hnext, hcontent, ?_⟩
  exact ((failed_requests_leave_no_trace hserved (r := { registration with headers := [] })
    rfl).1 (.inl (by decide +kernel))).2.2.1

end Http

end Arbiter
