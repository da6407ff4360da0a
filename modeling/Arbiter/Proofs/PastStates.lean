import Arbiter.Offline.Report
import Arbiter.Proofs.Acknowledged
import Arbiter.Proofs.Entering
import Arbiter.Proofs.OfflineAgreement
import Arbiter.Proofs.ReplayWindow

/-!
# Loading past states

A history can be loaded up to any version, from the beginning or from a snapshot on the way.  What
is loaded is what the host had at that version: its state, its entries and the hashes of both.  Only
behind the snapshot there is no way back.

The entries are cut off by their count, while a replay skips them by their numbers.  Both come to
the same because the state after some entries has just their count as its version.
-/

namespace Arbiter

open State

/-! ## Runs of a host -/

namespace Host

variable {h h' : Host} {d d' : Disk} {caller : Address} {command : Command}
  {result : Except HostFault Outcome}

/-- A submitted command is answered with a fault and leaves the state and the hashed journal as they
were, or it is accepted and hashed. -/
theorem submit_cases (hsubmit : (h.submit caller command).run d = ((h', result), d')) :
    (∃ fault, result = .error fault ∧ h'.state = h.state ∧ h'.hasher = h.hasher) ∨
      ∃ outcome, result = .ok outcome ∧ Accepted h.state caller command h'.state outcome ∧
        h'.hasher = h.hasher.update (h.nextEntry caller command) := by
  rw [run_submit] at hsubmit
  cases hcheck : h.state.check caller command with
  | error refusal =>
      simp only [hcheck] at hsubmit
      obtain ⟨hpair, -⟩ := Prod.mk.inj hsubmit
      obtain ⟨rfl, rfl⟩ := Prod.mk.inj hpair
      exact .inl ⟨_, rfl, rfl, rfl⟩
  | ok _ =>
      obtain ⟨s, outcome, haccepted⟩ := exists_accepted_of_check hcheck
      rcases henter : (h.enter (h.nextEntry caller command)).run d with ⟨⟨h₁, entered⟩, d₁⟩
      have hstate : h₁.state = h.state := by rw [eq_of_enter henter]
      have hhasher : h₁.hasher = h.hasher := by rw [eq_of_enter henter]
      simp only [hcheck, henter] at hsubmit
      cases entered with
      | error fault =>
          obtain ⟨hpair, -⟩ := Prod.mk.inj hsubmit
          obtain ⟨rfl, rfl⟩ := Prod.mk.inj hpair
          exact .inl ⟨_, rfl, hstate, hhasher⟩
      | ok _ =>
          have hcarry := carryOut_of_accepted (hstate.symm ▸ haccepted)
          simp only [hcarry] at hsubmit
          obtain ⟨hpair, -⟩ := Prod.mk.inj hsubmit
          obtain ⟨rfl, rfl⟩ := Prod.mk.inj hpair
          refine .inr ⟨outcome, rfl, haccepted, ?_⟩
          simp only [nextEntry, hstate, hhasher]

end Host

namespace HostRun

variable {r : HostRun} {policy : Policy}

/-- The acknowledged entries lead to the state of the host, and they are what it has hashed. -/
structure Recorded (policy : Policy) (r : HostRun) : Prop where
  trail : Trail (initial policy) (acknowledged r.log) r.host.state
  hasher : r.host.hasher = ⟨journalImage (acknowledged r.log)⟩

theorem Recorded.submit (h : r.Recorded policy) (c : Address × Command) :
    (r.submit c).Recorded policy := by
  rcases hsubmit : (r.host.submit c.1 c.2).run r.disk with ⟨⟨h', result⟩, d'⟩
  simp only [HostRun.submit, hsubmit]
  rcases Host.submit_cases hsubmit with
    ⟨fault, rfl, hstate, hhasher⟩ | ⟨outcome, rfl, haccepted, hhasher⟩
  · constructor
    · rw [acknowledged_concat_error, hstate]
      exact h.trail
    · rw [acknowledged_concat_error, hhasher]
      exact h.hasher
  · constructor
    · rw [acknowledged_concat_ok]
      exact h.trail.accept haccepted
    · rw [acknowledged_concat_ok, hhasher, h.hasher]
      simp [JournalHasher.update, journalImage]

theorem Recorded.submits (h : r.Recorded policy) (commands : List (Address × Command)) :
    (r.submits commands).Recorded policy := by
  induction commands generalizing r with
  | nil => exact h
  | cons c commands ih => exact ih (h.submit c)

theorem Recorded.version_eq (h : r.Recorded policy) :
    r.host.state.version = (acknowledged r.log).length :=
  h.trail.version_eq.trans (Nat.zero_add _)

theorem submits_append (r : HostRun) (commands more : List (Address × Command)) :
    r.submits (commands ++ more) = (r.submits commands).submits more :=
  List.foldl_append

/-- What was acknowledged by then is some first part of what is acknowledged in the end. -/
theorem acknowledged_take_prefix (r : HostRun) (commands : List (Address × Command)) (i : Nat) :
    acknowledged (r.submits (commands.take i)).log <+: acknowledged (r.submits commands).log := by
  have hall := (r.submits (commands.take i)).log_prefix_submits (commands.drop i)
  rw [← submits_append, List.take_append_drop] at hall
  exact hall.filterMap _

theorem version_submit_le (r : HostRun) (c : Address × Command) :
    (r.submit c).host.state.version ≤ r.host.state.version + 1 := by
  rcases hsubmit : (r.host.submit c.1 c.2).run r.disk with ⟨⟨h', result⟩, d'⟩
  simp only [HostRun.submit, hsubmit]
  rcases Host.submit_cases hsubmit with ⟨fault, -, hstate, -⟩ | ⟨outcome, -, haccepted, -⟩
  · rw [hstate]
    exact Nat.le_succ _
  · rw [haccepted.version_eq]

/-- No version is skipped: a run has been at every one on the way. -/
theorem exists_version_eq {commands : List (Address × Command)} {m : Nat}
    (hlow : r.host.state.version ≤ m) (hhigh : m ≤ (r.submits commands).host.state.version) :
    ∃ i, (r.submits (commands.take i)).host.state.version = m := by
  induction commands generalizing r with
  | nil => exact ⟨0, Nat.le_antisymm hlow hhigh⟩
  | cons c commands ih =>
      rcases Nat.eq_or_lt_of_le hlow with heq | hlt
      · exact ⟨0, heq⟩
      · have hnext : (r.submit c).host.state.version ≤ m :=
          Nat.le_trans (r.version_submit_le c) hlt
        obtain ⟨i, hi⟩ := ih hnext hhigh
        exact ⟨i + 1, hi⟩

end HostRun

/-! ## Replaying up to a version -/

/-- Replayed onto the state after some of the entries, entries that go at least as far lead to the
state after them. -/
theorem State.Trail.replay_take {s₀ base s : State} {entries : List Entry} {k m : Nat}
    (hbase : Trail s₀ (entries.take k) base) (hs : Trail s₀ (entries.take m) s) (hkm : k ≤ m)
    (hm : m ≤ entries.length) : base.replay (entries.take m) = ⟨s, .ok (m - k)⟩ := by
  -- The entries before the base are skipped, and those behind it lead on from there.
  have hsplit := JournalRun.take_split hkm entries
  have hparts := hs
  rw [hsplit] at hparts
  obtain ⟨base', hfront, hback⟩ := hparts.split
  obtain rfl := hbase.unique hfront
  have hlength : ((entries.take m).drop k).length = m - k := by
    rw [List.length_drop, List.length_take_of_le hm]
  rw [hsplit, hbase.replay_of_prefix hback, hlength]

namespace Offline

variable {files : Files} {journal : Path} {snapshot : Option Path} {upTo : Option Nat}
  {bytes : Bytes} {contents : JournalContents} {base s : State} {applied : Nat}

/-- How many of the entries are loaded when a version may be wanted. -/
def reached (entries : List Entry) (upTo : Option Nat) : Nat :=
  min (upTo.getD entries.length) entries.length

/-- What is wanted, if anything, does not lie before a version. -/
def NotBefore (version : Nat) (upTo : Option Nat) : Prop :=
  ∀ wanted, upTo = some wanted → version ≤ wanted

theorem NotBefore.le_reached {entries : List Entry} {version : Nat} (h : NotBefore version upTo)
    (hversion : version ≤ entries.length) : version ≤ reached entries upTo := by
  refine Nat.le_min.2 ⟨?_, hversion⟩
  cases upTo with
  | none => exact hversion
  | some wanted => exact h wanted rfl

theorem entriesUpTo_of_notBefore (h : NotBefore base.version upTo) (entries : List Entry) :
    entriesUpTo base entries upTo = .ok (entries.take (reached entries upTo)) := by
  cases upTo with
  | none => simp [entriesUpTo, reached]
  | some wanted =>
      rw [entriesUpTo, if_neg (Nat.not_lt.2 (h wanted rfl)), reached]
      simp [List.take_eq_take_iff]

/-- With the journal read and a state to begin with, it is left to replay the entries that are
wanted. -/
theorem load_of_scan (hbytes : files journal = .ok bytes) (hscan : scan bytes = .ok contents)
    (hbase : baseState files snapshot = .ok base) :
    load files journal snapshot upTo =
      (entriesUpTo base contents.entries upTo).bind fun entries =>
        match (base.replay entries).ending with
        | .error corruption => .error (.during .replaying (.corrupted corruption))
        | .ok applied =>
            .ok ⟨(base.replay entries).state, entries, applied, contents.tornTail⟩ := by
  have hread : within (.readingJournal journal) (readJournal files journal) = .ok contents :=
    within_eq_ok_iff.2 ((readJournal_eq_ok_iff hbytes).2 hscan)
  simp only [load, hread, hbase]
  rfl

theorem load_of_before (hbytes : files journal = .ok bytes) (hscan : scan bytes = .ok contents)
    (hbase : baseState files snapshot = .ok base) {wanted : Nat} (hbefore : wanted < base.version) :
    load files journal snapshot (some wanted) = .error (.rewind wanted base.version) := by
  rw [load_of_scan hbytes hscan hbase, entriesUpTo, if_pos hbefore]
  rfl

theorem load_of_replay (hbytes : files journal = .ok bytes) (hscan : scan bytes = .ok contents)
    (hbase : baseState files snapshot = .ok base) (hupTo : NotBefore base.version upTo)
    (hreplay : base.replay (contents.entries.take (reached contents.entries upTo)) =
      ⟨s, .ok applied⟩) :
    load files journal snapshot upTo =
      .ok ⟨s, contents.entries.take (reached contents.entries upTo), applied,
        contents.tornTail⟩ := by
  rw [load_of_scan hbytes hscan hbase, entriesUpTo_of_notBefore hupTo]
  simp only [Except.bind, hreplay]

/-- A history begins where nothing has happened yet, under the default policy, or with a snapshot
of what the host had at some time, at the version of that. -/
inductive BeginsAt (files : Files) (policy : Policy) (moment : Nat → HostRun) :
    Option Path → Nat → Prop
  | start (default : policy = {}) : BeginsAt files policy moment none 0
  | saved {path : Path} {i : Nat}
      (file : files path = .ok (Snapshot.encode (moment i).host.state))
      (short : (Snapshot.encode (moment i).host.state).length < capacity 8) :
      BeginsAt files policy moment (some path) (moment i).host.state.version

end Offline

/-! ## What was there at a version -/

namespace HostRun

variable {r : HostRun} {policy : Policy} {commands : List (Address × Command)}

/-- Nothing has been submitted yet. -/
structure Unused (policy : Policy) (r : HostRun) : Prop where
  state : r.host.state = .initial policy
  hasher : r.host.hasher = {}
  log : r.log = []

theorem Unused.recorded (h : r.Unused policy) : r.Recorded policy := by
  constructor
  · rw [h.log, h.state]
    exact .start
  · rw [h.log, h.hasher]
    rfl

/-- At every time, as many entries were acknowledged as the version says. -/
theorem Recorded.acknowledged_take (h : r.Recorded policy) (commands : List (Address × Command))
    (i : Nat) : acknowledged (r.submits (commands.take i)).log =
      (acknowledged (r.submits commands).log).take
        (r.submits (commands.take i)).host.state.version := by
  rw [(h.submits (commands.take i)).version_eq]
  exact List.prefix_iff_eq_take.1 (r.acknowledged_take_prefix commands i)

theorem Recorded.trail_take (h : r.Recorded policy) (commands : List (Address × Command))
    (i : Nat) : Trail (initial policy)
      ((acknowledged (r.submits commands).log).take
        (r.submits (commands.take i)).host.state.version)
      (r.submits (commands.take i)).host.state := by
  rw [← h.acknowledged_take commands i]
  exact (h.submits (commands.take i)).trail

theorem Recorded.version_take_le (h : r.Recorded policy) (commands : List (Address × Command))
    (i : Nat) : (r.submits (commands.take i)).host.state.version ≤
      (acknowledged (r.submits commands).log).length := by
  rw [(h.submits (commands.take i)).version_eq]
  exact (r.acknowledged_take_prefix commands i).length_le

/-- The hash of the journal at some time is the one of the entries up to the version then. -/
theorem Recorded.journalHash_take (h : r.Recorded policy) (commands : List (Address × Command))
    (i : Nat) : (r.submits (commands.take i)).host.proof.journalHash =
      journalHash Blake3.digest ((acknowledged (r.submits commands).log).take
        (r.submits (commands.take i)).host.state.version) := by
  rw [← h.acknowledged_take commands i, Host.proof, (h.submits (commands.take i)).hasher]
  rfl

end HostRun

namespace Offline

variable {files : Files} {journal : Path} {snapshot : Option Path} {upTo : Option Nat}
  {policy : Policy} {start run : HostRun} {moment : Nat → HostRun}
  {commands : List (Address × Command)} {k : Nat} {tail : Bytes}

/-- A history begins with the state after the first entries. -/
theorem BeginsAt.exists_base (hbegin : BeginsAt files policy moment snapshot k)
    (hpolicy : policy.InRange) (hstart : start.Recorded policy)
    (hmoment : ∀ i, moment i = start.submits (commands.take i))
    (hstorable : ∀ e ∈ acknowledged (start.submits commands).log, e.Storable) :
    ∃ base, baseState files snapshot = .ok base ∧ base.version = k ∧
      k ≤ (acknowledged (start.submits commands).log).length ∧
      Trail (initial policy) ((acknowledged (start.submits commands).log).take k) base := by
  cases hbegin with
  | start default =>
      subst default
      exact ⟨initial {}, rfl, rfl, Nat.zero_le _, .start⟩
  | @saved path i file short =>
      rw [hmoment] at file short ⊢
      have htrail := hstart.trail_take commands i
      have hdecode := Host.decode_snapshot_of_trail hpolicy htrail
        (fun e he => hstorable e (List.mem_of_mem_take he)) short
      exact ⟨_, (baseState_eq_ok_iff file).2 hdecode, rfl, hstart.version_take_le commands i,
        htrail⟩

/-- Commands are submitted to a host of which nothing has happened yet.  Some of them are refused,
and whatever its own disk does, what it acknowledged stands in a journal file, perhaps with a torn
tail behind.  A history is loaded from there, from the beginning under the default policy or from a
snapshot of the same run.  It fails only when a version is wanted that lies before the snapshot, and
then it does.  Otherwise the host has been at the version that is reached, and whenever it was, its
state, its entries and the hashes of both are what is loaded and printed. -/
theorem past_state_is_loaded (hpolicy : policy.InRange) (hstart : start.Unused policy)
    (hmoment : ∀ i, moment i = start.submits (commands.take i))
    (hrun : run = start.submits commands)
    (hstorable : ∀ e ∈ acknowledged run.log, e.Storable)
    (hjournal : files journal = .ok (journalFile (acknowledged run.log) ++ tail))
    (htorn : readFrame ((acknowledged run.log).length + 1) tail = .torn)
    (hbegin : BeginsAt files policy moment snapshot k) :
    let entries := acknowledged run.log
    let m := min (upTo.getD entries.length) entries.length
    (∀ wanted version, load files journal snapshot upTo = .error (.rewind wanted version) ↔
      upTo = some wanted ∧ wanted < k ∧ version = k) ∧
    ((∀ wanted, upTo = some wanted → k ≤ wanted) →
      (∃ i, (moment i).host.state.version = m) ∧
      ∀ i, (moment i).host.state.version = m →
        let history : History := ⟨(moment i).host.state, entries.take m, m - k, tail.length⟩
        load files journal snapshot upTo = .ok history ∧
        history.stateHash = Text.Hex.text (moment i).host.proof.stateHash ∧
        history.journalHash = Text.Hex.text (moment i).host.proof.journalHash ∧
        ∀ asJson, (Task.replay journal snapshot upTo asJson).report files =
          ⟨if asJson then replayJson history else replayText history, none⟩) := by
  intro entries m
  have hrecorded := hstart.recorded
  have hscan : scan (journalFile entries ++ tail) =
      .ok ⟨entries, (journalFile entries).length, tail.length⟩ := by
    refine scan_journalFile_append hstorable ?_ htorn
    have htrail := (hrecorded.submits commands).trail
    rw [← hrun] at htrail
    exact htrail.map_sequence
  subst hrun
  obtain ⟨base, hbase, rfl, hlow, hfront⟩ := hbegin.exists_base hpolicy hrecorded hmoment hstorable
  have hreached : NotBefore base.version upTo → (∃ i, (moment i).host.state.version = m) ∧
      ∀ i, (moment i).host.state.version = m → load files journal snapshot upTo =
        .ok ⟨(moment i).host.state, entries.take m, m - base.version, tail.length⟩ := by
    intro hupTo
    have hhigh : m ≤ entries.length := Nat.min_le_right _ _
    constructor
    · simp only [hmoment]
      refine HostRun.exists_version_eq ?_ ?_
      · rw [hstart.state]
        exact Nat.zero_le m
      · rw [(hrecorded.submits commands).version_eq]
        exact hhigh
    · intro i hversion
      have htrail := hrecorded.trail_take commands i
      rw [← hmoment, hversion] at htrail
      exact load_of_replay hjournal hscan hbase hupTo
        (hfront.replay_take htrail (hupTo.le_reached hlow) hhigh)
  constructor
  · intro wanted version
    constructor
    · intro hload
      by_cases hupTo : NotBefore base.version upTo
      · obtain ⟨⟨i, hversion⟩, hloaded⟩ := hreached hupTo
        rw [hloaded i hversion] at hload
        cases hload
      · obtain ⟨wanted', rfl, hbefore⟩ :
            ∃ wanted', upTo = some wanted' ∧ wanted' < base.version := by
          simpa [NotBefore] using hupTo
        rw [load_of_before hjournal hscan hbase hbefore] at hload
        cases hload
        exact ⟨rfl, hbefore, rfl⟩
    · rintro ⟨rfl, hbefore, rfl⟩
      exact load_of_before hjournal hscan hbase hbefore
  · intro hupTo
    obtain ⟨hmet, hloaded⟩ := hreached hupTo
    refine ⟨hmet, fun i hversion => ?_⟩
    have hload := hloaded i hversion
    refine ⟨hload, rfl, ?_, fun asJson => ?_⟩
    · have hhash := hrecorded.journalHash_take commands i
      rw [← hmoment, hversion] at hhash
      rw [hhash]
      rfl
    · cases asJson <;> simp [Task.report, reportOn, hload]

/-- A host that has started a journal. -/
def startedRun : HostRun :=
  ⟨(comeBack keepingSettings {}).1, (comeBack keepingSettings {}).2, []⟩

/-- Three registrations, with a command that is refused after the first one. -/
def threeAndRefusal : List (Address × Command) :=
  [(.ofLow 1, .registerNode "s"), (.ofLow 2, .sendEvent "p" 1), (.ofLow 2, .registerNode "s"),
    (.ofLow 3, .registerNode "s")]

/-- A journal of the three registrations with a torn tail, and a snapshot after the first one. -/
def tornFiles : Files :=
  (twoFiles (journalFile (acknowledged (startedRun.submits threeAndRefusal).log) ++ [3])
    (Snapshot.encode (startedRun.submits (threeAndRefusal.take 1)).host.state)).read

theorem past_state_is_loaded_of_tornFiles :
    load tornFiles ⟨"/journal"⟩ (some ⟨"/snapshot"⟩) (some 0) = .error (.rewind 0 1) ∧
      ∃ history, load tornFiles ⟨"/journal"⟩ (some ⟨"/snapshot"⟩) (some 2) = .ok history ∧
        history.state = (startedRun.submits (threeAndRefusal.take 3)).host.state ∧
        history.applied = 1 := by
  have hunused : startedRun.Unused {} :=
    ⟨by decide +kernel, by decide +kernel, by decide +kernel⟩
  have hfiles := twoFiles_fileAt
    (journalFile (acknowledged (startedRun.submits threeAndRefusal).log) ++ [3])
    (Snapshot.encode (startedRun.submits (threeAndRefusal.take 1)).host.state)
  have hbegin : BeginsAt tornFiles {} (fun i => startedRun.submits (threeAndRefusal.take i))
      (some ⟨"/snapshot"⟩) 1 := by
    have hversion : (startedRun.submits (threeAndRefusal.take 1)).host.state.version = 1 := by
      decide +kernel
    rw [← hversion]
    exact .saved (i := 1) hfiles.2.read (by decide +kernel)
  have hmoment : ∀ i, (fun i => startedRun.submits (threeAndRefusal.take i)) i =
      startedRun.submits (threeAndRefusal.take i) := fun _ => rfl
  have hload := fun upTo => @past_state_is_loaded _ _ _ upTo _ _ _ _ _ _ _ Policy.inRange_default
    hunused hmoment rfl (by decide +kernel) hfiles.1.read rfl hbegin
  refine ⟨((hload (some 0)).1 0 1).2 ⟨rfl, by decide, rfl⟩, ?_⟩
  obtain ⟨hloaded, -⟩ := ((hload (some 2)).2 (by simp)).2 3 (by decide +kernel)
  exact ⟨_, hloaded, rfl, by decide +kernel⟩

end Offline

end Arbiter
