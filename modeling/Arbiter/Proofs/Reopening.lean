import Arbiter.Host.Recovery
import Arbiter.Proofs.FileReplacement
import Arbiter.Proofs.HostStep
import Arbiter.Proofs.StateImage

/-!
# Coming back from disk

A journal file that ends in a whole frame is opened without being written to.  A host that comes
back from it, with or without a snapshot of an earlier state, has the state that the journal leads
to and has hashed the same entries as before.
-/

namespace Arbiter

open Disk

variable {d d' : Disk} {path : Path} {place : Place} {id : FileId} {entries : List Entry}

/-! ## Opening the journal again -/

theorem length_journalFile_pos (entries : List Entry) : 0 < (journalFile entries).length := by
  rw [length_journalFile, journalHeaderLength]
  omega

namespace JournalWriter

theorem hasContents_iff (hfile : d.FileAt path place id) :
    hasContents d path = true ↔ d.content id ≠ [] := by
  simp [hasContents, hfile.length, List.length_pos_iff]

/-- A file that has contents is read when it is opened. -/
theorem exists_read_of_openAt {w : JournalWriter} {contents : JournalContents}
    (hcontents : hasContents d path = true)
    (hopen : d.perform (openAt path) = (.ok (w, contents), d')) :
    ∃ bytes, d.read path = .ok bytes := by
  rw [openAt, perform_bind, perform_get] at hopen
  simp only [hcontents, if_true] at hopen
  obtain ⟨_, _, hread, -⟩ := perform_bind_eq_ok_iff.1 hopen
  rw [perform_look, Prod.mk.injEq, readContents] at hread
  cases hbytes : d.read path with
  | error fault => simp [hbytes] at hread
  | ok bytes => exact ⟨bytes, rfl⟩

/-- Where no file can be read, only the disk keeps a journal from being opened. -/
theorem openAt_eq_error {fault : JournalFault} (hread : ∀ bytes, d.read path ≠ .ok bytes)
    (hopen : d.perform (openAt path) = (.error fault, d')) :
    ∃ cause, fault = .disk cause := by
  rw [openAt, perform_bind, perform_get] at hopen
  simp only at hopen
  split at hopen
  · have hcontents : ∃ cause, readContents d path = .error (.disk cause) := by
      unfold readContents
      cases hbytes : d.read path with
      | error cause => exact ⟨cause, rfl⟩
      | ok bytes => exact absurd hbytes (hread bytes)
    obtain ⟨cause, hcontents⟩ := hcontents
    rw [perform_bind, perform_look, hcontents] at hopen
    exact ⟨cause, (Except.error.inj (congrArg Prod.fst hopen)).symm⟩
  · rw [perform_bind, perform_adapt] at hopen
    rcases hstart : d.perform (start path true ⟨[], journalHeaderLength, 0⟩) with ⟨cause | _, _⟩
    · rw [hstart] at hopen
      exact ⟨cause, (Except.error.inj (congrArg Prod.fst hopen)).symm⟩
    · rw [hstart] at hopen
      exact absurd (congrArg Prod.fst hopen) (by simp [Except.mapError, perform_pure])

/-- Without files, a journal that was opened is a new one. -/
theorem hasContents_of_noFiles (hempty : d.NoFiles) {w : JournalWriter}
    {contents : JournalContents} (hopen : d.perform (openAt path) = (.ok (w, contents), d')) :
    hasContents d path = false := by
  by_contra hcontents
  obtain ⟨bytes, hread⟩ := exists_read_of_openAt (by simpa using hcontents) hopen
  exact hempty.read_ne_ok path bytes hread

theorem perform_cutTail_of_whole {contents : JournalContents} (hwhole : contents.tornTail = 0)
    (d : Disk) : d.perform (cutTail path contents) = (.ok (), d) := by
  rw [cutTail, if_neg (by simp [hwhole])]
  rfl

theorem perform_start_old (path : Path) (contents : JournalContents) (d : Disk) :
    d.perform (start path false contents) =
      match d.perform (openOrMake path) with
      | (.error fault, d') => (.error fault, d')
      | (.ok id, d') =>
        (.ok ⟨path, id, contents.entries.length, contents.validLength, false⟩, d') := by
  rw [start, perform_bind]
  rcases d.perform (openOrMake path) with ⟨_ | _, _⟩ <;> rfl

/-- A file that has contents is left alone if it cannot be read; otherwise its torn tail is cut off
before it is opened. -/
theorem perform_openAt_of_fileAt (hfile : d.FileAt path place id) (hcontent : d.content id ≠ []) :
    d.perform (openAt path) =
      match scan (d.content id) with
      | .error fault => (.error (.scan fault), d)
      | .ok contents =>
        match d.perform (cutTail path contents) with
        | (.error fault, d') => (.error (.disk fault), d')
        | (.ok _, d') =>
          match d'.perform (openOrMake path) with
          | (.error fault, d'') => (.error (.disk fault), d'')
          | (.ok id, d'') =>
            (.ok (⟨path, id, contents.entries.length, contents.validLength, false⟩, contents),
              d'') := by
  rw [openAt, perform_bind, perform_get]
  simp only [(hasContents_iff hfile).2 hcontent, if_true]
  rw [perform_bind, perform_look]
  cases hscan : scan (d.content id) with
  | error fault => simp only [readContents, hfile.read, hscan]
  | ok contents =>
      simp only [readContents, hfile.read, hscan]
      rw [perform_bind, perform_adapt]
      rcases d.perform (cutTail path contents) with ⟨_ | _, d'⟩
      · rfl
      · simp only [Except.mapError]
        rw [perform_bind, perform_adapt, perform_start_old]
        rcases d'.perform (openOrMake path) with ⟨_ | _, _⟩ <;> rfl

/-- The journal of some entries is opened again, unless the disk fails. -/
theorem perform_openAt (hfile : d.FileAt path place id)
    (hcontent : d.content id = journalFile entries) (hstorable : ∀ e ∈ entries, e.Storable)
    (hnumbers : entries.map (·.sequence) = List.range' 1 entries.length) :
    d.perform (openAt path) =
        (.ok (⟨path, id, entries.length, (journalFile entries).length, false⟩,
          ⟨entries, (journalFile entries).length, 0⟩), d.spend) ∨
      d.perform (openAt path) = (.error (.disk .broken), d.spend) ∧ ¬ d.Calm := by
  have hscan : scan (d.content id) = .ok ⟨entries, (journalFile entries).length, 0⟩ := by
    rw [hcontent, scan_journalFile hstorable hnumbers]
  have hne : d.content id ≠ [] := by
    rw [hcontent]
    exact List.ne_nil_of_length_pos (length_journalFile_pos entries)
  rw [perform_openAt_of_fileAt hfile hne, hscan]
  simp only [perform_cutTail_of_whole]
  rcases hfile.perform_openOrMake with hopen | ⟨hopen, hcalm⟩
  · simp only [hopen, true_or]
  · simp only [hopen, hcalm, not_false_iff, and_self, or_true]

end JournalWriter

/-! ## Coming back -/

/-- What a host reports when the disk lets it down. -/
def HostFault.OfDisk (fault : HostFault) : Prop :=
  ∃ cause, fault = .disk cause ∨ fault = .journal (.disk cause)

namespace Host

open State

variable {settings : Settings} {s : State} {front back accepted : List Entry}

/-- What stands under the path for snapshots: nothing, or the snapshot of a state that the first of
the accepted entries lead to. -/
inductive SnapshotOf (settings : Settings) (d : Disk) (accepted : List Entry) : Prop
  | absent
      (free : ∀ snapshot, settings.snapshotPath = some snapshot → d.holds snapshot = false)
  | saved {snapshot : Path} {place : Place} {id : FileId} {s : State} {front back : List Entry}
      (given : settings.snapshotPath = some snapshot) (file : d.FileAt snapshot place id)
      (intact : Snapshot.decode (d.content id) = .ok s)
      (trail : Trail (initial settings.policy) front s) (parts : accepted = front ++ back)

theorem holds_of_fileAt (hfile : d.FileAt path place id) : d.holds path = true := by
  simp [Disk.holds, hfile.find, Except.isOk, Except.toBool]

/-- A replay starts from a state that the first of the accepted entries lead to. -/
theorem SnapshotOf.exists_baseState (h : SnapshotOf settings d accepted) :
    ∃ base front back, baseState d settings = .ok base ∧
      Trail (initial settings.policy) front base ∧ accepted = front ++ back := by
  cases h with
  | absent free =>
      refine ⟨initial settings.policy, [], accepted, ?_, .start, rfl⟩
      cases hpath : settings.snapshotPath with
      | none => simp [baseState, hpath]
      | some snapshot => simp [baseState, hpath, free snapshot hpath]
  | saved given file intact trail parts =>
      refine ⟨_, _, _, ?_, trail, parts⟩
      simp [baseState, given, holds_of_fileAt file, readSnapshot, file.read, intact,
        Except.mapError]

/-- Without files there is no snapshot to continue from. -/
theorem baseState_of_noFiles (hempty : d.NoFiles) {base : State}
    (hbase : baseState d settings = .ok base) :
    base = initial settings.policy ∧
      ∀ snapshot, settings.snapshotPath = some snapshot → d.holds snapshot = false := by
  unfold baseState at hbase
  cases hpath : settings.snapshotPath with
  | none =>
      rw [hpath] at hbase
      exact ⟨(Except.ok.inj hbase).symm, by simp⟩
  | some snapshot =>
      simp only [hpath] at hbase
      cases hholds : d.holds snapshot with
      | false =>
          rw [hholds] at hbase
          refine ⟨(Except.ok.inj hbase).symm, fun snapshot' hsnapshot => ?_⟩
          rwa [← Option.some.inj hsnapshot]
      | true =>
          rw [hholds, if_pos rfl, readSnapshot] at hbase
          cases hread : d.read snapshot with
          | error fault => simp [hread] at hbase
          | ok bytes => exact absurd hread (hempty.read_ne_ok snapshot bytes)

theorem baseState_eq_error (hempty : d.NoFiles) {fault : HostFault}
    (hbase : baseState d settings = .error fault) : ∃ cause, fault = .disk cause := by
  unfold baseState at hbase
  split at hbase
  · simp at hbase
  · rename_i snapshot _
    split at hbase
    · rw [readSnapshot] at hbase
      cases hread : d.read snapshot with
      | error cause =>
          rw [hread] at hbase
          exact ⟨cause, (Except.error.inj hbase).symm⟩
      | ok bytes => exact absurd hread (hempty.read_ne_ok snapshot bytes)
    · simp at hbase

/-- A snapshot stays one as long as its file stays, or stays missing. -/
theorem SnapshotOf.mono (h : SnapshotOf settings d accepted) (more : List Entry)
    (hfree : ∀ snapshot, settings.snapshotPath = some snapshot → d'.holds snapshot = true →
      d.holds snapshot = true)
    (hfiles : ∀ {snapshot : Path} {place : Place} {id : FileId},
      settings.snapshotPath = some snapshot → d.FileAt snapshot place id →
        d'.FileAt snapshot place id ∧ d'.content id = d.content id) :
    SnapshotOf settings d' (accepted ++ more) := by
  cases h with
  | absent free =>
      refine .absent fun snapshot hsnapshot => ?_
      have hfree' := mt (hfree snapshot hsnapshot)
      simpa [free snapshot hsnapshot] using hfree'
  | @saved _ _ _ _ front back given file intact trail parts =>
      obtain ⟨hfile, hcontent⟩ := hfiles given file
      have hparts : accepted ++ more = front ++ (back ++ more) := by
        rw [parts, List.append_assoc]
      exact .saved given hfile (hcontent ▸ intact) trail hparts

theorem catchUp_eq_ok {base : State} {policy : Policy}
    (hfront : Trail (initial policy) front base) (hall : Trail (initial policy) (front ++ back) s)
    (haudit : s.audit = .ok ()) : catchUp base (front ++ back) = .ok s := by
  obtain ⟨base', hfront', hback⟩ := hall.split
  obtain rfl := hfront.unique hfront'
  have hversion : base.version = front.length :=
    hfront.version_eq.trans (Nat.zero_add _)
  have hcovered : ¬ (front ++ back).length < base.version := by
    rw [hversion, List.length_append]
    omega
  rw [catchUp, if_neg hcovered, hfront.replay_of_prefix hback]
  simp [Replay.finished, haudit, Except.map, Except.mapError, bind, Except.bind, pure,
    Except.pure]

/-- The state that entries in range lead to is sound. -/
theorem sound_of_trail {policy : Policy} (htrail : Trail (initial policy) accepted s)
    (hstorable : ∀ e ∈ accepted, e.Storable) : s.Numbered ∧ s.Sound :=
  ⟨htrail.reachable.numbered,
    htrail.sound (.initial policy) (.initial policy) fun e he => (hstorable e he).command⟩

theorem version_lt_of_trail {policy : Policy} (htrail : Trail (initial policy) accepted s)
    (hstorable : ∀ e ∈ accepted, e.Storable) : s.version < capacity 8 := by
  have hversion : s.version = accepted.length := htrail.version_eq.trans (Nat.zero_add _)
  rw [hversion]
  rcases Nat.eq_zero_or_pos accepted.length with hzero | hpos
  · rw [hzero]
    decide
  · have hnumbers : accepted.map (·.sequence) = List.range' 1 accepted.length :=
      htrail.map_sequence
    have hlast : accepted.length ∈ accepted.map (·.sequence) := by
      rw [hnumbers, List.mem_range'_1]
      omega
    obtain ⟨e, he, hsequence⟩ := List.mem_map.1 hlast
    exact hsequence ▸ (hstorable e he).sequence

/-- The state that entries in range lead to is read back from its snapshot. -/
theorem decode_snapshot_of_trail {policy : Policy} (hpolicy : policy.InRange)
    (htrail : Trail (initial policy) accepted s) (hstorable : ∀ e ∈ accepted, e.Storable)
    (hshort : (Snapshot.encode s).length < capacity 8) :
    Snapshot.decode (Snapshot.encode s) = .ok s := by
  obtain ⟨hnumbered, hsound⟩ := sound_of_trail htrail hstorable
  have hpolicy' : s.policy.InRange := by
    rw [htrail.policy_eq]
    exact hpolicy
  exact hsound.decode_snapshot hnumbered hpolicy' (version_lt_of_trail htrail hstorable) hshort

theorem catchUp_nil (policy : Policy) :
    catchUp (initial policy) [] = .ok (initial policy) := by
  have hnothing : Trail (initial policy) [] (initial policy) := .start
  have haudit := (Sound.initial policy).audit (.initial policy)
  have hall : Trail (initial policy) ([] ++ []) (initial policy) := hnothing
  exact catchUp_eq_ok hnothing hall haudit

/-- With a state to begin with, a host opens its journal and catches up with it. -/
theorem perform_recover_of_baseState {base : State} (hjournal : settings.journalPath = some path)
    (hbase : baseState d settings = .ok base) :
    d.perform (recover settings) =
      match d.perform (JournalWriter.openAt path) with
      | (.error fault, d') => (.error (.journal fault), d')
      | (.ok (w, contents), d') =>
        match catchUp base contents.entries with
        | .error fault => (.error fault, d')
        | .ok s =>
          (.ok {
            state := s
            writer := some w
            hasher := JournalHasher.updateAll {} contents.entries
            snapshotPath := settings.snapshotPath }, d') := by
  rw [recover, perform_bind, perform_look, hbase]
  simp only [hjournal]
  rw [perform_bind, perform_adapt]
  rcases d.perform (JournalWriter.openAt path) with ⟨_ | ⟨w, contents⟩, d'⟩
  · rfl
  · simp only [Except.mapError]
    rw [perform_bind, perform_settled]
    cases catchUp base contents.entries <;> rfl

/-- A host that comes back has opened its journal and caught up with it. -/
theorem exists_of_recover {h : Host} (hjournal : settings.journalPath = some path)
    (hrecover : d.perform (recover settings) = (.ok h, d')) :
    ∃ base w contents s, baseState d settings = .ok base ∧
      d.perform (JournalWriter.openAt path) = (.ok (w, contents), d') ∧
      catchUp base contents.entries = .ok s ∧
      h = {
        state := s
        writer := some w
        hasher := JournalHasher.updateAll {} contents.entries
        snapshotPath := settings.snapshotPath } := by
  obtain ⟨base, d₀, hbase, hrecover⟩ := perform_bind_eq_ok_iff.1 hrecover
  rw [perform_look, Prod.mk.injEq] at hbase
  obtain ⟨hbase, rfl⟩ := hbase
  rw [hjournal] at hrecover
  obtain ⟨⟨w, contents⟩, d₁, hopen, hrecover⟩ := perform_bind_eq_ok_iff.1 hrecover
  obtain ⟨s, d₂, hcatch, hrecover⟩ := perform_bind_eq_ok_iff.1 hrecover
  rw [perform_adapt_eq_ok_iff] at hopen
  rw [perform_settled, Prod.mk.injEq] at hcatch
  obtain ⟨hcatch, rfl⟩ := hcatch
  obtain ⟨hhost, rfl⟩ := Prod.mk.inj hrecover
  exact ⟨base, w, contents, s, hbase, hopen, hcatch, (Except.ok.inj hhost).symm⟩

/-- Without files, only the disk keeps a host from starting. -/
theorem ofDisk_of_noFiles (hjournal : settings.journalPath = some path) (hempty : d.NoFiles)
    {fault : HostFault} (hrecover : d.perform (recover settings) = (.error fault, d')) :
    fault.OfDisk := by
  rw [recover, perform_bind, perform_look] at hrecover
  cases hbase : baseState d settings with
  | error _ =>
      obtain ⟨cause, rfl⟩ := baseState_eq_error hempty hbase
      rw [hbase] at hrecover
      exact ⟨cause, .inl (Except.error.inj (congrArg Prod.fst hrecover)).symm⟩
  | ok base =>
      obtain ⟨rfl, -⟩ := baseState_of_noFiles hempty hbase
      rw [hbase] at hrecover
      simp only [hjournal] at hrecover
      rw [perform_bind, perform_adapt] at hrecover
      rcases hopen : d.perform (JournalWriter.openAt path) with ⟨_ | ⟨w, contents⟩, d₁⟩
      · obtain ⟨cause, rfl⟩ := JournalWriter.openAt_eq_error (hempty.read_ne_ok path) hopen
        rw [hopen] at hrecover
        exact ⟨cause, .inr (Except.error.inj (congrArg Prod.fst hrecover)).symm⟩
      · have hnew := JournalWriter.hasContents_of_noFiles hempty hopen
        obtain ⟨hentries, -⟩ := JournalWriter.openAt_new_eq_ok hempty.tidy.sound hnew hopen
        rw [hopen] at hrecover
        simp only [Except.mapError] at hrecover
        rw [perform_bind, perform_settled, hentries, catchUp_nil] at hrecover
        exact absurd (congrArg Prod.fst hrecover) (by simp [perform_pure])

/-- A host that started without files starts from nothing and has a new journal. -/
theorem eq_of_noFiles (hjournal : settings.journalPath = some path) (hempty : d.NoFiles)
    {h : Host} (hstart : d.perform (recover settings) = (.ok h, d')) :
    ∃ w, h = { state := initial settings.policy, writer := some w,
               snapshotPath := settings.snapshotPath } ∧
      (∀ snapshot, settings.snapshotPath = some snapshot → d.holds snapshot = false) ∧
      (∃ place, w.Keeps path place d' [] fun _ => False) ∧
      ∃ d₁, d.perform (openOrMake path) = (.ok w.file, d₁) ∧ Touched w.file d₁ d' := by
  obtain ⟨base, w, contents, s, hbase, hopen, hcatch, rfl⟩ := exists_of_recover hjournal hstart
  obtain ⟨rfl, hfree⟩ := baseState_of_noFiles hempty hbase
  have hnew := JournalWriter.hasContents_of_noFiles hempty hopen
  obtain ⟨hentries, hkeeps, hmade⟩ :=
    JournalWriter.openAt_new_eq_ok hempty.tidy.sound hnew hopen
  rw [hentries, catchUp_nil] at hcatch
  obtain rfl := Except.ok.inj hcatch
  rw [hentries]
  exact ⟨w, rfl, hfree, hkeeps, hmade⟩

/-- A host comes back with the state that its journal leads to, unless the disk fails. -/
theorem perform_recover (hjournal : settings.journalPath = some path)
    (hsnapshot : SnapshotOf settings d accepted)
    (htrail : Trail (initial settings.policy) accepted s) (hfile : d.FileAt path place id)
    (hcontent : d.content id = journalFile accepted) (hstorable : ∀ e ∈ accepted, e.Storable) :
    d.perform (recover settings) =
        (.ok {
          state := s
          writer := some ⟨path, id, accepted.length, (journalFile accepted).length, false⟩
          hasher := ⟨journalImage accepted⟩
          snapshotPath := settings.snapshotPath }, d.spend) ∨
      d.perform (recover settings) = (.error (.journal (.disk .broken)), d.spend) ∧ ¬ d.Calm := by
  obtain ⟨base, front, back, hbase, hfront, rfl⟩ := hsnapshot.exists_baseState
  obtain ⟨hnumbered, hsound⟩ := sound_of_trail htrail hstorable
  have hcatch := catchUp_eq_ok hfront htrail (hsound.audit hnumbered)
  rw [perform_recover_of_baseState hjournal hbase]
  rcases JournalWriter.perform_openAt hfile hcontent hstorable htrail.map_sequence with
    hopen | ⟨hopen, hcalm⟩
  · simp only [hopen, hcatch]
    exact .inl rfl
  · simp only [hopen, hcalm, not_false_iff, and_self, or_true]

end Host

end Arbiter
