import Arbiter.Offline.Load
import Arbiter.Proofs.AdmittedState
import Arbiter.Proofs.OpenedJournal
import Arbiter.Proofs.Restart

/-!
# Loading against coming back

The state of a node can be loaded from its journal and its snapshot without the node.  What a node
comes back with is loaded, too: the same state, and the same entries to be hashed.  But more is
loaded than that.  A node refuses a snapshot that is ahead of the journal, and a state that does not
pass the audit after the replay; a history is loaded in both cases.
-/

namespace Arbiter

open Disk

/-! ## Where a replay ends -/

/-- A replay of numbered entries that leaves no gap ends at the version of the state it started from
or at the last entry, whichever is later. -/
theorem State.version_replayFrom {s : State} {entries : List Entry} {first applied done : Nat}
    (hnumbers : entries.map (·.sequence) = List.range' first entries.length)
    (hfirst : first ≤ s.version + 1)
    (hending : (s.replayFrom applied entries).ending = .ok done) :
    (s.replayFrom applied entries).state.version + 1 =
      max (s.version + 1) (first + entries.length) := by
  induction entries generalizing s first applied with
  | nil => exact (Nat.max_eq_left hfirst).symm
  | cons e entries ih =>
      obtain ⟨hsequence, hnumbers⟩ : e.sequence = first ∧
          entries.map (·.sequence) = List.range' (first + 1) entries.length := by
        simpa [List.range'_succ] using hnumbers
      have hlength : first + (e :: entries).length = first + 1 + entries.length := by
        rw [List.length_cons]
        omega
      rw [hlength]
      by_cases hcovered : e.sequence ≤ s.version
      · rw [replayFrom, if_pos hcovered] at hending ⊢
        exact ih hnumbers (by omega) hending
      · rw [replayFrom, if_neg hcovered] at hending ⊢
        cases hfollow : s.follow e with
        | error _ => simp [hfollow] at hending
        | ok s' =>
            -- The entry that is followed is the next one, so its number becomes the version.
            simp only [hfollow] at hending ⊢
            obtain ⟨hnext, _, haccepted⟩ := follow_eq_ok hfollow
            have hversion : s'.version = first := by
              rw [haccepted.version_eq, ← hnext, hsequence]
            have hfirst' : first + 1 ≤ s'.version + 1 := hversion ▸ Nat.le_refl _
            rw [ih hnumbers hfirst' hending, hversion, ← hnext, hsequence,
              Nat.max_eq_right (Nat.le_add_right _ _), Nat.max_eq_right (by omega)]

/-- A replay of entries that are numbered from the beginning ends at the last of them exactly when
it did not start later. -/
theorem State.version_le_of_replay {base s : State} {entries : List Entry} {applied : Nat}
    (hnumbers : entries.map (·.sequence) = List.range' 1 entries.length)
    (hreplay : base.replay entries = ⟨s, .ok applied⟩) :
    s.version ≤ entries.length ↔ base.version ≤ entries.length := by
  have hversion := version_replayFrom hnumbers (Nat.le_add_left 1 base.version)
    (congrArg Replay.ending hreplay)
  rw [show (base.replayFrom 0 entries).state = s from congrArg Replay.state hreplay,
    Nat.add_comm 1, Nat.add_max_add_right, Nat.add_right_cancel_iff] at hversion
  rw [hversion, Nat.max_le]
  exact and_iff_left (Nat.le_refl _)

/-! ## Both ways -/

namespace Offline

variable {files : Files} {journal snapshot : Path} {bytes saved : Bytes} {history : History}

theorem within_eq_ok_iff {α : Type} {activity : Activity} {result : Except Failure α} {a : α} :
    within activity result = .ok a ↔ result = .ok a :=
  mapError_eq_ok_iff

theorem readJournal_eq_ok_iff (hbytes : files journal = .ok bytes) {contents : JournalContents} :
    readJournal files journal = .ok contents ↔ scan bytes = .ok contents := by
  rw [readJournal, hbytes]
  exact mapError_eq_ok_iff

theorem baseState_eq_ok_iff (hsaved : files snapshot = .ok saved) {base : State} :
    baseState files (some snapshot) = .ok base ↔ Snapshot.decode saved = .ok base := by
  rw [baseState, hsaved]
  exact within_eq_ok_iff.trans mapError_eq_ok_iff

/-- A history is loaded when the journal can be read, there is a state to begin with, and nothing
stops the replay. -/
theorem load_whole_eq_ok_iff (hbytes : files journal = .ok bytes) {snapshot : Option Path} :
    load files journal snapshot none = .ok history ↔
      ∃ contents base, scan bytes = .ok contents ∧ baseState files snapshot = .ok base ∧
        base.replay contents.entries = ⟨history.state, .ok history.applied⟩ ∧
        history.entries = contents.entries ∧ history.tornTail = contents.tornTail := by
  constructor
  · intro hload
    obtain ⟨contents, hscan, hload⟩ := bind_eq_ok_iff.1 hload
    obtain ⟨base, hbase, hload⟩ := bind_eq_ok_iff.1 hload
    rw [within_eq_ok_iff, readJournal_eq_ok_iff hbytes] at hscan
    refine ⟨contents, base, hscan, hbase, ?_⟩
    obtain ⟨entries, hentries, hload⟩ := bind_eq_ok_iff.1 hload
    obtain rfl := Except.ok.inj hentries
    rcases hreplay : base.replay contents.entries with ⟨s, corruption | applied⟩
    · simp [hreplay, throw, throwThe, MonadExceptOf.throw] at hload
    · simp only [hreplay] at hload
      obtain rfl := Except.ok.inj hload
      exact ⟨rfl, rfl, rfl⟩
  · rintro ⟨contents, base, hscan, hbase, hreplay, hentries, htail⟩
    refine bind_eq_ok_iff.2 ⟨contents, ?_, bind_eq_ok_iff.2 ⟨base, hbase, ?_⟩⟩
    · rw [within_eq_ok_iff, readJournal_eq_ok_iff hbytes, hscan]
    · refine bind_eq_ok_iff.2 ⟨contents.entries, rfl, ?_⟩
      rw [← hentries] at hreplay ⊢
      simp only [hreplay, ← htail]
      rfl

theorem load_eq_ok_iff (hbytes : files journal = .ok bytes) (hsaved : files snapshot = .ok saved) :
    load files journal (some snapshot) none = .ok history ↔
      ∃ contents base, scan bytes = .ok contents ∧ Snapshot.decode saved = .ok base ∧
        base.replay contents.entries = ⟨history.state, .ok history.applied⟩ ∧
        history.entries = contents.entries ∧ history.tornTail = contents.tornTail := by
  simp only [load_whole_eq_ok_iff hbytes, baseState_eq_ok_iff hsaved]

end Offline

theorem Replay.finished_eq_ok_iff {r : Replay} {s : State} :
    r.finished = .ok s ↔ ∃ applied, r = ⟨s, .ok applied⟩ := by
  obtain ⟨s', _ | applied⟩ := r
  · simp [finished, Except.map]
  · simp [finished, Except.map]

namespace Host

variable {base s : State} {entries : List Entry}

theorem catchUp_eq_ok_iff :
    catchUp base entries = .ok s ↔
      base.version ≤ entries.length ∧ (∃ applied, base.replay entries = ⟨s, .ok applied⟩) ∧
        s.audit = .ok () := by
  rw [catchUp, ite_error_eq_ok, Nat.not_lt, mapError_eq_ok_iff]
  apply and_congr_right
  intro _
  rw [← Replay.finished_eq_ok_iff]
  constructor
  · intro hcatch
    obtain ⟨s', hfinished, hcatch⟩ := bind_eq_ok_iff.1 hcatch
    obtain ⟨_, haudit, hcatch⟩ := bind_eq_ok_iff.1 hcatch
    obtain rfl := Except.ok.inj hcatch
    exact ⟨hfinished, haudit⟩
  · rintro ⟨hfinished, haudit⟩
    exact bind_eq_ok_iff.2 ⟨s, hfinished, bind_eq_ok_iff.2 ⟨(), haudit, rfl⟩⟩

theorem baseState_of_fileAt {settings : Settings} {d : Disk} {snapshot : Path} {place : Place}
    {id : FileId} (hpath : settings.snapshotPath = some snapshot)
    (hfile : d.FileAt snapshot place id) :
    baseState d settings = (Snapshot.decode (d.content id)).mapError .corrupted := by
  simp only [baseState, hpath, holds_of_fileAt hfile, if_true, readSnapshot, hfile.read]

end Host

section

variable {settings : Settings} {d d' : Disk} {journal snapshot : Path} {place place' : Place}
  {id id' : FileId} {h : Host}

/-- A host that comes back has read both files and has caught up with the journal. -/
theorem Host.exists_scan_of_recover (hjournal : settings.journalPath = some journal)
    (hsnapshot : settings.snapshotPath = some snapshot) (hfile : d.FileAt journal place id)
    (hcontent : d.content id ≠ []) (hsaved : d.FileAt snapshot place' id')
    (hrecover : d.perform (recover settings) = (.ok h, d')) :
    ∃ contents base, scan (d.content id) = .ok contents ∧
      Snapshot.decode (d.content id') = .ok base ∧ catchUp base contents.entries = .ok h.state ∧
      h.hasher = JournalHasher.updateAll {} contents.entries := by
  obtain ⟨base, w, contents, s, hbase, hopen, hcatch, rfl⟩ := exists_of_recover hjournal hrecover
  rw [baseState_of_fileAt hsnapshot hsaved, mapError_eq_ok_iff] at hbase
  exact ⟨contents, base, JournalWriter.scan_of_openAt hfile hcontent hopen, hbase, hcatch, rfl⟩

/-- A host comes back if both files can be read and it catches up with the journal. -/
theorem Host.recovers_of_catchUp {contents : JournalContents} {base s : State} (hd : d.Reliable)
    (hjournal : settings.journalPath = some journal)
    (hsnapshot : settings.snapshotPath = some snapshot) (hfile : d.FileAt journal place id)
    (hcontent : d.content id ≠ []) (hsaved : d.FileAt snapshot place' id')
    (hscan : scan (d.content id) = .ok contents)
    (hdecode : Snapshot.decode (d.content id') = .ok base)
    (hcatch : catchUp base contents.entries = .ok s) :
    ∃ h d', d.perform (recover settings) = (.ok h, d') := by
  have hbase : baseState d settings = .ok base := by
    rw [baseState_of_fileAt hsnapshot hsaved, mapError_eq_ok_iff, hdecode]
  have hopen := JournalWriter.perform_openAt_of_scan hd hfile hcontent hscan
  rw [perform_recover_of_baseState hjournal hbase]
  simp only [hopen, hcatch]
  exact ⟨_, _, rfl⟩

/-- What was loaded, a host comes back with, unless it is refused. -/
theorem recovers_iff_of_load (hd : d.Reliable) (hjournal : settings.journalPath = some journal)
    (hsnapshot : settings.snapshotPath = some snapshot) (hfile : d.FileAt journal place id)
    (hcontent : d.content id ≠ []) (hsaved : d.FileAt snapshot place' id')
    {history : Offline.History}
    (hload : Offline.load d.read journal (some snapshot) none = .ok history) :
    (∃ h d', d.perform (Host.recover settings) = (.ok h, d')) ↔
      history.state.version ≤ history.entries.length ∧ history.state.audit = .ok () := by
  obtain ⟨contents, base, hscan, hdecode, hreplay, hentries, -⟩ :=
    (Offline.load_eq_ok_iff hfile.read hsaved.read).1 hload
  rw [hentries, State.version_le_of_replay (map_sequence_of_scan hscan) hreplay]
  constructor
  · rintro ⟨h, d', hrecover⟩
    obtain ⟨contents', base', hscan', hdecode', hcatch, -⟩ :=
      Host.exists_scan_of_recover hjournal hsnapshot hfile hcontent hsaved hrecover
    obtain rfl := Except.ok.inj (hscan.symm.trans hscan')
    obtain rfl := Except.ok.inj (hdecode.symm.trans hdecode')
    obtain ⟨hcovered, ⟨applied, hreplay'⟩, haudit⟩ := Host.catchUp_eq_ok_iff.1 hcatch
    have hstate : h.state = history.state := congrArg Replay.state (hreplay'.symm.trans hreplay)
    exact ⟨hcovered, hstate ▸ haudit⟩
  · rintro ⟨hcovered, haudit⟩
    have hcatch := Host.catchUp_eq_ok_iff.2 ⟨hcovered, ⟨_, hreplay⟩, haudit⟩
    exact Host.recovers_of_catchUp hd hjournal hsnapshot hfile hcontent hsaved hscan hdecode hcatch

/-- From a journal that is not empty and a snapshot, whatever is in them, a host comes back only
with what is loaded from them, state and journal.  And unless the disk fails, it does come back with
what is loaded exactly when the snapshot is not ahead of the journal and the state passes the
audit. -/
theorem loaded_unless_refused (hjournal : settings.journalPath = some journal)
    (hsnapshot : settings.snapshotPath = some snapshot) (hfile : d.FileAt journal place id)
    (hcontent : d.content id ≠ []) (hsaved : d.FileAt snapshot place' id') :
    (∀ h d', d.perform (Host.recover settings) = (.ok h, d') →
      ∃ history, Offline.load d.read journal (some snapshot) none = .ok history ∧
        h.state = history.state ∧
        h.proof.journalHash = journalHash Blake3.digest history.entries) ∧
    (d.Reliable → ∀ history, Offline.load d.read journal (some snapshot) none = .ok history →
      ((∃ h d', d.perform (Host.recover settings) = (.ok h, d')) ↔
        history.state.version ≤ history.entries.length ∧ history.state.audit = .ok ())) := by
  constructor
  · intro h d' hrecover
    obtain ⟨contents, base, hscan, hdecode, hcatch, hhasher⟩ :=
      Host.exists_scan_of_recover hjournal hsnapshot hfile hcontent hsaved hrecover
    obtain ⟨-, ⟨applied, hreplay⟩, -⟩ := Host.catchUp_eq_ok_iff.1 hcatch
    refine ⟨⟨h.state, contents.entries, applied, contents.tornTail⟩, ?_, rfl, ?_⟩
    · exact (Offline.load_eq_ok_iff hfile.read hsaved.read).2
        ⟨contents, base, hscan, hdecode, hreplay, rfl, rfl⟩
    · rw [Host.proof, hhasher]
      rfl
  · intro hd history hload
    exact recovers_iff_of_load hd hjournal hsnapshot hfile hcontent hsaved hload

end

/-! ## Two files -/

/-- A disk with a journal and a snapshot. -/
def twoFiles (journal snapshot : Bytes) : Disk where
  inodes := .ofList [(["journal"], .file 0), (["snapshot"], .file 1)]
  contents := [journal, snapshot]

/-- Two applications are registered. -/
def twoApplications : List Entry :=
  [⟨1, .ofLow 1, .registerApplication "first" [] false⟩,
    ⟨2, .ofLow 2, .registerApplication "second" [] false⟩]

theorem twoFiles_fileAt (journal snapshot : Bytes) :
    (twoFiles journal snapshot).FileAt ⟨"/journal"⟩ ["journal"] 0 ∧
      (twoFiles journal snapshot).FileAt ⟨"/snapshot"⟩ ["snapshot"] 1 := by
  constructor
  · exact ⟨⟨[], "journal", rfl, by decide, by decide, by decide, rfl⟩, rfl, by decide,
      Nat.zero_lt_two⟩
  · exact ⟨⟨[], "snapshot", rfl, by decide, by decide, by decide, rfl⟩, rfl, by decide,
      Nat.one_lt_two⟩

/-- On top of the snapshot of one application, a journal is loaded whose replay does not stop. -/
theorem load_of_oneApplication {bytes : Bytes} {contents : JournalContents} {lastId applied : Nat}
    (hlastId : lastId < 6) (hscan : scan bytes = .ok contents)
    (hending : ((oneApplication lastId).replay contents.entries).ending = .ok applied) :
    Offline.load (twoFiles bytes (Snapshot.encode (oneApplication lastId))).read ⟨"/journal"⟩
        (some ⟨"/snapshot"⟩) none =
      .ok ⟨((oneApplication lastId).replay contents.entries).state, contents.entries, applied,
        contents.tornTail⟩ := by
  obtain ⟨hjournal, hsnapshot⟩ := twoFiles_fileAt bytes (Snapshot.encode (oneApplication lastId))
  refine (Offline.load_eq_ok_iff hjournal.read hsnapshot.read).2
    ⟨contents, _, hscan, decode_oneApplication hlastId, ?_, rfl, rfl⟩
  rw [← hending]

/-- The journal of two registrations with a torn tail, and the snapshot after the first of them. -/
def tornTwoApplications : Disk :=
  twoFiles (journalFile twoApplications ++ [3]) (Snapshot.encode (oneApplication 1))

theorem loaded_unless_refused_of_twoApplications :
    ∃ h d', tornTwoApplications.perform (Host.recover keepingSettings) = (.ok h, d') ∧
      ∃ history, Offline.load tornTwoApplications.read ⟨"/journal"⟩ (some ⟨"/snapshot"⟩) none =
          .ok history ∧
        h.state = history.state ∧
        h.proof.journalHash = journalHash Blake3.digest history.entries := by
  have hfiles := twoFiles_fileAt (journalFile twoApplications ++ [3])
    (Snapshot.encode (oneApplication 1))
  have hscan : scan (journalFile twoApplications ++ [3]) = .ok ⟨twoApplications, 109, 1⟩ := by
    decide +kernel
  have hload := load_of_oneApplication (show 1 < 6 by decide) hscan rfl
  have hboth := @loaded_unless_refused keepingSettings _ _ _ _ _ _ _ rfl rfl hfiles.1 (by decide)
    hfiles.2
  obtain ⟨h, d', hrecover⟩ := (hboth.2 ⟨rfl, rfl⟩ _ hload).2 ⟨by decide, by decide +kernel⟩
  exact ⟨h, d', hrecover, hboth.1 h d' hrecover⟩

/-- The snapshot of one application is loaded on top of a journal without entries, and so is the one
that says that five numbers were given on top of the journal of two registrations; a host comes back
from neither. -/
theorem loaded_although_refused :
    ((∃ history, Offline.load (twoFiles (journalFile []) (Snapshot.encode (oneApplication 1))).read
        ⟨"/journal"⟩ (some ⟨"/snapshot"⟩) none = .ok history) ∧
      ¬ ∃ h d', (twoFiles (journalFile []) (Snapshot.encode (oneApplication 1))).perform
        (Host.recover keepingSettings) = (.ok h, d')) ∧
    (∃ history, Offline.load (twoFiles (journalFile twoApplications)
        (Snapshot.encode (oneApplication 5))).read ⟨"/journal"⟩ (some ⟨"/snapshot"⟩) none =
          .ok history) ∧
      ¬ ∃ h d', (twoFiles (journalFile twoApplications)
        (Snapshot.encode (oneApplication 5))).perform (Host.recover keepingSettings) =
          (.ok h, d') := by
  have hahead := twoFiles_fileAt (journalFile []) (Snapshot.encode (oneApplication 1))
  have hunsound := twoFiles_fileAt (journalFile twoApplications)
    (Snapshot.encode (oneApplication 5))
  have hempty : scan (journalFile []) = .ok ⟨[], 16, 0⟩ := rfl
  have hwhole : scan (journalFile twoApplications) = .ok ⟨twoApplications, 109, 0⟩ := by
    decide +kernel
  have hload := load_of_oneApplication (show 1 < 6 by decide) hempty rfl
  have hload' := load_of_oneApplication (show 5 < 6 by decide) hwhole rfl
  refine ⟨⟨⟨_, hload⟩, ?_⟩, ⟨_, hload'⟩, ?_⟩
  · rw [@recovers_iff_of_load keepingSettings _ _ _ _ _ _ _ ⟨rfl, rfl⟩ rfl rfl hahead.1
      (by decide) hahead.2 _ hload]
    decide
  · rw [@recovers_iff_of_load keepingSettings _ _ _ _ _ _ _ ⟨rfl, rfl⟩ rfl rfl hunsound.1
      (by decide) hunsound.2 _ hload']
    decide +kernel

end Arbiter
