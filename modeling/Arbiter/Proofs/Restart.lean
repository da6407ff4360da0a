import Arbiter.Host.Saving
import Arbiter.Proofs.Receipts
import Arbiter.Proofs.Reopening

/-!
# Restarts are invisible

A host lives on a disk that held no files at first.  Commands are submitted to it, snapshots are
saved, and any number of times it is stopped and comes back from disk.  As long as the disk does not
fail, the host that comes back is the one that was stopped: it has the same state and the same proof
of it, and the journal file holds exactly the accepted commands.

The invariant is that the host holds what the accepted entries lead to, that its writer keeps them,
and that the snapshot, if there is one, is of a state that the first of them lead to.
-/

namespace Arbiter

open Disk State

/-- The journal is none of the files that snapshots are written to. -/
def Settings.Apart (settings : Settings) (d : Disk) : Prop :=
  ∀ (journal snapshot : Path) (place : Place), settings.journalPath = some journal →
    settings.snapshotPath = some snapshot → d.Leads journal place →
      ¬ d.Leads snapshot place ∧ ¬ d.Leads (Host.draftOf snapshot) place

theorem Settings.Apart.congr {settings : Settings} {d d' : Disk} (h : settings.Apart d)
    (hsame : SameDirectories d d') : settings.Apart d' := by
  intro journal snapshot place hjournal hsnapshot hleads
  obtain ⟨hpath, hdraft⟩ := h _ _ _ hjournal hsnapshot (hleads.congr hsame.symm)
  exact ⟨fun h' => hpath (h'.congr hsame.symm), fun h' => hdraft (h'.congr hsame.symm)⟩

/-- What a command adds to the accepted entries. -/
def entered {ε α : Type} (entry : Entry) : Except ε α → List Entry
  | .ok _ => [entry]
  | .error _ => []

/-- The host that has come about on a disk, what the disk holds by then, and the entries of the
commands that were accepted, in order.  Nothing on the way was let down by the disk, no entry was
too long for a frame and no snapshot too long for its header. -/
inductive Life (settings : Settings) (d₀ : Disk) : Host → Disk → List Entry → Prop
  | start {h : Host} {d : Disk} (recovered : d₀.perform (Host.recover settings) = (.ok h, d)) :
      Life settings d₀ h d []
  | submit {h h' : Host} {d d' : Disk} {accepted : List Entry} {caller : Address}
      {command : Command} {result : Except HostFault Outcome}
      (before : Life settings d₀ h d accepted)
      (submitted : (h.submit caller command).run d = ((h', result), d'))
      (works : ∀ fault, result = .error fault → ¬ fault.OfDisk)
      (framed : h.state.check caller command = .ok () → (h.nextEntry caller command).Storable) :
      Life settings d₀ h' d' (accepted ++ entered (h.nextEntry caller command) result)
  | save {h h' : Host} {d d' : Disk} {accepted : List Entry} {result : Except HostFault Path}
      (before : Life settings d₀ h d accepted)
      (saved : (h.save none).run d = ((h', result), d'))
      (works : ∀ fault, result = .error fault → ¬ fault.OfDisk)
      (short : (Snapshot.encode h.state).length < capacity 8) :
      Life settings d₀ h' d' accepted
  | restart {h h' : Host} {d d' : Disk} {accepted : List Entry}
      (before : Life settings d₀ h d accepted)
      (recovered : d.perform (Host.recover settings) = (.ok h', d')) :
      Life settings d₀ h' d' accepted

variable {settings : Settings} {path : Path} {place : Place} {h h' : Host} {d₀ d d' : Disk}
  {accepted : List Entry}

/-! ## Saving -/

namespace Host

theorem run_save_of_none {wanted : Option Path} (hpath : wanted.or h.snapshotPath = none) :
    (h.save wanted).run d = ((h, .error (.request .noSnapshotPath)), d) := by
  unfold save
  rw [hpath]
  rfl

theorem run_save_of_some {wanted : Option Path} {snapshot : Path}
    (hpath : wanted.or h.snapshotPath = some snapshot) :
    (h.save wanted).run d =
      match d.perform (replace snapshot (draftOf snapshot) (Snapshot.encode h.state)) with
      | (.error fault, d') => ((h, .error (.disk fault)), d')
      | (.ok _, d') =>
        (({ h with snapshotHash := some (Blake3.digest (Snapshot.encode h.state)) },
          .ok snapshot), d') := by
  unfold save
  rw [hpath]
  simp only
  rw [run_bind_run]
  rcases d.perform (replace snapshot (draftOf snapshot) (Snapshot.encode h.state)) with
    ⟨_ | _, _⟩ <;> rfl

end Host

/-! ## The invariant -/

/-- A host and its disk can be stopped: what is on the disk suffices to come back. -/
structure Restartable (settings : Settings) (path : Path) (place : Place) (h : Host) (d : Disk)
    (accepted : List Entry) : Prop where
  holds : h.Holds settings.policy path place d accepted fun _ => False
  snapshotPath : h.snapshotPath = settings.snapshotPath
  snapshot : Host.SnapshotOf settings d accepted
  tidy : d.Tidy
  apart : settings.Apart d

namespace Restartable

theorem exists_writer (hkept : Restartable settings path place h d accepted) :
    ∃ w, h.writer = some w ∧ w.Keeps path place d accepted (fun _ => False) ∧
      d.content w.file = journalFile accepted := by
  obtain ⟨w, hwriter, hkeeps⟩ := hkept.holds.keeps
  exact ⟨w, hwriter, hkeeps, hkeeps.clean hkeeps.unpoisoned⟩

theorem read_eq (hkept : Restartable settings path place h d accepted) :
    d.read path = .ok (journalFile accepted) := by
  obtain ⟨w, -, hkeeps, hcontent⟩ := hkept.exists_writer
  rw [hkeeps.fileAt.read, hcontent]

theorem scan_eq (hkept : Restartable settings path place h d accepted) :
    (scan (journalFile accepted)).map (·.entries) = .ok accepted := by
  obtain ⟨w, -, hkeeps, -⟩ := hkept.exists_writer
  rw [scan_journalFile hkeeps.storable hkeeps.numbers]
  rfl

/-- A change of the journal file alone leaves everything else in order. -/
theorem touched (hkept : Restartable settings path place h d accepted)
    (hjournal : settings.journalPath = some path) {id : FileId} (hfile : d.FileAt path place id)
    (htouched : Touched id d d') (hpath : h'.snapshotPath = h.snapshotPath) (more : List Entry)
    (hholds : h'.Holds settings.policy path place d' (accepted ++ more) fun _ => False) :
    Restartable settings path place h' d' (accepted ++ more) where
  holds := hholds
  snapshotPath := hpath.trans hkept.snapshotPath
  snapshot := by
    refine hkept.snapshot.mono more (fun snapshot _ => ?_) fun {_ place' id'} hsnapshot hfile' => ?_
    · exact holds_of_holds (.of_inodes htouched.inodes)
        fun place' _ => inode?_congr htouched.inodes place'
    · refine ⟨hfile'.touched htouched, htouched.others ?_⟩
      rintro rfl
      have hplace := hkept.tidy.distinct hfile'.inode hfile.inode
      exact (hkept.apart _ _ _ hjournal hsnapshot hfile.leads).1 (hplace ▸ hfile'.leads)
  tidy := hkept.tidy.touched htouched
  apart := hkept.apart.congr (.of_inodes htouched.inodes)

theorem submit (hkept : Restartable settings path place h d accepted)
    (hjournal : settings.journalPath = some path) {caller : Address} {command : Command}
    {result : Except HostFault Outcome}
    (hsubmit : (h.submit caller command).run d = ((h', result), d'))
    (hworks : ∀ fault, result = .error fault → ¬ fault.OfDisk)
    (hframed : h.state.check caller command = .ok () → (h.nextEntry caller command).Storable) :
    Restartable settings path place h' d'
      (accepted ++ entered (h.nextEntry caller command) result) := by
  obtain ⟨h₁, result₁, d₁, hrun, hpath, ⟨id, hfile, htouched⟩, hcases⟩ :=
    hkept.holds.submit hframed
  obtain ⟨hpair, rfl⟩ := Prod.mk.inj (hrun.symm.trans hsubmit)
  obtain ⟨rfl, rfl⟩ := Prod.mk.inj hpair
  refine hkept.touched hjournal hfile htouched hpath _ ?_
  rcases hcases with ⟨refusal, rfl, rfl, rfl⟩ | ⟨outcome, rfl, hholds⟩ | ⟨fault, rfl, -⟩ |
    ⟨rfl, rfl, rfl⟩
  · simpa [entered] using hkept.holds
  · exact hholds
  · exact absurd ⟨fault, .inr rfl⟩ (hworks _ rfl)
  · simpa [entered] using hkept.holds

/-- After a snapshot was saved, it is the one that a restart continues from. -/
theorem saved (hkept : Restartable settings path place h d accepted)
    (hjournal : settings.journalPath = some path) (hpolicy : settings.policy.InRange)
    {snapshot : Path} (hsnapshot : settings.snapshotPath = some snapshot)
    (hreplace : d.perform (Disk.replace snapshot (Host.draftOf snapshot)
      (Snapshot.encode h.state)) = (.ok (), d'))
    (hshort : (Snapshot.encode h.state).length < capacity 8) (hash : Option Bytes) :
    Restartable settings path place { h with snapshotHash := hash } d' accepted := by
  obtain ⟨start, goal, id, hdraft, hfile, hcontent, hspares⟩ :=
    perform_replace_eq_ok hkept.tidy hreplace
  obtain ⟨w, hwriter, hkeeps, -⟩ := hkept.exists_writer
  have hread := Host.decode_snapshot_of_trail hpolicy hkept.holds.trail hkeeps.storable hshort
  -- The journal stands neither where the draft was nor where the snapshot is.
  obtain ⟨hgoal, hstart⟩ := hkept.apart _ _ _ hjournal hsnapshot hkeeps.fileAt.leads
  have hplace : place ≠ start ∧ place ≠ goal := by
    constructor
    · rintro rfl
      exact hstart hdraft
    · rintro rfl
      exact hgoal (hfile.leads.congr hspares.directories.symm)
  obtain ⟨hjournalFile, hjournalContent⟩ := hkeeps.fileAt.spared hspares hplace
  exact {
    holds := ⟨hkept.holds.trail, hkept.holds.hasher, w, hwriter,
      hkeeps.spared hjournalFile hjournalContent⟩
    snapshotPath := hkept.snapshotPath
    snapshot := .saved hsnapshot hfile (hcontent ▸ hread) hkept.holds.trail
      (List.append_nil accepted).symm
    tidy := hspares.tidy
    apart := hkept.apart.congr hspares.directories }

theorem save (hkept : Restartable settings path place h d accepted)
    (hjournal : settings.journalPath = some path) (hpolicy : settings.policy.InRange)
    {result : Except HostFault Path} (hsave : (h.save none).run d = ((h', result), d'))
    (hworks : ∀ fault, result = .error fault → ¬ fault.OfDisk)
    (hshort : (Snapshot.encode h.state).length < capacity 8) :
    Restartable settings path place h' d' accepted := by
  cases hsnapshot : settings.snapshotPath with
  | none =>
      have hpath := Option.none_or.trans (hkept.snapshotPath.trans hsnapshot)
      rw [Host.run_save_of_none hpath] at hsave
      obtain ⟨hpair, rfl⟩ := Prod.mk.inj hsave
      obtain ⟨rfl, rfl⟩ := Prod.mk.inj hpair
      exact hkept
  | some snapshot =>
      have hpath := Option.none_or.trans (hkept.snapshotPath.trans hsnapshot)
      rw [Host.run_save_of_some hpath] at hsave
      split at hsave <;> obtain ⟨hpair, rfl⟩ := Prod.mk.inj hsave <;>
        obtain ⟨rfl, rfl⟩ := Prod.mk.inj hpair
      · exact absurd ⟨_, .inl rfl⟩ (hworks _ rfl)
      · exact hkept.saved hjournal hpolicy hsnapshot ‹_› hshort _

/-- The host that comes back has the state and the proof of the one that was stopped, unless the
disk fails. -/
theorem perform_recover (hkept : Restartable settings path place h d accepted)
    (hjournal : settings.journalPath = some path) :
    (∃ h', d.perform (Host.recover settings) = (.ok h', d.spend) ∧ h'.state = h.state ∧
        h'.proof = h.proof ∧ Restartable settings path place h' d.spend accepted) ∨
      d.perform (Host.recover settings) = (.error (.journal (.disk .broken)), d.spend) ∧
        ¬ d.Calm := by
  obtain ⟨w, hwriter, hkeeps, hcontent⟩ := hkept.exists_writer
  rcases Host.perform_recover hjournal hkept.snapshot hkept.holds.trail hkeeps.fileAt hcontent
    hkeeps.storable with hrecover | hfailed
  · refine .inl ⟨_, hrecover, rfl, ?_, ?_⟩
    · simp [Host.proof, hkept.holds.hasher]
    · have hspent := Touched.spend w.file d
      rw [← List.append_nil accepted]
      refine hkept.touched hjournal hkeeps.fileAt hspent hkept.snapshotPath.symm [] ?_
      rw [List.append_nil]
      exact ⟨hkept.holds.trail, rfl, _, rfl, rfl, hkeeps.fileAt.touched hspent, hkeeps.storable,
        hkeeps.numbers, rfl, rfl, fun _ => hcontent, by simp⟩
  · exact .inr hfailed

end Restartable

/-- A host that starts on a disk without files can be stopped. -/
theorem exists_restartable_of_start (hjournal : settings.journalPath = some path)
    (hempty : d.NoFiles) (hapart : settings.Apart d)
    (hstart : d.perform (Host.recover settings) = (.ok h, d')) :
    ∃ place, Restartable settings path place h d' [] := by
  obtain ⟨w, rfl, hfree, ⟨place, hkeeps⟩, d₁, hmake, htouched⟩ :=
    Host.eq_of_noFiles hjournal hempty hstart
  obtain ⟨-, made, hleads, ⟨hinode, -⟩ | ⟨hinode, -, rfl⟩⟩ := perform_openOrMake_eq_ok hmake
  · exact absurd hinode (hempty made _)
  · have hsame : SameDirectories d d' :=
      (SameDirectories.withNewFile (d := d.spend) hleads.ne_nil
        ((inode?_spend d made).trans hinode)).trans (.of_inodes htouched.inodes)
    have hfree' : ∀ snapshot, settings.snapshotPath = some snapshot →
        d'.holds snapshot = false := by
      intro snapshot hsnapshot
      by_contra hholds
      refine absurd (hfree snapshot hsnapshot) ?_
      rw [Bool.not_eq_false] at hholds ⊢
      refine holds_of_holds hsame (fun other hother => ?_) hholds
      rw [inode?_congr htouched.inodes, inode?_withNewFile hleads.ne_nil, if_neg, inode?_spend]
      rintro rfl
      exact (hapart _ _ _ hjournal hsnapshot hleads).1 hother
    have htidy : d'.Tidy := (spares_of_openOrMake hempty.tidy hmake).tidy.touched htouched
    exact ⟨place, ⟨.start, rfl, w, rfl, hkeeps⟩, rfl, .absent hfree', htidy, hapart.congr hsame⟩

/-! ## Restarts -/

theorem Life.exists_restartable (hjournal : settings.journalPath = some path)
    (hpolicy : settings.policy.InRange) (hempty : d₀.NoFiles) (hapart : settings.Apart d₀)
    (hlife : Life settings d₀ h d accepted) :
    ∃ place, Restartable settings path place h d accepted := by
  induction hlife with
  | start recovered => exact exists_restartable_of_start hjournal hempty hapart recovered
  | submit before submitted works framed ih =>
      obtain ⟨place, hkept⟩ := ih
      exact ⟨place, hkept.submit hjournal submitted works framed⟩
  | save before saved works short ih =>
      obtain ⟨place, hkept⟩ := ih
      exact ⟨place, hkept.save hjournal hpolicy saved works short⟩
  | restart before recovered ih =>
      obtain ⟨place, hkept⟩ := ih
      rcases hkept.perform_recover hjournal with ⟨h', hrecover, -, -, hkept'⟩ | ⟨hfailed, -⟩
      · obtain ⟨hok, rfl⟩ := Prod.mk.inj (hrecover.symm.trans recovered)
        obtain rfl := Except.ok.inj hok
        exact ⟨place, hkept'⟩
      · exact absurd (congrArg Prod.fst (hfailed.symm.trans recovered)) (by simp)

/-- The proof of a host verifies against the journal that leads to its state. -/
theorem Restartable.verify_proof (hkept : Restartable settings path place h d accepted) :
    h.proof = StateProof.of Blake3.digest h.state accepted ∧
      h.proof.verify Blake3.digest settings.policy accepted = .ok true := by
  have hproof : h.proof = StateProof.of Blake3.digest h.state accepted := by
    simp [Host.proof, StateProof.of, hkept.holds.hasher, JournalHasher.finish, journalHash]
  refine ⟨hproof, ?_⟩
  rw [hproof]
  exact StateProof.verify_of_trail hkept.holds.trail

/-- A host starts unless the disk keeps it from that.  Whatever it goes through then, the journal
file holds exactly the accepted commands, the proof of the host is the one of its state and these
commands, and a restart succeeds and changes neither the state nor the proof, as long as the disk
does not fail. -/
theorem restart_is_invisible
    {settings : Settings} {path : Path} {d₀ : Disk}
    (hjournal : settings.journalPath = some path) (hpolicy : settings.policy.InRange)
    (hempty : d₀.NoFiles) (hapart : settings.Apart d₀) :
    (∀ fault d, d₀.perform (Host.recover settings) = (.error fault, d) → fault.OfDisk) ∧
    ∀ h d accepted, Life settings d₀ h d accepted →
      (d.Calm → ∃ h' d', d.perform (Host.recover settings) = (.ok h', d') ∧
          h'.state = h.state ∧ h'.proof = h.proof ∧
          d'.read path = .ok (journalFile accepted)) ∧
        d.read path = .ok (journalFile accepted) ∧
        (scan (journalFile accepted)).map (·.entries) = .ok accepted ∧
        accepted.map (·.sequence) = List.range' 1 h.state.version ∧
        h.proof = StateProof.of Blake3.digest h.state accepted ∧
        h.proof.verify Blake3.digest settings.policy accepted = .ok true := by
  refine ⟨fun fault d hstart => Host.ofDisk_of_noFiles hjournal hempty hstart, ?_⟩
  intro h d accepted hlife
  obtain ⟨place, hkept⟩ := hlife.exists_restartable hjournal hpolicy hempty hapart
  obtain ⟨hproof, hverify⟩ := hkept.verify_proof
  have hnumbers := hkept.holds.trail.map_sequence
  rw [← hkept.holds.version_eq] at hnumbers
  refine ⟨fun hcalm => ?_, hkept.read_eq, hkept.scan_eq, hnumbers, hproof, hverify⟩
  rcases hkept.perform_recover hjournal with ⟨h', hrecover, hstate, hproof', hkept'⟩ | ⟨-, hfails⟩
  · exact ⟨h', _, hrecover, hstate, hproof', hkept'.read_eq⟩
  · exact absurd hcalm hfails

/-! ## A life -/

/-- The host that comes back from a disk, if one does, and the disk it leaves behind. -/
def comeBack (settings : Settings) (d : Disk) : Host × Disk :=
  match d.perform (Host.recover settings) with
  | (.ok h, d') => (h, d')
  | (.error _, d') => (.fresh settings, d')

/-- A host and its disk after a command was submitted. -/
def afterSubmit (p : Host × Disk) (c : Address × Command) : Host × Disk :=
  (((p.1.submit c.1 c.2).run p.2).1.1, ((p.1.submit c.1 c.2).run p.2).2)

/-- A host and its disk after a snapshot was saved. -/
def afterSave (p : Host × Disk) : Host × Disk :=
  (((p.1.save none).run p.2).1.1, ((p.1.save none).run p.2).2)

theorem perform_recover_of_isOk (hok : (d.perform (Host.recover settings)).1.isOk = true) :
    d.perform (Host.recover settings) =
      (.ok (comeBack settings d).1, (comeBack settings d).2) := by
  unfold comeBack
  cases hrecover : d.perform (Host.recover settings) with
  | mk result d' =>
      rw [hrecover] at hok
      cases result with
      | error _ => simp [Except.isOk, Except.toBool] at hok
      | ok h => rfl

theorem Life.submit_ok {p : Host × Disk} (hlife : Life settings d₀ p.1 p.2 accepted)
    {c : Address × Command} (hok : ((p.1.submit c.1 c.2).run p.2).1.2.isOk = true) {e : Entry}
    (hentry : p.1.nextEntry c.1 c.2 = e) (he : e.Storable) :
    Life settings d₀ (afterSubmit p c).1 (afterSubmit p c).2 (accepted ++ [e]) := by
  cases hresult : ((p.1.submit c.1 c.2).run p.2).1.2 with
  | error _ => simp [hresult, Except.isOk, Except.toBool] at hok
  | ok outcome =>
      have hrun : (p.1.submit c.1 c.2).run p.2 =
          (((afterSubmit p c).1, .ok outcome), (afterSubmit p c).2) :=
        Prod.ext (Prod.ext rfl hresult) rfl
      have hlife' := hlife.submit hrun (by simp) fun _ => hentry ▸ he
      rwa [hentry] at hlife'

theorem Life.save_ok {p : Host × Disk} (hlife : Life settings d₀ p.1 p.2 accepted)
    (hok : ((p.1.save none).run p.2).1.2.isOk = true)
    (hshort : (Snapshot.encode p.1.state).length < capacity 8) :
    Life settings d₀ (afterSave p).1 (afterSave p).2 accepted := by
  cases hresult : ((p.1.save none).run p.2).1.2 with
  | error _ => simp [hresult, Except.isOk, Except.toBool] at hok
  | ok snapshot =>
      have hrun : (p.1.save none).run p.2 = (((afterSave p).1, .ok snapshot), (afterSave p).2) :=
        Prod.ext (Prod.ext rfl hresult) rfl
      exact hlife.save hrun (by simp) hshort

/-- A node that keeps a journal and snapshots. -/
def keepingSettings : Settings :=
  { journalPath := some ⟨"/journal"⟩, snapshotPath := some ⟨"/snapshot"⟩ }

/-- The node starts and takes a registration, is stopped and comes back, and takes another one. -/
def registeredTwice : Host × Disk :=
  afterSubmit (comeBack keepingSettings
    (afterSubmit (comeBack keepingSettings {}) (.ofLow 1, .registerNode "s")).2)
    (.ofLow 2, .registerNode "s")

/-- What the two registrations become. -/
def twoRegistrations : List Entry :=
  [⟨1, .ofLow 1, .registerNode "s"⟩, ⟨2, .ofLow 2, .registerNode "s"⟩]

theorem keepingSettings_apart : keepingSettings.Apart {} := by
  have hjournal : ({} : Disk).Leads ⟨"/journal"⟩ ["journal"] :=
    ⟨[], "journal", by decide +kernel, by decide, by decide, by decide, rfl⟩
  have hsnapshot : ({} : Disk).Leads ⟨"/snapshot"⟩ ["snapshot"] :=
    ⟨[], "snapshot", by decide +kernel, by decide, by decide, by decide, rfl⟩
  have hdraft : ({} : Disk).Leads (Host.draftOf ⟨"/snapshot"⟩) ["snapshot.tmp"] :=
    ⟨[], "snapshot.tmp", by decide +kernel, by decide, by decide, by decide, rfl⟩
  rintro _ _ place ⟨rfl⟩ ⟨rfl⟩ hleads
  obtain rfl := hleads.unique hjournal
  exact ⟨fun h => absurd (h.unique hsnapshot) (by decide),
    fun h => absurd (h.unique hdraft) (by decide)⟩

theorem life_of_twoRegistrations :
    Life keepingSettings {} registeredTwice.1 registeredTwice.2 twoRegistrations := by
  have hstart : Life keepingSettings {} _ _ [] :=
    .start (perform_recover_of_isOk (by decide +kernel))
  have hfirst := hstart.submit_ok (c := (.ofLow 1, .registerNode "s"))
    (e := ⟨1, .ofLow 1, .registerNode "s"⟩) (by decide +kernel) (by decide +kernel)
    ⟨by decide +kernel, trivial, by decide +kernel⟩
  have hback := hfirst.restart (perform_recover_of_isOk (by decide +kernel))
  exact hback.submit_ok (c := (.ofLow 2, .registerNode "s"))
    (e := ⟨2, .ofLow 2, .registerNode "s"⟩) (by decide +kernel) (by decide +kernel)
    ⟨by decide +kernel, trivial, by decide +kernel⟩

theorem restart_is_invisible_after_twoRegistrations :
    ∃ h d, (afterSave registeredTwice).2.perform (Host.recover keepingSettings) = (.ok h, d) ∧
      h.state = (afterSave registeredTwice).1.state ∧
      h.proof = (afterSave registeredTwice).1.proof ∧
      d.read ⟨"/journal"⟩ = .ok (journalFile twoRegistrations) := by
  have hempty : ({} : Disk).NoFiles := by
    intro place id
    cases place <;> simp [inode?, OrderedMap.get?_empty]
  have hpolicy : keepingSettings.policy.InRange := Policy.inRange_default
  have hlife := life_of_twoRegistrations.save_ok (by decide +kernel) (by decide +kernel)
  have hcalm : (afterSave registeredTwice).2.Calm := by
    unfold Calm
    decide +kernel
  exact ((restart_is_invisible rfl hpolicy hempty keepingSettings_apart).2 _ _ _ hlife).1 hcalm

end Arbiter
