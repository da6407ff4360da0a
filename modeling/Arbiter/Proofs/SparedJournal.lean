import Arbiter.Proofs.AlikeDisks
import Arbiter.Proofs.OpenedJournal
import Arbiter.Proofs.Restart

/-!
# When saving a snapshot spares the journal

A snapshot is written to a draft, which then takes the place of what is under the path of the
snapshot.  Neither path is compared with the one of the journal.  So the journal is lost in two
cases: the draft was written over it, or the snapshot took its place.  In all others it is spared,
whatever fails.
-/

namespace Arbiter

namespace Disk

variable {d d' d'' : Disk} {path draft target : Path} {place start : Place} {id id' : FileId}
  {bytes : Bytes} {result : Except DiskFault Unit}

/-! ## What a replacement comes to -/

/-- A draft was begun: it holds some first part of the bytes, and whatever stands elsewhere is as it
was. -/
structure Drafted (d : Disk) (draft : Path) (bytes : Bytes) (start : Place) (id : FileId)
    (d' : Disk) : Prop where
  calm : d.Calm
  fileAt : d'.FileAt draft start id
  stored : ∃ count, d'.content id = bytes.take count
  alike : Alike (· ≠ start) d d'

namespace Drafted

theorem spares (h : Drafted d draft bytes start id d') : Spares (· ≠ start) d d' :=
  h.alike.forth

theorem touched (h : Drafted d draft bytes start id d') (htouched : Touched id d' d'') {count : Nat}
    (hcontent : d''.content id = bytes.take count) : Drafted d draft bytes start id d'' where
  calm := h.calm
  fileAt := h.fileAt.touched htouched
  stored := ⟨count, hcontent⟩
  alike := h.alike.trans (.of_touched h.spares.tidy h.fileAt.inode htouched)

theorem spend (h : Drafted d draft bytes start id d') :
    Drafted d draft bytes start id d'.spend := by
  obtain ⟨count, hcontent⟩ := h.stored
  exact h.touched (.spend id d') hcontent

/-- A draft that was begun where a file stands is that file. -/
theorem fileAt_of_place (h : Drafted d draft bytes place id' d')
    (hfile : d.FileAt target place id) : d.FileAt draft place id where
  leads := h.fileAt.leads.congr h.spares.directories.symm
  inode := hfile.inode
  noSlash := h.fileAt.noSlash
  onDisk := hfile.onDisk

end Drafted

/-- What replacing a file by way of a draft comes to. -/
inductive Replacement (d : Disk) (path draft : Path) (bytes : Bytes) :
    Except DiskFault Unit → Disk → Prop
  | unopened {fault : DiskFault}
      (failed : d.perform (openOrMake draft) = (.error fault, d.spend)) :
      Replacement d path draft bytes (.error fault) d.spend
  | unfinished {fault : DiskFault} {start : Place} {id : FileId} {d' : Disk}
      (drafted : Drafted d draft bytes start id d') :
      Replacement d path draft bytes (.error fault) d'
  | moved {start goal : Place} {id : FileId} {d' : Disk}
      (drafted : Drafted d draft bytes start id d') (whole : d'.content id = bytes)
      (leads : d'.Leads path goal) (free : d'.inode? goal ≠ some .directory) :
      Replacement d path draft bytes (.ok ()) (d'.withMoved start goal id)

theorem perform_openOrMake_of_make {fault : DiskFault}
    (h : d.perform (make path) = (.error fault, d')) :
    d.perform (openOrMake path) = (.error fault, d.spend) ∧ d' = d.spend := by
  rw [perform_make] at h
  rcases hopen : d.perform (openOrMake path) with ⟨fault' | _, d₁⟩
  · obtain rfl := perform_attempt_eq_error hopen
    rw [hopen] at h
    obtain ⟨hfault, rfl⟩ := Prod.mk.inj h
    exact ⟨by rw [hfault], rfl⟩
  · simp [hopen] at h

theorem drafted_of_make (htidy : d.Tidy) (h : d.perform (make draft) = (.ok id, d')) :
    ∃ start, Drafted d draft bytes start id d' ∧ d'.content id = [] := by
  obtain ⟨start, hfile, hempty, halike⟩ := Alike.of_make htidy h
  have hcalm : d.Calm := by
    rw [perform_make] at h
    rcases hopen : d.perform (openOrMake draft) with ⟨_ | _, _⟩
    · simp [hopen] at h
    · exact calm_of_perform_attempt hopen
  refine ⟨start, ⟨hcalm, hfile, ⟨0, ?_⟩, halike⟩, hempty⟩
  rw [hempty, List.take_zero]

/-- Once the draft is complete, it is left to move it. -/
theorem Drafted.replacement (h : Drafted d draft bytes start id d') (hwhole : d'.content id = bytes)
    (hmove : d'.perform (move draft path) = (result, d'')) :
    Replacement d path draft bytes result d'' := by
  cases result with
  | error fault =>
      obtain rfl := perform_attempt_eq_error hmove
      exact .unfinished h.spend
  | ok _ =>
      obtain ⟨start', goal, id', hstart, hgoal, -, hinode, hdirectory, rfl⟩ :=
        perform_move_eq_ok hmove
      obtain rfl := h.fileAt.leads.unique hstart
      obtain rfl : id = id' := by simpa [h.fileAt.inode] using hinode
      exact .moved h.spend hwhole (hgoal.congr (.of_inodes rfl)) hdirectory

theorem perform_replace (htidy : d.Tidy)
    (h : d.perform (replace path draft bytes) = (result, d')) :
    Replacement d path draft bytes result d' := by
  rw [replace, perform_bind] at h
  rcases hmake : d.perform (make draft) with ⟨fault | id, d₁⟩ <;> rw [hmake] at h
  · obtain ⟨rfl, rfl⟩ := Prod.mk.inj h
    obtain ⟨hopen, rfl⟩ := perform_openOrMake_of_make hmake
    exact .unopened hopen
  obtain ⟨start, hmade, hempty⟩ : ∃ start, Drafted d draft bytes start id d₁ ∧
      d₁.content id = [] := drafted_of_make htidy hmake
  obtain ⟨count, stored, happend, hwhole⟩ := perform_append d₁ id bytes
  obtain ⟨synced, hsync⟩ := perform_sync (d₁.spend.withContent id (bytes.take count)) id
  have hcontent : (d₁.spend.withContent id (bytes.take count)).content id = bytes.take count :=
    content_withContent_self hmade.fileAt.onDisk
  have hdraft : Drafted d draft bytes start id (d₁.spend.withContent id (bytes.take count)) :=
    hmade.touched ((Touched.spend id d₁).trans (.withContent id _ _)) hcontent
  rw [hempty, List.nil_append] at happend
  simp only [perform_bind, happend] at h
  cases stored with
  | error fault =>
      obtain ⟨rfl, rfl⟩ := Prod.mk.inj h
      exact .unfinished hdraft
  | ok _ =>
      simp only [hsync] at h
      cases synced with
      | error fault =>
          obtain ⟨rfl, rfl⟩ := Prod.mk.inj h
          exact .unfinished hdraft.spend
      | ok _ => exact hdraft.spend.replacement (hcontent.trans (hwhole rfl)) h

/-! ## What becomes of a file -/

/-- A replacement is made over a file: the draft is written over it, or what was written takes its
place in the end. -/
def Overwritten (d : Disk) (path draft : Path) (place : Place) (id : FileId) (done : Bool) : Prop :=
  d.Calm ∧ d.FileAt draft place id ∨ done = true ∧ d.Leads path place

namespace Replacement

theorem spared (h : Replacement d path draft bytes result d') (hfile : d.FileAt target place id)
    (hnot : ¬ d.Overwritten path draft place id result.isOk) :
    d'.FileAt target place id ∧ d'.content id = d.content id := by
  have hstart : ∀ {start : Place} {id' : FileId} {d₁ : Disk},
      Drafted d draft bytes start id' d₁ → place ≠ start := by
    rintro _ id' d₁ hdrafted rfl
    exact hnot (.inl ⟨hdrafted.calm, hdrafted.fileAt_of_place hfile⟩)
  cases h with
  | unopened failed => exact ⟨hfile.touched (.spend id d), rfl⟩
  | unfinished drafted => exact hfile.spared drafted.spares (hstart drafted)
  | @moved start goal id' d₁ drafted whole leads free =>
      have hgoal : place ≠ goal := by
        rintro rfl
        exact hnot (.inr ⟨rfl, leads.congr drafted.spares.directories.symm⟩)
      obtain ⟨hfile', hcontent⟩ := hfile.spared drafted.spares (hstart drafted)
      have hmoved := spares_withMoved drafted.spares.tidy drafted.fileAt.leads.ne_nil leads.ne_nil
        drafted.fileAt.inode free
      obtain ⟨hfile'', hcontent'⟩ := hfile'.spared hmoved ⟨hstart drafted, hgoal⟩
      exact ⟨hfile'', hcontent'.trans hcontent⟩

/-- A file that is overwritten is not read any more, unless it held just what was written. -/
theorem read_ne (h : Replacement d path draft bytes result d') (hfile : d.FileAt target place id)
    (hother : ∀ count, d.content id ≠ bytes.take count)
    (hover : d.Overwritten path draft place id result.isOk) :
    d'.read target ≠ .ok (d.content id) := by
  cases h with
  | unopened failed =>
      obtain ⟨hcalm, hdraft⟩ := hover.resolve_right fun hok => Bool.noConfusion hok.1
      rcases hdraft.perform_openOrMake with hopen | ⟨-, hfails⟩
      · simp [hopen] at failed
      · exact absurd hcalm hfails
  | @unfinished fault start id' _ drafted =>
      obtain ⟨-, hdraft⟩ := hover.resolve_right fun hok => Bool.noConfusion hok.1
      obtain rfl := hdraft.leads.unique (drafted.fileAt.leads.congr drafted.spares.directories.symm)
      have hfile' : d'.FileAt target place id' :=
        ⟨hfile.leads.congr drafted.spares.directories, drafted.fileAt.inode, hfile.noSlash,
          drafted.fileAt.onDisk⟩
      obtain ⟨count, hcontent⟩ := drafted.stored
      rw [hfile'.read, hcontent]
      exact fun hread => hother count (Except.ok.inj hread).symm
  | @moved start goal id' d₁ drafted whole leads free =>
      have hsame : SameDirectories d₁ (d₁.withMoved start goal id') :=
        .withMoved drafted.fileAt.leads.ne_nil leads.ne_nil drafted.fileAt.inode free
      have hleads := (hfile.leads.congr drafted.spares.directories).congr hsame
      have hinode : (d₁.withMoved start goal id').inode? place =
          if place = goal then some (.file id') else if place = start then none
          else d₁.inode? place :=
        inode?_withMoved drafted.fileAt.leads.ne_nil leads.ne_nil place
      by_cases hgoal : place = goal
      · -- What was written stands where the file was.
        rw [if_pos hgoal] at hinode
        have hfile' : (d₁.withMoved start goal id').FileAt target place id' :=
          ⟨hleads, hinode, hfile.noSlash, drafted.fileAt.onDisk⟩
        have hcontent : (d₁.withMoved start goal id').content id' = bytes := whole
        rw [hfile'.read, hcontent, ← bytes.take_length]
        exact fun hread => hother bytes.length (Except.ok.inj hread).symm
      · -- The file was the draft, which has been moved away from where it is looked for.
        have hstart := drafted.fileAt.leads.congr drafted.spares.directories.symm
        have hgoal' := leads.congr drafted.spares.directories.symm
        obtain ⟨-, hdraft⟩ := hover.resolve_right fun hok => hgoal (hok.2.unique hgoal')
        rw [if_neg hgoal, if_pos (hdraft.leads.unique hstart)] at hinode
        rw [hleads.read_of_none hinode]
        simp

end Replacement

end Disk

open Disk

/-! ## Journals and snapshots -/

/-- No journal begins like a snapshot. -/
theorem take_ne_magic_of_checkHeader {bytes : Bytes} (hheader : checkHeader bytes = .ok ()) :
    bytes.take 4 ≠ Snapshot.magic := by
  intro hmagic
  rw [checkHeader, ite_error_eq_ok, ite_error_eq_ok, hmagic] at hheader
  exact hheader.2.1 (by decide)

theorem ne_take_encode_of_checkHeader {bytes : Bytes} (hheader : checkHeader bytes = .ok ())
    (s : State) (count : Nat) : bytes ≠ (Snapshot.encode s).take count := by
  intro heq
  have hcount : 4 ≤ count := by
    have hlong := le_length_of_checkHeader hheader
    have hlength := List.length_take_le count (Snapshot.encode s)
    rw [← heq] at hlength
    exact Nat.le_trans (by decide) (Nat.le_trans hlong hlength)
  refine take_ne_magic_of_checkHeader hheader ?_
  rw [heq, List.take_take, Nat.min_eq_left hcount]
  simp [Snapshot.encode, Snapshot.Header.encode, Snapshot.magic]

theorem checkHeader_of_decode {bytes : Bytes} {s : State}
    (hdecode : Snapshot.decode bytes = .ok s) : checkHeader bytes ≠ .ok () := by
  intro hheader
  obtain ⟨header, hread, -⟩ := bind_eq_ok_iff.1 hdecode
  rw [Snapshot.readHeader, ite_error_eq_ok, ite_error_eq_ok, not_not] at hread
  exact take_ne_magic_of_checkHeader hheader hread.2.1

variable {h h' : Host} {w : JournalWriter} {d d' : Disk} {place : Place} {id : FileId}
  {wanted : Option Path} {result : Except HostFault Path}

/-- A snapshot is saved by a replacement, and nothing else changes on the disk. -/
theorem Host.exists_replacement_of_save {path : Path} (htidy : d.Tidy)
    (hpath : wanted.or h.snapshotPath = some path)
    (hsave : (h.save wanted).run d = ((h', result), d')) :
    ∃ replaced, Replacement d path (draftOf path) (Snapshot.encode h.state) replaced d' ∧
      replaced.isOk = result.isOk ∧ h'.writer = h.writer := by
  rw [run_save_of_some hpath] at hsave
  rcases hreplace : d.perform (replace path (draftOf path) (Snapshot.encode h.state)) with
    ⟨fault | _, d₁⟩ <;> rw [hreplace] at hsave <;> obtain ⟨hpair, rfl⟩ := Prod.mk.inj hsave <;>
    obtain ⟨rfl, rfl⟩ := Prod.mk.inj hpair
  · exact ⟨_, perform_replace htidy hreplace, rfl, rfl⟩
  · exact ⟨_, perform_replace htidy hreplace, rfl, rfl⟩

/-- What a writer keeps can be read as long as its file is as it was. -/
theorem JournalWriter.Keeps.exists_scan_prefix {acked : List Entry} {pending : Entry → Prop}
    (hkeeps : w.Keeps w.path place d acked pending) :
    ∃ contents, scan (d.content w.file) = .ok contents ∧ acked <+: contents.entries := by
  obtain ⟨bytes, contents, hbytes, hscan, hentries⟩ := hkeeps.exists_scan
  obtain rfl := Except.ok.inj (hkeeps.fileAt.read.symm.trans hbytes)
  refine ⟨contents, hscan, ?_⟩
  rcases hentries with hentries | ⟨e, -, hentries⟩
  · exact hentries ▸ List.prefix_refl acked
  · exact hentries ▸ List.prefix_append acked [e]

/-- Whatever comes of saving a snapshot, if it was not written over the journal, the journal is as
it was before: all entries that were acknowledged can be read, and a host that comes back has them.
And if what stands under the path of the journal is a journal, that is the only case in which it is
as it was before. -/
theorem saving_spares_journal_unless_written_over
    (hwriter : h.writer = some w) (htidy : d.Tidy) (hfile : d.FileAt w.path place id)
    (hsave : (h.save wanted).run d = ((h', result), d')) :
    h'.writer = some w ∧
    ((∀ path, wanted.or h.snapshotPath = some path →
        ¬ d.Overwritten path (Host.draftOf path) place id result.isOk) →
      d'.read w.path = d.read w.path ∧
      ∀ acked pending, w.Keeps w.path place d acked pending →
        ∃ contents, JournalWriter.readContents d' w.path = .ok contents ∧
          acked <+: contents.entries ∧
          ∀ settings h₂ d₂, settings.journalPath = some w.path →
            d'.perform (Host.recover settings) = (.ok h₂, d₂) →
              h₂.hasher = JournalHasher.updateAll {} contents.entries) ∧
    (checkHeader (d.content id) = .ok () → d'.read w.path = d.read w.path →
      ∀ path, wanted.or h.snapshotPath = some path →
        ¬ d.Overwritten path (Host.draftOf path) place id result.isOk) := by
  have hfinds : d'.FileAt w.path place id → d'.content id = d.content id →
      d'.read w.path = d.read w.path ∧
      ∀ acked pending, w.Keeps w.path place d acked pending →
        ∃ contents, JournalWriter.readContents d' w.path = .ok contents ∧
          acked <+: contents.entries ∧
          ∀ settings h₂ d₂, settings.journalPath = some w.path →
            d'.perform (Host.recover settings) = (.ok h₂, d₂) →
              h₂.hasher = JournalHasher.updateAll {} contents.entries := by
    intro hfile' hcontent
    refine ⟨by rw [hfile'.read, hfile.read, hcontent], fun acked pending hkeeps => ?_⟩
    obtain ⟨contents, hscan, hprefix⟩ := hkeeps.exists_scan_prefix
    obtain rfl : w.file = id := by simpa [hkeeps.fileAt.inode] using hfile.inode
    rw [← hcontent] at hscan
    refine ⟨contents, ?_, hprefix, fun settings h₂ d₂ hjournal hrecover => ?_⟩
    · simp only [JournalWriter.readContents, hfile'.read, hscan]
    · exact Host.hasher_of_recover hjournal hfile' hscan hrecover
  cases hpath : wanted.or h.snapshotPath with
  | none =>
      rw [Host.run_save_of_none hpath] at hsave
      obtain ⟨hpair, rfl⟩ := Prod.mk.inj hsave
      obtain ⟨rfl, rfl⟩ := Prod.mk.inj hpair
      exact ⟨hwriter, fun _ => hfinds hfile rfl, fun _ _ _ hnone => by simp at hnone⟩
  | some path =>
      obtain ⟨replaced, hreplaced, hdone, hsame⟩ :=
        Host.exists_replacement_of_save htidy hpath hsave
      rw [← hdone]
      refine ⟨hsame.trans hwriter, fun hnot => ?_, ?_⟩
      · obtain ⟨hfile', hcontent⟩ := hreplaced.spared hfile (hnot path rfl)
        exact hfinds hfile' hcontent
      · rintro hheader hread _ ⟨rfl⟩ hover
        have hother := ne_take_encode_of_checkHeader hheader h.state
        exact hreplaced.read_ne hfile hother hover (hread.trans hfile.read)

theorem run_save_eq_afterSave (p : Host × Disk) :
    (p.1.save none).run p.2 =
      (((afterSave p).1, ((p.1.save none).run p.2).1.2), (afterSave p).2) := rfl

theorem saving_spares_journal_of_registeredTwice :
    (afterSave registeredTwice).2.read ⟨"/journal"⟩ = registeredTwice.2.read ⟨"/journal"⟩ ∧
      ∃ contents, JournalWriter.readContents (afterSave registeredTwice).2 ⟨"/journal"⟩ =
          .ok contents ∧ twoRegistrations <+: contents.entries := by
  obtain ⟨place, hkept⟩ := life_of_twoRegistrations.exists_restartable rfl Policy.inRange_default
    noFiles_empty keepingSettings_apart
  obtain ⟨w, hwriter, hkeeps, -⟩ := hkept.exists_writer
  obtain ⟨hsnapshot, hdraft⟩ := hkept.apart _ _ _ rfl rfl hkeeps.fileAt.leads
  have hsave := run_save_eq_afterSave registeredTwice
  have hsaved : Option.or none registeredTwice.1.snapshotPath = some ⟨"/snapshot"⟩ :=
    Option.none_or.trans hkept.snapshotPath
  have hpath : w.path = ⟨"/journal"⟩ := hkeeps.path_eq
  rw [← hpath] at hkeeps ⊢
  obtain ⟨-, hspared, -⟩ := saving_spares_journal_unless_written_over hwriter hkept.tidy
    hkeeps.fileAt hsave
  obtain ⟨hread, hfinds⟩ := hspared fun path hwanted => by
    obtain rfl := Option.some.inj (hsaved.symm.trans hwanted)
    rintro (⟨-, hover⟩ | ⟨-, hover⟩)
    · exact hdraft hover.leads
    · exact hsnapshot hover
  obtain ⟨contents, hcontents, hprefix, -⟩ := hfinds _ _ hkeeps
  exact ⟨hread, contents, hcontents, hprefix⟩

/-- A snapshot that is saved to the path of the journal takes its place, and the node does not come
back any more. -/
theorem journal_lost_to_snapshot :
    registeredTwice.2.read ⟨"/journal"⟩ = .ok (journalFile twoRegistrations) ∧
      ((registeredTwice.1.save (some ⟨"/journal"⟩)).run registeredTwice.2).1.2 =
        .ok ⟨"/journal"⟩ ∧
      ((registeredTwice.1.save (some ⟨"/journal"⟩)).run registeredTwice.2).2.read ⟨"/journal"⟩ ≠
        .ok (journalFile twoRegistrations) ∧
      (((registeredTwice.1.save (some ⟨"/journal"⟩)).run registeredTwice.2).2.perform
        (Host.recover keepingSettings)).1 =
          .error (.journal (.scan (.header (.format 1380206920)))) := by
  refine ⟨?_, ?_, ?_, ?_⟩
  · decide +kernel
  · decide +kernel
  · decide +kernel
  · decide +kernel

end Arbiter
