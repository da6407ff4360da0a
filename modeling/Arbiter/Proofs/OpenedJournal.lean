import Arbiter.Proofs.Reopening

/-!
# What opening does to a journal file

Opening a journal file that cannot be read leaves it alone, and opening one that can be read takes
at most its tail away.
-/

namespace Arbiter

open Disk

variable {d d' : Disk} {path : Path} {place : Place} {id : FileId} {bytes : Bytes}
  {contents : JournalContents}

/-! ## Opening -/

namespace JournalWriter

/-- A file that ends within its header is refused. -/
theorem perform_openAt_of_short (hfile : d.FileAt path place id) (hcontent : d.content id ≠ [])
    (hshort : (d.content id).length < journalHeaderLength) :
    d.perform (openAt path) =
      (.error (.scan (.header (.tooShort (d.content id).length))), d) := by
  rw [perform_openAt_of_fileAt hfile hcontent, scan_of_short hshort]

/-- The tail is cut off, or the file stays as it is. -/
theorem exists_perform_cutTail (hfile : d.FileAt path place id)
    (hscan : scan (d.content id) = .ok contents) :
    ∃ result d', d.perform (cutTail path contents) = (result, d') ∧ Touched id d d' ∧
      (d'.content id = d.content id ∨
        d'.content id = (d.content id).take contents.validLength) := by
  by_cases htail : 0 < contents.tornTail
  · rw [cutTail, if_pos htail, perform_bind]
    rcases hfile.perform_openFile with hopen | ⟨hopen, -⟩
    · have hlength : contents.validLength ≤ (d.content id).length := by
        rw [← length_of_scan hscan]
        exact Nat.le_add_right _ _
      obtain ⟨result, d', hcut, htouched, hleft⟩ := d.spend.perform_cut hfile.onDisk hlength
      rw [hopen]
      exact ⟨result, d', hcut, (Touched.spend id d).trans htouched,
        hleft.symm.imp_left And.left⟩
    · rw [hopen]
      exact ⟨_, _, rfl, .spend id d, .inl rfl⟩
  · rw [cutTail, if_neg htail]
    exact ⟨_, _, rfl, .refl id d, .inl rfl⟩

/-- Whatever fails on the disk, a file that is opened loses nothing but its torn tail. -/
theorem content_of_openAt (hfile : d.FileAt path place id) (hcontent : d.content id ≠ [])
    (hscan : scan (d.content id) = .ok contents) :
    (d.perform (openAt path)).2.content id = d.content id ∨
      (d.perform (openAt path)).2.content id = (d.content id).take contents.validLength := by
  obtain ⟨result, d', hcut, htouched, hleft⟩ := exists_perform_cutTail hfile hscan
  rw [perform_openAt_of_fileAt hfile hcontent, hscan]
  simp only [hcut]
  cases result with
  | error _ => exact hleft
  | ok _ =>
      rcases (hfile.touched htouched).perform_openOrMake with hopen | ⟨hopen, -⟩
      · simp only [hopen]
        exact hleft
      · simp only [hopen]
        exact hleft

/-- What is given when a file is opened is what was read from it. -/
theorem scan_of_openAt {w : JournalWriter} (hfile : d.FileAt path place id)
    (hcontent : d.content id ≠ []) (hopen : d.perform (openAt path) = (.ok (w, contents), d')) :
    scan (d.content id) = .ok contents := by
  rw [perform_openAt_of_fileAt hfile hcontent] at hopen
  cases hscan : scan (d.content id) with
  | error fault => simp [hscan] at hopen
  | ok found =>
      simp only [hscan] at hopen
      split at hopen
      · simp at hopen
      · split at hopen
        · simp at hopen
        · have hgiven := Except.ok.inj (congrArg Prod.fst hopen)
          rw [(Prod.mk.inj hgiven).2]

/-- The file of a writer is on the disk that it was opened on. -/
theorem onDisk_of_openAt {w : JournalWriter} (hsound : d.Sound)
    (hopen : d.perform (openAt path) = (.ok (w, contents), d')) :
    w.file < d'.contents.length := by
  by_cases hcontents : hasContents d path = true
  · obtain ⟨bytes, hread⟩ := exists_read_of_openAt hcontents hopen
    obtain ⟨place, id, hfile, rfl⟩ := fileAt_of_read hsound hread
    have hcontent := (hasContents_iff hfile).1 hcontents
    have hscan := scan_of_openAt hfile hcontent hopen
    obtain ⟨result, d₁, hcut, htouched, -⟩ := exists_perform_cutTail hfile hscan
    rw [perform_openAt_of_fileAt hfile hcontent, hscan] at hopen
    simp only [hcut] at hopen
    cases result with
    | error _ => simp at hopen
    | ok _ =>
        have hfile' := hfile.touched htouched
        rcases hfile'.perform_openOrMake with hagain | ⟨hfailed, -⟩
        · simp only [hagain] at hopen
          obtain ⟨hgiven, rfl⟩ := Prod.mk.inj hopen
          obtain ⟨rfl, -⟩ := Prod.mk.inj (Except.ok.inj hgiven)
          exact hfile'.onDisk
        · simp [hfailed] at hopen
  · obtain ⟨-, ⟨place, hkeeps⟩, -⟩ := openAt_new_eq_ok hsound (by simpa using hcontents) hopen
    exact hkeeps.fileAt.onDisk

/-! ## Disks that do not fail -/

theorem perform_cutTail_of_reliable (hd : d.Reliable) (hfile : d.FileAt path place id)
    (hscan : scan (d.content id) = .ok contents) :
    d.perform (cutTail path contents) =
      (.ok (), d.withContent id ((d.content id).take contents.validLength)) := by
  have hlength := length_of_scan hscan
  by_cases htail : 0 < contents.tornTail
  · have hopen := hfile.perform_openFile.resolve_right fun hfails => hfails.2 hd.calm
    rw [hd.spend_eq] at hopen
    rw [cutTail, if_pos htail, perform_bind, hopen]
    simp only
    rw [perform_bind, hd.perform_setLength (by omega)]
    exact (hd.withContent id _).perform_sync id
  · rw [perform_cutTail_of_whole (by omega), List.take_of_length_le (by omega),
      withContent_content]

theorem perform_openAt_of_scan (hd : d.Reliable) (hfile : d.FileAt path place id)
    (hcontent : d.content id ≠ []) (hscan : scan (d.content id) = .ok contents) :
    d.perform (openAt path) =
      (.ok (⟨path, id, contents.entries.length, contents.validLength, false⟩, contents),
        d.withContent id ((d.content id).take contents.validLength)) := by
  have hd' := hd.withContent id ((d.content id).take contents.validLength)
  have hfile' := hfile.touched (.withContent id d ((d.content id).take contents.validLength))
  have hopen := hfile'.perform_openOrMake.resolve_right fun hfails => hfails.2 hd'.calm
  rw [hd'.spend_eq] at hopen
  rw [perform_openAt_of_fileAt hfile hcontent, hscan]
  simp only [perform_cutTail_of_reliable hd hfile hscan, hopen]

/-- An empty file is made a journal file. -/
theorem perform_openAt_of_empty (hd : d.Reliable) (hfile : d.FileAt path place id)
    (hcontent : d.content id = []) :
    d.perform (openAt path) =
      (.ok (⟨path, id, 0, journalHeaderLength, false⟩, ⟨[], journalHeaderLength, 0⟩),
        d.withContent id journalHeader) := by
  have hnew : hasContents d path = false := by
    rw [← Bool.not_eq_true, hasContents_iff hfile]
    exact not_not_intro hcontent
  have hopen := hfile.perform_openOrMake.resolve_right fun hfails => hfails.2 hd.calm
  have happend := hd.perform_append id journalHeader
  rw [hd.spend_eq] at hopen
  rw [hcontent, List.nil_append] at happend
  have hstart : d.perform (start path true ⟨[], journalHeaderLength, 0⟩) =
      (.ok ⟨path, id, 0, journalHeaderLength, false⟩, d.withContent id journalHeader) := by
    rw [start, perform_bind, hopen]
    simp only [if_true]
    rw [perform_bind, happend]
    simp only
    rw [perform_bind, (hd.withContent id journalHeader).perform_sync id]
    rfl
  rw [openAt, perform_bind, perform_get]
  simp only [hnew]
  rw [if_neg (by simp), perform_bind, perform_adapt, hstart]
  rfl

theorem run_append_of_reliable {w : JournalWriter} {e : Entry} (hd : d.Reliable)
    (hgood : w.poisoned = false) (hnext : e.sequence = w.lastSequence + 1) :
    (w.append e).run d =
      (({ w with
          lastSequence := e.sequence
          validLength := w.validLength + e.frame.length }, .ok ()),
        d.withContent w.file (d.content w.file ++ e.frame)) := by
  have hstore : d.perform (w.store e.frame) =
      (.ok (), d.withContent w.file (d.content w.file ++ e.frame)) := by
    rw [store, perform_bind, hd.perform_append]
    exact (hd.withContent w.file _).perform_sync w.file
  rw [run_append, if_neg (by simp [hgood]), if_neg (not_not_intro hnext), hstore]

end JournalWriter

/-- A host that comes back has hashed the entries in the file of its journal. -/
theorem Host.hasher_of_recover {settings : Settings} {h : Host}
    (hjournal : settings.journalPath = some path) (hfile : d.FileAt path place id)
    (hscan : scan (d.content id) = .ok contents)
    (hrecover : d.perform (Host.recover settings) = (.ok h, d')) :
    h.hasher = JournalHasher.updateAll {} contents.entries := by
  obtain ⟨base, w, contents', s, -, hopen, -, rfl⟩ := Host.exists_of_recover hjournal hrecover
  have hcontent : d.content id ≠ [] := by
    intro hempty
    simp [hempty, scan, checkHeader, journalHeaderLength] at hscan
  have hscan' := JournalWriter.scan_of_openAt hfile hcontent hopen
  obtain rfl := Except.ok.inj (hscan.symm.trans hscan')
  rfl

end Arbiter
