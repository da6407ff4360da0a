import Arbiter.Proofs.AlikeDisks
import Arbiter.Proofs.OfflineAgreement
import Arbiter.Proofs.SparedJournal

/-!
# What a refused recovery leaves behind

A host that does not come back has at most opened its journal, and a snapshot is never written to.
But opening comes before the questions whether the snapshot is ahead of the journal, whether the
entries still apply and whether the state passes the audit.  So when one of these is answered
against the host, a torn tail is cut off already, and where there was no journal there is one with a
header and nothing else.
-/

namespace Arbiter

open Disk

namespace JournalWriter

variable {d d' : Disk} {path : Path} {place : Place} {id : FileId}
  {result : Except JournalFault (JournalWriter × JournalContents)}

/-! ## What opening a journal leaves behind -/

/-- What the disk is like after a journal was opened, be it with success or not. -/
inductive Opening (path : Path) (d : Disk) : Disk → Prop
  /-- All files are as they were. -/
  | untouched {d' : Disk} (alike : Alike (fun _ => True) d d') : Opening path d d'
  /-- The torn tail is cut off. -/
  | cut {place : Place} {id : FileId} {contents : JournalContents} {d' : Disk}
      (file : d.FileAt path place id) (intact : scan (d.content id) = .ok contents)
      (torn : 0 < contents.tornTail) (touched : Touched id d d')
      (left : d'.content id = (d.content id).take contents.validLength) : Opening path d d'
  /-- A new journal was begun, or an empty one. -/
  | begun {place : Place} {id : FileId} {count : Nat} {d' : Disk}
      (new : hasContents d path = false) (file : d'.FileAt path place id)
      (alike : Alike (· ≠ place) d d') (left : d'.content id = journalHeader.take count) :
      Opening path d d'

theorem perform_openAt_of_unread (hcontents : hasContents d path = true) {fault : DiskFault}
    (hread : d.read path = .error fault) :
    d.perform (openAt path) = (.error (.disk fault), d) := by
  rw [openAt, perform_bind, perform_get]
  simp only [hcontents, if_true]
  rw [perform_bind, perform_look]
  simp only [readContents, hread]

theorem perform_openAt_of_new (hnew : hasContents d path = false) :
    d.perform (openAt path) =
      match d.perform (start path true ⟨[], journalHeaderLength, 0⟩) with
      | (.error fault, d') => (.error (.disk fault), d')
      | (.ok w, d') => (.ok (w, ⟨[], journalHeaderLength, 0⟩), d') := by
  rw [openAt, perform_bind, perform_get]
  simp only [hnew]
  rw [if_neg (by simp), perform_bind, perform_adapt]
  rcases d.perform (start path true ⟨[], journalHeaderLength, 0⟩) with ⟨_ | _, _⟩ <;> rfl

theorem opening_of_touched (htidy : d.Tidy) (hfile : d.FileAt path place id)
    {contents : JournalContents} (hscan : scan (d.content id) = .ok contents)
    (htouched : Touched id d d') (hleft : d'.content id = d.content id ∨
      d'.content id = (d.content id).take contents.validLength) : Opening path d d' := by
  rcases hleft with hsame | hcut
  · exact .untouched (.of_content htidy htouched hsame)
  · by_cases htorn : 0 < contents.tornTail
    · exact .cut hfile hscan htorn htouched hcut
    · have hlength := length_of_scan hscan
      rw [List.take_of_length_le (by omega)] at hcut
      exact .untouched (.of_content htidy htouched hcut)

/-- A journal that has contents is at most cut. -/
theorem opening_of_contents (htidy : d.Tidy) (hcontents : hasContents d path = true)
    (hopen : d.perform (openAt path) = (result, d')) : Opening path d d' := by
  cases hread : d.read path with
  | error fault =>
      rw [perform_openAt_of_unread hcontents hread] at hopen
      obtain ⟨-, rfl⟩ := Prod.mk.inj hopen
      exact .untouched (.of_content htidy (.refl 0 d) rfl)
  | ok bytes =>
      obtain ⟨place, id, hfile, rfl⟩ := fileAt_of_read htidy.sound hread
      have hne := (hasContents_iff hfile).1 hcontents
      rw [perform_openAt_of_fileAt hfile hne] at hopen
      cases hscan : scan (d.content id) with
      | error fault =>
          simp only [hscan] at hopen
          obtain ⟨-, rfl⟩ := Prod.mk.inj hopen
          exact .untouched (.of_content htidy (.refl id d) rfl)
      | ok contents =>
          obtain ⟨cut, d₁, hcut, htouched, hleft⟩ := exists_perform_cutTail hfile hscan
          have hopening := opening_of_touched htidy hfile hscan htouched hleft
          simp only [hscan, hcut] at hopen
          cases cut with
          | error _ =>
              obtain ⟨-, rfl⟩ := Prod.mk.inj hopen
              exact hopening
          | ok _ =>
              have hagain : Touched id d d₁.spend := htouched.trans (.spend id d₁)
              rcases (hfile.touched htouched).perform_openOrMake with hstart | ⟨hstart, -⟩ <;>
                simp only [hstart] at hopen <;> obtain ⟨-, rfl⟩ := Prod.mk.inj hopen <;>
                exact opening_of_touched htidy hfile hscan hagain hleft

/-- A journal that has no contents is at most begun. -/
theorem opening_of_new (htidy : d.Tidy) (hnew : hasContents d path = false)
    (hopen : d.perform (openAt path) = (result, d')) : Opening path d d' := by
  obtain ⟨started, hstart⟩ : ∃ started,
      d.perform (start path true ⟨[], journalHeaderLength, 0⟩) = (started, d') := by
    rw [perform_openAt_of_new hnew] at hopen
    rcases hstart : d.perform (start path true ⟨[], journalHeaderLength, 0⟩) with ⟨_ | _, d₁⟩ <;>
      rw [hstart] at hopen <;> obtain ⟨-, rfl⟩ := Prod.mk.inj hopen <;> exact ⟨_, rfl⟩
  rw [start, perform_bind] at hstart
  rcases hmake : d.perform (openOrMake path) with ⟨_ | id, d₁⟩ <;> rw [hmake] at hstart
  · obtain ⟨-, rfl⟩ := Prod.mk.inj hstart
    obtain rfl := perform_attempt_eq_error hmake
    exact .untouched (.spend htidy)
  obtain ⟨place, hfile, halike, hcontent, hbefore⟩ := Alike.of_openOrMake htidy hmake
  have hempty : d₁.content id = [] := by
    rw [hcontent]
    rcases hbefore with hold | hempty
    · simpa [hasContents, hold.length] using hnew
    · exact hempty
  obtain ⟨count, appended, happend, -⟩ := perform_append d₁ id journalHeader
  rw [hempty, List.nil_append] at happend
  obtain ⟨synced, hsync⟩ := perform_sync (d₁.spend.withContent id (journalHeader.take count)) id
  -- From here on nothing but the file that was opened changes.
  have hbegun : ∀ {d₂ : Disk}, Touched id (d₁.spend.withContent id (journalHeader.take count)) d₂ →
      d₂.content id = journalHeader.take count → Opening path d d₂ := by
    intro d₂ htouched hleft
    have hall : Touched id d₁ d₂ :=
      ((Touched.spend id d₁).trans (.withContent id _ _)).trans htouched
    exact .begun hnew (hfile.touched hall)
      (halike.trans (.of_touched halike.forth.tidy hfile.inode hall)) hleft
  have hstored : (d₁.spend.withContent id (journalHeader.take count)).content id =
      journalHeader.take count := content_withContent_self hfile.onDisk
  simp only [if_true, perform_bind, happend] at hstart
  cases appended with
  | error _ =>
      obtain ⟨-, rfl⟩ := Prod.mk.inj hstart
      exact hbegun (.refl id _) hstored
  | ok _ =>
      simp only [hsync] at hstart
      cases synced <;> obtain ⟨-, rfl⟩ := Prod.mk.inj hstart <;>
        exact hbegun (.spend id _) hstored

theorem opening_of_openAt (htidy : d.Tidy) (hopen : d.perform (openAt path) = (result, d')) :
    Opening path d d' := by
  by_cases hcontents : hasContents d path = true
  · exact opening_of_contents htidy hcontents hopen
  · exact opening_of_new htidy (by simpa using hcontents) hopen

/-! ## What is found afterwards -/

/-- What is found under the path of a journal that was at most opened. -/
inductive Left (path : Path) (d d' : Disk) : Prop
  /-- What was there before. -/
  | same (under : SameUnder path d d')
  /-- The whole frames of a journal that had a torn tail. -/
  | cut {bytes : Bytes} {contents : JournalContents} (before : d.read path = .ok bytes)
      (intact : scan bytes = .ok contents) (torn : 0 < contents.tornTail)
      (after : d'.read path = .ok (bytes.take contents.validLength))
  /-- Some first part of the header, where there was no journal or an empty one. -/
  | begun {count : Nat} (new : hasContents d path = false)
      (after : d'.read path = .ok (journalHeader.take count))

variable {other : Path}

theorem Opening.left (h : Opening path d d') : Left path d d' := by
  cases h with
  | untouched alike => exact .same (alike.sameUnder fun _ _ => trivial)
  | cut file intact torn touched left =>
      refine .cut file.read intact torn ?_
      rw [(file.touched touched).read, left]
  | begun new file alike left =>
      have hread := file.read
      rw [left] at hread
      exact .begun new hread

theorem Opening.sameUnder (h : Opening path d d') (htidy : d.Tidy)
    (hother : ∀ place, d.Leads path place → ¬ d.Leads other place) : SameUnder other d d' := by
  cases h with
  | untouched alike => exact alike.sameUnder fun _ _ => trivial
  | cut file intact torn touched left =>
      have halike := Alike.of_touched htidy file.inode touched
      refine halike.sameUnder fun place hleads heq => ?_
      exact hother place (heq ▸ file.leads) hleads
  | begun new file alike left =>
      refine alike.sameUnder fun place hleads heq => ?_
      exact hother place (heq ▸ file.leads.congr alike.back.directories) hleads

/-- A snapshot stays as it is even if it stands where the journal is looked for. -/
theorem Opening.sameUnder_of_decode (h : Opening path d d') (htidy : d.Tidy) {bytes : Bytes}
    {s : State} (hread : d.read other = .ok bytes) (hdecode : Snapshot.decode bytes = .ok s) :
    SameUnder other d d' := by
  obtain ⟨place, id, hfile, rfl⟩ := fileAt_of_read htidy.sound hread
  cases h with
  | untouched alike => exact alike.sameUnder fun _ _ => trivial
  | cut file intact torn touched left =>
      refine (Alike.of_touched htidy file.inode touched).sameUnder ?_
      rintro _ hleads rfl
      obtain rfl := hfile.leads.unique hleads
      obtain rfl : id = _ := by simpa [hfile.inode] using file.inode
      exact checkHeader_of_decode hdecode (checkHeader_of_scan intact)
  | begun new file alike left =>
      refine alike.sameUnder ?_
      rintro _ hleads rfl
      obtain rfl := hfile.leads.unique hleads
      have hfile' : d.FileAt path place id :=
        ⟨file.leads.congr alike.back.directories, hfile.inode, file.noSlash, hfile.onDisk⟩
      have hcontents : hasContents d path = true := by
        rw [hasContents_iff hfile']
        rintro hempty
        rw [hempty] at hdecode
        cases hdecode
      rw [hcontents] at new
      cases new

/-! ## Disks that do not fail -/

theorem reliable_of_openOrMake (hd : d.Reliable) (h : d.perform (openOrMake path) = (.ok id, d')) :
    d'.Reliable := by
  have hspent : d.spend.Reliable := by rwa [hd.spend_eq]
  obtain ⟨-, place, -, ⟨-, rfl⟩ | ⟨-, -, rfl⟩⟩ := perform_openOrMake_eq_ok h
  · exact hspent
  · exact ⟨hspent.mishaps, hspent.limit⟩

/-- On a disk that works, a journal that cannot be opened is left alone. -/
theorem eq_of_start_eq_error (hd : d.Reliable) {contents : JournalContents} {fault : DiskFault}
    (hstart : d.perform (start path true contents) = (.error fault, d')) : d' = d := by
  rw [start, perform_bind_eq_error_iff] at hstart
  rcases hstart with hmake | ⟨id, d₁, hmake, hrest⟩
  · rw [perform_attempt_eq_error hmake, hd.spend_eq]
  · have hd₁ := reliable_of_openOrMake hd hmake
    have happend := hd₁.perform_append id journalHeader
    have hsync := (hd₁.withContent id (d₁.content id ++ journalHeader)).perform_sync id
    simp only [if_true, perform_bind, happend, hsync] at hrest
    cases hrest

theorem eq_of_openAt_eq_error (hd : d.Reliable) (htidy : d.Tidy) {fault : JournalFault}
    (hopen : d.perform (openAt path) = (.error fault, d')) : d' = d := by
  by_cases hcontents : hasContents d path = true
  · cases hread : d.read path with
    | error fault =>
        rw [perform_openAt_of_unread hcontents hread] at hopen
        exact (Prod.mk.inj hopen).2.symm
    | ok bytes =>
        obtain ⟨place, id, hfile, rfl⟩ := fileAt_of_read htidy.sound hread
        have hne := (hasContents_iff hfile).1 hcontents
        cases hscan : scan (d.content id) with
        | error fault =>
            rw [perform_openAt_of_fileAt hfile hne, hscan] at hopen
            exact (Prod.mk.inj hopen).2.symm
        | ok contents =>
            rw [perform_openAt_of_scan hd hfile hne hscan] at hopen
            cases hopen
  · rw [perform_openAt_of_new (by simpa using hcontents)] at hopen
    rcases hstart : d.perform (start path true ⟨[], journalHeaderLength, 0⟩) with ⟨_ | _, d₁⟩ <;>
      rw [hstart] at hopen
    · obtain ⟨-, rfl⟩ := Prod.mk.inj hopen
      exact eq_of_start_eq_error hd hstart
    · cases hopen

end JournalWriter

/-! ## Recoveries that are refused -/

namespace Host

variable {settings : Settings} {d d' : Disk} {fault : HostFault}

/-- A host does not come back because of its snapshot, because of its journal, or because the one
does not go with the other. -/
theorem refused_cases (hrefused : d.perform (recover settings) = (.error fault, d')) :
    baseState d settings = .error fault ∧ d' = d ∨
      ∃ base journal result, baseState d settings = .ok base ∧
        settings.journalPath = some journal ∧
        d.perform (JournalWriter.openAt journal) = (result, d') ∧
        ((∃ cause, result = .error cause) ∨
          ∃ w contents, result = .ok (w, contents) ∧
            catchUp base contents.entries = .error fault) := by
  cases hbase : baseState d settings with
  | error cause =>
      rw [recover, perform_bind, perform_look, hbase] at hrefused
      obtain ⟨hfault, rfl⟩ := Prod.mk.inj hrefused
      exact .inl ⟨by rw [Except.error.inj hfault], rfl⟩
  | ok base =>
      cases hjournal : settings.journalPath with
      | none =>
          rw [recover, perform_bind, perform_look, hbase, hjournal] at hrefused
          cases hrefused
      | some journal =>
          rw [perform_recover_of_baseState hjournal hbase] at hrefused
          rcases hopen : d.perform (JournalWriter.openAt journal) with ⟨cause | ⟨w, contents⟩, d₁⟩
          · simp only [hopen] at hrefused
            obtain ⟨-, rfl⟩ := Prod.mk.inj hrefused
            exact .inr ⟨base, journal, _, rfl, rfl, hopen, .inl ⟨cause, rfl⟩⟩
          · cases hcatch : catchUp base contents.entries with
            | ok s =>
                simp only [hopen, hcatch] at hrefused
                cases hrefused
            | error fault' =>
                simp only [hopen, hcatch] at hrefused
                obtain ⟨hfault, rfl⟩ := Prod.mk.inj hrefused
                obtain rfl := Except.error.inj hfault
                exact .inr ⟨base, journal, _, rfl, rfl, hopen, .inr ⟨w, contents, rfl, hcatch⟩⟩

/-- What is under the path for snapshots, if there is something, is what the journal continues. -/
theorem exists_decode_of_baseState {snapshot : Path} {base : State}
    (hsnapshot : settings.snapshotPath = some snapshot) (hholds : d.holds snapshot = true)
    (hbase : baseState d settings = .ok base) :
    ∃ bytes, d.read snapshot = .ok bytes ∧ Snapshot.decode bytes = .ok base := by
  simp only [baseState, hsnapshot, hholds, if_true, readSnapshot] at hbase
  cases hread : d.read snapshot with
  | error _ => simp [hread] at hbase
  | ok bytes =>
      rw [hread] at hbase
      exact ⟨bytes, rfl, mapError_eq_ok_iff.1 hbase⟩

/-- Without a snapshot the journal continues the state in which nothing has happened yet. -/
theorem baseState_eq_initial {base : State}
    (hfree : ¬ ∃ snapshot, settings.snapshotPath = some snapshot ∧ d.holds snapshot = true)
    (hbase : baseState d settings = .ok base) : base = .initial settings.policy := by
  cases hsnapshot : settings.snapshotPath with
  | none =>
      rw [baseState, hsnapshot] at hbase
      exact (Except.ok.inj hbase).symm
  | some snapshot =>
      have hholds : d.holds snapshot = false := by
        by_contra hholds
        exact hfree ⟨snapshot, hsnapshot, by simpa using hholds⟩
      simp only [baseState, hsnapshot, hholds] at hbase
      exact (Except.ok.inj hbase).symm

/-- Only a snapshot that is ahead keeps a host from coming back to a journal without entries. -/
theorem catchUp_nil_eq_error {base : State} (hbase : baseState d settings = .ok base)
    (hcatch : catchUp base [] = .error fault) :
    (∃ snapshot, settings.snapshotPath = some snapshot ∧ d.holds snapshot = true) ∧
      0 < base.version ∧ fault = .request (.snapshotAhead base.version 0) := by
  have hsaved : ∃ snapshot, settings.snapshotPath = some snapshot ∧ d.holds snapshot = true := by
    by_contra hfree
    rw [baseState_eq_initial hfree hbase, catchUp_nil] at hcatch
    cases hcatch
  obtain ⟨snapshot, hsnapshot, hholds⟩ := hsaved
  obtain ⟨bytes, -, hdecode⟩ := exists_decode_of_baseState hsnapshot hholds hbase
  refine ⟨⟨snapshot, hsnapshot, hholds⟩, ?_⟩
  by_cases hahead : 0 < base.version
  · rw [catchUp, List.length_nil, if_pos hahead] at hcatch
    exact ⟨hahead, (Except.error.inj hcatch).symm⟩
  · have hcatch' : catchUp base [] = .ok base :=
      catchUp_eq_ok_iff.2 ⟨Nat.not_lt.1 hahead, ⟨0, rfl⟩, Snapshot.audit_of_decode hdecode⟩
    rw [hcatch'] at hcatch
    cases hcatch

/-- What becomes of a disk that works when a host does not come back from it. -/
inductive Refused (settings : Settings) (fault : HostFault) (d : Disk) : Disk → Prop
  /-- Nothing. -/
  | untouched : Refused settings fault d d
  /-- The torn tail of the journal was cut off, and then the host could not catch up with it. -/
  | cut {journal : Path} {bytes : Bytes} {contents : JournalContents} {base : State} {d' : Disk}
      (given : settings.journalPath = some journal) (before : d.read journal = .ok bytes)
      (intact : scan bytes = .ok contents) (torn : 0 < contents.tornTail)
      (after : d'.read journal = .ok (bytes.take contents.validLength))
      (begins : baseState d settings = .ok base)
      (refused : catchUp base contents.entries = .error fault) : Refused settings fault d d'
  /-- A journal without entries was begun, and then the snapshot was ahead of it. -/
  | begun {journal : Path} {base : State} {d' : Disk}
      (given : settings.journalPath = some journal)
      (new : JournalWriter.hasContents d journal = false)
      (after : d'.read journal = .ok journalHeader)
      (begins : baseState d settings = .ok base) (ahead : 0 < base.version)
      (refused : fault = .request (.snapshotAhead base.version 0)) : Refused settings fault d d'

/-- On a disk that works, a journal is only changed if it was opened and the host could not catch up
with it. -/
theorem refused_of_reliable (hd : d.Reliable) (htidy : d.Tidy)
    (hrefused : d.perform (recover settings) = (.error fault, d')) :
    (∀ snapshot, settings.snapshotPath = some snapshot → d.holds snapshot = false →
      SameUnder snapshot d d') ∧ Refused settings fault d d' := by
  rcases refused_cases hrefused with
    ⟨-, rfl⟩ | ⟨base, journal, _, hbase, hjournal, hopen, ⟨_, rfl⟩ | ⟨w, contents, rfl, hcatch⟩⟩
  · exact ⟨fun snapshot _ _ => .refl snapshot d', .untouched⟩
  · obtain rfl := JournalWriter.eq_of_openAt_eq_error hd htidy hopen
    exact ⟨fun snapshot _ _ => .refl snapshot d', .untouched⟩
  by_cases hcontents : JournalWriter.hasContents d journal = true
  · obtain ⟨bytes, hread⟩ := JournalWriter.exists_read_of_openAt hcontents hopen
    obtain ⟨place, id, hfile, rfl⟩ := fileAt_of_read htidy.sound hread
    have hne := (JournalWriter.hasContents_iff hfile).1 hcontents
    have hscan := JournalWriter.scan_of_openAt hfile hne hopen
    rw [JournalWriter.perform_openAt_of_scan hd hfile hne hscan] at hopen
    obtain ⟨-, rfl⟩ := Prod.mk.inj hopen
    have htouched := Touched.withContent id d ((d.content id).take contents.validLength)
    refine ⟨fun snapshot _ hfree => sameUnder_of_inodes htidy htouched hfree, ?_⟩
    by_cases htorn : 0 < contents.tornTail
    · refine .cut hjournal hread hscan htorn ?_ hbase hcatch
      rw [(hfile.touched htouched).read, content_withContent_self hfile.onDisk]
    · have hlength := length_of_scan hscan
      rw [List.take_of_length_le (by omega), withContent_content]
      exact .untouched
  · have hnew : JournalWriter.hasContents d journal = false := by simpa using hcontents
    obtain ⟨hentries, ⟨place, hkeeps⟩, -⟩ := JournalWriter.openAt_new_eq_ok htidy.sound hnew hopen
    rw [hentries] at hcatch
    obtain ⟨⟨snapshot, hsnapshot, hholds⟩, hahead, hfault⟩ := catchUp_nil_eq_error hbase hcatch
    constructor
    · intro snapshot' hsnapshot' hfree
      obtain rfl := Option.some.inj (hsnapshot.symm.trans hsnapshot')
      rw [hholds] at hfree
      cases hfree
    · refine .begun hjournal hnew ?_ hbase hahead hfault
      rw [hkeeps.fileAt.read, hkeeps.clean hkeeps.unpoisoned]
      simp [journalFile]

/-- A host does not come back.  Then what is under the path of its journal is what was there, or the
whole frames of a journal that had a torn tail, or some first part of a header where there was no
journal before.  The same as before is found under every path that does not lead to where the
journal is looked for, and a snapshot stays as it is under any path.

If the disk works, the same is under the path for snapshots even if there was nothing.  And then
the journal was only touched if it could be opened and the host was refused afterwards: because it
could not catch up with a journal whose tail was torn, or because its snapshot is ahead of a journal
that was not there. -/
theorem refused_recovery_at_most_opens_journal (htidy : d.Tidy)
    (hrefused : d.perform (recover settings) = (.error fault, d')) :
    (∀ journal, settings.journalPath = some journal → JournalWriter.Left journal d d') ∧
    (∀ path, (∀ journal place, settings.journalPath = some journal → d.Leads journal place →
        ¬ d.Leads path place) → SameUnder path d d') ∧
    (∀ snapshot, settings.snapshotPath = some snapshot → d.holds snapshot = true →
      SameUnder snapshot d d') ∧
    (d.Reliable →
      (∀ snapshot, settings.snapshotPath = some snapshot → SameUnder snapshot d d') ∧
        Refused settings fault d d') := by
  have hsaved : ∀ snapshot, settings.snapshotPath = some snapshot → d.holds snapshot = true →
      SameUnder snapshot d d' := by
    intro snapshot hsnapshot hholds
    rcases refused_cases hrefused with ⟨-, rfl⟩ | ⟨base, journal, result, hbase, -, hopen, -⟩
    · exact .refl snapshot d'
    · obtain ⟨bytes, hread, hdecode⟩ := exists_decode_of_baseState hsnapshot hholds hbase
      exact (JournalWriter.opening_of_openAt htidy hopen).sameUnder_of_decode htidy hread hdecode
  refine ⟨?_, ?_, hsaved, ?_⟩
  · intro journal hjournal
    rcases refused_cases hrefused with ⟨-, rfl⟩ | ⟨base, journal', result, -, hgiven, hopen, -⟩
    · exact .same (.refl journal d')
    · obtain rfl := Option.some.inj (hjournal.symm.trans hgiven)
      exact (JournalWriter.opening_of_openAt htidy hopen).left
  · intro path hpath
    rcases refused_cases hrefused with ⟨-, rfl⟩ | ⟨base, journal, result, -, hgiven, hopen, -⟩
    · exact .refl path d'
    · exact (JournalWriter.opening_of_openAt htidy hopen).sameUnder htidy fun place hleads =>
        hpath journal place hgiven hleads
  · intro hd
    obtain ⟨hfree, hleft⟩ := refused_of_reliable hd htidy hrefused
    refine ⟨fun snapshot hsnapshot => ?_, hleft⟩
    by_cases hholds : d.holds snapshot = true
    · exact hsaved snapshot hsnapshot hholds
    · exact hfree snapshot hsnapshot (by simpa using hholds)

/-- A journal that ends within its only frame, beside the snapshot of what was in it. -/
def tornBesideSnapshot : Disk :=
  twoFiles (journalFile (twoApplications.take 1)).dropLast (Snapshot.encode (oneApplication 1))

/-- The snapshot of a journal that is gone. -/
def snapshotAlone : Disk :=
  (({} : Disk).withNewFile ["snapshot"]).withContent 0 (Snapshot.encode (oneApplication 1))

theorem tidy_twoFiles (journal snapshot : Bytes) : (twoFiles journal snapshot).Tidy := by
  have hmade : (twoFiles journal snapshot).inodes =
      ((({} : Disk).withNewFile ["journal"]).withNewFile ["snapshot"]).inodes := rfl
  exact ((noFiles_empty.tidy.withNewFile (by simp)).withNewFile (by simp)).congr hmade rfl

theorem perform_recover_tornBesideSnapshot :
    tornBesideSnapshot.perform (recover keepingSettings) =
      (.error (.request (.snapshotAhead 1 0)), tornBesideSnapshot.withContent 0 journalHeader) := by
  obtain ⟨hjournal, hsnapshot⟩ := twoFiles_fileAt (journalFile (twoApplications.take 1)).dropLast
    (Snapshot.encode (oneApplication 1))
  have hbase : baseState tornBesideSnapshot keepingSettings = .ok (oneApplication 1) := by
    rw [tornBesideSnapshot, baseState_of_fileAt rfl hsnapshot, mapError_eq_ok_iff]
    exact decode_oneApplication (by decide)
  have hscan : scan (tornBesideSnapshot.content 0) = .ok ⟨[], 16, 45⟩ := by decide +kernel
  have hcut : (tornBesideSnapshot.content 0).take 16 = journalHeader := by decide +kernel
  have hopen := JournalWriter.perform_openAt_of_scan ⟨rfl, rfl⟩ hjournal (by decide +kernel) hscan
  rw [perform_recover_of_baseState rfl hbase, tornBesideSnapshot, hopen, ← hcut]
  rfl

/-- Where only the snapshot is left, a journal is begun before the host is refused. -/
theorem exists_perform_recover_snapshotAlone :
    ∃ d', snapshotAlone.perform (recover keepingSettings) =
      (.error (.request (.snapshotAhead 1 0)), d') ∧ d'.holds ⟨"/journal"⟩ = true := by
  have hsnapshot : snapshotAlone.FileAt ⟨"/snapshot"⟩ ["snapshot"] 0 :=
    ⟨⟨[], "snapshot", rfl, by decide, by decide, by decide, rfl⟩, rfl, by decide, Nat.one_pos⟩
  have hbase : baseState snapshotAlone keepingSettings = .ok (oneApplication 1) := by
    rw [baseState_of_fileAt rfl hsnapshot, mapError_eq_ok_iff]
    exact decode_oneApplication (by decide)
  rw [perform_recover_of_baseState rfl hbase]
  exact ⟨_, rfl, rfl⟩

/-- A refused recovery cuts off the torn tail of a journal, and it begins a journal where there was
none. -/
theorem refused_recovery_touches_journal :
    (∃ fault d', tornBesideSnapshot.perform (recover keepingSettings) = (.error fault, d') ∧
      d'.read ⟨"/journal"⟩ ≠ tornBesideSnapshot.read ⟨"/journal"⟩) ∧
    ∃ fault d', snapshotAlone.perform (recover keepingSettings) = (.error fault, d') ∧
      d'.holds ⟨"/journal"⟩ ≠ snapshotAlone.holds ⟨"/journal"⟩ := by
  constructor
  · exact ⟨_, _, perform_recover_tornBesideSnapshot, by decide +kernel⟩
  · obtain ⟨d', hrefused, hholds⟩ := exists_perform_recover_snapshotAlone
    refine ⟨_, d', hrefused, ?_⟩
    rw [hholds]
    decide +kernel

theorem refused_recovery_at_most_opens_journal_of_tornBesideSnapshot :
    SameUnder ⟨"/snapshot"⟩ tornBesideSnapshot
        (tornBesideSnapshot.withContent 0 journalHeader) ∧
      Refused keepingSettings (.request (.snapshotAhead 1 0)) tornBesideSnapshot
        (tornBesideSnapshot.withContent 0 journalHeader) := by
  obtain ⟨-, -, -, hworks⟩ := refused_recovery_at_most_opens_journal (tidy_twoFiles _ _)
    perform_recover_tornBesideSnapshot
  obtain ⟨hsame, hleft⟩ := hworks ⟨rfl, rfl⟩
  exact ⟨hsame _ rfl, hleft⟩

end Host

end Arbiter
