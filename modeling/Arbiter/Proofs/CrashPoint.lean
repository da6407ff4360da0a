import Arbiter.Proofs.Acknowledged
import Arbiter.Proofs.OpenedJournal

/-!
# Crashes

After a crash some first part of a journal file is left.  The entries whose frames are whole are
read from it, what is left of another frame is cut off, and the journal goes on from there.  Only a
file that was left within its header cannot be opened any more.
-/

namespace Arbiter

open Disk

variable {d : Disk} {path : Path} {place : Place} {id : FileId} {entries : List Entry}

/-! ## What a crash leaves -/

/-- The disk after a crash that left only the first bytes of a file; it does not fail again. -/
def Disk.crashed (d : Disk) (id : FileId) (length : Nat) : Disk :=
  { d.withContent id ((d.content id).take length) with mishaps := [], limit := none }

theorem Disk.reliable_crashed (d : Disk) (id : FileId) (length : Nat) :
    (d.crashed id length).Reliable :=
  ⟨rfl, rfl⟩

theorem Disk.touched_crashed (d : Disk) (id : FileId) (length : Nat) :
    Touched id d (d.crashed id length) where
  inodes := rfl
  length := (Touched.withContent id d _).length
  others hne := (Touched.withContent id d _).others hne

theorem Disk.content_crashed {length : Nat} (hid : id < d.contents.length) :
    (d.crashed id length).content id = (d.content id).take length :=
  content_withContent_self hid

/-- The entries whose frames lie within the first bytes of the file of some entries. -/
def FramedWithin (entries front : List Entry) (length : Nat) : Prop :=
  front <+: entries ∧ ∀ before e after, entries = before ++ e :: after →
    (before ++ [e] <+: front ↔ (journalFile (before ++ [e])).length ≤ length)

/-- The frames that are whole are the ones before the first that is not. -/
theorem framedWithin_of_cut {front back : List Entry} {length : Nat}
    (hfits : (journalFile front).length ≤ length)
    (hcut : ∀ e after, back = e :: after → length < (journalFile (front ++ [e])).length) :
    FramedWithin (front ++ back) front length := by
  refine ⟨List.prefix_append front back, fun before e after hentries => ?_⟩
  have hbefore : before ++ [e] <+: front ++ back := ⟨after, by simp [hentries]⟩
  constructor
  · intro hfront
    exact Nat.le_trans (journalFile_isPrefix hfront).length_le hfits
  · intro hwithin
    by_contra hmore
    have hfront : front <+: before ++ [e] :=
      (List.prefix_or_prefix_of_prefix hbefore (List.prefix_append front back)).resolve_left hmore
    obtain ⟨rest, hrest⟩ := hfront
    rw [← hrest, List.prefix_append_right_inj] at hbefore
    cases rest with
    | nil => exact hmore ⟨[], by simpa using hrest.symm⟩
    | cons first rest =>
        -- The first frame that is not whole would lie within the first bytes, too.
        obtain ⟨more, rfl⟩ := hbefore
        have hfirst : front ++ [first] <+: before ++ [e] := ⟨rest, by simp [← hrest]⟩
        have hlength := (journalFile_isPrefix hfirst).length_le
        have hless := hcut first (rest ++ more) rfl
        omega

/-- The first bytes of some frames are whole frames and the beginning of one more, if there is one
more. -/
theorem exists_take_frames (entries : List Entry) (length : Nat) :
    ∃ front back tail, entries = front ++ back ∧
      (entries.flatMap Entry.frame).take length = front.flatMap Entry.frame ++ tail ∧
      (back = [] ∧ tail = [] ∨ ∃ e after, back = e :: after ∧ tail <+: e.frame ∧
        tail.length < e.frame.length ∧
        length = (front.flatMap Entry.frame).length + tail.length) := by
  induction entries generalizing length with
  | nil => exact ⟨[], [], [], rfl, by simp, .inl ⟨rfl, rfl⟩⟩
  | cons e entries ih =>
      rw [List.flatMap_cons]
      rcases Nat.lt_or_ge length e.frame.length with hshort | hlong
      · refine ⟨[], e :: entries, e.frame.take length, rfl, ?_, .inr ⟨e, entries, rfl, ?_, ?_, ?_⟩⟩
        · rw [List.take_append_of_le_length (Nat.le_of_lt hshort), List.flatMap_nil,
            List.nil_append]
        · exact List.take_prefix length e.frame
        · rwa [List.length_take_of_le (Nat.le_of_lt hshort)]
        · rw [List.length_take_of_le (Nat.le_of_lt hshort), List.flatMap_nil, List.length_nil,
            Nat.zero_add]
      · obtain ⟨front, back, tail, rfl, htake, htail⟩ := ih (length - e.frame.length)
        refine ⟨e :: front, back, tail, rfl, ?_, htail.imp_right ?_⟩
        · rw [List.take_append, List.take_of_length_le hlong, htake, List.flatMap_cons,
            List.append_assoc]
        · rintro ⟨e', after, rfl, hpart, hless, hlength⟩
          refine ⟨e', after, rfl, hpart, hless, ?_⟩
          rw [List.flatMap_cons, List.length_append]
          omega

/-- The first bytes of a journal file are a journal file and a torn tail. -/
theorem exists_take_journalFile {length : Nat} (hlength : journalHeaderLength ≤ length)
    (hstorable : ∀ e ∈ entries, e.Storable) :
    ∃ front tail, FramedWithin entries front length ∧
      (journalFile entries).take length = journalFile front ++ tail ∧
      readFrame (front.length + 1) tail = .torn := by
  obtain ⟨front, back, tail, rfl, htake, htail⟩ :=
    exists_take_frames entries (length - journalHeaderLength)
  have hfront := length_journalFile front
  have hfits : (journalFile front).length ≤ length := by
    have hparts := congrArg List.length htake
    rw [List.length_append, List.length_take] at hparts
    omega
  refine ⟨front, tail, framedWithin_of_cut hfits ?_, ?_, ?_⟩
  · rintro e after rfl
    rcases htail with ⟨hnil, -⟩ | ⟨e', after', hback, -, hless, htotal⟩
    · simp at hnil
    · obtain ⟨rfl, rfl⟩ := List.cons.inj hback
      rw [journalFile_concat, List.length_append]
      omega
  · rw [journalFile, List.take_append, length_journalHeader, htake, journalFile,
      List.take_of_length_le (length_journalHeader ▸ hlength), List.append_assoc]
  · rcases htail with ⟨-, rfl⟩ | ⟨e, after, rfl, hpart, hless, -⟩
    · exact readFrame_nil _
    · exact (hstorable e (by simp)).readFrame_torn hpart hless _

/-! ## Going on after a crash -/

/-- Opening the journal gives the entries and leaves a file that holds nothing but them.  Then it
takes any next entry, and is opened again with that entry and without a torn tail. -/
def GoesOn (path : Path) (d : Disk) (entries : List Entry) : Prop :=
  ∃ w contents d₁, d.perform (JournalWriter.openAt path) = (.ok (w, contents), d₁) ∧
    contents.entries = entries ∧ d₁.read path = .ok (journalFile entries) ∧
    ∀ e : Entry, e.Storable → e.sequence = entries.length + 1 →
      ∃ w' d₂, (w.append e).run d₁ = ((w', .ok ()), d₂) ∧
        ∃ w'' contents' d₃,
          d₂.perform (JournalWriter.openAt path) = (.ok (w'', contents'), d₃) ∧
            contents'.entries = entries ++ [e] ∧ contents'.tornTail = 0

/-- A journal goes on once it was opened and only its entries were left in the file. -/
theorem goesOn_of_openAt (hd : d.Reliable) (hfile : d.FileAt path place id)
    (hstorable : ∀ e ∈ entries, e.Storable)
    (hnumbers : entries.map (·.sequence) = List.range' 1 entries.length) {tail : Nat}
    (hopen : d.perform (JournalWriter.openAt path) =
      (.ok (⟨path, id, entries.length, (journalFile entries).length, false⟩,
        ⟨entries, (journalFile entries).length, tail⟩), d.withContent id (journalFile entries))) :
    GoesOn path d entries := by
  have hkept : (d.withContent id (journalFile entries)).content id = journalFile entries :=
    content_withContent_self hfile.onDisk
  have hfile' := hfile.touched (.withContent id d (journalFile entries))
  refine ⟨_, _, _, hopen, rfl, by rw [hfile'.read, hkept], fun e he hsequence => ?_⟩
  have happend := JournalWriter.run_append_of_reliable
    (w := ⟨path, id, entries.length, (journalFile entries).length, false⟩)
    (hd.withContent id (journalFile entries)) rfl hsequence
  rw [hkept, ← journalFile_concat, withContent_withContent] at happend
  refine ⟨_, _, happend, ?_⟩
  have hmore : (d.withContent id (journalFile (entries ++ [e]))).content id =
      journalFile (entries ++ [e]) :=
    content_withContent_self hfile.onDisk
  have hstorable' : ∀ e' ∈ entries ++ [e], e'.Storable := by
    simpa [or_imp, forall_and] using ⟨hstorable, he⟩
  rcases JournalWriter.perform_openAt (hfile.touched (.withContent id d _)) hmore hstorable'
    (map_sequence_concat hnumbers hsequence) with hagain | ⟨-, hfails⟩
  · exact ⟨_, _, _, hagain, rfl, rfl⟩
  · exact absurd (hd.withContent id _).calm hfails

/-- A journal of which the header and more was left goes on with its whole frames. -/
theorem exists_goesOn_of_take (hd : d.Reliable) (hfile : d.FileAt path place id) {length : Nat}
    (hcontent : d.content id = (journalFile entries).take length)
    (hlength : journalHeaderLength ≤ length) (hstorable : ∀ e ∈ entries, e.Storable)
    (hnumbers : entries.map (·.sequence) = List.range' 1 entries.length) :
    ∃ front, FramedWithin entries front length ∧ GoesOn path d front := by
  obtain ⟨front, tail, hframed, htake, htorn⟩ := exists_take_journalFile hlength hstorable
  obtain ⟨back, rfl⟩ := hframed.1
  have hstorable' : ∀ e ∈ front, e.Storable := fun e he => hstorable e (by simp [he])
  have hnumbers' := (map_sequence_append hnumbers).1
  rw [htake] at hcontent
  have hscan := scan_journalFile_append hstorable' hnumbers' htorn
  have hne : d.content id ≠ [] := by
    rw [hcontent]
    apply List.ne_nil_of_length_pos
    rw [List.length_append]
    exact Nat.lt_of_lt_of_le (length_journalFile_pos front) (Nat.le_add_right _ _)
  have hopen := JournalWriter.perform_openAt_of_scan hd hfile hne (hcontent ▸ hscan)
  rw [hcontent, List.take_left] at hopen
  exact ⟨front, hframed, goesOn_of_openAt hd hfile hstorable' hnumbers' hopen⟩

theorem goesOn_of_empty (hd : d.Reliable) (hfile : d.FileAt path place id)
    (hcontent : d.content id = []) : GoesOn path d [] := by
  have hopen := JournalWriter.perform_openAt_of_empty hd hfile hcontent
  have hheader : journalHeader = journalFile [] := by simp [journalFile]
  rw [← length_journalHeader, hheader] at hopen
  exact goesOn_of_openAt hd hfile (by simp) rfl hopen

/-! ## Journals before the crash -/

namespace WriterRun

variable {r : WriterRun}

theorem map_log_calls (r : WriterRun) (entries : List Entry) :
    (r.calls entries).log.map (·.1) = r.log.map (·.1) ++ entries := by
  induction entries generalizing r with
  | nil => simp [calls]
  | cons e entries ih =>
      have hcons : r.calls (e :: entries) = (r.call e).calls entries := rfl
      have hcall : (r.call e).log = r.log ++ [(e, ((r.writer.append e).run r.disk).1.2)] := rfl
      rw [hcons, ih, hcall, List.map_append, List.append_assoc]
      rfl

theorem acknowledged_of_forall_ok {log : List (Entry × Except JournalFault Unit)}
    (hall : ∀ call ∈ log, call.2 = .ok ()) : acknowledged log = log.map (·.1) := by
  rw [acknowledged, ← List.filterMap_eq_map]
  apply List.filterMap_congr
  intro call hcall
  simp [hall call hcall]

/-- Where nothing failed, the file holds the entries that the writer was given. -/
theorem Intact.keeps_all (h : r.Intact path place) (hall : ∀ call ∈ r.log, call.2 = .ok ()) :
    r.writer.Keeps path place r.disk (r.log.map (·.1)) (fun _ => False) ∧
      r.disk.content r.writer.file = journalFile (r.log.map (·.1)) := by
  have hkeeps : r.writer.Keeps path place r.disk (r.log.map (·.1)) (fun _ => False) := by
    rw [← acknowledged_of_forall_ok hall]
    refine h.imp ?_
    rintro e ⟨before, fault, after, hlog, -⟩
    have hfailed := hall (e, .error (.disk fault)) (by simp [hlog])
    simp at hfailed
  refine ⟨hkeeps, hkeeps.clean ?_⟩
  rw [← Bool.not_eq_true]
  intro hpoisoned
  obtain ⟨e, tail, hnever, -⟩ := hkeeps.torn hpoisoned
  exact hnever

end WriterRun

/-! ## Crashes at any byte -/

theorem framedWithin_zero (entries : List Entry) : FramedWithin entries [] 0 := by
  refine ⟨List.nil_prefix, fun before e after _ => ?_⟩
  have hpos := length_journalFile_pos (before ++ [e])
  constructor
  · intro hnil
    simp at hnil
  · intro hzero
    omega

/-- A crash may leave any first part of a journal to which entries were appended without a failure.
If nothing is left or the whole header is, the journal goes on with the entries whose frames are
whole; otherwise it is refused, and what is left stays as it is. -/
theorem crash_at_any_byte {d₀ d₁ : Disk} {w : JournalWriter} {contents : JournalContents}
    {r : WriterRun} (hsound : d₀.Sound) (hnew : JournalWriter.hasContents d₀ path = false)
    (hopen : d₀.perform (JournalWriter.openAt path) = (.ok (w, contents), d₁))
    (hstorable : ∀ e ∈ entries, e.Storable) (hr : r = WriterRun.calls ⟨w, d₁, []⟩ entries)
    (hall : ∀ call ∈ r.log, call.2 = .ok ()) :
    r.disk.read path = .ok (journalFile entries) ∧ ∀ length,
      (length = 0 ∨ journalHeaderLength ≤ length → ∃ front, FramedWithin entries front length ∧
        GoesOn path (r.disk.crashed r.writer.file length) front) ∧
      (0 < length → length < journalHeaderLength →
        (r.disk.crashed r.writer.file length).perform (JournalWriter.openAt path) =
          (.error (.scan (.header (.tooShort length))),
            r.disk.crashed r.writer.file length)) := by
  obtain ⟨-, ⟨place, hstart⟩, -⟩ := JournalWriter.openAt_new_eq_ok hsound hnew hopen
  have hintact : WriterRun.Intact path place ⟨w, d₁, []⟩ := hstart.imp fun _ => False.elim
  have hdone : r.Intact path place := hr ▸ hintact.calls hstorable
  have hgiven : r.log.map (·.1) = entries := by
    rw [hr, WriterRun.map_log_calls]
    rfl
  obtain ⟨hkeeps, hcontent⟩ := hdone.keeps_all hall
  rw [hgiven] at hkeeps hcontent
  refine ⟨by rw [hkeeps.fileAt.read, hcontent], fun length => ?_⟩
  have hd := r.disk.reliable_crashed r.writer.file length
  have hfile := hkeeps.fileAt.touched (r.disk.touched_crashed r.writer.file length)
  have hleft : (r.disk.crashed r.writer.file length).content r.writer.file =
      (journalFile entries).take length := by
    rw [content_crashed hkeeps.fileAt.onDisk, hcontent]
  constructor
  · rintro (rfl | hlength)
    · exact ⟨[], framedWithin_zero entries, goesOn_of_empty hd hfile hleft⟩
    · exact exists_goesOn_of_take hd hfile hleft hlength hstorable hkeeps.numbers
  · intro hpos hshort
    have hlength : ((r.disk.crashed r.writer.file length).content r.writer.file).length =
        length := by
      rw [hleft, List.length_take_of_le]
      rw [length_journalFile]
      omega
    have hne : (r.disk.crashed r.writer.file length).content r.writer.file ≠ [] := by
      apply List.ne_nil_of_length_pos
      rwa [hlength]
    have hrefused := JournalWriter.perform_openAt_of_short hfile hne (by rwa [hlength])
    rwa [hlength] at hrefused

/-- A journal that was started on an empty disk, and to which three entries were appended. -/
def threeAppended : WriterRun :=
  WriterRun.calls ⟨startedWriter, (({} : Disk).perform (JournalWriter.openAt ⟨"/journal"⟩)).2, []⟩
    threeRegistered

theorem crash_at_any_byte_of_threeAppended :
    (∃ front, FramedWithin threeRegistered front 60 ∧
        GoesOn ⟨"/journal"⟩ (threeAppended.disk.crashed 0 60) front) ∧
      ((threeAppended.disk.crashed 0 5).perform (JournalWriter.openAt ⟨"/journal"⟩)).1 =
        .error (.scan (.header (.tooShort 5))) := by
  have hsound : ({} : Disk).Sound := by
    intro place id hinode
    cases place <;> simp [inode?, OrderedMap.get?_empty] at hinode
  have hopen : ({} : Disk).perform (JournalWriter.openAt ⟨"/journal"⟩) =
      (.ok (startedWriter, ⟨[], journalHeaderLength, 0⟩),
        (({} : Disk).perform (JournalWriter.openAt ⟨"/journal"⟩)).2) := by
    decide +kernel
  have hstorable : ∀ e ∈ threeRegistered, e.Storable := by decide +kernel
  have hall : ∀ call ∈ threeAppended.log, call.2 = .ok () := by decide +kernel
  obtain ⟨-, hcrash⟩ := crash_at_any_byte hsound (by decide +kernel) hopen hstorable rfl hall
  exact ⟨(hcrash 60).1 (.inr (by decide)),
    congrArg Prod.fst ((hcrash 5).2 (by decide) (by decide))⟩

/-- A journal that was left with five bytes of its header is not opened again. -/
theorem crash_within_header_is_refused :
    threeAppended.disk.content 0 = journalFile threeRegistered ∧
      (threeAppended.disk.crashed 0 5).content 0 = (journalFile threeRegistered).take 5 ∧
      ¬ ∃ opened,
        ((threeAppended.disk.crashed 0 5).perform (JournalWriter.openAt ⟨"/journal"⟩)).1 =
          .ok opened := by
  have hrefused :
      ((threeAppended.disk.crashed 0 5).perform (JournalWriter.openAt ⟨"/journal"⟩)).1 =
        .error (.scan (.header (.tooShort 5))) := by
    decide +kernel
  refine ⟨by decide +kernel, by decide +kernel, ?_⟩
  rw [hrefused]
  simp

end Arbiter
