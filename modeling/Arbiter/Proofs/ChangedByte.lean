import Arbiter.Proofs.ChangedFrame
import Arbiter.Proofs.OpenedJournal

/-!
# Journal files with a changed byte

The check of a frame is over its entry, and nothing is over the length that it announces.  A changed
byte is noticed anywhere else.  A changed length is noticed only if the frame still ends within the
file; otherwise the file seems to end in a torn tail, and everything from that frame on is lost.
-/

namespace Arbiter

open Disk

variable {entries front back : List Entry} {offset : Nat} {bytes : Bytes}

/-! ## Where the change is -/

/-- A change of some frames is a change of one of them. -/
theorem ChangedAt.exists_of_frames {place : Nat}
    (h : ChangedAt place (entries.flatMap Entry.frame) bytes) :
    ∃ front e back inner rest, entries = front ++ e :: back ∧
      place = (front.flatMap Entry.frame).length + inner ∧ inner < e.frame.length ∧
      bytes = front.flatMap Entry.frame ++ rest ∧
      ChangedAt inner (e.frame ++ back.flatMap Entry.frame) rest := by
  induction entries generalizing place bytes with
  | nil => nomatch h
  | cons e entries ih =>
      rw [List.flatMap_cons] at h
      rcases Nat.lt_or_ge place e.frame.length with hplace | hplace
      · exact ⟨[], e, entries, place, bytes, rfl, (Nat.zero_add _).symm, hplace, rfl, h⟩
      · obtain ⟨behind, rfl, hbehind⟩ := h.of_append_right hplace
        obtain ⟨front, e', back, inner, rest, rfl, hinner, hwithin, rfl, hrest⟩ := ih hbehind
        refine ⟨e :: front, e', back, inner, rest, rfl, ?_, hwithin, ?_, hrest⟩
        · rw [List.flatMap_cons, List.length_append]
          omega
        · rw [List.flatMap_cons, List.append_assoc]

/-- A change of a journal file behind its header is a change of a frame. -/
theorem ChangedAt.exists_frame (h : ChangedAt offset (journalFile entries) bytes)
    (hoffset : journalHeaderLength ≤ offset) :
    ∃ front e back place rest, entries = front ++ e :: back ∧
      offset = (journalFile front).length + place ∧ place < e.frame.length ∧
      bytes = journalFile front ++ rest ∧
      ChangedAt place (e.frame ++ back.flatMap Entry.frame) rest := by
  rw [journalFile] at h
  obtain ⟨behind, rfl, hbehind⟩ := h.of_append_right (length_journalHeader ▸ hoffset)
  obtain ⟨front, e, back, place, rest, rfl, hplace, hwithin, rfl, hrest⟩ :=
    hbehind.exists_of_frames
  refine ⟨front, e, back, place, rest, rfl, ?_, hwithin, ?_, hrest⟩
  · rw [length_journalHeader] at hplace
    rw [length_journalFile]
    omega
  · rw [journalFile, List.append_assoc]

/-- The length of a frame was changed to one that goes beyond the end of the file, while there are
more frames behind it. -/
def LengthBeyondEnd (entries : List Entry) (offset : Nat) (bytes : Bytes) : Prop :=
  ∃ front e back, entries = front ++ e :: back ∧ back ≠ [] ∧
    (journalFile front).length + 8 ≤ offset ∧ offset < (journalFile front).length + 12 ∧
    bytes.length < (journalFile front).length +
      (frameHeadLength + announcedLength (bytes.drop (journalFile front).length))

/-! ## Reading -/

/-- A file whose length ends within it is not read, or read up to its last frame. -/
theorem scan_changedAt (hstorable : ∀ e ∈ entries, e.Storable)
    (hnumbers : entries.map (·.sequence) = List.range' 1 entries.length)
    (hoffset : journalHeaderLength ≤ offset)
    (hchanged : ChangedAt offset (journalFile entries) bytes)
    (hwithin : ¬ LengthBeyondEnd entries offset bytes) :
    (∃ fault, scan bytes = .error fault) ∨
      ∃ tail, scan bytes =
        .ok ⟨entries.dropLast, (journalFile entries.dropLast).length, tail⟩ := by
  obtain ⟨front, e, back, place, rest, rfl, rfl, hplace, rfl, hrest⟩ :=
    hchanged.exists_frame hoffset
  obtain ⟨hfront, hback⟩ := map_sequence_append hnumbers
  have hsequence : e.sequence = front.length + 1 := by
    simpa [List.range'_succ] using (List.cons.inj hback).1
  have hstorableFront : ∀ e' ∈ front, e'.Storable :=
    fun e' he' => hstorable e' (List.mem_append_left _ he')
  have he : e.Storable := hstorable e (by simp)
  rcases he.broken_or_torn_of_changedAt hplace hrest with ⟨fault, hbroken⟩ | ⟨htorn, hfield⟩
  · rw [hsequence] at hbroken
    exact .inl ⟨_, scan_journalFile_broken hstorableFront hfront hbroken⟩
  · rw [hsequence] at htorn
    have hlast : back = [] := by
      by_contra hmore
      refine hwithin ⟨front, e, back, rfl, hmore, by omega, by omega, ?_⟩
      rw [List.length_append, List.drop_left, Nat.add_lt_add_iff_left]
      exact readFrame_eq_torn_iff.1 htorn
    subst hlast
    rw [List.dropLast_concat]
    exact .inr ⟨_, scan_journalFile_append hstorableFront hfront htorn⟩

/-- A length beyond the end of the file makes every frame behind it a torn tail. -/
theorem LengthBeyondEnd.exists_scan (h : LengthBeyondEnd entries offset bytes)
    (hstorable : ∀ e ∈ entries, e.Storable)
    (hnumbers : entries.map (·.sequence) = List.range' 1 entries.length)
    (hchanged : ChangedAt offset (journalFile entries) bytes) :
    ∃ contents, scan bytes = .ok contents ∧
      contents.entries.length + 1 < entries.length := by
  obtain ⟨front, e, back, rfl, hmore, hbegin, hend, hbeyond⟩ := h
  rw [journalFile_append] at hchanged
  obtain ⟨rest, rfl, -⟩ := hchanged.of_append_right (by omega)
  rw [List.length_append, List.drop_left, Nat.add_lt_add_iff_left] at hbeyond
  have hscan := scan_journalFile_append (fun e' he' => hstorable e' (List.mem_append_left _ he'))
    (map_sequence_append hnumbers).1 (readFrame_eq_torn_iff.2 hbeyond)
  have hbehind := List.length_pos_iff.2 hmore
  refine ⟨_, hscan, ?_⟩
  simp only [List.length_append, List.length_cons]
  omega

/-! ## Opening -/

/-- A file whose length ends within it keeps all of its frames but the last when it is opened. -/
theorem content_of_openAt_changedAt (hstorable : ∀ e ∈ entries, e.Storable)
    (hnumbers : entries.map (·.sequence) = List.range' 1 entries.length)
    (hoffset : journalHeaderLength ≤ offset)
    (hchanged : ChangedAt offset (journalFile entries) bytes)
    (hwithin : ¬ LengthBeyondEnd entries offset bytes)
    {d : Disk} {path : Path} {place : Place} {id : FileId} (hfile : d.FileAt path place id)
    (hcontent : d.content id = bytes) :
    ∃ kept, (journalFile entries.dropLast).length ≤ kept ∧
      (d.perform (JournalWriter.openAt path)).2.content id = bytes.take kept := by
  subst hcontent
  have hlength : (journalFile entries.dropLast).length ≤ (d.content id).length := by
    rw [hchanged.length_eq]
    exact (journalFile_isPrefix (List.dropLast_prefix entries)).length_le
  have hne : d.content id ≠ [] := by
    apply List.ne_nil_of_length_pos
    exact Nat.lt_of_lt_of_le (length_journalFile_pos _) hlength
  rcases scan_changedAt hstorable hnumbers hoffset hchanged hwithin with
    ⟨fault, hscan⟩ | ⟨tail, hscan⟩
  · refine ⟨(d.content id).length, hlength, ?_⟩
    rw [JournalWriter.perform_openAt_of_fileAt hfile hne, hscan, List.take_length]
  · rcases JournalWriter.content_of_openAt hfile hne hscan with hleft | hleft
    · exact ⟨(d.content id).length, hlength, by rw [hleft, List.take_length]⟩
    · exact ⟨_, Nat.le_refl _, hleft⟩

/-- A journal file with a changed byte behind its header is not read, or read with all entries but
the last one, unless the byte belongs to a length that now goes beyond the end of the file. -/
theorem changed_byte_costs_one_frame (hstorable : ∀ e ∈ entries, e.Storable)
    (hnumbers : entries.map (·.sequence) = List.range' 1 entries.length)
    (hoffset : journalHeaderLength ≤ offset)
    (hchanged : ChangedAt offset (journalFile entries) bytes) :
    (((∃ fault, scan bytes = .error fault) ∨
        ∃ contents, scan bytes = .ok contents ∧ entries.dropLast <+: contents.entries) ↔
      ¬ LengthBeyondEnd entries offset bytes) ∧
    (¬ LengthBeyondEnd entries offset bytes →
      ∀ (d : Disk) (path : Path) (place : Place) (id : FileId), d.FileAt path place id →
        d.content id = bytes →
          ∃ kept, (journalFile entries.dropLast).length ≤ kept ∧
            (d.perform (JournalWriter.openAt path)).2.content id = bytes.take kept) := by
  refine ⟨⟨?_, ?_⟩, ?_⟩
  · intro hread hbeyond
    obtain ⟨contents, hscan, hfew⟩ := hbeyond.exists_scan hstorable hnumbers hchanged
    rcases hread with ⟨fault, hfault⟩ | ⟨contents', hscan', hkept⟩
    · simp [hscan] at hfault
    · obtain rfl : contents = contents' := by simpa [hscan] using hscan'
      have hmost := hkept.length_le
      rw [List.length_dropLast] at hmost
      omega
  · intro hwithin
    rcases scan_changedAt hstorable hnumbers hoffset hchanged hwithin with hfault | ⟨tail, hscan⟩
    · exact .inl hfault
    · exact .inr ⟨_, hscan, List.prefix_refl _⟩
  · intro hwithin d path place id hfile hcontent
    exact content_of_openAt_changedAt hstorable hnumbers hoffset hchanged hwithin hfile hcontent

/-- A disk with a journal file and nothing else. -/
def journalDisk (bytes : Bytes) : Disk :=
  { inodes := OrderedMap.empty.insert ["journal"] (.file 0), contents := [bytes] }

theorem changed_byte_costs_one_frame_in_entry :
    ¬ LengthBeyondEnd threeRegistered 32 ((journalFile threeRegistered).set 32 0) ∧
      ∃ kept, (journalFile threeRegistered.dropLast).length ≤ kept ∧
        ((journalDisk ((journalFile threeRegistered).set 32 0)).perform
            (JournalWriter.openAt ⟨"/journal"⟩)).2.content 0 =
          ((journalFile threeRegistered).set 32 0).take kept := by
  have hchanged : ChangedAt 32 (journalFile threeRegistered)
      ((journalFile threeRegistered).set 32 0) :=
    ChangedAt.set (b := 1) (by decide +kernel) (by decide)
  have hfile : (journalDisk ((journalFile threeRegistered).set 32 0)).FileAt ⟨"/journal"⟩
      ["journal"] 0 := by
    refine ⟨⟨[], "journal", ?_⟩, ?_, ?_, ?_⟩ <;> decide +kernel
  obtain ⟨hread, hopen⟩ := changed_byte_costs_one_frame (by decide +kernel) (by decide)
    (by decide) hchanged
  have hwithin := hread.1 (.inl ⟨.frame 16 .checksum, by decide +kernel⟩)
  exact ⟨hwithin, hopen hwithin _ _ _ _ hfile rfl⟩

/-- With another highest byte in the length of its first frame, a journal is opened as an empty one
and loses all of its frames. -/
theorem changed_length_costs_all_frames :
    (∀ e ∈ threeRegistered, e.Storable) ∧
      threeRegistered.map (·.sequence) = List.range' 1 threeRegistered.length ∧
      ChangedAt 27 (journalFile threeRegistered) ((journalFile threeRegistered).set 27 255) ∧
      scan ((journalFile threeRegistered).set 27 255) = .ok ⟨[], journalHeaderLength, 120⟩ ∧
      ((journalDisk ((journalFile threeRegistered).set 27 255)).perform
        (JournalWriter.openAt ⟨"/journal"⟩)).2.content 0 = journalHeader := by
  have hchanged : ChangedAt 27 (journalFile threeRegistered)
      ((journalFile threeRegistered).set 27 255) :=
    ChangedAt.set (b := 0) (by decide +kernel) (by decide)
  refine ⟨by decide +kernel, by decide, hchanged, by decide +kernel, by decide +kernel⟩

end Arbiter
