import Arbiter.Proofs.CrashPoint
import Mathlib.Order.Bounds.Defs

/-!
# What is read from files that are cut or extended

A file that can be read can be cut behind its last whole frame, and the frames of further entries
can be put there.  The file of some entries can be cut anywhere: what is read are the entries whose
frames are left whole, unless the header is not.
-/

namespace Arbiter

variable {bytes : Bytes} {contents : JournalContents} {entries : List Entry}

/-! ## Extending a file -/

namespace JournalContents.MadeOf

variable {header frames tail : Bytes}

theorem journalHeaderLength_le (h : contents.MadeOf header frames tail) :
    journalHeaderLength ≤ contents.validLength := by
  rw [h.validLength_eq, List.length_append, h.length_header]
  exact Nat.le_add_right _ _

/-- The valid part is the header and the frames. -/
theorem take_validLength (h : contents.MadeOf header frames tail) :
    (header ++ frames ++ tail).take contents.validLength = header ++ frames :=
  List.take_left' h.validLength_eq.symm

/-- Further frames may take the place of the tail. -/
theorem extended (h : contents.MadeOf header frames tail) {more : List Entry} {frames' : Bytes}
    (hmore : FramesOf (contents.entries.length + 1) more frames') :
    JournalContents.MadeOf
      ⟨contents.entries ++ more, contents.validLength + frames'.length, 0⟩
      header (frames ++ frames') [] where
  length_header := h.length_header
  checkHeader_eq := h.checkHeader_eq
  framesOf := by
    rw [Nat.add_comm] at hmore
    exact h.framesOf.append hmore
  torn := readFrame_nil _
  validLength_eq := by
    rw [← List.append_assoc, List.length_append, ← h.validLength_eq]
  tornTail_eq := rfl

end JournalContents.MadeOf

/-- The valid part of a file that can be read is read again, with further frames behind it or
without them. -/
theorem scan_take_validLength_append (h : scan bytes = .ok contents) {more : List Entry}
    {frames' : Bytes} (hmore : FramesOf (contents.entries.length + 1) more frames') :
    scan (bytes.take contents.validLength ++ frames') =
      .ok ⟨contents.entries ++ more, contents.validLength + frames'.length, 0⟩ := by
  obtain ⟨header, frames, tail, rfl, hparts⟩ := scan_eq_ok_iff.1 h
  refine scan_eq_ok_iff.2 ⟨header, frames ++ frames', [], ?_, hparts.extended hmore⟩
  rw [hparts.take_validLength, List.append_nil, List.append_assoc]

/-- Whatever the bytes are, the entries that are read from them are numbered from 1 on, and the
header, the frames and the tail make up the whole file.  Cut behind the last whole frame, the file
is read as the same entries, and the frames of the next entries can be appended there. -/
theorem valid_part_is_extendable (h : scan bytes = .ok contents) :
    contents.entries.map (·.sequence) = List.range' 1 contents.entries.length ∧
      journalHeaderLength ≤ contents.validLength ∧
      contents.validLength + contents.tornTail = bytes.length ∧
      scan (bytes.take contents.validLength) =
        .ok ⟨contents.entries, contents.validLength, 0⟩ ∧
      ∀ more : List Entry, (∀ e ∈ more, e.Storable) →
        more.map (·.sequence) = List.range' (contents.entries.length + 1) more.length →
        scan (bytes.take contents.validLength ++ more.flatMap Entry.frame) =
          .ok ⟨contents.entries ++ more,
            contents.validLength + (more.flatMap Entry.frame).length, 0⟩ := by
  refine ⟨map_sequence_of_scan h, ?_, length_of_scan h, ?_, ?_⟩
  · obtain ⟨header, frames, tail, -, hparts⟩ := scan_eq_ok_iff.1 h
    exact hparts.journalHeaderLength_le
  · have hcut := scan_take_validLength_append h .nil
    simpa using hcut
  · intro more hstorable hnumbers
    exact scan_take_validLength_append h (framesOf_flatMap_frame hstorable hnumbers)

/-- A file that was not written here: its header does not end with zeros, and the number of its
entry takes three bytes instead of one.  A torn tail follows. -/
def foreignFile : Bytes :=
  leBytes 4 journalFormat ++ leBytes 4 protocolVersion ++ leBytes 8 7 ++
    encodeFrame 1 ([251, 1, 0] ++ (Entry.encode ⟨1, .ofLow 1, .registerNode "s"⟩).drop 1) ++ [4, 0]

theorem valid_part_is_extendable_of_foreignFile :
    scan foreignFile = .ok ⟨threeRegistered.take 1, 58, 2⟩ ∧
      scan (foreignFile.take 58 ++ (threeRegistered.drop 1).flatMap Entry.frame) =
        .ok ⟨threeRegistered, 138, 0⟩ := by
  have hscan : scan foreignFile = .ok ⟨threeRegistered.take 1, 58, 2⟩ := by decide +kernel
  obtain ⟨-, -, -, -, hmore⟩ := valid_part_is_extendable hscan
  exact ⟨hscan, hmore (threeRegistered.drop 1) (by decide +kernel) (by decide)⟩

/-! ## Cutting the file of some entries -/

/-- The entries whose frames lie within the first bytes of a file are as many as possible. -/
theorem FramedWithin.isGreatest {front : List Entry} {length : Nat}
    (h : FramedWithin entries front length) (hfits : (journalFile front).length ≤ length) :
    IsGreatest {k | k ≤ entries.length ∧ (journalFile (entries.take k)).length ≤ length}
      front.length := by
  have hfront : entries.take front.length = front := List.prefix_iff_eq_take.1 h.1 |>.symm
  constructor
  · exact ⟨h.1.length_le, by rwa [hfront]⟩
  · rintro k ⟨hk, hwithin⟩
    cases k with
    | zero => exact Nat.zero_le _
    | succ k =>
        have hsplit : entries = entries.take k ++ entries[k] :: entries.drop (k + 1) := by
          rw [List.getElem_cons_drop, List.take_append_drop]
        rw [List.take_succ_eq_append_getElem hk] at hwithin
        have hlength := ((h.2 _ _ _ hsplit).2 hwithin).length_le
        rwa [List.length_append, List.length_singleton,
          List.length_take_of_le (Nat.le_of_succ_le hk)] at hlength

/-- Of the file of some entries the first bytes are read as the entries of which the file still
fits into them, as many as possible, and the rest is a torn tail.  Less than a header is refused. -/
theorem scan_take_journalFile (hstorable : ∀ e ∈ entries, e.Storable)
    (hnumbers : entries.map (·.sequence) = List.range' 1 entries.length) :
    (∀ length, journalHeaderLength ≤ length → length ≤ (journalFile entries).length →
      ∃ k, IsGreatest {k | k ≤ entries.length ∧ (journalFile (entries.take k)).length ≤ length} k ∧
        scan ((journalFile entries).take length) =
          .ok ⟨entries.take k, (journalFile (entries.take k)).length,
            length - (journalFile (entries.take k)).length⟩) ∧
      ∀ length < journalHeaderLength, scan ((journalFile entries).take length) =
        .error (.header (.tooShort length)) := by
  constructor
  · intro length hheader hwithin
    obtain ⟨front, tail, hframed, htake, htorn⟩ := exists_take_journalFile hheader hstorable
    have hlength : length = (journalFile front).length + tail.length := by
      rw [← List.length_append, ← htake, List.length_take_of_le hwithin]
    have hfits : (journalFile front).length ≤ length := hlength ▸ Nat.le_add_right _ _
    refine ⟨front.length, hframed.isGreatest hfits, ?_⟩
    obtain ⟨back, rfl⟩ := hframed.1
    rw [List.take_left, htake, hlength, Nat.add_sub_cancel_left]
    exact scan_journalFile_append (fun e he => hstorable e (by simp [he]))
      (map_sequence_append hnumbers).1 htorn
  · intro length hshort
    have hlength : ((journalFile entries).take length).length = length := by
      rw [List.length_take_of_le]
      rw [length_journalFile]
      omega
    have hrefused : ((journalFile entries).take length).length < journalHeaderLength := by
      rwa [hlength]
    rw [scan_of_short hrefused, hlength]

theorem scan_take_journalFile_of_threeRegistered :
    IsGreatest {k | k ≤ 3 ∧ (journalFile (threeRegistered.take k)).length ≤ 60} 1 ∧
      scan ((journalFile threeRegistered).take 60) = .ok ⟨threeRegistered.take 1, 56, 4⟩ ∧
      scan ((journalFile threeRegistered).take 5) = .error (.header (.tooShort 5)) := by
  have hstorable : ∀ e ∈ threeRegistered, e.Storable := by decide +kernel
  obtain ⟨hcut, hshort⟩ := scan_take_journalFile hstorable (by decide)
  obtain ⟨k, hgreatest, hscan⟩ := hcut 60 (by decide) (by decide +kernel)
  have hone : 1 ≤ k := hgreatest.2 ⟨by decide, by decide +kernel⟩
  have hmost : ∀ k ≤ 3, (journalFile (threeRegistered.take k)).length ≤ 60 → k ≤ 1 := by
    decide +kernel
  obtain rfl : k = 1 := Nat.le_antisymm (hmost k hgreatest.1.1 hgreatest.1.2) hone
  have hlength : (journalFile (threeRegistered.take 1)).length = 56 := by decide +kernel
  rw [hlength] at hscan
  exact ⟨hgreatest, hscan, hshort 5 (by decide)⟩

end Arbiter
