import Arbiter.Journal.Frame
import Arbiter.Proofs.Guards

/-!
# What can be read from a journal file

A file that can be read is a header, whole frames and a torn tail, and nothing else is read from it
than what the frames hold.  It does not matter who wrote it: a frame may hold its entry in another
form than the one that is written.  A whole frame is read in the same way whatever follows it, so
other frames may be put in the place of the tail.
-/

namespace Arbiter

variable {bytes rest : Bytes} {next : Nat} {e : Entry} {entries : List Entry}
  {contents : JournalContents}

/-! ## Single frames -/

theorem readFrame_nil (expected : Nat) : readFrame expected [] = .torn := rfl

/-- Some bytes are a frame that holds an entry: they are read as that frame whatever follows them,
if the entry of this number is expected. -/
def FrameOf (next : Nat) (e : Entry) (frame : Bytes) : Prop :=
  ∀ rest, readFrame next (frame ++ rest) = .whole frame.length e rest

/-- What was read as a frame is one. -/
theorem exists_frameOf_of_readFrame {length : Nat}
    (h : readFrame next bytes = .whole length e rest) :
    ∃ frame, bytes = frame ++ rest ∧ length = frame.length ∧ FrameOf next e frame := by
  unfold readFrame at h
  split at h
  · simp at h
  · next head behind hhead =>
      obtain ⟨hheadLength, rfl⟩ := takeBytes_eq_some.1 hhead
      split at h
      · simp at h
      · next payload rest' hpayload =>
          obtain ⟨hpayloadLength, rfl⟩ := takeBytes_eq_some.1 hpayload
          split at h
          · simp at h
          · next hopen =>
              obtain ⟨rfl, rfl, rfl⟩ := FrameReading.whole.inj h
              have hlength : (head ++ payload).length = frameHeadLength + payload.length := by
                rw [List.length_append, hheadLength]
              refine ⟨head ++ payload, (List.append_assoc ..).symm, hlength.symm, ?_⟩
              intro more
              have hhead' := takeBytes_append head (payload ++ more)
              have hpayload' := takeBytes_append payload more
              rw [hheadLength] at hhead'
              rw [hpayloadLength] at hpayload'
              rw [List.append_assoc, hlength]
              simp only [readFrame, hhead', hpayload', hopen]

namespace FrameOf

variable {frame : Bytes}

theorem length_pos (h : FrameOf next e frame) : 0 < frame.length := by
  apply List.length_pos_of_ne_nil
  rintro rfl
  have hnothing := h []
  simp [readFrame_nil] at hnothing

/-- A frame is read under the number of its entry only. -/
theorem sequence (h : FrameOf next e frame) : e.sequence = next := by
  have hread := h []
  unfold readFrame at hread
  split at hread
  · simp at hread
  · split at hread
    · simp at hread
    · split at hread
      · simp at hread
      · next hopen =>
          obtain ⟨-, rfl, -⟩ := FrameReading.whole.inj hread
          simp only [openFrame, bind, Except.bind, pure, Except.pure, throw, throwThe,
            MonadExceptOf.throw, ite_error_eq_ok] at hopen
          obtain ⟨-, hsequence, hentry⟩ := hopen
          split at hentry
          · simp at hentry
          · obtain ⟨hinner, hentry⟩ := ite_error_eq_ok.1 hentry
            obtain rfl := Except.ok.inj hentry
            exact (not_not.1 hinner).trans (not_not.1 hsequence)

end FrameOf

/-! ## Frames one after the other -/

/-- Some bytes are the frames of entries, the first of which is expected under the given number. -/
inductive FramesOf : (next : Nat) → List Entry → Bytes → Prop
  | nil {next : Nat} : FramesOf next [] []
  | cons {next : Nat} {e : Entry} {entries : List Entry} {frame bytes : Bytes}
      (first : FrameOf next e frame) (others : FramesOf (next + 1) entries bytes) :
      FramesOf next (e :: entries) (frame ++ bytes)

namespace FramesOf

theorem append {more : List Entry} {bytes' : Bytes} (h : FramesOf next entries bytes)
    (hmore : FramesOf (next + entries.length) more bytes') :
    FramesOf next (entries ++ more) (bytes ++ bytes') := by
  induction h with
  | nil => exact hmore
  | @cons next e entries frame bytes first others ih =>
      rw [List.append_assoc]
      refine .cons first (ih ?_)
      rwa [List.length_cons, ← Nat.add_assoc, Nat.add_right_comm] at hmore

theorem map_sequence (h : FramesOf next entries bytes) :
    entries.map (·.sequence) = List.range' next entries.length := by
  induction h with
  | nil => rfl
  | cons first others ih => rw [List.map_cons, ih, first.sequence, List.length_cons,
      List.range'_succ]

theorem length_le (h : FramesOf next entries bytes) : entries.length ≤ bytes.length := by
  induction h with
  | nil => exact Nat.le_refl 0
  | cons first others ih =>
      have hpositive := first.length_pos
      rw [List.length_cons, List.length_append]
      omega

end FramesOf

/-! ## Reading frames -/

section

variable {fuel offset : Nat} {taken : List Entry}

theorem scanFrames_of_torn (htorn : readFrame (taken.length + 1) bytes = .torn) :
    scanFrames fuel offset taken bytes = .ok ⟨taken.reverse, offset, bytes.length⟩ := by
  cases bytes with
  | nil => simp [scanFrames]
  | cons b bytes =>
      cases fuel with
      | zero => simp [scanFrames]
      | succ fuel => simp [scanFrames, htorn]

theorem scanFrames_of_broken {fault : FrameFault}
    (hbroken : readFrame (taken.length + 1) bytes = .broken fault) :
    scanFrames (fuel + 1) offset taken bytes = .error (.frame offset fault) := by
  cases bytes with
  | nil => simp [readFrame_nil] at hbroken
  | cons b bytes => simp [scanFrames, hbroken]

theorem scanFrames_of_whole {length : Nat}
    (hwhole : readFrame (taken.length + 1) bytes = .whole length e rest) :
    scanFrames (fuel + 1) offset taken bytes =
      scanFrames fuel (offset + length) (e :: taken) rest := by
  cases bytes with
  | nil => simp [readFrame_nil] at hwhole
  | cons b bytes => simp [scanFrames, hwhole]

/-- Frames are read, and reading goes on behind them. -/
theorem FramesOf.scanFrames_append (h : FramesOf (taken.length + 1) entries bytes) (rest : Bytes) :
    scanFrames (entries.length + fuel) offset taken (bytes ++ rest) =
      scanFrames fuel (offset + bytes.length) (entries.reverse ++ taken) rest := by
  generalize hnext : taken.length + 1 = next at h
  induction h generalizing offset taken with
  | nil => simp
  | @cons next e entries frame bytes first others ih =>
      subst hnext
      have hfuel : (e :: entries).length + fuel = entries.length + fuel + 1 := by
        rw [List.length_cons]
        omega
      rw [hfuel, List.append_assoc, scanFrames_of_whole (first _), ih rfl]
      simp [Nat.add_assoc]

/-- What is read was in frames, and only a torn tail follows them. -/
theorem exists_framesOf_of_scanFrames (hfuel : bytes.length ≤ fuel)
    (h : scanFrames fuel offset taken bytes = .ok contents) :
    ∃ entries front tail, bytes = front ++ tail ∧ FramesOf (taken.length + 1) entries front ∧
      readFrame (taken.length + entries.length + 1) tail = .torn ∧
      contents = ⟨taken.reverse ++ entries, offset + front.length, tail.length⟩ := by
  induction fuel generalizing offset taken bytes with
  | zero =>
      obtain rfl := List.eq_nil_of_length_eq_zero (Nat.le_zero.1 hfuel)
      rw [scanFrames_of_torn (readFrame_nil _)] at h
      obtain rfl := Except.ok.inj h
      exact ⟨[], [], [], rfl, .nil, readFrame_nil _, by simp⟩
  | succ fuel ih =>
      cases hread : readFrame (taken.length + 1) bytes with
      | torn =>
          rw [scanFrames_of_torn hread] at h
          obtain rfl := Except.ok.inj h
          exact ⟨[], [], bytes, rfl, .nil, hread, by simp⟩
      | broken fault =>
          rw [scanFrames_of_broken hread] at h
          simp at h
      | whole length e behind =>
          rw [scanFrames_of_whole hread] at h
          obtain ⟨frame, rfl, rfl, hframe⟩ := exists_frameOf_of_readFrame hread
          have hpositive := hframe.length_pos
          rw [List.length_append] at hfuel
          obtain ⟨entries, front, tail, rfl, hframes, htail, rfl⟩ := ih (by omega) h
          refine ⟨e :: entries, frame ++ front, tail, (List.append_assoc ..).symm,
            .cons hframe hframes, ?_, ?_⟩
          · have hcount : (e :: taken).length + entries.length =
                taken.length + (e :: entries).length := by
              rw [List.length_cons, List.length_cons]
              omega
            rw [← hcount]
            exact htail
          · simp [Nat.add_assoc]

end

/-! ## Whole files -/

/-- The last eight bytes of a header are not looked at, and nothing behind it is. -/
theorem checkHeader_append {header : Bytes} (hlength : header.length = journalHeaderLength)
    (rest : Bytes) : checkHeader (header ++ rest) = checkHeader header := by
  have hlong : ¬ (header ++ rest).length < journalHeaderLength := by
    rw [List.length_append, hlength]
    omega
  have hsame : ¬ header.length < journalHeaderLength := Nat.not_lt.2 (Nat.le_of_eq hlength.symm)
  rw [journalHeaderLength] at hlength
  have hformat : (header ++ rest).take 4 = header.take 4 :=
    List.take_append_of_le_length (by omega)
  have hprotocol : ((header ++ rest).drop 4).take 4 = (header.drop 4).take 4 := by
    rw [List.drop_append_of_le_length (by omega),
      List.take_append_of_le_length (by rw [List.length_drop]; omega)]
  simp only [checkHeader, if_neg hlong, if_neg hsame, hformat, hprotocol]

theorem le_length_of_checkHeader (h : checkHeader bytes = .ok ()) :
    journalHeaderLength ≤ bytes.length := by
  by_contra hshort
  simp [checkHeader, Nat.not_le.1 hshort] at h

/-- A file that ends within its header is not read. -/
theorem scan_of_short (hshort : bytes.length < journalHeaderLength) :
    scan bytes = .error (.header (.tooShort bytes.length)) := by
  simp only [scan, checkHeader, if_pos hshort]

/-- A header and frames are read, whatever follows them, and reading goes on there. -/
theorem scan_append {header frames : Bytes} (hlength : header.length = journalHeaderLength)
    (hheader : checkHeader header = .ok ()) (hframes : FramesOf 1 entries frames) (rest : Bytes) :
    ∃ fuel, scan (header ++ frames ++ rest) =
      scanFrames (fuel + 1) (header ++ frames).length entries.reverse rest := by
  have hall : checkHeader (header ++ frames ++ rest) = .ok () := by
    rw [List.append_assoc, checkHeader_append hlength, hheader]
  have hdrop : (header ++ frames ++ rest).drop journalHeaderLength = frames ++ rest := by
    rw [List.append_assoc, List.drop_left' hlength]
  obtain ⟨fuel, hfuel⟩ : ∃ fuel, (header ++ frames ++ rest).length =
      entries.length + (fuel + 1) := by
    have hcount := hframes.length_le
    refine ⟨(header ++ frames ++ rest).length - entries.length - 1, ?_⟩
    rw [List.length_append, List.length_append, hlength, journalHeaderLength]
    omega
  have hfirst : FramesOf (([] : List Entry).length + 1) entries frames := hframes
  refine ⟨fuel, ?_⟩
  rw [scan, hall]
  simp only
  rw [hdrop, hfuel, hfirst.scanFrames_append, List.append_nil, List.length_append, hlength]

/-- A header, the frames of the entries and a tail that holds no whole frame: the parts of a file
that is read with these contents. -/
structure JournalContents.MadeOf (contents : JournalContents) (header frames tail : Bytes) :
    Prop where
  length_header : header.length = journalHeaderLength
  checkHeader_eq : checkHeader header = .ok ()
  framesOf : FramesOf 1 contents.entries frames
  torn : readFrame (contents.entries.length + 1) tail = .torn
  validLength_eq : contents.validLength = (header ++ frames).length
  tornTail_eq : contents.tornTail = tail.length

/-- A file can be read exactly if it has these parts. -/
theorem scan_eq_ok_iff :
    scan bytes = .ok contents ↔
      ∃ header frames tail, bytes = header ++ frames ++ tail ∧
        contents.MadeOf header frames tail := by
  constructor
  · intro h
    unfold scan at h
    split at h
    · simp at h
    · next hheader =>
        have hlength : (bytes.take journalHeaderLength).length = journalHeaderLength :=
          List.length_take_of_le (le_length_of_checkHeader hheader)
        have hparts := List.take_append_drop journalHeaderLength bytes
        have hfuel : (bytes.drop journalHeaderLength).length ≤ bytes.length := by
          rw [List.length_drop]
          exact Nat.sub_le _ _
        obtain ⟨entries, frames, tail, hdrop, hframes, htorn, rfl⟩ :=
          exists_framesOf_of_scanFrames hfuel h
        refine ⟨bytes.take journalHeaderLength, frames, tail, ?_, hlength, ?_, hframes, ?_, ?_,
          rfl⟩
        · rw [List.append_assoc, ← hdrop, hparts]
        · rw [← hparts, checkHeader_append hlength] at hheader
          exact hheader
        · rwa [List.length_nil, Nat.zero_add] at htorn
        · rw [List.length_append, hlength]
  · rintro ⟨header, frames, tail, rfl, h⟩
    obtain ⟨fuel, hscan⟩ := scan_append h.length_header h.checkHeader_eq h.framesOf tail
    rw [hscan, scanFrames_of_torn (by rw [List.length_reverse]; exact h.torn),
      List.reverse_reverse, ← h.validLength_eq, ← h.tornTail_eq]

theorem checkHeader_of_scan (h : scan bytes = .ok contents) : checkHeader bytes = .ok () := by
  obtain ⟨header, frames, tail, rfl, hparts⟩ := scan_eq_ok_iff.1 h
  rw [List.append_assoc, checkHeader_append hparts.length_header]
  exact hparts.checkHeader_eq

theorem length_of_scan (h : scan bytes = .ok contents) :
    contents.validLength + contents.tornTail = bytes.length := by
  obtain ⟨header, frames, tail, rfl, hparts⟩ := scan_eq_ok_iff.1 h
  rw [hparts.validLength_eq, hparts.tornTail_eq, ← List.length_append]

/-- The entries of a file that can be read are numbered from 1 on. -/
theorem map_sequence_of_scan (h : scan bytes = .ok contents) :
    contents.entries.map (·.sequence) = List.range' 1 contents.entries.length := by
  obtain ⟨header, frames, tail, rfl, hparts⟩ := scan_eq_ok_iff.1 h
  exact hparts.framesOf.map_sequence

end Arbiter
