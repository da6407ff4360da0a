import Arbiter.Proofs.Capacity
import Arbiter.Proofs.WholeFrames

/-!
# Reading journal files back

The file of some entries is read back as those entries.  What follows them is a torn tail as long
as it does not hold a whole frame: in particular, the beginning of the frame of another entry.  An
unacceptable frame behind them keeps the whole file from being read.
-/

namespace Arbiter

theorem takeBytes_eq_none_iff {n : Nat} {bytes : Bytes} :
    takeBytes n bytes = none ↔ bytes.length < n := by
  constructor
  · intro hnone
    by_contra hlong
    have hsome := takeBytes_append (bytes.take n) (bytes.drop n)
    rw [List.take_append_drop, List.length_take, Nat.min_eq_left (Nat.not_lt.1 hlong)] at hsome
    simp [hnone] at hsome
  · intro hshort
    cases hsome : takeBytes n bytes with
    | none => rfl
    | some pair =>
        obtain ⟨hlength, hbytes⟩ := takeBytes_eq_some.1 hsome
        have := congrArg List.length hbytes
        rw [List.length_append] at this
        omega

theorem Crc.crc32_lt (bytes : Bytes) : Crc.crc32 bytes < capacity 4 :=
  (~~~ (Crc.run Crc.poly32 (BitVec.allOnes 32) bytes)).isLt

/-! ## Frames -/

namespace Entry

variable {e : Entry}

/-- The head of the frame of an entry. -/
def frameHead (e : Entry) : Bytes :=
  leBytes 8 e.sequence ++ leBytes 4 e.encode.length ++ leBytes 4 (Crc.crc32 e.encode)

theorem frame_eq (e : Entry) : e.frame = e.frameHead ++ e.encode := rfl

@[simp]
theorem length_frameHead (e : Entry) : e.frameHead.length = frameHeadLength := by
  simp [frameHead, frameHeadLength]

theorem length_frame (e : Entry) : e.frame.length = frameHeadLength + e.encode.length := by
  rw [frame_eq, List.length_append, length_frameHead]

theorem Storable.leNat_sequence (h : e.Storable) :
    leNat (e.frameHead.take 8) = e.sequence := by
  have htake : e.frameHead.take 8 = leBytes 8 e.sequence := by
    simp [frameHead]
  rw [htake, leNat_leBytes h.sequence]

theorem Storable.leNat_length (h : e.Storable) :
    leNat ((e.frameHead.drop 8).take 4) = e.encode.length := by
  have htake : (e.frameHead.drop 8).take 4 = leBytes 4 e.encode.length := by
    simp [frameHead]
  rw [htake, leNat_leBytes h.short]

theorem leNat_check (e : Entry) : leNat (e.frameHead.drop 12) = Crc.crc32 e.encode := by
  have hdrop : e.frameHead.drop 12 = leBytes 4 (Crc.crc32 e.encode) := by
    simp [frameHead, List.drop_append]
  rw [hdrop, leNat_leBytes (Crc.crc32_lt _)]

theorem Storable.openFrame_eq (h : e.Storable) :
    openFrame e.sequence e.sequence (Crc.crc32 e.encode) e.encode = .ok e := by
  simp [openFrame, Entry.decode_encode h.fits, pure, Except.pure]

/-- The frame of an entry is read back, whatever follows it. -/
theorem Storable.readFrame_frame (h : e.Storable) (rest : Bytes) :
    readFrame e.sequence (e.frame ++ rest) = .whole e.frame.length e rest := by
  have hhead := takeBytes_append e.frameHead (e.encode ++ rest)
  rw [length_frameHead, ← List.append_assoc, ← frame_eq] at hhead
  have hpayload := takeBytes_append e.encode rest
  simp only [readFrame, hhead, h.leNat_length, hpayload, h.leNat_sequence, leNat_check,
    h.openFrame_eq, length_frame]

/-- The beginning of a frame is a torn tail. -/
theorem Storable.readFrame_torn (h : e.Storable) {tail : Bytes} (hpart : tail <+: e.frame)
    (hshort : tail.length < e.frame.length) (expected : Nat) :
    readFrame expected tail = .torn := by
  unfold readFrame
  rcases Nat.lt_or_ge tail.length frameHeadLength with hhead | hhead
  · rw [takeBytes_eq_none_iff.2 hhead]
  · obtain ⟨payload, rfl⟩ : ∃ payload, tail = e.frameHead ++ payload := by
      have hle : e.frameHead.length ≤ tail.length := by
        rw [length_frameHead]
        exact hhead
      obtain ⟨payload, hpayload⟩ :=
        List.prefix_of_prefix_length_le (List.prefix_append e.frameHead e.encode) hpart hle
      exact ⟨payload, hpayload.symm⟩
    have htake := takeBytes_append e.frameHead payload
    rw [length_frameHead] at htake
    have hpayload : takeBytes e.encode.length payload = none := by
      rw [takeBytes_eq_none_iff]
      rw [length_frame, List.length_append, length_frameHead] at hshort
      omega
    simp only [htake, h.leNat_length, hpayload]

end Entry

/-! ## Files -/

theorem journalFile_append (front back : List Entry) :
    journalFile (front ++ back) = journalFile front ++ back.flatMap Entry.frame := by
  simp only [journalFile, List.flatMap_append, List.append_assoc]

theorem journalFile_isPrefix {front entries : List Entry} (h : front <+: entries) :
    journalFile front <+: journalFile entries := by
  obtain ⟨back, rfl⟩ := h
  rw [journalFile_append]
  exact List.prefix_append _ _

theorem journalFile_concat (entries : List Entry) (e : Entry) :
    journalFile (entries ++ [e]) = journalFile entries ++ e.frame := by
  simp [journalFile]

/-- One more entry goes on with the numbering. -/
theorem map_sequence_concat {entries : List Entry} {e : Entry}
    (hnumbers : entries.map (·.sequence) = List.range' 1 entries.length)
    (he : e.sequence = entries.length + 1) :
    (entries ++ [e]).map (·.sequence) = List.range' 1 (entries ++ [e]).length := by
  rw [List.map_append, hnumbers, List.length_append, List.length_singleton, List.range'_concat]
  simp [he, Nat.add_comm]

/-- Both parts of numbered entries are numbered. -/
theorem map_sequence_append {front back : List Entry}
    (hnumbers : (front ++ back).map (·.sequence) = List.range' 1 (front ++ back).length) :
    front.map (·.sequence) = List.range' 1 front.length ∧
      back.map (·.sequence) = List.range' (front.length + 1) back.length := by
  rw [List.map_append, List.length_append, ← List.range'_append_1, Nat.add_comm 1] at hnumbers
  exact List.append_inj hnumbers (by simp)

theorem length_journalHeader : journalHeader.length = journalHeaderLength := by
  simp [journalHeader, journalHeaderLength]

theorem length_journalFile (entries : List Entry) :
    (journalFile entries).length =
      journalHeaderLength + (entries.flatMap Entry.frame).length := by
  rw [journalFile, List.length_append, length_journalHeader]

/-- Entries that go on with the numbering are read back from their frames. -/
theorem framesOf_flatMap_frame {next : Nat} {entries : List Entry}
    (hstorable : ∀ e ∈ entries, e.Storable)
    (hnumbers : entries.map (·.sequence) = List.range' next entries.length) :
    FramesOf next entries (entries.flatMap Entry.frame) := by
  induction entries generalizing next with
  | nil => exact .nil
  | cons e entries ih =>
      rw [List.forall_mem_cons] at hstorable
      obtain ⟨rfl, hnumbers⟩ : e.sequence = next ∧
          entries.map (·.sequence) = List.range' (next + 1) entries.length := by
        simpa [List.range'_succ] using hnumbers
      exact .cons hstorable.1.readFrame_frame (ih hstorable.2 hnumbers)

/-- A whole file is read up to the end of its frames, and reading goes on behind them. -/
theorem scan_journalFile_rest {entries : List Entry} (hstorable : ∀ e ∈ entries, e.Storable)
    (hnumbers : entries.map (·.sequence) = List.range' 1 entries.length) (rest : Bytes) :
    ∃ fuel, scan (journalFile entries ++ rest) =
      scanFrames (fuel + 1) (journalFile entries).length entries.reverse rest :=
  scan_append length_journalHeader (by decide) (framesOf_flatMap_frame hstorable hnumbers) rest

/-- The file of some entries is read back, with a torn tail behind it if there is one. -/
theorem scan_journalFile_append {entries : List Entry} {tail : Bytes}
    (hstorable : ∀ e ∈ entries, e.Storable)
    (hnumbers : entries.map (·.sequence) = List.range' 1 entries.length)
    (htail : readFrame (entries.length + 1) tail = .torn) :
    scan (journalFile entries ++ tail) =
      .ok ⟨entries, (journalFile entries).length, tail.length⟩ := by
  obtain ⟨fuel, hscan⟩ := scan_journalFile_rest hstorable hnumbers tail
  rw [hscan, scanFrames_of_torn (by rwa [List.length_reverse]), List.reverse_reverse]

/-- Three nodes that registered one after the other. -/
def threeRegistered : List Entry :=
  [⟨1, .ofLow 1, .registerNode "s"⟩, ⟨2, .ofLow 2, .registerNode "s"⟩,
    ⟨3, .ofLow 3, .registerNode "s"⟩]

example : scan (journalFile threeRegistered ++ [4, 0]) = .ok ⟨threeRegistered, 136, 2⟩ := by
  decide +kernel

/-- A file in which something unacceptable follows some entries is not read at all. -/
theorem scan_journalFile_broken {entries : List Entry} {rest : Bytes} {fault : FrameFault}
    (hstorable : ∀ e ∈ entries, e.Storable)
    (hnumbers : entries.map (·.sequence) = List.range' 1 entries.length)
    (hrest : readFrame (entries.length + 1) rest = .broken fault) :
    scan (journalFile entries ++ rest) = .error (.frame (journalFile entries).length fault) := by
  obtain ⟨fuel, hscan⟩ := scan_journalFile_rest hstorable hnumbers rest
  rw [hscan, scanFrames_of_broken (by rwa [List.length_reverse])]

theorem scan_journalFile {entries : List Entry} (hstorable : ∀ e ∈ entries, e.Storable)
    (hnumbers : entries.map (·.sequence) = List.range' 1 entries.length) :
    scan (journalFile entries) = .ok ⟨entries, (journalFile entries).length, 0⟩ := by
  simpa using scan_journalFile_append hstorable hnumbers (readFrame_nil _)

end Arbiter
