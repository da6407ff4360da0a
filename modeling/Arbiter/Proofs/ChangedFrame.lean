import Arbiter.Proofs.Checksum
import Arbiter.Proofs.Delimiting
import Arbiter.Proofs.JournalImage

/-!
# Frames with a changed byte

A frame is torn exactly when the file ends before the length that the frame announces.  Where a
single byte of a frame was changed, the frame is not acceptable, unless the change is in that length
and the frame now seems to be torn.  A wrong length that still ends within the file is noticed even
if the checksum happens to fit: no other part of the file decodes as an entry on its own.
-/

namespace Arbiter

/-- The length that the frame at the front announces for its entry. -/
def announcedLength (bytes : Bytes) : Nat :=
  leNat ((bytes.drop 8).take 4)

/-! ## Torn frames -/

theorem announcedLength_append {head : Bytes} (hhead : head.length = frameHeadLength)
    (behind : Bytes) : announcedLength (head ++ behind) = announcedLength head := by
  have hshort : 8 ≤ head.length ∧ 4 ≤ (head.drop 8).length := by
    rw [List.length_drop, hhead, frameHeadLength]
    omega
  rw [announcedLength, List.drop_append_of_le_length hshort.1,
    List.take_append_of_le_length hshort.2, announcedLength]

/-- A frame is torn if the file ends before its head does, or before the entry that the head
announces. -/
theorem readFrame_eq_torn_iff {expected : Nat} {bytes : Bytes} :
    readFrame expected bytes = .torn ↔
      bytes.length < frameHeadLength + announcedLength bytes := by
  unfold readFrame
  cases hhead : takeBytes frameHeadLength bytes with
  | none =>
      have hshort := takeBytes_eq_none_iff.1 hhead
      exact ⟨fun _ => by omega, fun _ => rfl⟩
  | some parts =>
      obtain ⟨head, behind⟩ := parts
      obtain ⟨hlength, rfl⟩ := takeBytes_eq_some.1 hhead
      have hannounced := announcedLength_append hlength behind
      rw [hannounced, List.length_append, hlength, Nat.add_lt_add_iff_left]
      simp only
      cases hpayload : takeBytes (leNat ((head.drop 8).take 4)) behind with
      | none => exact ⟨fun _ => takeBytes_eq_none_iff.1 hpayload, fun _ => rfl⟩
      | some parts =>
          obtain ⟨payload, rest⟩ := parts
          have hlong : ¬ behind.length < announcedLength head := by
            intro hshort
            rw [announcedLength, ← takeBytes_eq_none_iff, hpayload] at hshort
            simp at hshort
          constructor
          · intro htorn
            simp only at htorn
            split at htorn <;> simp at htorn
          · intro hshort
            exact absurd hshort hlong

/-! ## Frames that are not acceptable -/

theorem openFrame_of_checksum {check : Nat} {payload : Bytes} (hcheck : Crc.crc32 payload ≠ check)
    (expected sequence : Nat) :
    openFrame expected sequence check payload = .error .checksum := by
  simp [openFrame, hcheck, bind, Except.bind, throw, throwThe, MonadExceptOf.throw]

theorem openFrame_of_sequence {expected sequence check : Nat} {payload : Bytes}
    (hcheck : Crc.crc32 payload = check) (hsequence : sequence ≠ expected) :
    openFrame expected sequence check payload = .error (.sequence sequence expected) := by
  simp [openFrame, hcheck, hsequence, bind, Except.bind, throw, throwThe, MonadExceptOf.throw]

theorem openFrame_of_decode {expected sequence check : Nat} {payload : Bytes}
    (hdecode : ∀ e, Entry.decode payload ≠ .ok e) :
    ∃ fault, openFrame expected sequence check payload = .error fault := by
  by_cases hcheck : Crc.crc32 payload = check
  · by_cases hsequence : sequence = expected
    · cases hentry : Entry.decode payload with
      | error corruption =>
          refine ⟨.entry corruption, ?_⟩
          simp [openFrame, hcheck, hsequence, hentry, throw, throwThe, MonadExceptOf.throw]
      | ok e => exact absurd hentry (hdecode e)
    · exact ⟨_, openFrame_of_sequence hcheck hsequence⟩
  · exact ⟨_, openFrame_of_checksum hcheck _ _⟩

theorem readFrame_of_openFrame {expected : Nat} {sequence length check payload rest : Bytes}
    {fault : FrameFault} (hsequence : sequence.length = 8) (hlength : length.length = 4)
    (hcheck : check.length = 4) (hpayload : leNat length = payload.length)
    (hopen : openFrame expected (leNat sequence) (leNat check) payload = .error fault) :
    readFrame expected (sequence ++ (length ++ (check ++ (payload ++ rest)))) =
      .broken fault := by
  have hhead := takeBytes_append (sequence ++ (length ++ check)) (payload ++ rest)
  have hheadLength : (sequence ++ (length ++ check)).length = frameHeadLength := by
    simp [hsequence, hlength, hcheck, frameHeadLength]
  have htakeSequence : (sequence ++ (length ++ check)).take 8 = sequence :=
    List.take_left' hsequence
  have hdropSequence : (sequence ++ (length ++ check)).drop 8 = length ++ check :=
    List.drop_left' hsequence
  have hdropBoth : (sequence ++ (length ++ check)).drop 12 = check := by
    rw [← List.append_assoc]
    exact List.drop_left' (by simp [hsequence, hlength])
  rw [hheadLength] at hhead
  simp only [List.append_assoc] at hhead
  simp only [readFrame, hhead, htakeSequence, hdropSequence, hdropBoth, List.take_left' hlength,
    hpayload, takeBytes_append, hopen]

namespace Entry

variable {e e' : Entry}

/-- What starts like an entry and decodes as an entry is that entry. -/
theorem eq_encode_of_decode (hfits : codec.Fits e) {payload rest more : Bytes}
    (hparts : e.encode ++ rest = payload ++ more) (hdecode : decode payload = .ok e') :
    payload = e.encode := by
  obtain ⟨-, hpayload⟩ := Codec.eq_of_decode hfits hparts (decode_eq_ok_iff.1 hdecode)
  rwa [List.append_nil] at hpayload

/-- What a wrong length cuts out is not the entry, and so no entry at all. -/
theorem openFrame_of_length_ne (hfits : codec.Fits e) {rest : Bytes} {length : Nat}
    (hne : length ≠ e.encode.length) (hwithin : length ≤ (e.encode ++ rest).length)
    (expected sequence check : Nat) :
    ∃ payload more fault, e.encode ++ rest = payload ++ more ∧ payload.length = length ∧
      openFrame expected sequence check payload = .error fault := by
  have hparts := (List.take_append_drop length (e.encode ++ rest)).symm
  have hpayload := List.length_take_of_le hwithin
  have hdecode : ∀ e', decode ((e.encode ++ rest).take length) ≠ .ok e' := by
    intro e' hentry
    rw [eq_encode_of_decode hfits hparts hentry] at hpayload
    exact hne hpayload.symm
  obtain ⟨fault, hopen⟩ := openFrame_of_decode hdecode
  exact ⟨_, _, fault, hparts, hpayload, hopen⟩

/-- The fields in the head of the frame of an entry. -/
structure HasHead (e : Entry) (sequence length check : Bytes) : Prop where
  frame_eq : e.frame = sequence ++ (length ++ (check ++ e.encode))
  length_sequence : sequence.length = 8
  leNat_sequence : leNat sequence = e.sequence
  length_length : length.length = 4
  leNat_length : leNat length = e.encode.length
  length_check : check.length = 4
  leNat_check : leNat check = Crc.crc32 e.encode

theorem Storable.exists_head (h : e.Storable) :
    ∃ sequence length check, e.HasHead sequence length check := by
  refine ⟨_, _, _, ?_, length_leBytes 8 _, leNat_leBytes h.sequence, length_leBytes 4 _,
    leNat_leBytes h.short, length_leBytes 4 _, leNat_leBytes (Crc.crc32_lt _)⟩
  simp only [frame, encodeFrame, List.append_assoc]

namespace HasHead

variable {place : Nat} {sequence length check field : Bytes}

theorem readFrame_of_sequence (h : e.HasHead sequence length check)
    (hchanged : ChangedAt place sequence field) (rest : Bytes) :
    leNat field ≠ e.sequence ∧
      readFrame e.sequence (field ++ (length ++ (check ++ (e.encode ++ rest)))) =
        .broken (.sequence (leNat field) e.sequence) := by
  have hne : leNat field ≠ e.sequence := by
    rw [← h.leNat_sequence]
    exact hchanged.leNat_ne
  have hfield : field.length = 8 := hchanged.length_eq.trans h.length_sequence
  exact ⟨hne, readFrame_of_openFrame hfield h.length_length h.length_check h.leNat_length
    (openFrame_of_sequence h.leNat_check.symm hne)⟩

/-- A length within the file cuts out something that is no entry. -/
theorem readFrame_of_length (h : e.HasHead sequence length check) (hfits : codec.Fits e)
    (hchanged : ChangedAt place length field) (rest : Bytes) :
    (∃ fault, readFrame e.sequence (sequence ++ (field ++ (check ++ (e.encode ++ rest)))) =
        .broken fault) ∨
      readFrame e.sequence (sequence ++ (field ++ (check ++ (e.encode ++ rest)))) = .torn := by
  have hne : leNat field ≠ e.encode.length := by
    rw [← h.leNat_length]
    exact hchanged.leNat_ne
  have hfield : field.length = 4 := hchanged.length_eq.trans h.length_length
  rcases Nat.lt_or_ge (e.encode ++ rest).length (leNat field) with hbeyond | hwithin
  · refine .inr (readFrame_eq_torn_iff.2 ?_)
    rw [announcedLength, List.drop_left' h.length_sequence, List.take_left' hfield]
    simp only [List.length_append, h.length_sequence, hfield, h.length_check, frameHeadLength]
      at hbeyond ⊢
    omega
  · obtain ⟨payload, more, fault, hparts, hpayload, hopen⟩ :=
      openFrame_of_length_ne hfits hne hwithin e.sequence (leNat sequence) (leNat check)
    rw [hparts]
    exact .inl ⟨fault,
      readFrame_of_openFrame h.length_sequence hfield h.length_check hpayload.symm hopen⟩

theorem readFrame_of_check (h : e.HasHead sequence length check)
    (hchanged : ChangedAt place check field) (rest : Bytes) :
    readFrame e.sequence (sequence ++ (length ++ (field ++ (e.encode ++ rest)))) =
      .broken .checksum := by
  have hne : Crc.crc32 e.encode ≠ leNat field := by
    rw [← h.leNat_check]
    exact hchanged.leNat_ne.symm
  have hfield : field.length = 4 := hchanged.length_eq.trans h.length_check
  exact readFrame_of_openFrame h.length_sequence h.length_length hfield h.leNat_length
    (openFrame_of_checksum hne _ _)

theorem readFrame_of_entry (h : e.HasHead sequence length check)
    (hchanged : ChangedAt place e.encode field) (rest : Bytes) :
    readFrame e.sequence (sequence ++ (length ++ (check ++ (field ++ rest)))) =
      .broken .checksum := by
  have hne : Crc.crc32 field ≠ leNat check := by
    rw [h.leNat_check]
    exact Crc.crc32_ne_of_changedAt hchanged
  have hfield : leNat length = field.length := h.leNat_length.trans hchanged.length_eq.symm
  exact readFrame_of_openFrame h.length_sequence h.length_length h.length_check hfield
    (openFrame_of_checksum hne _ _)

end HasHead

/-- A frame in front of other bytes that had one of its bytes changed is not acceptable for its
sequence or for its check, unless it is its length that was changed. -/
theorem Storable.readFrame_changedAt (he : e.Storable) {place : Nat} {rest bytes : Bytes}
    (hplace : place < e.frame.length) (hchanged : ChangedAt place (e.frame ++ rest) bytes) :
    (place < 8 ∧ ∃ found, found ≠ e.sequence ∧
        readFrame e.sequence bytes = .broken (.sequence found e.sequence)) ∨
      ((8 ≤ place ∧ place < 12) ∧
        ((∃ fault, readFrame e.sequence bytes = .broken fault) ∨
          readFrame e.sequence bytes = .torn)) ∨
      (12 ≤ place ∧ readFrame e.sequence bytes = .broken .checksum) := by
  obtain ⟨sequence, length, check, h⟩ := he.exists_head
  rw [length_frame, frameHeadLength] at hplace
  rw [h.frame_eq] at hchanged
  simp only [List.append_assoc] at hchanged
  -- The fields are passed one after the other until the changed byte lies in the next one.
  rcases hchanged.append_cases with ⟨hin, field, rfl, hfield⟩ | ⟨hsequence, _, rfl, hbehind⟩
  · rw [h.length_sequence] at hin
    exact .inl ⟨hin, _, h.readFrame_of_sequence hfield rest⟩
  rw [h.length_sequence] at hsequence hbehind
  rcases hbehind.append_cases with ⟨hin, field, rfl, hfield⟩ | ⟨hlength, _, rfl, hafter⟩
  · rw [h.length_length] at hin
    exact .inr (.inl ⟨⟨hsequence, by omega⟩, h.readFrame_of_length he.fits hfield rest⟩)
  rw [h.length_length] at hlength hafter
  have hlater : 12 ≤ place := by omega
  rcases hafter.append_cases with ⟨-, field, rfl, hfield⟩ | ⟨hcheck, _, rfl, hentry⟩
  · exact .inr (.inr ⟨hlater, h.readFrame_of_check hfield rest⟩)
  rw [h.length_check] at hcheck hentry
  obtain ⟨field, rfl, hfield⟩ := hentry.of_append_left (by omega)
  exact .inr (.inr ⟨hlater, h.readFrame_of_entry hfield rest⟩)

/-- A frame with a changed byte is not acceptable, or its length was changed and it seems to be
torn. -/
theorem Storable.broken_or_torn_of_changedAt (he : e.Storable) {place : Nat} {rest bytes : Bytes}
    (hplace : place < e.frame.length) (hchanged : ChangedAt place (e.frame ++ rest) bytes) :
    (∃ fault, readFrame e.sequence bytes = .broken fault) ∨
      readFrame e.sequence bytes = .torn ∧ 8 ≤ place ∧ place < 12 := by
  rcases he.readFrame_changedAt hplace hchanged with
    ⟨-, found, -, hbroken⟩ | ⟨hlength, hbroken | htorn⟩ | ⟨-, hbroken⟩
  · exact .inl ⟨_, hbroken⟩
  · exact .inl hbroken
  · exact .inr ⟨htorn, hlength⟩
  · exact .inl ⟨_, hbroken⟩

end Entry

end Arbiter
