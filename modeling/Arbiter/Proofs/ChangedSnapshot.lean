import Arbiter.Proofs.Checksum
import Arbiter.Proofs.SavedState

/-!
# Snapshots with a changed byte

The check of a snapshot is over everything before it, so a single changed byte leaves it in
disagreement with the rest, wherever the byte is.  The mark, the format and the length are compared
before the check is, and a change in one of them is reported as what it is.  The state in the body
is never looked at.
-/

namespace Arbiter.Snapshot

variable {s : State} {place : Nat} {bytes : Bytes}

/-! ## The check -/

/-- The check does not fit after any change of a single byte. -/
theorem computedCheck_ne_of_changedAt (h : ChangedAt place (encode s) bytes) :
    computedCheck bytes ≠ storedCheck bytes := by
  have htrailer : (leBytes 8 (Crc.crc64 (framed s))).length = trailerLength := length_leBytes 8 _
  have hstored := leNat_leBytes (Crc.crc64_lt (framed s))
  rw [encode_eq] at h
  rcases h.append_cases with ⟨-, front, rfl, hfront⟩ | ⟨-, back, rfl, hback⟩
  · rw [computedCheck_append htrailer, storedCheck_append htrailer, hstored]
    exact Crc.crc64_ne_of_changedAt hfront
  · have hlength : back.length = trailerLength := hback.length_eq.trans htrailer
    rw [computedCheck_append hlength, storedCheck_append hlength]
    intro heq
    exact hback.leNat_ne (heq.symm.trans hstored.symm)

/-- Where the check does not fit, the length is all that is compared before it is reported. -/
theorem decode_of_computedCheck_ne {header : Header} (hheader : readHeader bytes = .ok header)
    (hcheck : computedCheck bytes ≠ storedCheck bytes) :
    decode bytes = .error (
      if capacity 8 ≤ header.bodyLength + (headerLength + trailerLength) then .lengthOverflow
      else if bytes.length ≠ header.bodyLength + (headerLength + trailerLength) then
        .lengthMismatch bytes.length (header.bodyLength + (headerLength + trailerLength))
      else .checksumMismatch (storedCheck bytes) (computedCheck bytes)) := by
  simp only [decode, hheader, bind, Except.bind, if_pos hcheck]
  split
  · rfl
  split
  · rfl
  · rfl

/-! ## The header -/

/-- The header of a snapshot with a changed byte: the mark or the format is refused, or else the
length is another one exactly if the byte belongs to it. -/
theorem readHeader_changedAt (h : ChangedAt place (encode s) bytes) :
    (place < 4 ∧ readHeader bytes = .error .badMagic) ∨
      ((4 ≤ place ∧ place < 8) ∧ ∃ found, found ≠ format ∧
        readHeader bytes = .error (.unsupportedFormat found)) ∨
      ((16 ≤ place ∧ place < 24) ∧ ∃ header, readHeader bytes = .ok header ∧
        header.bodyLength ≠ leNat (leBytes 8 s.encode.length)) ∨
      ((8 ≤ place ∧ place < 16 ∨ 24 ≤ place) ∧ ∃ header, readHeader bytes = .ok header ∧
        header.bodyLength = leNat (leBytes 8 s.encode.length)) := by
  have hmagic : magic.length = 4 := rfl
  have hform := length_leBytes 4 format
  have hversion := length_leBytes 8 s.version
  have hlength := length_leBytes 8 s.encode.length
  have hrest : trailerLength ≤ (s.encode ++ leBytes 8 (Crc.crc64 (framed s))).length := by
    simp [trailerLength]
  rw [encode_fields] at h
  -- The fields are passed one after the other until the changed byte lies in the next one.
  rcases h.append_cases with ⟨hin, field, rfl, hfield⟩ | ⟨hmark, _, rfl, hbehindMark⟩
  · have hheader :=
      readHeader_fields (hfield.length_eq.trans hmagic) hform hversion hlength hrest
    rw [if_pos hfield.ne] at hheader
    exact .inl ⟨hin, hheader⟩
  rw [hmagic] at hmark hbehindMark
  rcases hbehindMark.append_cases with ⟨hin, field, rfl, hfield⟩ | ⟨hformat, _, rfl, hbehindForm⟩
  · have hone : leNat (leBytes 4 format) = format := leNat_leBytes (by decide)
    have hne : leNat field ≠ format := hone ▸ hfield.leNat_ne
    have hheader :=
      readHeader_fields hmagic (hfield.length_eq.trans hform) hversion hlength hrest
    rw [if_neg (not_not.2 rfl), if_pos hne] at hheader
    rw [hform] at hin
    exact .inr (.inl ⟨⟨hmark, by omega⟩, _, hne, hheader⟩)
  rw [hform] at hformat hbehindForm
  rcases hbehindForm.append_cases with ⟨hin, field, rfl, hfield⟩ | ⟨hpast, _, rfl, hbehindVersion⟩
  · have hheader := readHeader_intact (hfield.length_eq.trans hversion) hlength hrest
    rw [hversion] at hin
    exact .inr (.inr (.inr ⟨.inl ⟨by omega, by omega⟩, _, hheader, rfl⟩))
  rw [hversion] at hpast hbehindVersion
  rcases hbehindVersion.append_cases with ⟨hin, field, rfl, hfield⟩ | ⟨hend, _, rfl, hbehindLength⟩
  · have hheader := readHeader_intact hversion (hfield.length_eq.trans hlength) hrest
    rw [hlength] at hin
    exact .inr (.inr (.inl ⟨⟨by omega, by omega⟩, _, hheader, hfield.leNat_ne⟩))
  · have hheader := readHeader_intact hversion hlength (hbehindLength.length_eq.symm ▸ hrest)
    rw [hlength] at hend
    exact .inr (.inr (.inr ⟨.inr (by omega), _, hheader, rfl⟩))

/-! ## Reading -/

/-- What a change of the byte at a place of a snapshot is reported as. -/
def ReportedAt (place : Nat) : Corruption → Prop
  | .badMagic => place < 4
  | .unsupportedFormat found => (4 ≤ place ∧ place < 8) ∧ found ≠ format
  | .lengthOverflow => 16 ≤ place ∧ place < 24
  | .lengthMismatch found announced => (16 ≤ place ∧ place < 24) ∧ found ≠ announced
  | .checksumMismatch stored computed =>
    (8 ≤ place ∧ place < 16 ∨ 24 ≤ place) ∧ stored ≠ computed
  | _ => False

/-- A snapshot in which a single byte was changed is not read, whatever state it is of and wherever
the byte is.  As long as the length of the snapshot is a number of sixty-four bits, a change of the
mark, the format or the length is reported as such and any other one as a wrong checksum. -/
theorem changed_snapshot_is_refused (h : ChangedAt place (encode s) bytes) :
    ∃ corruption, decode bytes = .error corruption ∧
      ((encode s).length < capacity 8 → ReportedAt place corruption) := by
  have hcheck := computedCheck_ne_of_changedAt h
  have hbytes : bytes.length = s.encode.length + (headerLength + trailerLength) :=
    h.length_eq.trans (length_encode s)
  have hbody : (encode s).length < capacity 8 →
      leNat (leBytes 8 s.encode.length) = s.encode.length := by
    intro hroom
    rw [length_encode] at hroom
    exact leNat_leBytes (by omega)
  rcases readHeader_changedAt h with
    ⟨hin, hheader⟩ | ⟨hin, found, hne, hheader⟩ | ⟨hin, header, hheader, hlength⟩ |
      ⟨hin, header, hheader, hlength⟩
  · exact ⟨_, decode_of_readHeader hheader, fun _ => hin⟩
  · exact ⟨_, decode_of_readHeader hheader, fun _ => ⟨hin, hne⟩⟩
  · refine ⟨_, decode_of_computedCheck_ne hheader hcheck, fun hroom => ?_⟩
    have hdiffers : bytes.length ≠ header.bodyLength + (headerLength + trailerLength) := by
      rw [hbody hroom] at hlength
      omega
    rw [if_pos hdiffers]
    split
    · exact hin
    · exact ⟨hin, hdiffers⟩
  · refine ⟨_, decode_of_computedCheck_ne hheader hcheck, fun hroom => ?_⟩
    have hsame := hlength.trans (hbody hroom)
    rw [length_encode] at hroom
    rw [hsame, if_neg (Nat.not_le.2 hroom), if_neg (not_not.2 hbytes)]
    exact ⟨hin, hcheck.symm⟩

/-- The version is lowered from 9 to 5, in the header alone and in the body alone. -/
theorem changed_snapshot_is_refused_of_electedEvent :
    (encode ((State.initial {}).run electedEvent))[8]? = some 9 ∧
      (∃ corruption,
        decode ((encode ((State.initial {}).run electedEvent)).set 8 5) = .error corruption ∧
          ReportedAt 8 corruption) ∧
      (encode ((State.initial {}).run electedEvent))[24]? = some 9 ∧
      ∃ corruption,
        decode ((encode ((State.initial {}).run electedEvent)).set 24 5) = .error corruption ∧
          ReportedAt 24 corruption := by
  have hlength : (encode ((State.initial {}).run electedEvent)).length < capacity 8 := by
    rw [length_encode]
    decide +kernel
  have hheader : (encode ((State.initial {}).run electedEvent))[8]? = some 9 := by
    decide +kernel
  have hbody : (encode ((State.initial {}).run electedEvent))[24]? = some 9 := by
    decide +kernel
  have hlower : (9 : UInt8) ≠ 5 := by decide
  obtain ⟨_, hrefused, hreported⟩ := changed_snapshot_is_refused (.set hheader hlower)
  obtain ⟨_, hrefused', hreported'⟩ := changed_snapshot_is_refused (.set hbody hlower)
  exact ⟨hheader, ⟨_, hrefused, hreported hlength⟩, hbody, _, hrefused', hreported' hlength⟩

end Arbiter.Snapshot
