import Arbiter.Proofs.Capacity

/-!
# Encodings that tell where they end

What follows a value does not change how it is read.  So where a value was written it is this value
that is read, and not from less than its whole encoding: no encoding is a part of another one that
it begins with, and encodings that are written one after the other can be told apart.
-/

namespace Arbiter

namespace Codec

variable {α : Type} {c : Codec α} {a b : α} {front rest rest' more left : Bytes}

/-- What is read from some bytes, where a value was written, is that value, and it takes the whole
encoding. -/
theorem eq_of_decode (ha : c.Fits a) (hparts : c.encode a ++ rest = front ++ more)
    (hread : c.decode front = some (b, left)) :
    b = a ∧ front = c.encode a ++ left := by
  have hlonger := c.decode_append more hread
  have hwhole := c.decode_encode rest ha
  rw [hparts, hlonger] at hwhole
  obtain ⟨rfl, rfl⟩ : b = a ∧ left ++ more = rest := by simpa using hwhole
  rw [← List.append_assoc] at hparts
  exact ⟨rfl, (List.append_cancel_right hparts).symm⟩

/-- Nothing is read from a proper part of an encoding that it begins with. -/
theorem decode_eq_none_of_part (ha : c.Fits a) (hpart : front <+: c.encode a)
    (hne : front ≠ c.encode a) : c.decode front = none := by
  cases hread : c.decode front with
  | none => rfl
  | some result =>
      obtain ⟨more, hmore⟩ := hpart
      have hparts : c.encode a ++ [] = front ++ more := by rw [List.append_nil, hmore]
      obtain ⟨-, hfront⟩ := eq_of_decode ha hparts hread
      have hlonger : c.encode a <+: front := hfront ▸ List.prefix_append _ _
      exact absurd (List.IsPrefix.eq_of_length_le ⟨more, hmore⟩ hlonger.length_le) hne

/-- A value that fits is told from its encoding, whatever follows it. -/
theorem encode_append_inj (ha : c.Fits a) (hb : c.Fits b)
    (h : c.encode a ++ rest = c.encode b ++ rest') : a = b ∧ rest = rest' := by
  have hread := c.decode_encode rest ha
  rw [h, c.decode_encode rest' hb] at hread
  obtain ⟨hvalue, hrest⟩ := Prod.mk.inj (Option.some.inj hread)
  exact ⟨hvalue.symm, hrest.symm⟩

/-- An encoding that another one begins with is the encoding of the same value. -/
theorem eq_of_encode_isPrefix (ha : c.Fits a) (hb : c.Fits b) (h : c.encode a <+: c.encode b) :
    a = b := by
  obtain ⟨rest, hrest⟩ := h
  rw [← List.append_nil (c.encode b)] at hrest
  exact (encode_append_inj ha hb hrest).1

end Codec

/-! ## Entries -/

namespace Entry

variable {e e' : Entry} {bytes : Bytes}

theorem decode_eq_ok_iff : decode bytes = .ok e ↔ codec.decode bytes = some (e, []) := by
  unfold decode
  split
  · next hread => simp [hread]
  · next hread => simp [hread]
  · next hmore hread =>
      rw [hread]
      simpa using fun _ hnil => hmore hnil

theorem decode_of_part (he : codec.Fits e) (hpart : bytes <+: e.encode) (hne : bytes ≠ e.encode) :
    decode bytes = .error .undecodable := by
  simp only [decode, Codec.decode_eq_none_of_part he hpart hne]

theorem decode_encode_append (he : codec.Fits e) (hne : bytes ≠ []) :
    decode (e.encode ++ bytes) = .error (.trailingBytes bytes.length) := by
  cases bytes with
  | nil => exact absurd rfl hne
  | cons b bytes => simp only [decode, encode, codec.decode_encode _ he]

/-- An entry whose numbers are ones of sixty-four bits is read back from its encoding.  Of less than
the encoding nothing is read, and what goes on behind it is refused as so many bytes too many.  So
no other entry has an encoding that begins with this one, and none has the same. -/
theorem encoding_tells_where_it_ends (he : e.InRange) :
    decode e.encode = .ok e ∧
      (∀ bytes, bytes <+: e.encode → bytes ≠ e.encode → decode bytes = .error .undecodable) ∧
      (∀ bytes, bytes ≠ [] →
        decode (e.encode ++ bytes) = .error (.trailingBytes bytes.length)) ∧
      ∀ e' : Entry, e'.InRange → e.encode <+: e'.encode → e = e' := by
  refine ⟨decode_encode he.fits, ?_, ?_, ?_⟩
  · intro bytes hpart hne
    exact decode_of_part he.fits hpart hne
  · intro bytes hne
    exact decode_encode_append he.fits hne
  · intro e' he' hpart
    exact Codec.eq_of_encode_isPrefix he.fits he'.fits hpart

/-- A reply whose sequence takes three bytes, with the least and the most points. -/
def wideReply : Entry :=
  ⟨300, .ofLow 7, .sendReply 1 [⟨.ofLow 2, leastPoints⟩, ⟨.ofLow 3, mostPoints⟩]⟩

theorem encoding_tells_where_it_ends_of_wideReply :
    decode wideReply.encode = .ok wideReply ∧
      decode (wideReply.encode.take 50) = .error .undecodable ∧
      decode (wideReply.encode ++ [0, 1]) = .error (.trailingBytes 2) ∧
      ¬ wideReply.encode <+:
        encode ⟨300, .ofLow 7, .sendReply 1 [⟨.ofLow 2, leastPoints⟩]⟩ := by
  have hrange : wideReply.InRange := by decide +kernel
  have hshorter : InRange ⟨300, .ofLow 7, .sendReply 1 [⟨.ofLow 2, leastPoints⟩]⟩ := by
    decide +kernel
  obtain ⟨hread, hpart, hmore, hother⟩ := encoding_tells_where_it_ends hrange
  refine ⟨hread, hpart _ (List.take_prefix _ _) (by decide +kernel), hmore _ (by decide), ?_⟩
  intro hbegins
  exact absurd (hother _ hshorter hbegins) (by decide)

end Entry

end Arbiter
