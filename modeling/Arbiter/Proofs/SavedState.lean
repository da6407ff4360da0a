import Arbiter.Proofs.StateImage

/-!
# Saving the states of a controller

Every state that a controller can be in passes the audit and is read back from its snapshot.  The
header of a snapshot announces its length, so a snapshot that was cut short or continued is not read
any more.
-/

namespace Arbiter

namespace State

variable {s : State}

/-- Running commands keeps a state sound, whether they are accepted or refused. -/
theorem Sound.run (h : s.Sound) (hs : s.Numbered) {commands : List (Address × Command)}
    (hcommands : ∀ c ∈ commands, c.2.InRange) :
    (s.run commands).Sound ∧ (s.run commands).Numbered ∧ (s.run commands).policy = s.policy := by
  induction commands generalizing s with
  | nil => exact ⟨h, hs, rfl⟩
  | cons c commands ih =>
      rw [List.forall_mem_cons] at hcommands
      have hrun : s.run (c :: commands) = (s.step c).run commands := rfl
      rw [hrun]
      rcases s.step_cases c with hsame | ⟨outcome, haccepted⟩
      · rw [hsame]
        exact ih h hs hcommands.2
      · obtain ⟨hsound, hnumbered, hpolicy⟩ := ih (h.accepted hs hcommands.1 haccepted)
          (hs.accepted haccepted) hcommands.2
        exact ⟨hsound, hnumbered, hpolicy.trans haccepted.policy_eq⟩

end State

namespace Snapshot

variable {s : State} {bytes : Bytes}

/-- What follows a snapshot does not change its header. -/
theorem readHeader_append (hlong : headerLength + trailerLength ≤ bytes.length) (more : Bytes) :
    readHeader (bytes ++ more) = readHeader bytes := by
  have hfield : ∀ start width : Nat, start + width ≤ headerLength →
      ((bytes ++ more).drop start).take width = (bytes.drop start).take width := by
    intro start width hwithin
    have hstart : start ≤ bytes.length := by omega
    have hwidth : width ≤ (bytes.drop start).length := by
      rw [List.length_drop]
      omega
    rw [List.drop_append_of_le_length hstart, List.take_append_of_le_length hwidth]
  have hmagic : (bytes ++ more).take 4 = bytes.take 4 := hfield 0 4 (by decide)
  have hshort : ¬ bytes.length < headerLength + trailerLength := Nat.not_lt.2 hlong
  have hshort' : ¬ (bytes ++ more).length < headerLength + trailerLength := by
    rw [List.length_append]
    omega
  unfold readHeader
  rw [if_neg hshort, if_neg hshort', hmagic, hfield 4 4 (by decide), hfield 8 8 (by decide),
    hfield 16 8 (by decide)]

theorem decode_of_readHeader {corruption : Corruption}
    (hheader : readHeader bytes = .error corruption) : decode bytes = .error corruption := by
  rw [decode, hheader]
  rfl

/-- What has the header of a snapshot but another length is not read. -/
theorem decode_of_length_ne (hversion : s.version < capacity 8)
    (hlength : (encode s).length < capacity 8)
    (hheader : readHeader bytes = readHeader (encode s))
    (hne : bytes.length ≠ (encode s).length) :
    decode bytes = .error (.lengthMismatch bytes.length (encode s).length) := by
  rw [length_encode] at hlength hne ⊢
  rw [readHeader_encode hversion (by omega)] at hheader
  have hroom : ¬ capacity 8 ≤ s.encode.length + (headerLength + trailerLength) :=
    Nat.not_le.2 hlength
  simp only [decode, hheader, bind, Except.bind, if_neg hroom, if_pos hne]
  rfl

/-- A snapshot that was cut short is not read. -/
theorem exists_decode_of_part (hversion : s.version < capacity 8)
    (hlength : (encode s).length < capacity 8) (hpart : bytes <+: encode s)
    (hne : bytes ≠ encode s) : ∃ corruption, decode bytes = .error corruption := by
  rcases Nat.lt_or_ge bytes.length (headerLength + trailerLength) with hshort | hlong
  · have hheader : readHeader bytes = .error (.snapshotTooShort bytes.length) := by
      rw [readHeader, if_pos hshort]
    exact ⟨_, decode_of_readHeader hheader⟩
  · obtain ⟨more, hmore⟩ := hpart
    have hheader : readHeader bytes = readHeader (encode s) := by
      rw [← hmore, readHeader_append hlong]
    have hdiffers : bytes.length ≠ (encode s).length := by
      intro heq
      exact hne (List.IsPrefix.eq_of_length ⟨more, hmore⟩ heq)
    exact ⟨_, decode_of_length_ne hversion hlength hheader hdiffers⟩

/-- A snapshot that was continued is not read. -/
theorem exists_decode_of_extension (hversion : s.version < capacity 8)
    (hlength : (encode s).length < capacity 8) (hmore : encode s <+: bytes)
    (hne : bytes ≠ encode s) : ∃ corruption, decode bytes = .error corruption := by
  obtain ⟨more, rfl⟩ := hmore
  have hlong : headerLength + trailerLength ≤ (encode s).length := by
    rw [length_encode]
    exact Nat.le_add_left _ _
  have hdiffers : (encode s ++ more).length ≠ (encode s).length := by
    intro heq
    have hnil : more = [] := by
      rw [List.length_append] at heq
      exact List.length_eq_zero_iff.1 (by omega)
    exact hne (by rw [hnil, List.append_nil])
  exact ⟨_, decode_of_length_ne hversion hlength (readHeader_append hlong more) hdiffers⟩

end Snapshot

/-! ## States of a controller -/

/-- A state that a controller can be in passes the audit and is read back from its snapshot, whose
header tells its version and the length of its body.  No proper part of the snapshot that it begins
with, and nothing longer that begins with it, is read.  All numbers are ones of sixty-four bits:
those of the policy and of the commands, the version and the length of the snapshot. -/
theorem saved_state_is_read_back {policy : Policy} {commands : List (Address × Command)} {s : State}
    (hpolicy : policy.InRange) (hcommands : ∀ c ∈ commands, c.2.InRange)
    (hs : s = (State.initial policy).run commands) (hversion : s.version < capacity 8)
    (hlength : (Snapshot.encode s).length < capacity 8) :
    s.audit = .ok () ∧ Snapshot.decode (Snapshot.encode s) = .ok s ∧
      Snapshot.readHeader (Snapshot.encode s) =
        .ok ⟨Snapshot.format, s.version, (Snapshot.body (Snapshot.encode s)).length⟩ ∧
      Snapshot.body (Snapshot.encode s) = s.encode ∧
      ∀ bytes, bytes <+: Snapshot.encode s ∨ Snapshot.encode s <+: bytes →
        bytes ≠ Snapshot.encode s → ∃ corruption, Snapshot.decode bytes = .error corruption := by
  obtain ⟨hsound, hnumbered, hsame⟩ :=
    (State.Sound.initial policy).run (.initial policy) hcommands
  rw [← hs] at hsound hnumbered hsame
  have hbody : s.encode.length < capacity 8 := by
    rw [Snapshot.length_encode] at hlength
    omega
  refine ⟨hsound.audit hnumbered, ?_, ?_, Snapshot.body_encode s, ?_⟩
  · have hpolicy' : s.policy.InRange := hsame.symm ▸ hpolicy
    exact hsound.decode_snapshot hnumbered hpolicy' hversion hlength
  · rw [Snapshot.body_encode]
    exact Snapshot.readHeader_encode hversion hbody
  · rintro bytes (hpart | hmore) hne
    · exact Snapshot.exists_decode_of_part hversion hlength hpart hne
    · exact Snapshot.exists_decode_of_extension hversion hlength hmore hne

/-- Three nodes register, and two of them reply to an event and elect a solver; then one of them
votes once more, which is refused. -/
def electedEvent : List (Address × Command) :=
  [(.ofLow 1, .registerNode "s"), (.ofLow 2, .registerNode "s"), (.ofLow 3, .registerNode "t"),
    (.ofLow 1, .registerApplication "i" ["s", "t"] true), (.ofLow 1, .sendEvent "p" 1),
    (.ofLow 1, .sendReply 1 [⟨.ofLow 2, 300⟩, ⟨.ofLow 3, -70000⟩]),
    (.ofLow 2, .sendReply 1 [⟨.ofLow 1, leastPoints⟩]),
    (.ofLow 1, .voteSolver 1 (.ofLow 2)), (.ofLow 2, .voteSolver 1 (.ofLow 2)),
    (.ofLow 1, .voteSolver 1 (.ofLow 3))]

theorem saved_state_is_read_back_of_electedEvent :
    ((State.initial {}).run electedEvent).version = 9 ∧
      Snapshot.decode (Snapshot.encode ((State.initial {}).run electedEvent)) =
        .ok ((State.initial {}).run electedEvent) ∧
      ∃ corruption, Snapshot.decode
        (Snapshot.encode ((State.initial {}).run electedEvent) ++ [0]) = .error corruption := by
  have hversion : ((State.initial {}).run electedEvent).version = 9 := by decide +kernel
  have hlength : (Snapshot.encode ((State.initial {}).run electedEvent)).length < capacity 8 := by
    rw [Snapshot.length_encode]
    decide +kernel
  have hpolicy : ({} : Policy).InRange := Policy.inRange_default
  have hcommands : ∀ c ∈ electedEvent, c.2.InRange := by decide
  obtain ⟨-, hread, -, -, hother⟩ :=
    saved_state_is_read_back hpolicy hcommands rfl (hversion ▸ by decide) hlength
  exact ⟨hversion, hread, hother _ (.inr (List.prefix_append _ _)) (by simp)⟩

end Arbiter
