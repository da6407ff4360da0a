import Arbiter.Proofs.ChangedFrame

/-!
# Frames that are refused where they begin

A frame that is not acceptable keeps the whole file from being read, and the fault tells where that
frame begins.  A byte that was changed in the sequence, the check or the entry of a frame is such a
case, wherever the frame stands and whatever follows it.  So is an entry whose encoding is too long
for the length in a frame, without any change.
-/

namespace Arbiter

variable {entries front back : List Entry} {e : Entry} {place : Nat} {bytes rest : Bytes}

/-! ## Entries that are too long -/

namespace Entry

theorem InRange.storable_iff (h : e.InRange) : e.Storable ↔ e.encode.length < capacity 4 :=
  ⟨fun hstorable => hstorable.short, fun hshort => ⟨h.sequence, h.command, hshort⟩⟩

/-- The frame of an entry that is too long announces less than the entry. -/
theorem InRange.readFrame_of_long (h : e.InRange) (hlong : ¬ e.Storable) (expected : Nat)
    (rest : Bytes) : ∃ fault, readFrame expected (e.frame ++ rest) = .broken fault := by
  have hannounced := leNat_lt (leBytes 4 e.encode.length)
  rw [length_leBytes] at hannounced
  rw [h.storable_iff, Nat.not_lt] at hlong
  have hne : leNat (leBytes 4 e.encode.length) ≠ e.encode.length := by omega
  have hwithin : leNat (leBytes 4 e.encode.length) ≤ (e.encode ++ rest).length := by
    rw [List.length_append]
    omega
  obtain ⟨payload, more, fault, hparts, hpayload, hopen⟩ :=
    openFrame_of_length_ne h.fits hne hwithin expected (leNat (leBytes 8 e.sequence))
      (leNat (leBytes 4 (Crc.crc32 e.encode)))
  have hframe : e.frame ++ rest = leBytes 8 e.sequence ++ (leBytes 4 e.encode.length ++
      (leBytes 4 (Crc.crc32 e.encode) ++ (payload ++ more))) := by
    simp only [frame, encodeFrame, List.append_assoc, hparts]
  rw [hframe]
  exact ⟨fault, readFrame_of_openFrame (length_leBytes 8 _) (length_leBytes 4 _)
    (length_leBytes 4 _) hpayload.symm hopen⟩

end Entry

/-- A file is not read if one of its entries is too long for a frame. -/
theorem exists_fault_of_unstorable (hrange : ∀ e ∈ entries, e.InRange)
    (hnumbers : entries.map (·.sequence) = List.range' 1 entries.length)
    (hlong : ∃ e ∈ entries, ¬ e.Storable) (rest : Bytes) :
    ∃ fault, scan (journalFile entries ++ rest) = .error fault := by
  obtain ⟨e, hfirst⟩ : ∃ e, entries.find? (fun e => decide ¬ e.Storable) = some e := by
    rw [← Option.isSome_iff_exists, List.find?_isSome]
    simpa using hlong
  obtain ⟨he, before, after, rfl, hbefore⟩ := List.find?_eq_some_iff_append.1 hfirst
  obtain ⟨hnumbersBefore, hnumbersAfter⟩ := map_sequence_append hnumbers
  have hsequence : e.sequence = before.length + 1 := by
    simpa [List.range'_succ] using (List.cons.inj hnumbersAfter).1
  obtain ⟨fault, hbroken⟩ := (hrange e (by simp)).readFrame_of_long (by simpa using he)
    (before.length + 1) (after.flatMap Entry.frame ++ rest)
  have hfile : journalFile (before ++ e :: after) ++ rest =
      journalFile before ++ (e.frame ++ (after.flatMap Entry.frame ++ rest)) := by
    rw [journalFile_append, List.flatMap_cons, List.append_assoc, List.append_assoc]
  rw [hfile]
  exact ⟨_, scan_journalFile_broken (fun e' he' => by simpa using hbefore e' he')
    hnumbersBefore hbroken⟩

/-! ## Changed bytes -/

/-- A byte was changed in a frame, with any entries before it and behind it.  If the byte belongs to
the sequence, the file is refused for a wrong sequence at the place where the frame begins, and if
it lies behind the length, for a wrong checksum at that place.  This is so unless an entry up to
there is too long for a frame, and then the file is not read without the change either. -/
theorem changed_byte_is_noticed_in_place (hrange : ∀ e' ∈ front ++ [e], e'.InRange)
    (hnumbers : (front ++ [e]).map (·.sequence) = List.range' 1 (front ++ [e]).length)
    (hplace : place < e.frame.length)
    (hchanged : ChangedAt ((journalFile front).length + place)
      (journalFile (front ++ e :: back)) bytes) :
    ((∀ e' ∈ front ++ [e], e'.Storable) →
      (place < 8 → ∃ found, found ≠ e.sequence ∧
        scan bytes = .error (.frame (journalFile front).length (.sequence found e.sequence))) ∧
      (12 ≤ place → scan bytes = .error (.frame (journalFile front).length .checksum))) ∧
    ((∃ e' ∈ front ++ [e], ¬ e'.Storable) →
      ∃ fault, scan (journalFile (front ++ e :: back)) = .error fault) := by
  have hframes : journalFile (front ++ e :: back) =
      journalFile front ++ (e.frame ++ back.flatMap Entry.frame) := by
    rw [journalFile_append, List.flatMap_cons]
  refine ⟨fun hstorable => ?_, fun hlong => ?_⟩
  · obtain ⟨hnumbersFront, hnumbersLast⟩ := map_sequence_append hnumbers
    have hsequence : e.sequence = front.length + 1 := by simpa using hnumbersLast
    have hfront : ∀ e' ∈ front, e'.Storable :=
      fun e' he' => hstorable e' (List.mem_append_left _ he')
    rw [hframes] at hchanged
    obtain ⟨rest, rfl, hrest⟩ := hchanged.of_append_right (Nat.le_add_right _ _)
    rw [Nat.add_sub_cancel_left] at hrest
    have hbroken : ∀ {fault}, readFrame e.sequence rest = .broken fault →
        scan (journalFile front ++ rest) = .error (.frame (journalFile front).length fault) := by
      intro fault hread
      exact scan_journalFile_broken hfront hnumbersFront (hsequence ▸ hread)
    rcases (hstorable e (by simp)).readFrame_changedAt hplace hrest with
      ⟨hin, found, hne, hread⟩ | ⟨hin, -⟩ | ⟨hin, hread⟩
    · exact ⟨fun _ => ⟨found, hne, hbroken hread⟩, fun hbehind => by omega⟩
    · exact ⟨fun _ => by omega, fun _ => by omega⟩
    · exact ⟨fun hbefore => by omega, fun _ => hbroken hread⟩
  · have hfile : journalFile (front ++ e :: back) =
        journalFile (front ++ [e]) ++ back.flatMap Entry.frame := by
      rw [hframes, journalFile_concat, List.append_assoc]
    rw [hfile]
    exact exists_fault_of_unstorable hrange hnumbers hlong _

theorem changed_byte_is_noticed_in_place_of_secondRegistered :
    (∃ found, found ≠ 2 ∧ scan ((journalFile threeRegistered).set 56 7) =
      .error (.frame 56 (.sequence found 2))) ∧
      scan ((journalFile threeRegistered).set 69 0) = .error (.frame 56 .checksum) ∧
      scan ((journalFile threeRegistered).set 95 0) = .error (.frame 56 .checksum) := by
  have hstorable : ∀ e ∈ threeRegistered.take 1 ++ [threeRegistered[1]], e.Storable := by
    decide +kernel
  have hlength : (journalFile (threeRegistered.take 1)).length = 56 := by decide +kernel
  have hnoticed : ∀ (place : Nat) (bytes : Bytes), place < (threeRegistered[1].frame).length →
      ChangedAt (56 + place) (journalFile threeRegistered) bytes →
      (place < 8 → ∃ found, found ≠ 2 ∧ scan bytes = .error (.frame 56 (.sequence found 2))) ∧
        (12 ≤ place → scan bytes = .error (.frame 56 .checksum)) := by
    intro place bytes hplace hchanged
    rw [← hlength] at hchanged ⊢
    exact (changed_byte_is_noticed_in_place (fun e he => (hstorable e he).inRange) (by decide)
      hplace hchanged).1 hstorable
  refine ⟨?_, ?_, ?_⟩
  · have hchanged : ChangedAt 56 (journalFile threeRegistered)
        ((journalFile threeRegistered).set 56 7) :=
      ChangedAt.set (b := 2) (by decide +kernel) (by decide)
    exact (hnoticed 0 _ (by decide +kernel) hchanged).1 (by decide)
  · have hchanged : ChangedAt 69 (journalFile threeRegistered)
        ((journalFile threeRegistered).set 69 0) :=
      ChangedAt.set (b := 0xdf) (by decide +kernel) (by decide)
    exact (hnoticed 13 _ (by decide +kernel) hchanged).2 (by decide)
  · have hchanged : ChangedAt 95 (journalFile threeRegistered)
        ((journalFile threeRegistered).set 95 0) :=
      ChangedAt.set (b := 0x73) (by decide +kernel) (by decide)
    exact (hnoticed 39 _ (by decide +kernel) hchanged).2 (by decide)

end Arbiter
