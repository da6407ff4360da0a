import Arbiter.Digest.Crc
import Mathlib.Logic.Function.Basic

/-!
# What a checksum notices

Two byte strings that differ in a single byte have different checksums.  One step of the division
loses nothing as long as the polynomial has its highest bit set: that bit of the result tells which
bit was shifted out.  So the register after some bytes determines the register before them, and the
change of a byte is carried through to the end.
-/

namespace Arbiter

/-- The byte strings differ in the byte at a place and nowhere else. -/
inductive ChangedAt : Nat → Bytes → Bytes → Prop
  | here {b b' : UInt8} (hne : b ≠ b') (rest : Bytes) : ChangedAt 0 (b :: rest) (b' :: rest)
  | there (b : UInt8) {place : Nat} {bytes bytes' : Bytes} (later : ChangedAt place bytes bytes') :
      ChangedAt (place + 1) (b :: bytes) (b :: bytes')

namespace ChangedAt

variable {place : Nat} {bytes bytes' front back : Bytes}

theorem set {b b' : UInt8} (hb : bytes[place]? = some b) (hne : b ≠ b') :
    ChangedAt place bytes (bytes.set place b') := by
  induction bytes generalizing place with
  | nil => simp at hb
  | cons first bytes ih =>
      cases place with
      | zero =>
          obtain rfl : first = b := by simpa using hb
          exact .here hne bytes
      | succ place => exact .there first (ih (by simpa using hb))

theorem length_eq (h : ChangedAt place bytes bytes') : bytes'.length = bytes.length := by
  induction h with
  | here _ _ => rfl
  | there _ _ ih => simp [ih]

/-- A number is changed with any of its bytes. -/
theorem leNat_ne (h : ChangedAt place bytes bytes') : leNat bytes' ≠ leNat bytes := by
  induction h with
  | @here b b' hne rest =>
      intro heq
      simp only [leNat] at heq
      exact hne (UInt8.toNat_inj.1 (by omega))
  | there b _ ih =>
      intro heq
      simp only [leNat] at heq
      exact ih (by omega)

theorem ne (h : ChangedAt place bytes bytes') : bytes' ≠ bytes :=
  fun heq => h.leNat_ne (congrArg leNat heq)

/-- A change before the end of the first part leaves the second part as it is. -/
theorem of_append_left (h : ChangedAt place (front ++ back) bytes')
    (hplace : place < front.length) :
    ∃ front', bytes' = front' ++ back ∧ ChangedAt place front front' := by
  induction front generalizing place bytes' with
  | nil => simp at hplace
  | cons b front ih =>
      cases h with
      | here hne _ => exact ⟨_, rfl, .here hne front⟩
      | there _ later =>
          obtain ⟨front', rfl, hfront⟩ := ih later (by simpa using hplace)
          exact ⟨b :: front', rfl, .there b hfront⟩

/-- A change behind the first part leaves that part as it is. -/
theorem of_append_right (h : ChangedAt place (front ++ back) bytes')
    (hplace : front.length ≤ place) :
    ∃ back', bytes' = front ++ back' ∧ ChangedAt (place - front.length) back back' := by
  induction front generalizing place bytes' with
  | nil => exact ⟨bytes', rfl, h⟩
  | cons b front ih =>
      cases h with
      | here hne _ => simp at hplace
      | there _ later =>
          obtain ⟨back', rfl, hback⟩ := ih later (by simpa using hplace)
          refine ⟨back', rfl, ?_⟩
          rwa [List.length_cons, Nat.add_sub_add_right]

/-- The change is in the first part or in the second one. -/
theorem append_cases (h : ChangedAt place (front ++ back) bytes') :
    (place < front.length ∧
        ∃ front', bytes' = front' ++ back ∧ ChangedAt place front front') ∨
      (front.length ≤ place ∧
        ∃ back', bytes' = front ++ back' ∧ ChangedAt (place - front.length) back back') := by
  rcases Nat.lt_or_ge place front.length with hplace | hplace
  · exact .inl ⟨hplace, h.of_append_left hplace⟩
  · exact .inr ⟨hplace, h.of_append_right hplace⟩

end ChangedAt

namespace Crc

variable {w : Nat} {poly : BitVec w}

/-- The bit that is shifted out is the highest bit of the result. -/
theorem msb_stepBit (hpoly : poly.msb = true) (register : BitVec w) :
    (stepBit poly register).msb = register.getLsbD 0 := by
  have hshift : (register >>> 1).msb = false := by
    rw [BitVec.msb_ushiftRight]
    simp
  unfold stepBit
  split
  · next hbit => rw [BitVec.msb_xor, hshift, hpoly, hbit, Bool.false_xor]
  · next hbit => rw [hshift, Bool.eq_false_iff.2 hbit]

theorem stepBit_injective (hpoly : poly.msb = true) : Function.Injective (stepBit poly) := by
  intro r r' heq
  have hlow : r.getLsbD 0 = r'.getLsbD 0 := by
    rw [← msb_stepBit hpoly, ← msb_stepBit hpoly, heq]
  have hhigh : r >>> 1 = r' >>> 1 := by
    unfold stepBit at heq
    rw [hlow] at heq
    split at heq
    · exact (BitVec.xor_left_inj _).1 heq
    · exact heq
  apply BitVec.eq_of_getLsbD_eq
  intro i _
  cases i with
  | zero => exact hlow
  | succ i =>
      have hbit := congrArg (·.getLsbD i) hhigh
      simpa [BitVec.getLsbD_ushiftRight, Nat.add_comm] using hbit

theorem stepBits_injective (hpoly : poly.msb = true) : Function.Injective (stepBits poly) := by
  have hstep := stepBit_injective hpoly
  intro r r' heq
  unfold stepBits at heq
  exact hstep (hstep (hstep (hstep (hstep (hstep (hstep (hstep heq)))))))

/-- The register before a byte is determined by the one after it. -/
theorem stepByte_injective (hpoly : poly.msb = true) (b : UInt8) :
    Function.Injective fun register => stepByte poly register b := by
  intro r r' heq
  exact (BitVec.xor_left_inj _).1 (stepBits_injective hpoly heq)

/-- Different bytes lead to different registers. -/
theorem stepByte_ne (hpoly : poly.msb = true) (hwidth : 8 ≤ w) (register : BitVec w)
    {b b' : UInt8} (hne : b ≠ b') :
    stepByte poly register b ≠ stepByte poly register b' := by
  intro heq
  have hbytes := (BitVec.xor_right_inj _).1 (stepBits_injective hpoly heq)
  have hnumbers := congrArg BitVec.toNat hbytes
  have hroom : 2 ^ 8 ≤ 2 ^ w := Nat.pow_le_pow_right (by decide) hwidth
  have hb := b.toNat_lt
  have hb' := b'.toNat_lt
  rw [BitVec.toNat_ofNat, BitVec.toNat_ofNat, Nat.mod_eq_of_lt (by omega),
    Nat.mod_eq_of_lt (by omega)] at hnumbers
  exact hne (UInt8.toNat_inj.1 hnumbers)

theorem run_injective (hpoly : poly.msb = true) (bytes : Bytes) :
    Function.Injective fun register => run poly register bytes := by
  induction bytes with
  | nil => exact fun _ _ heq => heq
  | cons b bytes ih =>
      intro r r' heq
      exact stepByte_injective hpoly b (ih heq)

/-- The change of a byte is carried through to the end. -/
theorem run_ne_of_changedAt (hpoly : poly.msb = true) (hwidth : 8 ≤ w) {place : Nat}
    {bytes bytes' : Bytes} (hchanged : ChangedAt place bytes bytes') (register : BitVec w) :
    run poly register bytes' ≠ run poly register bytes := by
  induction hchanged generalizing register with
  | here hne rest =>
      intro heq
      exact stepByte_ne hpoly hwidth register hne (run_injective hpoly rest heq).symm
  | there b _ ih => exact ih (stepByte poly register b)

/-- The change of a byte changes the check. -/
theorem check_ne_of_changedAt (hpoly : poly.msb = true) (hwidth : 8 ≤ w) {place : Nat}
    {bytes bytes' : Bytes} (hchanged : ChangedAt place bytes bytes') :
    check poly bytes' ≠ check poly bytes := by
  intro heq
  have hrun := BitVec.not_inj.1 (BitVec.eq_of_toNat_eq heq)
  exact run_ne_of_changedAt hpoly hwidth hchanged _ hrun

theorem crc32_ne_of_changedAt {place : Nat} {bytes bytes' : Bytes}
    (hchanged : ChangedAt place bytes bytes') : crc32 bytes' ≠ crc32 bytes :=
  check_ne_of_changedAt (by decide) (by decide) hchanged

theorem crc64_ne_of_changedAt {place : Nat} {bytes bytes' : Bytes}
    (hchanged : ChangedAt place bytes bytes') : crc64 bytes' ≠ crc64 bytes := by
  rw [crc64_eq_check, crc64_eq_check]
  exact check_ne_of_changedAt (by decide) (by decide) hchanged

/-- The digits from 1 to 9 have the checks by which the two checks are known. -/
example :
    crc32 ((List.range' 0x31 9).map UInt8.ofNat) = 0xCBF43926 ∧
      crc64 ((List.range' 0x31 9).map UInt8.ofNat) = 0x995DC9BBDF1939FA := by
  decide +kernel

end Crc

end Arbiter
