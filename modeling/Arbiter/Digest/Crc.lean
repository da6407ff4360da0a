import Arbiter.Bytes

/-!
# Cyclic redundancy checks

A check runs through the bits of a byte string, the lowest bit of every byte first, and divides by
a polynomial whose bits are written in the same order.  The register starts with all bits set and
is complemented at the end.

The check of sixty-four bits runs on machine words; `crc64_eq_check` says that it is the same
check.
-/

namespace Arbiter.Crc

variable {w : Nat}

/-- One step of the division. -/
def stepBit (poly register : BitVec w) : BitVec w :=
  if register.getLsbD 0 then (register >>> 1) ^^^ poly else register >>> 1

/-- Eight steps of the division. -/
def stepBits (poly register : BitVec w) : BitVec w :=
  let step := stepBit poly
  step (step (step (step (step (step (step (step register)))))))

/-- The register after one more byte. -/
def stepByte (poly register : BitVec w) (b : UInt8) : BitVec w :=
  stepBits poly (register ^^^ BitVec.ofNat w b.toNat)

/-- The register after more bytes. -/
def run (poly register : BitVec w) (bytes : Bytes) : BitVec w :=
  bytes.foldl (stepByte poly) register

/-- The check of a byte string. -/
def check (poly : BitVec w) (bytes : Bytes) : Nat :=
  (~~~ (run poly (BitVec.allOnes w) bytes)).toNat

/-- The polynomial of the check of thirty-two bits. -/
def poly32 : BitVec 32 := 0xEDB88320

/-- The polynomial of the check of sixty-four bits. -/
def poly64 : BitVec 64 := 0xC96C5795D7870F42

/-! ### Machine words -/

/-- One step of the division on a machine word. -/
def stepBitWord (poly register : UInt64) : UInt64 :=
  if register &&& 1 = 1 then (register >>> 1) ^^^ poly else register >>> 1

/-- Eight steps of the division on a machine word. -/
def stepBitsWord (poly register : UInt64) : UInt64 :=
  let step := stepBitWord poly
  step (step (step (step (step (step (step (step register)))))))

/-- The machine word after one more byte. -/
def stepByteWord (poly register : UInt64) (b : UInt8) : UInt64 :=
  stepBitsWord poly (register ^^^ b.toUInt64)

/-- The machine word after more bytes. -/
def runWord (poly register : UInt64) (bytes : Bytes) : UInt64 :=
  bytes.foldl (stepByteWord poly) register

theorem and_one_eq_one_iff (register : UInt64) :
    register &&& 1 = 1 ↔ register.toBitVec.getLsbD 0 = true := by
  rw [← UInt64.toBitVec_inj, UInt64.toBitVec_and]
  show register.toBitVec &&& 1#64 = 1#64 ↔ _
  rw [BitVec.and_one_eq_setWidth_ofBool_getLsbD]
  cases register.toBitVec.getLsbD 0 <;> decide

theorem toBitVec_stepBitWord (poly register : UInt64) :
    (stepBitWord poly register).toBitVec = stepBit poly.toBitVec register.toBitVec := by
  unfold stepBitWord stepBit
  simp only [and_one_eq_one_iff]
  split <;> rfl

theorem toBitVec_stepByteWord (poly register : UInt64) (b : UInt8) :
    (stepByteWord poly register b).toBitVec = stepByte poly.toBitVec register.toBitVec b := by
  have hb : b.toUInt64.toBitVec = BitVec.ofNat 64 b.toNat := by
    apply BitVec.eq_of_toNat_eq
    simp
  simp only [stepByteWord, stepBitsWord, stepByte, stepBits, toBitVec_stepBitWord,
    UInt64.toBitVec_xor, hb]

/-- The division on machine words is the division of sixty-four bits. -/
theorem toBitVec_runWord (poly register : UInt64) (bytes : Bytes) :
    (runWord poly register bytes).toBitVec = run poly.toBitVec register.toBitVec bytes := by
  induction bytes generalizing register with
  | nil => rfl
  | cons b rest ih =>
    simp only [runWord, run, List.foldl_cons] at ih ⊢
    rw [ih, toBitVec_stepByteWord]

/-! ### The checks in use -/

/-- The check of thirty-two bits, which guards the frames of a journal. -/
def crc32 (bytes : Bytes) : Nat :=
  check poly32 bytes

/-- The check of sixty-four bits, which guards snapshots. -/
def crc64 (bytes : Bytes) : Nat :=
  (~~~ (runWord ⟨poly64⟩ ⟨BitVec.allOnes 64⟩ bytes)).toNat

theorem crc64_eq_check (bytes : Bytes) : crc64 bytes = check poly64 bytes := by
  show (~~~ (runWord ⟨poly64⟩ ⟨BitVec.allOnes 64⟩ bytes).toBitVec).toNat = _
  rw [toBitVec_runWord]
  rfl

end Arbiter.Crc
