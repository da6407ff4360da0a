/-!
# Byte strings

Files, hashed images and frames are byte strings, and a byte string is a list of bytes.  Numbers
of a fixed width are stored with their least significant byte first; `leNat_leBytes` and
`length_leBytes` are the two facts every fixed-width field relies on.
-/

namespace Arbiter

/-- A byte string. -/
abbrev Bytes := List UInt8

/-- How many numbers `width` bytes can tell apart. -/
def capacity : (width : Nat) → Nat
  | 0 => 1
  | width + 1 => 256 * capacity width

/-- The `width` lowest bytes of `n`, least significant first. -/
def leBytes : (width : Nat) → Nat → Bytes
  | 0, _ => []
  | width + 1, n => UInt8.ofNat (n % 256) :: leBytes width (n / 256)

/-- The number whose bytes, least significant first, are given. -/
def leNat : Bytes → Nat
  | [] => 0
  | b :: rest => b.toNat + 256 * leNat rest

@[simp]
theorem capacity_two : capacity 2 = 65536 := rfl

@[simp]
theorem capacity_four : capacity 4 = 4294967296 := rfl

@[simp]
theorem capacity_eight : capacity 8 = 18446744073709551616 := rfl

theorem capacity_le_succ (width : Nat) : capacity width ≤ capacity (width + 1) := by
  simp only [capacity]
  omega

/-- More bytes tell at least as many numbers apart. -/
theorem capacity_le {narrow wide : Nat} (h : narrow ≤ wide) : capacity narrow ≤ capacity wide := by
  induction h with
  | refl => exact Nat.le_refl _
  | step _ ih => exact Nat.le_trans ih (capacity_le_succ _)

@[simp]
theorem length_leBytes (width n : Nat) : (leBytes width n).length = width := by
  induction width generalizing n with
  | zero => rfl
  | succ width ih => simp [leBytes, ih]

/-- A number that fits into its field is read back from it. -/
theorem leNat_leBytes {width n : Nat} (h : n < capacity width) : leNat (leBytes width n) = n := by
  induction width generalizing n with
  | zero => simp_all [capacity, leBytes, leNat]
  | succ width ih =>
    have hdiv : n / 256 < capacity width := by
      simp only [capacity] at h
      omega
    have hmod : (UInt8.ofNat (n % 256)).toNat = n % 256 := by
      rw [UInt8.toNat_ofNat']
      exact Nat.mod_eq_of_lt (Nat.mod_lt n (by decide))
    simp only [leBytes, leNat, ih hdiv, hmod]
    exact Nat.mod_add_div n 256

/-- A number read from some bytes is one that they have room for. -/
theorem leNat_lt (bytes : Bytes) : leNat bytes < capacity bytes.length := by
  induction bytes with
  | nil => simp [capacity, leNat]
  | cons b rest ih =>
    have hb := b.toNat_lt
    simp only [leNat, List.length_cons, capacity]
    omega

end Arbiter
