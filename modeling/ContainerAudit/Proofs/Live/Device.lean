import ContainerAudit.Live.Device
import Mathlib.Data.Nat.Bitwise

/-!
# Device numbers and modes, bit by bit

The number of a device holds twelve bits of the major number and twenty or more of the minor
number, interleaved.  Each function on device numbers is described by the bits of its result;
equations between them follow bit by bit.

## Key results

- `getLsbD_ofParts`, `getLsbD_major`, `getLsbD_minor`: the bits of a number and of its parts
- `major_ofParts`, `minor_ofParts`: the parts of a number that was made from parts
- `ofParts_major_minor`: the number that is made from the parts of a number
- `ofParts_wholeWords`: where the parts of a number stand, and what is read back of them
- `parts_eq_iff`: when a number has the parts that were declared
- `ofMode_typed`: the type of a file is read back from its mode
-/

namespace ContainerAudit

namespace DeviceNumber

/-- A mask of the lowest bits. -/
private theorem getLsbD_lowMask (k : Nat) {i : Nat} (hi : i < 64) :
    (BitVec.ofNat 64 (2 ^ k - 1)).getLsbD i = decide (i < k) := by
  rw [BitVec.getLsbD_ofNat, Nat.testBit_two_pow_sub_one]
  simp [hi]

/-- The mask of the bits 8 to 19. -/
private theorem getLsbD_midMask : ∀ i < 64, (0xfff00#64).getLsbD i = decide (8 ≤ i ∧ i < 20) := by
  decide

/-- Each bit of a number comes from one of its parts: the lowest eight from the minor number, the
    next twelve from the major number, and the others from the minor number again. -/
theorem getLsbD_ofParts (major minor : UInt64) {i : Nat} (hi : i < 64) :
    (ofParts major minor).toBitVec.getLsbD i =
      if i < 8 then minor.toBitVec.getLsbD i
      else if i < 20 then major.toBitVec.getLsbD (i - 8)
      else minor.toBitVec.getLsbD (i - 12) := by
  have hshift8 : (8#64 % 64).toNat = 8 := rfl
  have hshift12 : (12#64 % 64).toNat = 12 := rfl
  have hminor : (0xff#64).getLsbD i = decide (i < 8) := getLsbD_lowMask 8 hi
  have hmajor : (0xfff#64).getLsbD (i - 8) = decide (i - 8 < 12) :=
    getLsbD_lowMask 12 (by omega)
  have hrest : (0xff#64).getLsbD (i - 12) = decide (i - 12 < 8) := getLsbD_lowMask 8 (by omega)
  simp only [ofParts, UInt64.toBitVec_or, UInt64.toBitVec_and, UInt64.toBitVec_shiftLeft,
    UInt64.toBitVec_not, UInt64.toBitVec_ofNat, BitVec.getLsbD_or, BitVec.getLsbD_and,
    BitVec.shiftLeft_eq', hshift8, hshift12, BitVec.getLsbD_shiftLeft, BitVec.getLsbD_not,
    hminor, hmajor, hrest]
  -- In each of the three ranges exactly one of the parts counts.
  by_cases hlow : i < 8
  · have h12 : i < 12 := by omega
    simp [hlow, h12]
  · by_cases hmid : i < 20
    · have hpart : i - 8 < 12 := by omega
      have hrest' : i < 12 ∨ i - 12 < 8 := by omega
      rcases hrest' with h | h <;> simp [hlow, hmid, hpart, hi, h]
    · have hpart : ¬i - 8 < 12 := by omega
      have h12 : ¬i < 12 := by omega
      have hrest' : ¬i - 12 < 8 := by omega
      have hle : i - 12 < 64 := by omega
      simp [hlow, hmid, hpart, hi, h12, hrest', hle]

/-- The parts of a number stand side by side: eight bits of the minor number, twelve of the major
    number, and as much of the rest of the minor number as there is room for. -/
private theorem toNat_ofParts (major minor : UInt64) :
    (ofParts major minor).toNat =
      2 ^ 20 * (minor.toNat / 2 ^ 8 % 2 ^ 44) +
        (2 ^ 8 * (major.toNat % 2 ^ 12) + minor.toNat % 2 ^ 8) := by
  have hlow : minor.toNat % 2 ^ 8 < 2 ^ 8 := Nat.mod_lt _ (by decide)
  have hmid : 2 ^ 8 * (major.toNat % 2 ^ 12) + minor.toNat % 2 ^ 8 < 2 ^ 20 := by omega
  apply Nat.eq_of_testBit_eq
  intro i
  rw [Nat.testBit_two_pow_mul_add _ hmid, Nat.testBit_two_pow_mul_add _ hlow]
  by_cases hi : i < 64
  · have hbit := getLsbD_ofParts major minor hi
    show (ofParts major minor).toBitVec.getLsbD i = _
    rw [hbit]
    -- The same three ranges as in the bits of a number.
    by_cases h8 : i < 8
    · have h20 : i < 20 := by omega
      simp only [h8, h20, if_true, Nat.testBit_mod_two_pow, decide_true, Bool.true_and]
      rfl
    · by_cases h20 : i < 20
      · have hpart : i - 8 < 12 := by omega
        simp only [h8, h20, hpart, if_true, if_false, Nat.testBit_mod_two_pow, decide_true,
          Bool.true_and]
        rfl
      · have hpart : i - 20 < 44 := by omega
        have hindex : i - 20 + 8 = i - 12 := by omega
        simp only [h8, h20, hpart, if_false, Nat.testBit_mod_two_pow, decide_true,
          Bool.true_and, Nat.testBit_div_two_pow, hindex]
        rfl
  · -- Above the word there is nothing: the highest bits of the minor number were shifted out.
    have hle : 2 ^ 64 ≤ 2 ^ i := Nat.pow_le_pow_right (by decide) (by omega)
    have hout : (ofParts major minor).toNat.testBit i = false := by
      apply Nat.testBit_lt_two_pow
      exact Nat.lt_of_lt_of_le (ofParts major minor).toNat_lt hle
    have h20 : ¬i < 20 := by omega
    have hpart : ¬i - 20 < 44 := by omega
    rw [hout, if_neg h20, Nat.testBit_mod_two_pow]
    simp [hpart]

/-- The bits of a major number are twelve of those of the number, from the eighth on. -/
theorem getLsbD_major (n : DeviceNumber) {i : Nat} (hi : i < 64) :
    n.major.toBitVec.getLsbD i = (decide (i < 12) && n.toBitVec.getLsbD (i + 8)) := by
  have hshift : (8#64 % 64).toNat = 8 := rfl
  have hmask : (0xfff#64).getLsbD i = decide (i < 12) := getLsbD_lowMask 12 hi
  simp only [major, UInt64.toBitVec_and, UInt64.toBitVec_shiftRight, UInt64.toBitVec_ofNat,
    BitVec.getLsbD_and, BitVec.ushiftRight_eq', hshift, BitVec.getLsbD_ushiftRight, hmask]
  rw [Bool.and_comm, Nat.add_comm]

/-- The bits of a minor number are the lowest eight of the number and the twelve above the major
    number. -/
theorem getLsbD_minor (n : DeviceNumber) {i : Nat} (hi : i < 64) :
    n.minor.toBitVec.getLsbD i =
      if i < 8 then n.toBitVec.getLsbD i
      else decide (i < 20) && n.toBitVec.getLsbD (i + 12) := by
  have hshift : (12#64 % 64).toNat = 12 := rfl
  have hmask : (0xff#64).getLsbD i = decide (i < 8) := getLsbD_lowMask 8 hi
  simp only [minor, UInt64.toBitVec_and, UInt64.toBitVec_or, UInt64.toBitVec_shiftRight,
    UInt64.toBitVec_ofNat, BitVec.getLsbD_and, BitVec.getLsbD_or, BitVec.ushiftRight_eq', hshift,
    BitVec.getLsbD_ushiftRight, hmask, getLsbD_midMask i hi]
  rw [Nat.add_comm i 12]
  -- The two masks do not overlap.
  by_cases hlow : i < 8
  · have hmid : ¬8 ≤ i := by omega
    simp [hlow, hmid]
  · simp [hlow, Nat.not_lt.mp hlow, Bool.and_comm]

/-- Twelve bits of a major number are kept. -/
theorem major_ofParts (major minor : UInt64) :
    (ofParts major minor).major = major &&& 0xfff := by
  apply UInt64.toBitVec_inj.mp
  apply BitVec.eq_of_getLsbD_eq
  intro i hi
  have hmask : (0xfff#64).getLsbD i = decide (i < 12) := getLsbD_lowMask 12 hi
  rw [getLsbD_major _ hi, UInt64.toBitVec_and, UInt64.toBitVec_ofNat, BitVec.getLsbD_and, hmask]
  by_cases h : i < 12
  · rw [getLsbD_ofParts major minor (by omega), if_neg (by omega), if_pos (by omega)]
    simp [h]
  · simp [h]

/-- Twenty bits of a minor number are read back. -/
theorem minor_ofParts (major minor : UInt64) :
    (ofParts major minor).minor = minor &&& 0xfffff := by
  apply UInt64.toBitVec_inj.mp
  apply BitVec.eq_of_getLsbD_eq
  intro i hi
  have hmask : (0xfffff#64).getLsbD i = decide (i < 20) := getLsbD_lowMask 20 hi
  rw [getLsbD_minor _ hi, UInt64.toBitVec_and, UInt64.toBitVec_ofNat, BitVec.getLsbD_and, hmask]
  -- The part above the major number is shifted up by twelve bits and down again.
  by_cases hlow : i < 8
  · have h20 : i < 20 := by omega
    rw [if_pos hlow, getLsbD_ofParts major minor hi, if_pos hlow]
    simp [h20]
  · rw [if_neg hlow]
    by_cases h : i < 20
    · rw [getLsbD_ofParts major minor (by omega), if_neg (by omega), if_neg (by omega)]
      simp [h]
    · simp [h]

/-- A mask of the lowest bits keeps small numbers. -/
private theorem toUInt64_and_lowMask {n : Int64} {k : Nat} (hk : k < 64) (hlo : 0 ≤ n.toInt)
    (hhi : n.toInt < 2 ^ k) : n.toUInt64 &&& UInt64.ofNat (2 ^ k - 1) = n.toUInt64 := by
  have hpow : 2 ^ k < 2 ^ 64 := Nat.pow_lt_pow_right (by decide) hk
  have hnat : n.toUInt64.toNat = n.toInt.toNat :=
    Int64.toNat_toUInt64_of_le (Int64.le_iff_toInt_le.mpr hlo)
  have hlt : n.toUInt64.toNat < 2 ^ k := by
    rw [hnat, Int.toNat_lt hlo]
    simpa using hhi
  apply UInt64.toNat_inj.mp
  rw [UInt64.toNat_and, UInt64.toNat_ofNat', Nat.mod_eq_of_lt (by omega)]
  exact Nat.and_two_pow_sub_one_of_lt_two_pow hlt

/-- Numbers that fit are read back as they were declared. -/
theorem toInt64_major_ofParts {major minor : Int64} (hlo : 0 ≤ major.toInt)
    (hhi : major.toInt ≤ 0xfff) :
    (ofParts major.toUInt64 minor.toUInt64).major.toInt64 = major := by
  have hmask : major.toUInt64 &&& 0xfff = major.toUInt64 :=
    toUInt64_and_lowMask (k := 12) (by decide) hlo (by omega)
  rw [major_ofParts, hmask, Int64.toInt64_toUInt64]

/-- Likewise for minor numbers, for which there is more room. -/
theorem toInt64_minor_ofParts {major minor : Int64} (hlo : 0 ≤ minor.toInt)
    (hhi : minor.toInt ≤ 0xfffff) :
    (ofParts major.toUInt64 minor.toUInt64).minor.toInt64 = minor := by
  have hmask : minor.toUInt64 &&& 0xfffff = minor.toUInt64 :=
    toUInt64_and_lowMask (k := 20) (by decide) hlo (by omega)
  rw [minor_ofParts, hmask, Int64.toInt64_toUInt64]

/-! ### The low bits of a number -/

/-- A mask of the lowest bits leaves a remainder. -/
private theorem toNat_and_lowMask (n : UInt64) {k : Nat} (hk : k < 64) :
    (n &&& UInt64.ofNat (2 ^ k - 1)).toNat = n.toNat % 2 ^ k := by
  have hpow : 2 ^ k < 2 ^ 64 := Nat.pow_lt_pow_right (by decide) hk
  rw [UInt64.toNat_and, UInt64.toNat_ofNat', Nat.mod_eq_of_lt (by omega),
    Nat.and_two_pow_sub_one_eq_mod]

/-- The parts of a number make up its lowest 32 bits. -/
theorem ofParts_major_minor (n : DeviceNumber) : ofParts n.major n.minor = n &&& 0xffffffff := by
  apply UInt64.toBitVec_inj.mp
  apply BitVec.eq_of_getLsbD_eq
  intro i hi
  have hmask : (0xffffffff#64).getLsbD i = decide (i < 32) := getLsbD_lowMask 32 hi
  rw [getLsbD_ofParts _ _ hi, UInt64.toBitVec_and, UInt64.toBitVec_ofNat, BitVec.getLsbD_and, hmask]
  -- Each range comes back from the part that it was read into.
  by_cases hlow : i < 8
  · have h32 : i < 32 := by omega
    rw [if_pos hlow, getLsbD_minor _ hi, if_pos hlow]
    simp [h32]
  · by_cases hmid : i < 20
    · have h12 : i - 8 < 12 := by omega
      have h32 : i < 32 := by omega
      rw [if_neg hlow, if_pos hmid, getLsbD_major _ (by omega), Nat.sub_add_cancel (by omega)]
      simp [h12, h32]
    · have hpart : i - 12 < 20 ↔ i < 32 := by omega
      rw [if_neg hlow, if_neg hmid, getLsbD_minor _ (by omega), if_neg (by omega),
        Nat.sub_add_cancel (by omega)]
      simp [hpart, Bool.and_comm]

/-- Over all words the parts of a number stand side by side, so neither reaches into the other: of a
    major number twelve bits are read back, of a minor number twenty, and of the number of a device
    its parts make up thirty-two. -/
theorem ofParts_wholeWords (major minor : UInt64) (n : DeviceNumber) :
    (ofParts major minor).toNat =
        2 ^ 20 * (minor.toNat / 2 ^ 8 % 2 ^ 44) +
          (2 ^ 8 * (major.toNat % 2 ^ 12) + minor.toNat % 2 ^ 8) ∧
      (ofParts major minor).major.toNat = major.toNat % 2 ^ 12 ∧
      (ofParts major minor).minor.toNat = minor.toNat % 2 ^ 20 ∧
      (ofParts n.major n.minor).toNat = n.toNat % 2 ^ 32 := by
  refine ⟨toNat_ofParts major minor, ?_, ?_, ?_⟩
  · rw [major_ofParts]
    exact toNat_and_lowMask major (k := 12) (by decide)
  · rw [minor_ofParts]
    exact toNat_and_lowMask minor (k := 20) (by decide)
  · rw [ofParts_major_minor]
    exact toNat_and_lowMask n (k := 32) (by decide)

/-- The bits above the lowest 32 count for neither part. -/
private theorem major_and_lowMask (n : DeviceNumber) : major (n &&& 0xffffffff) = n.major := by
  apply UInt64.toBitVec_inj.mp
  apply BitVec.eq_of_getLsbD_eq
  intro i hi
  rw [getLsbD_major _ hi, getLsbD_major _ hi, UInt64.toBitVec_and, UInt64.toBitVec_ofNat,
    BitVec.getLsbD_and]
  by_cases h : i < 12
  · have hmask : (0xffffffff#64).getLsbD (i + 8) = decide (i + 8 < 32) :=
      getLsbD_lowMask 32 (by omega)
    have h32 : i + 8 < 32 := by omega
    simp [hmask, h32]
  · simp [h]

/-- Likewise for the minor number. -/
private theorem minor_and_lowMask (n : DeviceNumber) : minor (n &&& 0xffffffff) = n.minor := by
  apply UInt64.toBitVec_inj.mp
  apply BitVec.eq_of_getLsbD_eq
  intro i hi
  have hmask {j : Nat} (hj : j < 32) : (0xffffffff#64).getLsbD j = true := by
    have hbit := getLsbD_lowMask 32 (i := j) (by omega)
    rwa [decide_eq_true hj] at hbit
  rw [getLsbD_minor _ hi, getLsbD_minor _ hi, UInt64.toBitVec_and, UInt64.toBitVec_ofNat,
    BitVec.getLsbD_and, BitVec.getLsbD_and]
  -- No bit of a minor number is taken from above the mask.
  by_cases hlow : i < 8
  · rw [if_pos hlow, if_pos hlow, hmask (by omega), Bool.and_true]
  · rw [if_neg hlow, if_neg hlow]
    by_cases h : i < 20
    · rw [hmask (by omega), Bool.and_true]
    · simp [h]

/-- A major number has at most twelve bits. -/
theorem toNat_major_lt (n : DeviceNumber) : n.major.toNat < 2 ^ 12 := by
  have hmask : n.major &&& UInt64.ofNat (2 ^ 12 - 1) = n.major := by
    have h := major_ofParts n.major n.minor
    rw [ofParts_major_minor, major_and_lowMask] at h
    exact h.symm
  rw [← hmask, toNat_and_lowMask _ (by decide)]
  exact Nat.mod_lt _ (by decide)

/-- A minor number has at most twenty bits. -/
theorem toNat_minor_lt (n : DeviceNumber) : n.minor.toNat < 2 ^ 20 := by
  have hmask : n.minor &&& UInt64.ofNat (2 ^ 20 - 1) = n.minor := by
    have h := minor_ofParts n.major n.minor
    rw [ofParts_major_minor, minor_and_lowMask] at h
    exact h.symm
  rw [← hmask, toNat_and_lowMask _ (by decide)]
  exact Nat.mod_lt _ (by decide)

/-- A word without its highest bit stands for the same number with a sign. -/
theorem toInt_toInt64 {n : UInt64} (h : n.toNat < 2 ^ 63) : n.toInt64.toInt = n.toNat := by
  have hlt : 2 * n.toBitVec.toNat < 2 ^ 64 := by
    rw [UInt64.toNat_toBitVec]
    omega
  exact BitVec.toInt_eq_toNat_of_lt hlt

/-- A number has the declared parts exactly if these fit and make up its lowest 32 bits. -/
theorem parts_eq_iff (n : DeviceNumber) (major minor : Int64) :
    (n.major.toNat : Int) = major.toInt ∧ (n.minor.toNat : Int) = minor.toInt ↔
      (0 ≤ major.toInt ∧ major.toInt < 2 ^ 12) ∧ (0 ≤ minor.toInt ∧ minor.toInt < 2 ^ 20) ∧
        (ofParts major.toUInt64 minor.toUInt64).toNat = n.toNat % 2 ^ 32 := by
  have hlow : (n &&& 0xffffffff).toNat = n.toNat % 2 ^ 32 :=
    toNat_and_lowMask n (k := 32) (by decide)
  have hcast {m : Int64} (hm : 0 ≤ m.toInt) : (m.toUInt64.toNat : Int) = m.toInt := by
    have hnat := Int64.toNat_toUInt64_of_le (Int64.le_iff_toInt_le.mpr hm)
    rw [hnat]
    exact Int.toNat_of_nonneg hm
  rw [← hlow, UInt64.toNat_inj]
  constructor
  · rintro ⟨hmajor, hminor⟩
    have hmajor_lt := toNat_major_lt n
    have hminor_lt := toNat_minor_lt n
    have hmajor_cast := hcast (m := major) (by omega)
    have hminor_cast := hcast (m := minor) (by omega)
    have hmajor_eq : major.toUInt64 = n.major := UInt64.toNat_inj.mp (by omega)
    have hminor_eq : minor.toUInt64 = n.minor := UInt64.toNat_inj.mp (by omega)
    refine ⟨by omega, by omega, ?_⟩
    rw [hmajor_eq, hminor_eq, ofParts_major_minor]
  · rintro ⟨⟨hmajor_lo, hmajor_hi⟩, ⟨hminor_lo, hminor_hi⟩, heq⟩
    -- The parts are those of the low bits, and these were made from the declared ones.
    have hmajor : n.major = major.toUInt64 := by
      rw [← major_and_lowMask, ← heq, major_ofParts]
      exact toUInt64_and_lowMask (k := 12) (by decide) hmajor_lo hmajor_hi
    have hminor : n.minor = minor.toUInt64 := by
      rw [← minor_and_lowMask, ← heq, minor_ofParts]
      exact toUInt64_and_lowMask (k := 20) (by decide) hminor_lo hminor_hi
    rw [hmajor, hminor]
    exact ⟨hcast hmajor_lo, hcast hminor_lo⟩

end DeviceNumber

/-! ## Modes -/

/-- What a mask leaves of a mode that was made from a type and permissions. -/
private theorem mode_and (type permissions mask : UInt32) :
    (type ||| (permissions &&& (0o777 : UInt32))) &&& mask =
      (type &&& mask) ||| (permissions &&& (0o777 &&& mask)) := by
  apply UInt32.toBitVec_inj.mp
  simp only [UInt32.toBitVec_and, UInt32.toBitVec_or]
  rw [BitVec.and_or_distrib_right, BitVec.and_assoc]

/-- The type of a file is read back from its mode. -/
theorem DeviceKind.ofMode_typed (type permissions : UInt32) :
    ofMode (type ||| (permissions &&& (0o777 : UInt32))) = ofMode type := by
  have hpermissions : (0o777 : UInt32) &&& typeMask = 0 := by decide
  unfold ofMode
  rw [mode_and, hpermissions]
  simp

/-- So are the permissions, if the type has no bits among them. -/
theorem mode_and_permissions {type : UInt32} (permissions : UInt32)
    (htype : type &&& (0o777 : UInt32) = 0) :
    (type ||| (permissions &&& (0o777 : UInt32))) &&& (0o777 : UInt32) =
      permissions &&& (0o777 : UInt32) := by
  have hmask : (0o777 : UInt32) &&& 0o777 = 0o777 := by decide
  rw [mode_and, htype, hmask]
  simp

end ContainerAudit
