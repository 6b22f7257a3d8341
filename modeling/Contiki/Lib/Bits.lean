import Mathlib.Data.Nat.Bitwise
import Contiki.Lib.ByteMem

/-!
# Masks and 16-bit words

A mask of the high bits clears the low bits of a number, and two bytes make a
word in network order.
-/

namespace Contiki.Lib

theorem toNat_add_of_le {first second : UInt8} {count : Nat}
    (isCount : second = UInt8.ofNat count)
    (fits : first.toNat + count ≤ 255) :
    (first + second).toNat = first.toNat + count := by
  rw [UInt8.toNat_add, isCount, UInt8.toNat_ofNat']
  omega

/-- Masking all but the lowest `shift` bits of a number of `width` bits. -/
theorem high_mask_and (shift : Nat) {width value : Nat}
    (bound : value < 2 ^ width) (inside : shift ≤ width) :
    (2 ^ (width - shift) - 1) <<< shift &&& value =
      value / 2 ^ shift * 2 ^ shift := by
  rw [← Nat.shiftRight_eq_div_pow, ← Nat.shiftLeft_eq]
  apply Nat.eq_of_testBit_eq
  intro bit
  simp only [Nat.testBit_and, Nat.testBit_shiftLeft,
    Nat.testBit_two_pow_sub_one, Nat.testBit_shiftRight]
  rcases Nat.lt_or_ge bit shift with below | above
  · simp [Nat.not_le.mpr below]
  · have index : shift + (bit - shift) = bit := by omega
    rw [index]
    rcases Nat.lt_or_ge bit width with low | high
    · have within : bit - shift < width - shift := by omega
      simp [above, within]
    · have clear : value.testBit bit = false :=
        Nat.testBit_lt_two_pow (Nat.lt_of_lt_of_le bound
          (Nat.pow_le_pow_right (by decide) high))
      simp [clear]

theorem low_mask_and (value shift : Nat) :
    value &&& 2 ^ shift - 1 = value % 2 ^ shift :=
  Nat.and_two_pow_sub_one_eq_mod value shift

theorem or_eq_add {shift high low : Nat} (aligned : high % 2 ^ shift = 0)
    (bound : low < 2 ^ shift) : high ||| low = high + low := by
  have shifted : high = (high / 2 ^ shift) <<< shift := by
    rw [Nat.shiftLeft_eq, Nat.div_mul_cancel
      (Nat.dvd_of_mod_eq_zero aligned)]
  rw [shifted]
  exact (Nat.shiftLeft_add_eq_or_of_lt bound _).symm

theorem word_eq (high low : UInt8) :
    high.toNat <<< 8 ||| low.toNat = high.toNat * 256 + low.toNat := by
  rw [← Nat.shiftLeft_add_eq_or_of_lt low.toNat_lt, Nat.shiftLeft_eq]

theorem and_mask_of_lt {value mask : UInt8} (bits : Nat)
    (isMask : mask.toNat = 2 ^ bits - 1) (bound : value.toNat < 2 ^ bits) :
    value &&& mask = value := by
  apply UInt8.toNat_inj.1
  rw [UInt8.toNat_and, isMask, low_mask_and, Nat.mod_eq_of_lt bound]

/-- A property of the elements of a list is checked for each of them, also
where all values of their type could be enumerated. -/
instance (priority := high) decidableForallMem {α : Type}
    (list : List α) (property : α → Prop) [DecidablePred property] :
    Decidable (∀ element ∈ list, property element) :=
  List.decidableBAll property list

theorem byte_eq_ofNat {byte : UInt8} {value : Nat}
    (same : byte.toNat = value) : byte = UInt8.ofNat value := by
  rw [← same, UInt8.ofNat_toNat]

end Contiki.Lib
