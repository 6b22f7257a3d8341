import Contiki.Rime.Chameleon

/-!
# The bits of a packed header

What `set_bits` stores and `get_bits` reads, bit by bit.
-/

namespace Contiki.Rime

open Contiki.Lib

theorem testBit_bitmask {vallen bit : Nat} (small : vallen ≤ 8) :
    (bitmask vallen).testBit bit =
      decide (8 - vallen ≤ bit ∧ bit < 8) := by
  by_cases low : bit < 8
  case pos =>
    have table : ∀ vallen < 9, ∀ bit < 8, (bitmask vallen).testBit bit =
        decide (8 - vallen ≤ bit ∧ bit < 8) := by decide
    exact table vallen (by omega) bit low
  case neg =>
    have table : ∀ vallen < 9, bitmask vallen < 2 ^ 8 := by decide
    have below := table vallen (by omega)
    have high : 2 ^ 8 ≤ 2 ^ bit :=
      Nat.pow_le_pow_right (by decide) (Nat.le_of_not_lt low)
    rw [Nat.testBit_lt_two_pow (Nat.lt_of_lt_of_le below high)]
    simp [low]

theorem testBit_byte_of_ge (byte : UInt8) {bit : Nat} (high : 8 ≤ bit) :
    byte.toNat.testBit bit = false :=
  Nat.testBit_lt_two_pow (Nat.lt_of_lt_of_le byte.toNat_lt
    (Nat.pow_le_pow_right (by decide) high))

variable (memory : ByteMem) (ptr : Nat)

theorem testBit_twoBytes {bit : Nat} (small : bit < 16) :
    ((memory ptr).toNat <<< 8 ||| (memory (ptr + 1)).toNat).testBit bit =
      memory.bitAt (8 * ptr + (15 - bit)) := by
  rw [Nat.testBit_or, Nat.testBit_shiftLeft]
  by_cases low : bit < 8
  case pos =>
    have place : 8 * ptr + (15 - bit) = 8 * (ptr + 1) + (7 - bit) := by
      omega
    have index : 7 - (7 - bit) = bit := by omega
    have notHigh : ¬ 8 ≤ bit := by omega
    rw [place, ByteMem.bitAt_add _ _ (by omega), index]
    simp [notHigh]
  case neg =>
    have index : 7 - (15 - bit) = bit - 8 := by omega
    have isHigh : 8 ≤ bit := by omega
    rw [ByteMem.bitAt_add _ _ (by omega), index,
      testBit_byte_of_ge _ isHigh]
    simp [isHigh]

variable {bitpos vallen : Nat}

/-- `get_bits_in_byte` reads bits that may begin in one byte and end in the
next one. -/
theorem testBit_getBitsInByte (offset : bitpos < 8) (small : vallen ≤ 8)
    (bit : Nat) :
    (getBitsInByte memory ptr bitpos vallen).toNat.testBit bit =
      (decide (bit < vallen) &&
        memory.bitAt (8 * ptr + bitpos + (vallen - 1 - bit))) := by
  unfold getBitsInByte
  have below : bitmask vallen < 256 := by
    have table : ∀ vallen < 9, bitmask vallen < 256 := by decide
    exact table vallen (by omega)
  rw [testBit_toNat_ofNat (Nat.lt_of_le_of_lt
    (Nat.le_trans (Nat.shiftRight_le _ _) Nat.and_le_right) below)]
  rw [Nat.testBit_shiftRight, Nat.testBit_and, Nat.testBit_shiftRight,
    Nat.testBit_shiftLeft, testBit_bitmask small]
  by_cases inside : bit < vallen
  case pos =>
    have shifted : 8 + (8 - vallen + bit) ≥ bitpos := by omega
    have masked : 8 - vallen ≤ 8 - vallen + bit ∧ 8 - vallen + bit < 8 := by
      omega
    rw [testBit_twoBytes _ _ (by omega)]
    have place : 8 * ptr + (15 - (8 + (8 - vallen + bit) - bitpos)) =
        8 * ptr + bitpos + (vallen - 1 - bit) := by omega
    rw [place]
    simp [inside, shifted, masked]
  case neg =>
    have notMasked :
        ¬ (8 - vallen ≤ 8 - vallen + bit ∧ 8 - vallen + bit < 8) := by
      omega
    simp only [decide_eq_false notMasked, decide_eq_false inside,
      Bool.and_false, Bool.false_and]

/-- The bits of `shifted_val` in `set_bits_in_byte`. -/
theorem testBit_shiftedVal {bitpos vallen bit : Nat} {val : UInt8}
    (offset : bitpos < 8) (small : vallen ≤ 8)
    (fits : val.toNat < 2 ^ vallen) (inside : bit < 16) :
    ((val.toNat <<< (8 - bitpos + 8 - vallen)) % 65536).testBit bit =
      (decide (bitpos + bit < 16 ∧ 16 ≤ bitpos + vallen + bit) &&
        val.toNat.testBit (bitpos + vallen + bit - 16)) := by
  rw [show 65536 = 2 ^ 16 from rfl, Nat.testBit_mod_two_pow,
    Nat.testBit_shiftLeft]
  by_cases above : 8 - bitpos + 8 - vallen ≤ bit
  case neg =>
    have below : ¬ 16 ≤ bitpos + vallen + bit := by omega
    simp [above, below]
  case pos =>
    have index : bit - (8 - bitpos + 8 - vallen) =
        bitpos + vallen + bit - 16 := by omega
    have reaches : 16 ≤ bitpos + vallen + bit := by omega
    rw [index]
    by_cases within : bitpos + bit < 16
    case pos => simp [above, within, reaches, inside]
    case neg =>
      have clear : val.toNat.testBit (bitpos + vallen + bit - 16) = false :=
        Nat.testBit_lt_two_pow (Nat.lt_of_lt_of_le fits
          (Nat.pow_le_pow_right (by decide) (by omega)))
      simp [clear]

/-- `set_bits_in_byte` adds bits that may begin in one byte and end in the
next one. -/
theorem bitAt_setBitsInByte (target : Nat)
    {bitpos vallen : Nat} {val : UInt8} (offset : bitpos < 8)
    (small : vallen ≤ 8) (fits : val.toNat < 2 ^ vallen) (position : Nat) :
    (setBitsInByte memory target bitpos val vallen).bitAt position =
      (memory.bitAt position ||
        (decide (8 * target + bitpos ≤ position ∧
            position < 8 * target + bitpos + vallen) &&
          val.toNat.testBit
            (8 * target + bitpos + vallen - 1 - position))) := by
  have shiftedLt :
      (val.toNat <<< (8 - bitpos + 8 - vallen)) % 65536 < 65536 :=
    Nat.mod_lt _ (by decide)
  have added : ∀ bit < 16, 8 * target + (15 - bit) = position →
      ((val.toNat <<< (8 - bitpos + 8 - vallen)) % 65536).testBit bit =
        (decide (8 * target + bitpos ≤ position ∧
            position < 8 * target + bitpos + vallen) &&
          val.toNat.testBit
            (8 * target + bitpos + vallen - 1 - position)) := by
    intro bit inside place
    rw [testBit_shiftedVal offset small fits inside]
    have sameRange : (bitpos + bit < 16 ∧ 16 ≤ bitpos + vallen + bit) ↔
        8 * target + bitpos ≤ position ∧
          position < 8 * target + bitpos + vallen := by omega
    have sameBit : bitpos + vallen + bit - 16 =
        8 * target + bitpos + vallen - 1 - position := by omega
    rw [decide_eq_decide.mpr sameRange, sameBit]
  unfold setBitsInByte
  dsimp only
  rw [ByteMem.bitAt_store]
  by_cases second : position / 8 = target + 1
  case pos =>
    have known := added (7 - position % 8) (by omega) (by omega)
    have unchanged : memory.store target (memory target |||
        UInt8.ofNat
          (((val.toNat <<< (8 - bitpos + 8 - vallen)) % 65536) >>> 8))
        (target + 1) = memory (target + 1) :=
      if_neg (Nat.succ_ne_self target)
    rw [if_pos second, unchanged, UInt8.toNat_or, Nat.testBit_or,
      testBit_toNat_ofNat (Nat.lt_of_le_of_lt Nat.and_le_right (by decide)),
      Nat.testBit_and, known, ByteMem.bitAt, second]
    have isLow : (0xff).testBit (7 - position % 8) = true := by
      have table : ∀ bit < 8, (0xff).testBit bit = true := by decide
      exact table _ (by omega)
    rw [isLow, Bool.and_true]
  case neg =>
    rw [if_neg second, ByteMem.bitAt_store]
    by_cases first : position / 8 = target
    case pos =>
      have known := added (8 + (7 - position % 8)) (by omega) (by omega)
      have high :
          ((val.toNat <<< (8 - bitpos + 8 - vallen)) % 65536) >>> 8 <
            256 := by
        rw [Nat.shiftRight_eq_div_pow]
        omega
      rw [if_pos first, UInt8.toNat_or, Nat.testBit_or,
        testBit_toNat_ofNat high, Nat.testBit_shiftRight, known,
        ByteMem.bitAt, first]
    case neg =>
      have outside : ¬ (8 * target + bitpos ≤ position ∧
          position < 8 * target + bitpos + vallen) := by omega
      rw [if_neg first, decide_eq_false outside, Bool.false_and,
        Bool.or_false]

/-! ## Fields -/

theorem bitAt_copyBytes (val : ByteMem) (count position : Nat) :
    ((List.range count).foldl
        (fun memory i => memory.store (ptr + i) (val i)) memory).bitAt
        position =
      if 8 * ptr ≤ position ∧ position < 8 * ptr + 8 * count then
        (val ((position - 8 * ptr) / 8)).toNat.testBit
          (7 - (position - 8 * ptr) % 8)
      else memory.bitAt position := by
  induction count with
  | zero =>
      have outside : ¬ (8 * ptr ≤ position ∧
          position < 8 * ptr + 8 * 0) := by omega
      rw [if_neg outside]
      rfl
  | succ count inductionHypothesis =>
      rw [List.range_succ, List.foldl_append, List.foldl_cons,
        List.foldl_nil, ByteMem.bitAt_store, inductionHypothesis]
      by_cases here : position / 8 = ptr + count
      case pos =>
        have index : (position - 8 * ptr) / 8 = count := by omega
        have bit : (position - 8 * ptr) % 8 = position % 8 := by omega
        rw [if_pos here, if_pos (by omega), index, bit]
      case neg =>
        rw [if_neg here]
        by_cases before : 8 * ptr ≤ position ∧
            position < 8 * ptr + 8 * count
        case pos => rw [if_pos before, if_pos (by omega)]
        case neg => rw [if_neg before, if_neg (by omega)]

/-- The loop over whole bytes that are not at the start of a byte. -/
theorem bitAt_addBytes {bitpos : Nat}
    (offset : bitpos < 8) (val : ByteMem) (count position : Nat)
    (clear : ∀ other < 8 * count,
      memory.bitAt (8 * ptr + bitpos + other) = false) :
    ((List.range count).foldl
        (fun memory i => setBitsInByte memory (ptr + i) bitpos (val i) 8)
        memory).bitAt position =
      if 8 * ptr + bitpos ≤ position ∧
          position < 8 * ptr + bitpos + 8 * count then
        (val ((position - (8 * ptr + bitpos)) / 8)).toNat.testBit
          (7 - (position - (8 * ptr + bitpos)) % 8)
      else memory.bitAt position := by
  induction count with
  | zero =>
      have outside : ¬ (8 * ptr + bitpos ≤ position ∧
          position < 8 * ptr + bitpos + 8 * 0) := by omega
      rw [if_neg outside]
      rfl
  | succ count inductionHypothesis =>
      rw [List.range_succ, List.foldl_append, List.foldl_cons,
        List.foldl_nil, bitAt_setBitsInByte _ _ offset (Nat.le_refl 8)
          (val count).toNat_lt,
        inductionHypothesis fun other inside => clear other (by omega)]
      by_cases here : 8 * ptr + bitpos + 8 * count ≤ position ∧
          position < 8 * ptr + bitpos + 8 * (count + 1)
      case pos =>
        have index : (position - (8 * ptr + bitpos)) / 8 = count := by omega
        have bit : 8 * (ptr + count) + bitpos + 8 - 1 - position =
            7 - (position - (8 * ptr + bitpos)) % 8 := by omega
        have isClear : memory.bitAt position = false := by
          have known := clear (position - (8 * ptr + bitpos)) (by omega)
          rwa [Nat.add_sub_cancel' (by omega)] at known
        rw [if_neg (by omega), if_pos (by omega), index, bit, isClear,
          decide_eq_true (by omega), Bool.false_or, Bool.true_and]
      case neg =>
        rw [decide_eq_false (by omega), Bool.false_and, Bool.or_false]
        by_cases before : 8 * ptr + bitpos ≤ position ∧
            position < 8 * ptr + bitpos + 8 * count
        case pos => rw [if_pos before, if_pos (by omega)]
        case neg => rw [if_neg before, if_neg (by omega)]

/-- The bits behind `set_bits`, where there were no bits in the field. -/
theorem bitAt_setBits
    {val : ByteMem} (offset : bitpos < 8) (size : IsFieldSize vallen)
    (fits : Fits vallen val)
    (clear : ∀ other < vallen,
      memory.bitAt (8 * ptr + bitpos + other) = false) (position : Nat) :
    (setBits memory ptr bitpos val vallen).bitAt position =
      if 8 * ptr + bitpos ≤ position ∧
          position < 8 * ptr + bitpos + vallen then
        (val ((position - (8 * ptr + bitpos)) / 8)).toNat.testBit
          (fieldWidth vallen - 1 - (position - (8 * ptr + bitpos)) % 8)
      else memory.bitAt position := by
  unfold setBits
  by_cases small : vallen < 8
  case pos =>
    have width : fieldWidth vallen = vallen := if_pos small
    have bytes : fieldBytes vallen = 1 := if_pos small
    have fitsByte : (val 0).toNat < 2 ^ vallen := by
      have known := fits 0 (by omega)
      rwa [width] at known
    rw [if_pos small, bitAt_setBitsInByte _ _ offset (by omega) fitsByte]
    by_cases inside : 8 * ptr + bitpos ≤ position ∧
        position < 8 * ptr + bitpos + vallen
    case pos =>
      have isClear : memory.bitAt position = false := by
        have known := clear (position - (8 * ptr + bitpos)) (by omega)
        rwa [Nat.add_sub_cancel' (by omega)] at known
      have index : (position - (8 * ptr + bitpos)) / 8 = 0 := by omega
      have bit : 8 * ptr + bitpos + vallen - 1 - position =
          vallen - 1 - (position - (8 * ptr + bitpos)) % 8 := by omega
      rw [if_pos inside, decide_eq_true inside, isClear, index, bit, width,
        Bool.false_or, Bool.true_and]
    case neg =>
      rw [if_neg inside, decide_eq_false inside, Bool.false_and,
        Bool.or_false]
  case neg =>
    have width : fieldWidth vallen = 8 := if_neg small
    have whole := size.resolve_left small
    have count : 8 * (vallen / 8) = vallen := by omega
    rw [if_neg small]
    dsimp only
    rw [if_neg (not_not.mpr whole), if_neg (not_not.mpr whole), width]
    by_cases aligned : bitpos = 0
    case pos =>
      rw [if_pos aligned, bitAt_copyBytes, count, aligned, Nat.add_zero]
    case neg =>
      rw [if_neg aligned, bitAt_addBytes _ _ offset _ _ _
        (by rw [count]; exact clear), count]

/-- `set_bits` stores a field. -/
theorem encodes_setBits {val : ByteMem} (offset : bitpos < 8)
    (size : IsFieldSize vallen) (fits : Fits vallen val)
    (clear : ∀ other < vallen,
      memory.bitAt (8 * ptr + bitpos + other) = false) :
    Encodes (setBits memory ptr bitpos val vallen) (8 * ptr + bitpos) vallen
      val := by
  intro index isByte bit isBit
  have inside := size.inside isByte isBit
  have narrow := fieldWidth_le vallen
  have place : 8 * ptr + bitpos + 8 * index +
      (fieldWidth vallen - 1 - bit) - (8 * ptr + bitpos) =
      8 * index + (fieldWidth vallen - 1 - bit) := by omega
  have byte : (8 * index + (fieldWidth vallen - 1 - bit)) / 8 = index := by
    omega
  have isBit : fieldWidth vallen - 1 -
      (8 * index + (fieldWidth vallen - 1 - bit)) % 8 = bit := by omega
  rw [bitAt_setBits memory ptr offset size fits clear, if_pos (by omega),
    place, byte, isBit]

theorem foldl_store (to_ : ByteMem) (bytes : Nat → UInt8)
    (count index : Nat) :
    ((List.range count).foldl (fun to_ i => to_.store i (bytes i)) to_)
        index =
      if index < count then bytes index else to_ index := by
  induction count with
  | zero => rfl
  | succ count inductionHypothesis =>
      rw [List.range_succ, List.foldl_append, List.foldl_cons,
        List.foldl_nil, ByteMem.store, inductionHypothesis]
      by_cases here : index = count
      case pos => rw [if_pos here, if_pos (by omega), here]
      case neg =>
        rw [if_neg here]
        by_cases before : index < count
        case pos => rw [if_pos before, if_pos (by omega)]
        case neg => rw [if_neg before, if_neg (by omega)]

theorem getBitsInByte_aligned :
    getBitsInByte memory ptr 0 8 = memory ptr := by
  apply byte_ext
  intro bit small
  have place : 8 * ptr + 0 + (8 - 1 - bit) = 8 * ptr + (7 - bit) := by omega
  have index : 7 - (7 - bit) = bit := by omega
  rw [testBit_getBitsInByte memory ptr (by decide) (Nat.le_refl 8),
    decide_eq_true small, Bool.true_and, place,
    ByteMem.bitAt_add _ _ (by omega), index]

/-- `get_bits` stores the bytes of a field and keeps what is behind them. -/
theorem getBits_apply (to_ memory : ByteMem) (ptr : Nat)
    {bitpos vallen : Nat} (size : IsFieldSize vallen) (index : Nat) :
    getBits to_ memory ptr bitpos vallen index =
      if index < fieldBytes vallen then
        getBitsInByte memory (ptr + index) bitpos (fieldWidth vallen)
      else to_ index := by
  unfold getBits
  by_cases small : vallen < 8
  case pos =>
    have width : fieldWidth vallen = vallen := if_pos small
    have bytes : fieldBytes vallen = 1 := if_pos small
    rw [if_pos small, bytes, width, ByteMem.store]
    by_cases here : index = 0
    case pos => rw [if_pos here, if_pos (by omega), here, Nat.add_zero]
    case neg => rw [if_neg here, if_neg (by omega)]
  case neg =>
    have width : fieldWidth vallen = 8 := if_neg small
    have whole := size.resolve_left small
    have count : vallen / 8 = fieldBytes vallen := by
      rw [fieldBytes, if_neg small]
      omega
    rw [if_neg small, if_neg (not_not.mpr whole), width, count]
    by_cases aligned : bitpos = 0
    case pos =>
      rw [if_pos aligned, foldl_store, aligned, getBitsInByte_aligned]
    case neg => rw [if_neg aligned, foldl_store]

/-- `get_bits` reads the bits of a field. -/
theorem testBit_getBits (to_ memory : ByteMem) (ptr : Nat)
    {bitpos vallen : Nat} (offset : bitpos < 8) (size : IsFieldSize vallen)
    {index bit : Nat} (isByte : index < fieldBytes vallen) :
    (getBits to_ memory ptr bitpos vallen index).toNat.testBit bit =
      (decide (bit < fieldWidth vallen) &&
        memory.bitAt (8 * ptr + bitpos + 8 * index +
          (fieldWidth vallen - 1 - bit))) := by
  have place : 8 * (ptr + index) + bitpos = 8 * ptr + bitpos + 8 * index := by
    omega
  rw [getBits_apply to_ memory ptr size, if_pos isByte,
    testBit_getBitsInByte memory _ offset (fieldWidth_le vallen), place]

/-- `get_bits` gets back what a field holds. -/
theorem getBits_of_encodes {to_ memory : ByteMem} {ptr bitpos vallen : Nat}
    {val : ByteMem} (offset : bitpos < 8) (size : IsFieldSize vallen)
    (fits : Fits vallen val)
    (encodes : Encodes memory (8 * ptr + bitpos) vallen val) {index : Nat}
    (isByte : index < fieldBytes vallen) :
    getBits to_ memory ptr bitpos vallen index = val index := by
  apply byte_ext
  intro bit _
  rw [testBit_getBits to_ memory ptr offset size isByte]
  by_cases isBit : bit < fieldWidth vallen
  case pos =>
    rw [decide_eq_true isBit, Bool.true_and, encodes index isByte bit isBit]
  case neg =>
    rw [decide_eq_false isBit, Bool.false_and,
      Nat.testBit_lt_two_pow (Nat.lt_of_lt_of_le (fits index isByte)
        (Nat.pow_le_pow_right (by decide) (Nat.le_of_not_lt isBit)))]

end Contiki.Rime
