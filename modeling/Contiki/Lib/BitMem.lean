import Contiki.Lib.Bits

/-!
# The bits of a memory

The bits of a memory are numbered from the high bit of its first byte on.  A
field is a number of bits in a row; its bytes are stored one after the other,
a field of fewer than eight bits as one number.
-/

namespace Contiki.Lib

namespace ByteMem

def bitAt (memory : ByteMem) (position : Nat) : Bool :=
  (memory (position / 8)).toNat.testBit (7 - position % 8)

theorem bitAt_add (memory : ByteMem) (address : Nat) {index : Nat}
    (small : index < 8) :
    memory.bitAt (8 * address + index) =
      (memory address).toNat.testBit (7 - index) := by
  have quotient : (8 * address + index) / 8 = address := by omega
  have remainder : (8 * address + index) % 8 = index := by omega
  rw [bitAt, quotient, remainder]

def store (memory : ByteMem) (address : Nat) (byte : UInt8) : ByteMem :=
  fun other => if other = address then byte else memory other

theorem bitAt_store (memory : ByteMem) (address : Nat) (byte : UInt8)
    (position : Nat) :
    (memory.store address byte).bitAt position =
      if position / 8 = address then byte.toNat.testBit (7 - position % 8)
      else memory.bitAt position := by
  unfold bitAt store
  split <;> rfl

end ByteMem

theorem byte_ext {first second : UInt8}
    (same : ∀ bit < 8, first.toNat.testBit bit = second.toNat.testBit bit) :
    first = second := by
  apply UInt8.toNat_inj.1
  apply Nat.eq_of_testBit_eq
  intro bit
  by_cases small : bit < 8
  case pos => exact same bit small
  case neg =>
    have high : 2 ^ 8 ≤ 2 ^ bit :=
      Nat.pow_le_pow_right (by decide) (Nat.le_of_not_lt small)
    rw [Nat.testBit_lt_two_pow (Nat.lt_of_lt_of_le first.toNat_lt high),
      Nat.testBit_lt_two_pow (Nat.lt_of_lt_of_le second.toNat_lt high)]

theorem testBit_toNat_ofNat {value : Nat} (small : value < 256)
    (bit : Nat) :
    (UInt8.ofNat value).toNat.testBit bit = value.testBit bit := by
  rw [UInt8.toNat_ofNat_of_lt' small]

/-- The number of bytes of a field of so many bits. -/
def fieldBytes (bits : Nat) : Nat :=
  if bits < 8 then 1 else (bits + 7) / 8

/-- The number of bits in each byte of a field. -/
def fieldWidth (bits : Nat) : Nat :=
  if bits < 8 then bits else 8

/-- A field is less than a byte or a number of whole bytes. -/
def IsFieldSize (bits : Nat) : Prop :=
  bits < 8 ∨ bits % 8 = 0

instance (bits : Nat) : Decidable (IsFieldSize bits) :=
  inferInstanceAs (Decidable (_ ∨ _))

theorem fieldWidth_le (bits : Nat) : fieldWidth bits ≤ 8 := by
  unfold fieldWidth
  split <;> omega

theorem IsFieldSize.mul {bits : Nat} (size : IsFieldSize bits)
    (large : ¬ bits < 8) : bits = 8 * fieldBytes bits := by
  have whole := size.resolve_left large
  rw [fieldBytes, if_neg large]
  omega

/-- The bytes of a value have only the bits of a field. -/
def Fits (bits : Nat) (value : ByteMem) : Prop :=
  ∀ index < fieldBytes bits, (value index).toNat < 2 ^ fieldWidth bits

/-- The bits from a position on hold a value. -/
def Encodes (memory : ByteMem) (position bits : Nat) (value : ByteMem) :
    Prop :=
  ∀ index < fieldBytes bits, ∀ bit < fieldWidth bits,
    memory.bitAt (position + 8 * index + (fieldWidth bits - 1 - bit)) =
      (value index).toNat.testBit bit

theorem IsFieldSize.split {bits offset : Nat} (size : IsFieldSize bits)
    (inside : offset < bits) :
    ∃ index < fieldBytes bits, ∃ bit < fieldWidth bits,
      offset = 8 * index + (fieldWidth bits - 1 - bit) := by
  by_cases small : bits < 8
  case pos =>
    have width : fieldWidth bits = bits := if_pos small
    have bytes : fieldBytes bits = 1 := if_pos small
    exact ⟨0, by omega, bits - 1 - offset, by omega, by omega⟩
  case neg =>
    have width : fieldWidth bits = 8 := if_neg small
    have whole := size.mul small
    exact ⟨offset / 8, by omega, 7 - offset % 8, by omega, by omega⟩

theorem IsFieldSize.inside {bits index bit : Nat} (size : IsFieldSize bits)
    (isByte : index < fieldBytes bits) (isBit : bit < fieldWidth bits) :
    8 * index + (fieldWidth bits - 1 - bit) < bits := by
  by_cases small : bits < 8
  case pos =>
    have width : fieldWidth bits = bits := if_pos small
    have bytes : fieldBytes bits = 1 := if_pos small
    omega
  case neg =>
    have width : fieldWidth bits = 8 := if_neg small
    have whole := size.mul small
    omega

/-- A value is held by other memories with the same bits in its range. -/
theorem Encodes.congr {memory other : ByteMem}
    {position place bits : Nat} {value : ByteMem}
    (encodes : Encodes memory position bits value)
    (size : IsFieldSize bits)
    (same : ∀ offset < bits,
      other.bitAt (place + offset) = memory.bitAt (position + offset)) :
    Encodes other place bits value := by
  intro index isByte bit isBit
  have held := encodes index isByte bit isBit
  rw [Nat.add_assoc] at held ⊢
  rw [same _ (size.inside isByte isBit)]
  exact held

end Contiki.Lib
