import Mathlib.Data.Nat.ModEq
import Mathlib.Tactic.Common

/-!
# Sums in ones' complement

The 16-bit words of a list of bytes are added with an end-around carry.  Such
a sum is the number that their total is modulo 65535, and 0 only for words
that are all 0: other multiples of 65535 have the sum 65535.
-/

namespace Contiki.Lib.OnesComplement

/-- The word with a high and a low byte. -/
def word (high low : UInt8) : Nat :=
  high.toNat * 256 + low.toNat

/-- The total of the words of a list; the last byte of a list of odd length
is a high byte. -/
def total : List UInt8 → Nat
  | high :: low :: rest => word high low + total rest
  | [high] => word high 0
  | [] => 0

/-- The bytes padded to words: a list of odd length ends with a byte 0. -/
def padded (data : List UInt8) : List UInt8 :=
  if data.length % 2 = 1 then data ++ [0] else data

/-- The 16-bit sum in ones' complement of words with this total. -/
def onesSum (number : Nat) : Nat :=
  if number = 0 then 0 else (number - 1) % 65535 + 1

/-- A sum of words with this total. -/
structure Folds (sum : UInt16) (number : Nat) : Prop where
  modEq : sum.toNat ≡ number [MOD 65535]
  eq_zero_iff : sum = 0 ↔ number = 0

/-- Words with a total that checks: their sum has only bits that are set. -/
def Checks (number : Nat) : Prop :=
  number ≠ 0 ∧ number % 65535 = 0

instance (number : Nat) : Decidable (Checks number) :=
  inferInstanceAs (Decidable (_ ∧ _))

theorem Folds.toNat_eq {sum : UInt16} {number : Nat}
    (folds : Folds sum number) : sum.toNat = onesSum number := by
  have bound := sum.toNat_lt
  have isZero := folds.eq_zero_iff
  rw [← UInt16.toNat_inj] at isZero
  change sum.toNat = 0 ↔ number = 0 at isZero
  have modEq := folds.modEq
  unfold Nat.ModEq at modEq
  unfold onesSum
  split <;> omega

theorem folds_ofNat {number : Nat} (small : number < 65536) :
    Folds (UInt16.ofNat number) number := by
  have value : (UInt16.ofNat number).toNat = number := by
    rw [UInt16.toNat_ofNat']
    omega
  refine ⟨by rw [value], ?_⟩
  rw [← UInt16.toNat_inj, value]
  rfl

def addCarry (sum term : UInt16) : UInt16 :=
  if sum + term < term then sum + term + 1 else sum + term

theorem Folds.addCarry {sum : UInt16} {number : Nat}
    (folds : Folds sum number) (term : UInt16) :
    Folds (addCarry sum term) (number + term.toNat) := by
  have sumLt := sum.toNat_lt
  have termLt := term.toNat_lt
  have add : (sum + term).toNat = (sum.toNat + term.toNat) % 65536 :=
    UInt16.toNat_add sum term
  have isZero := folds.eq_zero_iff
  rw [← UInt16.toNat_inj] at isZero
  change sum.toNat = 0 ↔ number = 0 at isZero
  have modEq := folds.modEq
  unfold Nat.ModEq at modEq
  unfold OnesComplement.addCarry
  split
  · next carry =>
      rw [UInt16.lt_iff_toNat_lt, add] at carry
      have value : (sum + term + 1).toNat =
          sum.toNat + term.toNat - 65535 := by
        rw [UInt16.toNat_add, add]
        change (_ + 1) % 65536 = _
        omega
      constructor
      · unfold Nat.ModEq
        rw [value]
        omega
      · rw [← UInt16.toNat_inj, value]
        change _ = 0 ↔ _
        omega
  · next noCarry =>
      rw [UInt16.lt_iff_toNat_lt, add] at noCarry
      have value : (sum + term).toNat = sum.toNat + term.toNat := by omega
      constructor
      · unfold Nat.ModEq
        rw [value]
        omega
      · rw [← UInt16.toNat_inj, value]
        change _ = 0 ↔ _
        omega

theorem Folds.checks {sum : UInt16} {number : Nat}
    (folds : Folds sum number) (notZero : number ≠ 0) :
    Checks (number + (~~~ sum).toNat) := by
  have bound := sum.toNat_lt
  have modEq := folds.modEq
  unfold Nat.ModEq at modEq
  have complement : (~~~ sum).toNat = 65535 - sum.toNat :=
    UInt16.toNat_not sum
  unfold Checks
  rw [complement]
  omega

/-- A word of 65535 does not change whether a total that is not 0 checks. -/
theorem checks_add_ones {number : Nat} :
    Checks (number + 65535) ↔ number = 0 ∨ Checks number := by
  unfold Checks
  omega

theorem total_append {first : List UInt8} (even : first.length % 2 = 0)
    (second : List UInt8) :
    total (first ++ second) = total first + total second := by
  induction first using total.induct with
  | case1 high low rest inductionHypothesis =>
      rw [List.length_cons, List.length_cons] at even
      rw [List.cons_append, List.cons_append, total, total,
        inductionHypothesis (by omega), Nat.add_assoc]
  | case2 high =>
      simp at even
  | case3 =>
      simp [total]

theorem total_padded (data : List UInt8) :
    total (padded data) = total data := by
  unfold padded
  split
  · next odd =>
      induction data using total.induct with
      | case1 high low rest inductionHypothesis =>
          rw [List.length_cons, List.length_cons] at odd
          rw [List.cons_append, List.cons_append, total, total,
            inductionHypothesis (by omega)]
      | case2 high =>
          simp [total]
      | case3 =>
          cases odd
  · rfl

theorem total_replace {first last : List UInt8} {a b : UInt8}
    (even : first.length % 2 = 0) :
    total (first ++ a :: b :: last) =
      total (first ++ 0 :: 0 :: last) + word a b := by
  rw [total_append even, total_append even, total, total]
  simp only [word, UInt8.toNat_zero]
  omega

theorem total_eq_zero_iff (data : List UInt8) :
    total data = 0 ↔ ∀ byte ∈ data, byte = 0 := by
  have isZero : ∀ byte : UInt8, byte.toNat = 0 ↔ byte = 0 := fun byte =>
    UInt8.toNat_inj (b := 0)
  induction data using total.induct with
  | case1 high low rest inductionHypothesis =>
      have highZero := isZero high
      have lowZero := isZero low
      rw [total, List.forall_mem_cons, List.forall_mem_cons]
      unfold word
      constructor
      · intro none
        exact ⟨highZero.1 (by omega), lowZero.1 (by omega),
          inductionHypothesis.1 (by omega)⟩
      · rintro ⟨noHigh, noLow, noRest⟩
        have none := inductionHypothesis.2 noRest
        have high := highZero.2 noHigh
        have low := lowZero.2 noLow
        omega
  | case2 high =>
      rw [total, List.forall_mem_singleton, ← isZero]
      unfold word
      simp
  | case3 =>
      simp [total]

end Contiki.Lib.OnesComplement
