import Mathlib.Algebra.Group.Nat.Even
import Contiki.Coap.Serialize
import Contiki.Coap.Parse

/-!
# Splitting and merging multi-segment strings

`coap_serialize_array_option` splits a string at a separator into one option
for each part, and `coap_merge_multi_option` joins the parts again.  The
splitting loop does not examine the byte behind a separator, so that it ends
at the end of the string exactly when the number of separators there is even.
-/

namespace Contiki.Coap

open Contiki.Lib

/-- The number of separators at the end of a string. -/
def trailingRun (separator : UInt8) (string : List UInt8) : Nat :=
  (string.reverse.takeWhile (· == separator)).length

/-- A string that is split and merged without loss: it does not start with a
separator and ends with an even number of them. -/
def Separable (separator : UInt8) (string : List UInt8) : Prop :=
  string.head? ≠ some separator ∧ Even (trailingRun separator string)

instance (separator : UInt8) (string : List UInt8) :
    Decidable (Separable separator string) :=
  inferInstanceAs (Decidable (_ ∧ _))

/-- The scan of the splitting loop reaches the end of the string. -/
def scanReachesEnd (separator : UInt8) : List UInt8 → Bool
  | [] => true
  | char :: rest =>
      if char = separator then
        match rest with
        | [] => false
        | _ :: rest => scanReachesEnd separator rest
      else scanReachesEnd separator rest

@[simp]
theorem scanReachesEnd_single (separator : UInt8) :
    scanReachesEnd separator [separator] = false := by
  simp [scanReachesEnd.eq_def]

@[simp]
theorem scanReachesEnd_separator (separator next : UInt8)
    (rest : List UInt8) :
    scanReachesEnd separator (separator :: next :: rest) =
      scanReachesEnd separator rest := by
  rw [scanReachesEnd.eq_def]
  simp

theorem scanReachesEnd_of_ne {separator char : UInt8}
    (different : char ≠ separator) (rest : List UInt8) :
    scanReachesEnd separator (char :: rest) =
      scanReachesEnd separator rest := by
  rw [scanReachesEnd.eq_def]
  simp [different]

theorem trailingRun_cons (separator char : UInt8)
    (rest : List UInt8) :
    trailingRun separator (char :: rest) =
      trailingRun separator rest +
        if trailingRun separator rest = rest.length ∧ char = separator
        then 1 else 0 := by
  unfold trailingRun
  rw [List.reverse_cons, List.takeWhile_append, List.length_reverse]
  by_cases all :
      (rest.reverse.takeWhile (· == separator)).length = rest.length
  · by_cases same : char = separator <;> simp [all, same]
  · simp [all]

theorem scanReachesEnd_iff (separator : UInt8) (string : List UInt8) :
    scanReachesEnd separator string = true ↔
      Even (trailingRun separator string) := by
  fun_induction scanReachesEnd separator string with
  | case1 =>
      simp [trailingRun]
  | case2 =>
      simp [trailingRun]
  | case3 next rest inductionHypothesis =>
      rw [inductionHypothesis, trailingRun_cons, trailingRun_cons]
      have bound : trailingRun separator rest ≤ rest.length := by
        have sub := (List.takeWhile_sublist (l := rest.reverse)
          (· == separator)).length_le
        simpa [trailingRun] using sub
      simp only [List.length_cons, and_true, Nat.even_iff]
      split_ifs <;> omega
  | case4 char rest different inductionHypothesis =>
      rw [inductionHypothesis, trailingRun_cons]
      simp [different]

/-! ## Parts -/

/-- The parts that the splitting loop writes as options. -/
def stringParts (array : ByteMem) (length : Nat) (splitChar : UInt8) :
    Nat → Nat → Nat → List (List UInt8)
  | 0, _, _ => []
  | fuel + 1, j, partStart =>
      if j ≤ length + 1 then
        if array j = splitChar ∨ j = length then
          array.read partStart (j - partStart) ::
            stringParts array length splitChar fuel (j + 2) (j + 1)
        else stringParts array length splitChar fuel (j + 1) partStart
      else []

/-- Options of one number that follow the option `currentNumber`. -/
def encodeParts (number : Nat) : Nat → List (List UInt8) → List UInt8
  | _, [] => []
  | currentNumber, part :: parts =>
      coapSetOptionHeader (number - currentNumber) part.length ++ part ++
        encodeParts number number parts

theorem serializeParts_eq (number : Nat) (array : ByteMem)
    (length : Nat) (splitChar : UInt8)
    (fuel j partStart currentNumber : Nat) :
    serializeParts number array length splitChar fuel j partStart
        currentNumber =
      encodeParts number currentNumber
        (stringParts array length splitChar fuel j partStart) := by
  induction fuel generalizing j partStart currentNumber with
  | zero =>
      rfl
  | succ fuel inductionHypothesis =>
      unfold serializeParts stringParts
      split
      · split
        · simp [encodeParts, inductionHypothesis]
        · exact inductionHypothesis ..
      · rfl

theorem stringParts_ne_nil (array : ByteMem) (length : Nat)
    (splitChar : UInt8) (fuel : Nat) {j partStart : Nat}
    (inside : j ≤ length) (enough : length < j + fuel) :
    stringParts array length splitChar fuel j partStart ≠ [] := by
  induction fuel generalizing j with
  | zero =>
      omega
  | succ fuel inductionHypothesis =>
      rw [stringParts, if_pos (by omega)]
      split
      · simp
      · next notSplit =>
          have different : j ≠ length := fun same =>
            notSplit (.inr same)
          exact inductionHypothesis (by omega) (by omega)

/-! ## Merging -/

/-- What `coap_merge_multi_option` makes of a string and one more part. -/
def mergePart (separator : UInt8) (merged part : List UInt8) :
    List UInt8 :=
  if merged = [] then part else merged ++ separator :: part

/-- The part of a string in front of the scan that has been merged. -/
structure MergedUpTo (separator : UInt8) (array : ByteMem)
    (partStart : Nat) (merged : List UInt8) : Prop where
  nonempty : merged ≠ []
  positive : 0 < partStart
  separator : array (partStart - 1) = separator
  merged : merged = array.read 0 (partStart - 1)

theorem mergePart_eq (separator : UInt8) (array : ByteMem)
    {partStart j : Nat} {merged : List UInt8} (ordered : partStart ≤ j)
    (before : (partStart = 0 ∧ merged = []) ∨
      MergedUpTo separator array partStart merged) :
    mergePart separator merged
        (array.read partStart (j - partStart)) =
      array.read 0 j := by
  rcases before with ⟨start, empty⟩ | upTo
  · rw [mergePart, if_pos empty, start, Nat.sub_zero]
  · rw [mergePart, if_neg upTo.nonempty]
    have positive := upTo.positive
    calc merged ++ separator :: array.read partStart (j - partStart)
        = array.read 0 (partStart - 1) ++
            array.read (partStart - 1) (j - partStart + 1) := by
          rw [upTo.merged, ByteMem.read_succ, upTo.separator,
            Nat.sub_add_cancel positive]
      _ = array.read 0 (partStart - 1 + (j - partStart + 1)) := by
          have whole := ByteMem.read_add array 0 (partStart - 1)
            (j - partStart + 1)
          rw [Nat.zero_add] at whole
          exact whole.symm
      _ = array.read 0 j := by
          rw [show partStart - 1 + (j - partStart + 1) = j by omega]

theorem merge_stringParts_aux {separator : UInt8} {array : ByteMem}
    {length : Nat} (fuel : Nat) {j partStart : Nat}
    {merged : List UInt8} (ordered : partStart ≤ j) (inside : j ≤ length)
    (enough : length < j + fuel)
    (reaches : scanReachesEnd separator
      (array.read j (length - j)) = true)
    (before :
      (partStart = 0 ∧ merged = [] ∧
        (length = 0 ∨ array 0 ≠ separator)) ∨
      MergedUpTo separator array partStart merged) :
    (stringParts array length separator fuel j partStart).foldl
        (mergePart separator) merged =
      array.read 0 length := by
  induction fuel generalizing j partStart merged with
  | zero =>
      omega
  | succ fuel inductionHypothesis =>
      have joined := mergePart_eq separator array ordered
        (before.imp_left fun start => ⟨start.1, start.2.1⟩)
      rw [stringParts, if_pos (by omega)]
      rcases Nat.lt_or_ge j length with more | atEnd
      swap
      · have last : j = length := by omega
        subst last
        rw [if_pos (.inr rfl), List.foldl_cons, joined]
        cases fuel with
        | zero =>
            rfl
        | succ fuel =>
            rw [stringParts, if_neg (by omega), List.foldl_nil]
      rw [show length - j = (length - (j + 1)) + 1 by omega,
        ByteMem.read_succ] at reaches
      by_cases atSeparator : array j = separator
      · rw [if_pos (.inl atSeparator), List.foldl_cons, joined]
        rw [atSeparator] at reaches
        rcases Nat.lt_or_ge (j + 1) length with two | one
        swap
        · rw [show length - (j + 1) = 0 by omega] at reaches
          simp at reaches
        rw [show length - (j + 1) = (length - (j + 2)) + 1 by omega,
          ByteMem.read_succ, scanReachesEnd_separator] at reaches
        apply inductionHypothesis (by omega) (by omega) (by omega) reaches
        right
        have positive : 0 < j := by
          rcases before with ⟨_, _, start⟩ | upTo
          · rcases start with none | different
            · omega
            · exact Nat.pos_of_ne_zero fun zero =>
                different (zero ▸ atSeparator)
          · exact Nat.lt_of_lt_of_le upTo.positive ordered
        exact
          { nonempty := by
              intro empty
              have zero := congrArg List.length empty
              rw [ByteMem.length_read] at zero
              simp only [List.length_nil] at zero
              omega
            positive := by omega
            separator := atSeparator
            merged := rfl }
      · rw [if_neg (by simp only [atSeparator, false_or]; omega)]
        rw [scanReachesEnd_of_ne atSeparator] at reaches
        exact inductionHypothesis (by omega) (by omega) (by omega)
          reaches before

theorem merge_stringParts {separator : UInt8} {array : ByteMem}
    {length : Nat}
    (separable : Separable separator (array.read 0 length)) :
    (stringParts array length separator (length + 2) 0 0).foldl
        (mergePart separator) [] =
      array.read 0 length := by
  apply merge_stringParts_aux (length + 2) (Nat.le_refl 0)
    (Nat.zero_le length) (by omega)
    ((scanReachesEnd_iff _ _).mpr separable.2)
  left
  refine ⟨rfl, rfl, ?_⟩
  cases length with
  | zero =>
      exact .inl rfl
  | succ length =>
      right
      intro starts
      apply separable.1
      rw [ByteMem.read_succ, List.head?_cons, starts]

end Contiki.Coap
