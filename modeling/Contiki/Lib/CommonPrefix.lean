import Mathlib.Data.List.Basic

/-!
# Common prefixes

How many elements two lists have in common from the beginning.
-/

namespace Contiki.Lib.CommonPrefix

variable {α : Type} [DecidableEq α]

def commonLength : List α → List α → Nat
  | first :: firsts, second :: seconds =>
      if first = second then commonLength firsts seconds + 1 else 0
  | _, _ => 0

theorem commonLength_cons (first second : α) (firsts seconds : List α) :
    commonLength (first :: firsts) (second :: seconds) =
      if first = second then commonLength firsts seconds + 1 else 0 :=
  rfl

theorem commonLength_append_left (shared firsts seconds : List α) :
    commonLength (shared ++ firsts) (shared ++ seconds) =
      shared.length + commonLength firsts seconds := by
  induction shared with
  | nil =>
      rw [List.nil_append, List.nil_append, List.length_nil, Nat.zero_add]
  | cons head tail inductionHypothesis =>
      rw [List.cons_append, List.cons_append, commonLength_cons, if_pos rfl,
        inductionHypothesis, List.length_cons]
      exact Nat.add_right_comm ..

theorem commonLength_append_of_ne {first second : List α}
    (sameLength : first.length = second.length) (different : first ≠ second)
    (firsts seconds : List α) :
    commonLength (first ++ firsts) (second ++ seconds) =
      commonLength first second := by
  induction first generalizing second with
  | nil =>
      exact absurd (List.eq_nil_of_length_eq_zero sameLength.symm).symm
        different
  | cons head tail inductionHypothesis =>
      cases second with
      | nil =>
          cases sameLength
      | cons other others =>
          rw [List.cons_append, List.cons_append, commonLength_cons,
            commonLength_cons]
          by_cases same : head = other
          · have tails : tail ≠ others := fun equal =>
              different (by rw [same, equal])
            rw [if_pos same, if_pos same,
              inductionHypothesis (Nat.succ.inj sameLength) tails]
          · rw [if_neg same, if_neg same]

theorem commonLength_bits (first second : List Bool) :
    commonLength first second =
      ((List.zipWith xor first second).takeWhile (!·)).length := by
  induction first generalizing second with
  | nil =>
      rfl
  | cons bit bits inductionHypothesis =>
      cases second with
      | nil =>
          rfl
      | cons other others =>
          rw [commonLength_cons, List.zipWith_cons_cons]
          by_cases same : bit = other
          · rw [if_pos same, same, Bool.xor_self,
              List.takeWhile_cons_of_pos rfl, List.length_cons,
              inductionHypothesis]
          · have differs : (!(bit ^^ other)) = false := by
              cases bit <;> cases other <;> simp_all
            rw [if_neg same, List.takeWhile_cons_of_neg (by simp [differs])]
            rfl

end Contiki.Lib.CommonPrefix
