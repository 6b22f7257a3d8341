import Contiki.Antelope.Clause

/-!
# Derived ranges

When the ranges that `lvm_derive` finds for the variables of a condition hold
in every assignment that fulfils the condition.
-/

namespace Contiki.Antelope

open Contiki.Lib

variable {machine : Machine} {layout : Layout machine} {code : ByteMem}
  {vars : Variables machine} {maxVariableId : Nat}

/-- `derive_relation` on a condition. -/
def Clause.derive (maxVariableId : Nat) :
    Clause machine → Derivations machine → Option (Derivations machine)
  | .compare op (.operand first) (.operand second), local_ =>
      deriveOperands maxVariableId op first second local_
  | .compare _ _ _, _ => none
  | .connective op left right, local_ =>
      match left.derive maxVariableId .zero,
          right.derive maxVariableId .zero with
      | some first, some second =>
          some (if op = .and then
              createIntersection local_ first second maxVariableId
            else createUnion local_ first second maxVariableId)
      | _, _ => none

theorem bind_eq_pure {α β : Type} {first : Eval α} {rest : α → Eval β}
    {result : β} (ends : (first >>= rest : Eval β) = pure result) :
    ∃ value, first = pure value ∧ rest value = pure result := by
  rcases first with _ | status | value
  · exact absurd ends (by rintro ⟨⟩)
  · exact absurd ends (by rintro ⟨⟩)
  · exact ⟨value, rfl, ends⟩

theorem fail_ne_pure {α : Type} {status : LvmStatus} {value : α} :
    (Eval.fail status : Eval α) ≠ pure value := by
  rintro ⟨⟩

theorem evalOperand_of_operand {ip : Nat}
    (isOperand : layout.typeAt code ip = .operand)
    (evalExpr : Nat → Operator → Eval (Operand machine × Nat)) :
    evalOperand layout code vars evalExpr ip =
      pure (operandToLong vars (layout.operandAt code ip),
        layout.afterOperand ip) := by
  unfold evalOperand
  rw [isOperand]

/-- Code that is derived and executed is a condition; the functions of the
engine do what those on the condition do. -/
theorem exists_clause {fuel ip next fuel' next' : Nat}
    {local_ derivations : Derivations machine} {value : Bool}
    (derives : deriveRelation layout code maxVariableId fuel ip local_ =
      pure (derivations, next))
    (executes : evalArgument layout code (evalLogic layout code vars fuel')
      ip = pure (value, next')) :
    ∃ clause : Clause machine, clause.At layout code ip next ∧
      clause.derive maxVariableId local_ = some derivations ∧
        next' = next ∧ clause.eval vars = .ok value := by
  induction fuel generalizing ip next fuel' next' local_ derivations
      value with
  | zero =>
      exact absurd derives (by rintro ⟨⟩)
  | succ fuel inductionHypothesis =>
      unfold evalArgument at executes
      by_cases isCmp : layout.typeAt code ip = .cmpOp
      · rw [if_pos isCmp] at executes
        cases fuel' with
        | zero => exact absurd executes (by rintro ⟨⟩)
        | succ fuel' =>
        unfold deriveRelation at derives
        unfold evalLogic at executes
        dsimp only at derives executes
        generalize isOp : layout.operatorAt code ip = op at derives executes
        by_cases connective : op.isConnective = true
        · rw [if_pos connective] at derives executes
          by_cases neither : op ≠ .and ∧ op ≠ .or
          · rw [if_pos neither] at derives
            exact absurd derives fail_ne_pure
          · rw [if_neg neither] at derives
            have isAndOr : op = .and ∨ op = .or := by
              by_contra noneOf
              exact neither (not_or.1 noneOf)
            have notNot : op ≠ .not := by
              rcases isAndOr with rfl | rfl <;> decide
            obtain ⟨⟨first, middle⟩, derivesLeft, derives⟩ :=
              bind_eq_pure derives
            obtain ⟨⟨second, last⟩, derivesRight, derives⟩ :=
              bind_eq_pure derives
            obtain ⟨⟨a, middle'⟩, executesLeft, executes⟩ :=
              bind_eq_pure executes
            rw [if_neg notNot] at executes
            obtain ⟨⟨b, last'⟩, executesRight, executes⟩ :=
              bind_eq_pure executes
            obtain ⟨left, leftAt, leftDerive, rfl, leftEval⟩ :=
              inductionHypothesis derivesLeft executesLeft
            obtain ⟨right, rightAt, rightDerive, rfl, rightEval⟩ :=
              inductionHypothesis derivesRight executesRight
            cases derives
            cases executes
            refine ⟨.connective op left right,
              ⟨isCmp, isOp, isAndOr, middle', leftAt, rightAt⟩, ?_, rfl, ?_⟩
            · unfold Clause.derive
              rw [leftDerive, rightDerive]
            · unfold Clause.eval
              rw [leftEval, rightEval]
        · rw [if_neg connective] at derives executes
          by_cases isFirst : layout.typeAt code (layout.afterOperator ip) =
              .operand
          · rw [if_neg (not_not_intro isFirst)] at derives
            by_cases isSecond : layout.typeAt code (layout.afterOperand
                (layout.afterOperator ip)) = .operand
            · rw [if_neg (not_not_intro isSecond)] at derives
              rw [evalOperand_of_operand isFirst, ok_bind,
                evalOperand_of_operand isSecond, ok_bind] at executes
              cases derived : deriveOperands maxVariableId op
                  (layout.operandAt code (layout.afterOperator ip))
                  (layout.operandAt code (layout.afterOperand
                    (layout.afterOperator ip))) local_ with
              | none =>
                  rw [derived] at derives
                  exact absurd derives fail_ne_pure
              | some result =>
                  rw [derived] at derives
                  cases derives
                  cases compared : comparison op
                      (operandToLong vars (layout.operandAt code
                        (layout.afterOperator ip)))
                      (operandToLong vars (layout.operandAt code
                        (layout.afterOperand
                          (layout.afterOperator ip)))) with
                  | error status =>
                      rw [compared] at executes
                      exact absurd executes fail_ne_pure
                  | ok result =>
                      rw [compared] at executes
                      cases executes
                      exact ⟨.compare op (.operand _) (.operand _),
                        ⟨isCmp, isOp, Bool.eq_false_iff.2 connective, _,
                          ⟨isFirst, rfl, rfl⟩, isSecond, rfl, rfl⟩,
                        derived, rfl, compared⟩
            · rw [if_pos isSecond] at derives
              exact absurd derives fail_ne_pure
          · rw [if_pos isFirst] at derives
            exact absurd derives fail_ne_pure
      · rw [if_neg isCmp] at executes
        exact absurd executes fail_ne_pure

/-! ## Soundness -/

/-- The variable with this number occurs in the condition. -/
def Clause.Mentions (id : Nat) : Clause machine → Prop
  | .compare _ (.operand first) (.operand second) =>
      (first.type = .variable ∧ first.id = id) ∨
        (second.type = .variable ∧ second.id = id)
  | .compare _ _ _ => False
  | .connective _ left right => left.Mentions id ∨ right.Mentions id

/-- No comparison has two constants; a constant is on the left of an equality
only; and both sides of a disjunction have the same variables. -/
def Clause.Derivable : Clause machine → Prop
  | .compare op (.operand first) (.operand second) =>
      (first.type = .variable ∧ second.type = .long) ∨
        (first.type = .long ∧ second.type = .variable ∧ op = .eq)
  | .compare _ _ _ => True
  | .connective op left right =>
      left.Derivable ∧ right.Derivable ∧
        (op ≠ .and → ∀ id, left.Mentions id ↔ right.Mentions id)

/-- The values of the derived variables are in their ranges. -/
def Derivations.Holds (derivations : Derivations machine)
    (vars : Variables machine) : Prop :=
  ∀ id, (derivations id).derived = true →
    (derivations id).min.toInt ≤ (vars id).value.toInt ∧
      (vars id).value.toInt ≤ (derivations id).max.toInt

theorem combine_derived {both : Derivation machine → Derivation machine →
      Derivation machine}
    {first second : Derivations machine} {id : Nat}
    (inFirst : (first id).derived = true → id < maxVariableId)
    (inSecond : (second id).derived = true → id < maxVariableId) :
    (combine both .zero first second maxVariableId id).derived = true ↔
      (first id).derived = true ∨ (second id).derived = true := by
  unfold combine
  by_cases outside : maxVariableId ≤ id
  · rw [if_pos outside]
    have notFirst := mt inFirst (Nat.not_lt.2 outside)
    have notSecond := mt inSecond (Nat.not_lt.2 outside)
    simp [Derivations.zero, notFirst, notSecond]
  · rw [if_neg outside]
    cases (first id).derived <;> cases (second id).derived <;>
      simp [Derivations.zero]

variable {width : Nat} {op : Operator}

theorem deriveComparison_derived {value : Long machine}
    {derivation : Derivation machine}
    (derives : deriveComparison op value = some derivation) :
    derivation.derived = true := by
  unfold deriveComparison at derives
  cases op <;> simp at derives <;> rw [← derives]

theorem deriveOperands_cases
    {first second : Operand machine} {derivations : Derivations machine}
    (derivable : (first.type = .variable ∧ second.type = .long) ∨
      (first.type = .long ∧ second.type = .variable ∧ op = .eq))
    (derives : deriveOperands maxVariableId op first second .zero =
      some derivations) :
    ∃ id value derivation, id < maxVariableId ∧
      deriveComparison op value = some derivation ∧
        derivations = Function.update Derivations.zero id derivation ∧
      ((first.type = .variable ∧ second.type = .long ∧ first.id = id ∧
          second.value = value) ∨
        (first.type = .long ∧ second.type = .variable ∧ second.id = id ∧
          first.value = value ∧ op = .eq)) := by
  unfold deriveOperands at derives
  rcases derivable with ⟨isVariable, isLong⟩ | ⟨isLong, isVariable, isEq⟩
  · rw [if_neg (by simp [isLong]), if_pos isVariable] at derives
    dsimp only at derives
    by_cases outside : maxVariableId ≤ first.id
    · rw [if_pos outside] at derives
      exact absurd derives (by simp)
    · rw [if_neg outside, Option.map_eq_some_iff] at derives
      obtain ⟨derivation, compared, isUpdate⟩ := derives
      exact ⟨_, _, derivation, Nat.not_le.1 outside, compared,
        isUpdate.symm, Or.inl ⟨isVariable, isLong, rfl, rfl⟩⟩
  · rw [if_neg (by simp [isLong]), if_neg (by simp [isLong])] at derives
    dsimp only at derives
    by_cases outside : maxVariableId ≤ second.id
    · rw [if_pos outside] at derives
      exact absurd derives (by simp)
    · rw [if_neg outside, Option.map_eq_some_iff] at derives
      obtain ⟨derivation, compared, isUpdate⟩ := derives
      exact ⟨_, _, derivation, Nat.not_le.1 outside, compared,
        isUpdate.symm, Or.inr ⟨isLong, isVariable, rfl, rfl, isEq⟩⟩

theorem Clause.derive_connective
    {left right : Clause machine} {derivations : Derivations machine}
    (derives : (Clause.connective op left right).derive maxVariableId .zero =
      some derivations) :
    ∃ first second, left.derive maxVariableId .zero = some first ∧
      right.derive maxVariableId .zero = some second ∧
        derivations = if op = .and then
            createIntersection .zero first second maxVariableId
          else createUnion .zero first second maxVariableId := by
  unfold Clause.derive at derives
  cases isFirst : left.derive maxVariableId .zero with
  | none =>
      rw [isFirst] at derives
      exact absurd derives (by simp)
  | some first =>
      cases isSecond : right.derive maxVariableId .zero with
      | none =>
          rw [isFirst, isSecond] at derives
          exact absurd derives (by simp)
      | some second =>
          rw [isFirst, isSecond] at derives
          exact ⟨first, second, rfl, rfl, (Option.some.inj derives).symm⟩

theorem Clause.derived_iff {clause : Clause machine}
    {derivations : Derivations machine} (derivable : clause.Derivable)
    (derives : clause.derive maxVariableId .zero = some derivations)
    (id : Nat) :
    ((derivations id).derived = true ↔ clause.Mentions id) ∧
      ((derivations id).derived = true → id < maxVariableId) := by
  induction clause generalizing derivations with
  | compare op left right =>
      cases left with
      | arith => exact absurd derives (by simp [Clause.derive])
      | operand first =>
          cases right with
          | arith => exact absurd derives (by simp [Clause.derive])
          | operand second =>
              obtain ⟨variableId, value, derivation, inside, compared, rfl,
                operands⟩ := deriveOperands_cases derivable derives
              have isDerived := deriveComparison_derived compared
              have derived_iff : (Function.update Derivations.zero variableId
                  derivation id).derived = true ↔ variableId = id := by
                by_cases same : id = variableId
                · subst same
                  rw [Function.update_self]
                  simp [isDerived]
                · rw [Function.update_of_ne same]
                  simp [Derivations.zero, Ne.symm same]
              rw [derived_iff]
              refine ⟨?_, fun same => same ▸ inside⟩
              unfold Clause.Mentions
              rcases operands with ⟨isVariable, isLong, rfl, -⟩ |
                ⟨isLong, isVariable, rfl, -⟩
              · simp [isVariable, isLong]
              · simp [isVariable, isLong]
  | connective op left right leftHypothesis rightHypothesis =>
      obtain ⟨first, second, isFirst, isSecond, rfl⟩ :=
        Clause.derive_connective derives
      obtain ⟨firstDerived, firstInside⟩ :=
        leftHypothesis derivable.1 isFirst
      obtain ⟨secondDerived, secondInside⟩ :=
        rightHypothesis derivable.2.1 isSecond
      have derived_iff : ((if op = .and then
            createIntersection Derivations.zero first second maxVariableId
          else createUnion Derivations.zero first second maxVariableId)
            id).derived = true ↔
          (first id).derived = true ∨ (second id).derived = true := by
        split
        · exact combine_derived firstInside secondInside
        · exact combine_derived firstInside secondInside
      rw [derived_iff]
      refine ⟨?_, fun derived => derived.elim firstInside secondInside⟩
      unfold Clause.Mentions
      rw [firstDerived, secondDerived]

theorem toInt_intMax_ge (value : BitVec width) :
    value.toInt ≤ (BitVec.intMax width).toInt := by
  have bound := BitVec.toInt_le (x := value)
  rcases Nat.eq_zero_or_pos width with rfl | positive
  · rw [BitVec.of_length_zero (x := value)]
    decide
  · have double : 2 * 2 ^ (width - 1) = 2 ^ width := by
      rw [← Nat.pow_succ', Nat.succ_eq_add_one, Nat.sub_add_cancel positive]
    have power : 0 < 2 ^ (width - 1) := Nat.two_pow_pos _
    have isMax : (BitVec.intMax width).toInt =
        ((2 ^ (width - 1) - 1 : Nat) : Int) := by
      rw [BitVec.toInt_eq_toNat_of_lt (by
        rw [BitVec.toNat_intMax]; omega), BitVec.toNat_intMax]
    rw [isMax]
    push_cast [Nat.cast_sub power]
    omega

theorem toInt_add_one (wide : 1 < width)
    {value larger : BitVec width} (less : value.toInt < larger.toInt) :
    (value + 1).toInt = value.toInt + 1 := by
  have upper := BitVec.two_mul_toInt_lt (x := larger)
  have lower := BitVec.le_two_mul_toInt (x := value)
  have isOne : (1 : BitVec width).toInt = 1 := BitVec.toInt_one wide
  rw [BitVec.toInt_add, isOne]
  refine Int.bmod_eq_of_le ?_ ?_
  · push_cast
    omega
  · push_cast
    omega

theorem toInt_sub_one (wide : 1 < width)
    {value smaller : BitVec width} (less : smaller.toInt < value.toInt) :
    (value - 1).toInt = value.toInt - 1 := by
  have upper := BitVec.two_mul_toInt_lt (x := value)
  have lower := BitVec.le_two_mul_toInt (x := smaller)
  have isOne : (1 : BitVec width).toInt = 1 := BitVec.toInt_one wide
  rw [BitVec.toInt_sub, isOne]
  refine Int.bmod_eq_of_le ?_ ?_
  · push_cast
    omega
  · push_cast
    omega

/-- A value that fulfils a comparison is in the range of the comparison. -/
theorem deriveComparison_holds
    {value constant : Long machine} {derivation : Derivation machine}
    (derives : deriveComparison op constant = some derivation)
    (fulfils : comparison op value constant = .ok true) :
    derivation.min.toInt ≤ value.toInt ∧
      value.toInt ≤ derivation.max.toInt := by
  have wide : 1 < machine.longBits :=
    lt_of_lt_of_le (by decide) machine.thirtyTwo_le
  have low := BitVec.toInt_intMin_le value
  have high := toInt_intMax_ge value
  unfold deriveComparison at derives
  unfold comparison at fulfils
  cases op with
  | eq =>
      have same : value = constant := by simpa using fulfils
      rw [← Option.some.inj derives, same]
      exact ⟨le_rfl, le_rfl⟩
  | ge =>
      have less : constant.toInt < value.toInt := by
        rw [← BitVec.slt_iff_toInt_lt]
        simpa using fulfils
      rw [← Option.some.inj derives]
      dsimp only
      rw [toInt_add_one wide less]
      exact ⟨less, high⟩
  | geq =>
      have atMost : constant.toInt ≤ value.toInt := by
        rw [← BitVec.sle_iff_toInt_le]
        simpa using fulfils
      rw [← Option.some.inj derives]
      exact ⟨atMost, high⟩
  | le =>
      have less : value.toInt < constant.toInt := by
        rw [← BitVec.slt_iff_toInt_lt]
        simpa using fulfils
      rw [← Option.some.inj derives]
      dsimp only
      rw [toInt_sub_one wide less]
      exact ⟨low, by omega⟩
  | leq =>
      have atMost : value.toInt ≤ constant.toInt := by
        rw [← BitVec.sle_iff_toInt_le]
        simpa using fulfils
      rw [← Option.some.inj derives]
      exact ⟨low, atMost⟩
  | add | sub | mul | div | neq | and | or | not | other =>
      exact absurd derives (by simp)

theorem createIntersection_holds {first second : Derivations machine}
    (inFirst : ∀ id, (first id).derived = true → id < maxVariableId)
    (inSecond : ∀ id, (second id).derived = true → id < maxVariableId)
    (holdsFirst : first.Holds vars) (holdsSecond : second.Holds vars) :
    (createIntersection .zero first second maxVariableId).Holds vars := by
  intro id derived
  have either := (combine_derived (inFirst id) (inSecond id)).1 derived
  have inside : ¬ maxVariableId ≤ id :=
    Nat.not_le.2 (either.elim (inFirst id) (inSecond id))
  have boundsFirst := holdsFirst id
  have boundsSecond := holdsSecond id
  unfold createIntersection combine
  rw [if_neg inside]
  cases isFirst : (first id).derived with
  | true =>
      cases isSecond : (second id).derived with
      | true =>
          obtain ⟨minFirst, maxFirst⟩ := boundsFirst isFirst
          obtain ⟨minSecond, maxSecond⟩ := boundsSecond isSecond
          simp only [not_true_eq_false, and_self, and_false,
            if_false, false_and]
          constructor
          · split
            · exact minFirst
            · exact minSecond
          · split
            · exact maxFirst
            · exact maxSecond
      | false =>
          simpa using boundsFirst isFirst
  | false =>
      cases isSecond : (second id).derived with
      | true =>
          simpa using boundsSecond isSecond
      | false =>
          rw [isFirst, isSecond] at either
          simp at either

theorem createUnion_holds {first second : Derivations machine}
    (inFirst : ∀ id, (first id).derived = true → id < maxVariableId)
    (inSecond : ∀ id, (second id).derived = true → id < maxVariableId)
    (same : ∀ id, (first id).derived = true ↔ (second id).derived = true)
    (holds : first.Holds vars ∨ second.Holds vars) :
    (createUnion .zero first second maxVariableId).Holds vars := by
  intro id derived
  have either := (combine_derived (inFirst id) (inSecond id)).1 derived
  have isFirst : (first id).derived = true :=
    either.elim (fun first => first) (same id).2
  have isSecond := (same id).1 isFirst
  unfold createUnion combine
  rw [if_neg (Nat.not_le.2 (inFirst id isFirst)), isFirst, isSecond]
  simp only [not_true_eq_false, and_self, and_false, if_false, false_and]
  constructor
  · split
    · rename_i less
      rw [BitVec.slt_iff_toInt_lt] at less
      rcases holds with holds | holds
      · exact le_trans (le_of_lt less) (holds id isFirst).1
      · exact (holds id isSecond).1
    · rename_i less
      rw [BitVec.slt_iff_toInt_lt] at less
      rcases holds with holds | holds
      · exact (holds id isFirst).1
      · exact le_trans (not_lt.1 less) (holds id isSecond).1
  · split
    · rename_i less
      rw [BitVec.slt_iff_toInt_lt] at less
      rcases holds with holds | holds
      · exact le_trans (holds id isFirst).2 (le_of_lt less)
      · exact (holds id isSecond).2
    · rename_i less
      rw [BitVec.slt_iff_toInt_lt] at less
      rcases holds with holds | holds
      · exact (holds id isFirst).2
      · exact le_trans (holds id isSecond).2 (not_lt.1 less)

theorem Clause.derive_holds {clause : Clause machine}
    {derivations : Derivations machine} (derivable : clause.Derivable)
    (derives : clause.derive maxVariableId .zero = some derivations)
    (fulfils : clause.eval vars = .ok true) : derivations.Holds vars := by
  induction clause generalizing derivations with
  | compare op left right =>
      cases left with
      | arith => exact absurd derives (by simp [Clause.derive])
      | operand first =>
          cases right with
          | arith => exact absurd derives (by simp [Clause.derive])
          | operand second =>
              obtain ⟨variableId, value, derivation, -, compared, rfl,
                operands⟩ := deriveOperands_cases derivable derives
              have holds : derivation.min.toInt ≤
                    (vars variableId).value.toInt ∧
                  (vars variableId).value.toInt ≤ derivation.max.toInt := by
                refine deriveComparison_holds compared ?_
                unfold Clause.eval Expr.eval operandToLong at fulfils
                rcases operands with ⟨isVariable, isLong, rfl, rfl⟩ |
                  ⟨isLong, isVariable, rfl, rfl, rfl⟩
                · rw [isVariable, isLong] at fulfils
                  exact fulfils
                · rw [isVariable, isLong] at fulfils
                  unfold comparison at fulfils ⊢
                  have equal : first.value = (vars second.id).value := by
                    simpa using fulfils
                  simp [equal]
              intro id derived
              by_cases same : id = variableId
              · subst same
                rw [Function.update_self]
                exact holds
              · rw [Function.update_of_ne same] at derived
                exact absurd derived (by simp [Derivations.zero])
  | connective op left right leftHypothesis rightHypothesis =>
      obtain ⟨first, second, isFirst, isSecond, rfl⟩ :=
        Clause.derive_connective derives
      have firstDerived := fun id =>
        Clause.derived_iff derivable.1 isFirst id
      have secondDerived := fun id =>
        Clause.derived_iff derivable.2.1 isSecond id
      have firstInside := fun id => (firstDerived id).2
      have secondInside := fun id => (secondDerived id).2
      unfold Clause.eval at fulfils
      cases leftEval : left.eval vars with
      | error status =>
          rw [leftEval] at fulfils
          cases rightEval : right.eval vars <;>
            rw [rightEval] at fulfils <;> simp at fulfils
      | ok leftValue =>
          cases rightEval : right.eval vars with
          | error status =>
              rw [leftEval, rightEval] at fulfils
              simp at fulfils
          | ok rightValue =>
              rw [leftEval, rightEval] at fulfils
              by_cases isAnd : op = .and
              · rw [if_pos isAnd]
                simp [isAnd] at fulfils
                exact createIntersection_holds firstInside secondInside
                  (leftHypothesis derivable.1 isFirst
                    (by rw [leftEval, fulfils.1]))
                  (rightHypothesis derivable.2.1 isSecond
                    (by rw [rightEval, fulfils.2]))
              · rw [if_neg isAnd]
                simp [isAnd] at fulfils
                refine createUnion_holds firstInside secondInside
                  (fun id => ?_) ?_
                · rw [(firstDerived id).1, (secondDerived id).1]
                  exact derivable.2.2 isAnd id
                · rcases fulfils with fulfils | fulfils
                  · exact Or.inl (leftHypothesis derivable.1 isFirst
                      (by rw [leftEval, fulfils]))
                  · exact Or.inr (rightHypothesis derivable.2.1 isSecond
                      (by rw [rightEval, fulfils]))

/-- A condition that is derivable and whose variables have entries. -/
structure Clause.Fits (clause : Clause machine) (maxVariableId : Nat) :
    Prop where
  derivable : clause.Derivable
  inside : ∀ id, clause.Mentions id → id < tableSize maxVariableId

theorem Clause.Fits.notOutside {clause : Clause machine}
    (fits : clause.Fits maxVariableId) {derivations : Derivations machine}
    (derives : clause.derive maxVariableId .zero = some derivations) :
    ¬ (derivations (tableSize maxVariableId)).derived = true := by
  rw [(Clause.derived_iff fits.derivable derives _).1]
  intro mentions
  exact absurd (fits.inside _ mentions) (Nat.lt_irrefl _)

/-- In code whose condition is derivable and has variables of the table, a
range that `lvm_get_derived_range` reports for a variable of the table has its
value in every assignment in which the condition is true. -/
theorem lvmDerive_sound {behind : Derivations machine → Derivations machine}
    {fuel fuel' : Nat} {derivations : Derivations machine} {name : String}
    {min max : Long machine}
    (fits : ∀ clause : Clause machine, ∀ next,
      clause.At layout code 0 next → clause.Fits maxVariableId)
    (named : ∃ id, id < tableSize maxVariableId ∧ (vars id).name = name)
    (derives : lvmDerive layout code maxVariableId behind fuel =
      pure derivations)
    (executes : lvmExecute layout code vars fuel' = pure true)
    (reported : lvmGetDerivedRange vars derivations maxVariableId name =
      .ok (min, max)) :
    ∃ id, (vars id).name = name ∧ min.toInt ≤ (vars id).value.toInt ∧
      (vars id).value.toInt ≤ max.toInt := by
  obtain ⟨⟨result, next⟩, derivesRelation, isResult⟩ := bind_eq_pure derives
  cases isResult
  have executesArgument : ∃ next', evalArgument layout code
      (evalLogic layout code vars fuel') 0 = pure (true, next') := by
    unfold lvmExecute at executes
    by_cases isCmp : layout.typeAt code 0 = .cmpOp
    · rw [if_pos isCmp] at executes
      obtain ⟨⟨value, next'⟩, evaluates, isTrue⟩ := bind_eq_pure executes
      cases isTrue
      unfold evalArgument
      rw [if_pos isCmp]
      exact ⟨next', evaluates⟩
    · rw [if_neg isCmp] at executes
      exact absurd executes fail_ne_pure
  obtain ⟨next', executesArgument⟩ := executesArgument
  obtain ⟨clause, isAt, clauseDerives, -, fulfils⟩ :=
    exists_clause derivesRelation executesArgument
  have clauseFits := fits clause next isAt
  have holds := Clause.derive_holds clauseFits.derivable clauseDerives
    fulfils
  have notOutside := clauseFits.notOutside clauseDerives
  unfold lvmGetDerivedRange at reported
  cases found : (List.range maxVariableId).find?
      fun id => (vars id).name = name with
  | none =>
      rw [found] at reported
      exact absurd reported (by simp)
  | some id =>
      obtain ⟨isName, _, least⟩ := List.find?_range_eq_some.mp found
      obtain ⟨other, inTable, otherName⟩ := named
      have inside : id < tableSize maxVariableId := by
        by_contra behindTable
        have unnamed := least other (by omega)
        simp [otherName] at unnamed
      have inEntry : id < tableSize maxVariableId ∧
          ¬ (result (tableSize maxVariableId)).derived = true :=
        ⟨inside, notOutside⟩
      rw [found] at reported
      simp only [if_pos inEntry] at reported
      cases derived : (result id).derived with
      | false =>
          rw [derived] at reported
          exact absurd reported (by simp)
      | true =>
          rw [derived] at reported
          cases reported
          exact ⟨id, of_decide_eq_true isName, holds id derived⟩

/-! ## Comparisons with the constant on either side -/

section Examples

/-- The bytecode of a comparison of two operands. -/
def comparisonCode (op : Operator) (first second : Operand .ilp32) :
    ByteMem :=
  ByteMem.ofList (Ilp32.encodeNodeType .cmpOp ++ Ilp32.encodeOperator op ++
    Ilp32.encodeNodeType .operand ++ Layout.ilp32.encodeOperand first ++
      Ilp32.encodeNodeType .operand ++ Layout.ilp32.encodeOperand second)

def firstVariable : Operand .ilp32 := { type := .variable, value := 0 }

def constant (value : Long .ilp32) : Operand .ilp32 :=
  { type := .long, value := value }

/-- One variable `a`. -/
def onlyA (value : Long .ilp32) : Variables .ilp32 := fun id =>
  if id = 0 then { name := "a", value := value }
  else { name := "", value := 0 }

/-- From `10 < a` the range up to 9 is derived for `a`, but 20 fulfils the
condition. -/
theorem constantLeft_not_sound :
    ∃ derivations : Derivations .ilp32,
      let code := comparisonCode .le (constant 10) firstVariable
      lvmDerive Layout.ilp32 code 4 id 2 = pure derivations ∧
        lvmExecute Layout.ilp32 code (onlyA 20) 2 = pure true ∧
          lvmGetDerivedRange (onlyA 20) derivations 4 "a" =
            .ok (BitVec.intMin 32, 9) ∧
          ¬ ((onlyA 20) 0).value.toInt ≤ (9 : BitVec 32).toInt :=
  ⟨_, rfl, rfl, rfl, by decide⟩

/-- The range of `a < 5` has 3. -/
theorem constantRight_sound :
    ∃ id, ((onlyA 3) id).name = "a" ∧
      (BitVec.intMin 32).toInt ≤ ((onlyA 3) id).value.toInt ∧
        ((onlyA 3) id).value.toInt ≤ (4 : BitVec 32).toInt := by
  refine @lvmDerive_sound .ilp32 Layout.ilp32
    (comparisonCode .le firstVariable (constant 5)) (onlyA 3) 4 id 2 2 _ "a"
    (BitVec.intMin 32) 4 ?_ ⟨0, by decide, rfl⟩ rfl rfl rfl
  intro clause next isAt
  have isLe : Layout.ilp32.operatorAt
      (comparisonCode .le firstVariable (constant 5)) 0 = .le := by
    decide
  cases clause with
  | connective op left right =>
      obtain ⟨-, isOp, isConnective, -⟩ := isAt
      rw [isLe] at isOp
      subst isOp
      exact absurd isConnective (by decide)
  | compare op left right =>
      obtain ⟨-, -, -, middle, leftAt, rightAt⟩ := isAt
      cases left with
      | arith => exact absurd leftAt.1 (by decide)
      | operand first =>
          obtain ⟨-, isFirst, rfl⟩ := leftAt
          cases right with
          | arith => exact absurd rightAt.1 (by decide)
          | operand second =>
              obtain ⟨-, isSecond, -⟩ := rightAt
              rw [← isFirst, ← isSecond]
              refine ⟨Or.inl ⟨by decide, by decide⟩, ?_⟩
              rintro id (⟨-, rfl⟩ | ⟨isVariable, -⟩)
              · decide
              · exact absurd isVariable (by decide)

end Examples

end Contiki.Antelope
