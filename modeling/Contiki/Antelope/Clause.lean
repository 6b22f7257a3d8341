import Contiki.Antelope.Lvm

/-!
# Conditions as trees

What a condition means, and where the bytecode has one: the execution of a
condition that stands in the code gives its meaning.
-/

namespace Contiki.Antelope

open Contiki.Lib

variable {machine : Machine} (layout : Layout machine)

/-- An arithmetic expression. -/
inductive Expr (machine : Machine) where
  | operand (value : Operand machine)
  | arith (op : Operator) (left right : Expr machine)

/-- A comparison, or a conjunction or disjunction of conditions. -/
inductive Clause (machine : Machine) where
  | compare (op : Operator) (left right : Expr machine)
  | connective (op : Operator) (left right : Clause machine)

def Expr.eval (vars : Variables machine) :
    Expr machine → Except LvmStatus (Long machine)
  | .operand leaf => .ok (operandToLong vars leaf)
  | .arith op left right =>
      match left.eval vars, right.eval vars with
      | .ok first, .ok second => arithmetic op first second
      | .error status, _ => .error status
      | _, .error status => .error status

def Clause.eval (vars : Variables machine) :
    Clause machine → Except LvmStatus Bool
  | .compare op left right =>
      match left.eval vars, right.eval vars with
      | .ok first, .ok second => comparison op first second
      | .error status, _ => .error status
      | _, .error status => .error status
  | .connective op left right =>
      match left.eval vars, right.eval vars with
      | .ok first, .ok second =>
          .ok (if op = .and then first && second else first || second)
      | .error status, _ => .error status
      | _, .error status => .error status

/-- The code from `ip` to `next` is an expression. -/
def Expr.At (code : ByteMem) : Expr machine → Nat → Nat → Prop
  | .operand leaf, ip, next =>
      layout.typeAt code ip = .operand ∧
        layout.operandAt code ip = leaf ∧
          next = layout.afterOperand ip
  | .arith op left right, ip, next =>
      layout.typeAt code ip = .arithOp ∧ layout.operatorAt code ip = op ∧
        ∃ middle, left.At code (layout.afterOperator ip) middle ∧
          right.At code middle next

/-- The code from `ip` to `next` is a condition. -/
def Clause.At (code : ByteMem) : Clause machine → Nat → Nat → Prop
  | .compare op left right, ip, next =>
      layout.typeAt code ip = .cmpOp ∧ layout.operatorAt code ip = op ∧
        op.isConnective = false ∧
          ∃ middle, left.At layout code (layout.afterOperator ip) middle ∧
            right.At layout code middle next
  | .connective op left right, ip, next =>
      layout.typeAt code ip = .cmpOp ∧ layout.operatorAt code ip = op ∧
        (op = .and ∨ op = .or) ∧
          ∃ middle, left.At code (layout.afterOperator ip) middle ∧
            right.At code middle next

variable {layout}

theorem ok_bind {α β : Type} (value : α) (rest : α → Eval β) :
    (pure value >>= rest : Eval β) = rest value := rfl

end Contiki.Antelope
