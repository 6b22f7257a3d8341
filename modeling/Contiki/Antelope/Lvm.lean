import Contiki.Antelope.Value

/-!
# The logic engine

`lvm.c`: conditions in prefix notation, their execution, and the derivation
of ranges for the variables of a condition.

The bytecode is a memory of bytes.  How the C types of its parts are laid out
there is a parameter.  A function that does not end, because the code that
it reads does not end, has no result.
-/

namespace Contiki.Antelope

open Contiki.Lib

/-- `lvm_status_t` without its two truth values. -/
inductive LvmStatus where
  | invalidIdentifier
  | semanticError
  | mathError
  | stackOverflow
  | typeError
  | variableLimitReached
  | executionError
  | derivationError
  deriving DecidableEq

/-- `node_type_t`; a word in memory can have another value. -/
inductive NodeType where
  | arithOp
  | operand
  | cmpOp
  | other
  deriving DecidableEq

/-- `operator_t`; a word in memory can have another value, with or without
the bit of a connective. -/
inductive Operator where
  | add
  | sub
  | mul
  | div
  | eq
  | neq
  | ge
  | geq
  | le
  | leq
  | and
  | or
  | not
  | other (connective : Bool)
  deriving DecidableEq

/-- `IS_CONNECTIVE` -/
def Operator.isConnective : Operator → Bool
  | .and | .or | .not => true
  | .other connective => connective
  | _ => false

/-- `operand_type_t` -/
inductive OperandType where
  | variable
  | float
  | long
  | other
  deriving DecidableEq

/-- `long` -/
abbrev Long (machine : Machine) := BitVec machine.longBits

/-- `operand_t`; `value` is the `long` of its union. -/
structure Operand (machine : Machine) where
  type : OperandType
  value : Long machine
  deriving DecidableEq

def Operand.id {machine : Machine} (operand : Operand machine) : Nat :=
  operand.value.toNat % 2 ^ 8

/-- The representation of the parts of the bytecode. -/
structure Layout (machine : Machine) where
  nodeTypeSize : Nat
  operatorSize : Nat
  operandSize : Nat
  encodeNodeType : NodeType → List UInt8
  encodeOperator : Operator → List UInt8
  encodeOperand : Operand machine → List UInt8
  decodeNodeType : List UInt8 → NodeType
  decodeOperator : List UInt8 → Operator
  decodeOperand : List UInt8 → Operand machine
  length_nodeType : ∀ type, (encodeNodeType type).length = nodeTypeSize
  length_operator : ∀ op, (encodeOperator op).length = operatorSize
  length_operand : ∀ operand, (encodeOperand operand).length = operandSize
  decode_nodeType : ∀ type, decodeNodeType (encodeNodeType type) = type
  decode_operator : ∀ op, decodeOperator (encodeOperator op) = op
  decode_operand : ∀ operand,
    decodeOperand (encodeOperand operand) = operand

/-- `variable_t`; an entry without a name is free. -/
structure Variable (machine : Machine) where
  name : String
  value : Long machine

/-- The table of variables, and the memory behind it as it is read. -/
abbrev Variables (machine : Machine) := Nat → Variable machine

/-- The number of entries of `variables` and of `derivations`: one less than
there are identifiers. -/
def tableSize (maxVariableId : Nat) : Nat := maxVariableId - 1

/-- `derivation_t` -/
structure Derivation (machine : Machine) where
  min : Long machine
  max : Long machine
  derived : Bool

/-- A table of derivations, and the memory behind it as it is read. -/
abbrev Derivations (machine : Machine) := Nat → Derivation machine

def Derivations.zero {machine : Machine} : Derivations machine :=
  fun _ => { min := 0, max := 0, derived := false }

/-- What a function of the engine returns, if it ends. -/
abbrev Eval (α : Type) := ExceptT LvmStatus Option α

def Eval.fail {α : Type} (status : LvmStatus) : Eval α :=
  some (.error status)

variable {machine : Machine} (layout : Layout machine)

namespace Layout

/-- `get_type`, without the increment of `ip`. -/
def typeAt (code : ByteMem) (ip : Nat) : NodeType :=
  layout.decodeNodeType (code.read ip layout.nodeTypeSize)

/-- `get_operator` behind a node type. -/
def operatorAt (code : ByteMem) (ip : Nat) : Operator :=
  layout.decodeOperator
    (code.read (ip + layout.nodeTypeSize) layout.operatorSize)

/-- `get_operand` behind a node type. -/
def operandAt (code : ByteMem) (ip : Nat) : Operand machine :=
  layout.decodeOperand
    (code.read (ip + layout.nodeTypeSize) layout.operandSize)

/-- The position behind a node with an operator. -/
def afterOperator (ip : Nat) : Nat :=
  ip + layout.nodeTypeSize + layout.operatorSize

/-- The position behind a node with an operand. -/
def afterOperand (ip : Nat) : Nat :=
  ip + layout.nodeTypeSize + layout.operandSize

end Layout

/-! ## Execution -/

/-- `operand_to_long` -/
def operandToLong (vars : Variables machine)
    (operand : Operand machine) : Long machine :=
  match operand.type with
  | .long => operand.value
  | .variable => (vars operand.id).value
  | _ => 0

/-- The operation of `eval_expr`. -/
def arithmetic (op : Operator) (first second : Long machine) :
    Except LvmStatus (Long machine) :=
  match op with
  | .add => .ok (first + second)
  | .sub => .ok (first - second)
  | .mul => .ok (first * second)
  | .div =>
      if second = 0 then .error .mathError else .ok (first.sdiv second)
  | _ => .error .executionError

/-- The comparison of `eval_logic`. -/
def comparison (op : Operator) (first second : Long machine) :
    Except LvmStatus Bool :=
  match op with
  | .eq => .ok (first = second)
  | .neq => .ok (first ≠ second)
  | .ge => .ok (second.slt first)
  | .geq => .ok (second.sle first)
  | .le => .ok (first.slt second)
  | .leq => .ok (first.sle second)
  | _ => .error .executionError

/-- An operand of `eval_expr` or `eval_logic`, with the position behind
it. -/
def evalOperand (code : ByteMem) (vars : Variables machine)
    (evalExpr : Nat → Operator → Eval (Operand machine × Nat)) (ip : Nat) :
    Eval (Long machine × Nat) :=
  match layout.typeAt code ip with
  | .arithOp => do
      let (operand, ip) ←
        evalExpr (layout.afterOperator ip) (layout.operatorAt code ip)
      pure (operandToLong vars operand, ip)
  | .operand =>
      pure (operandToLong vars (layout.operandAt code ip),
        layout.afterOperand ip)
  | _ => Eval.fail .semanticError

/-- `eval_expr` -/
def evalExpr (code : ByteMem) (vars : Variables machine) :
    Nat → Nat → Operator → Eval (Operand machine × Nat)
  | 0, _, _ => none
  | fuel + 1, ip, op => do
      let (first, ip) ← evalOperand layout code vars
        (evalExpr code vars fuel) ip
      let (second, ip) ← evalOperand layout code vars
        (evalExpr code vars fuel) ip
      match arithmetic op first second with
      | .ok value => pure ({ type := .long, value := value }, ip)
      | .error status => Eval.fail status

def evalArgument (code : ByteMem)
    (evalLogic : Nat → Operator → Eval (Bool × Nat)) (ip : Nat) :
    Eval (Bool × Nat) :=
  if layout.typeAt code ip = .cmpOp then
    evalLogic (layout.afterOperator ip) (layout.operatorAt code ip)
  else Eval.fail .semanticError

/-- `eval_logic` -/
def evalLogic (code : ByteMem) (vars : Variables machine) :
    Nat → Nat → Operator → Eval (Bool × Nat)
  | 0, _, _ => none
  | fuel + 1, ip, op =>
      if op.isConnective then do
        let (first, ip) ←
          evalArgument layout code (evalLogic code vars fuel) ip
        if op = .not then pure (!first, ip)
        else do
          let (second, ip) ←
            evalArgument layout code (evalLogic code vars fuel) ip
          pure (if op = .and then first && second else first || second, ip)
      else do
        let (first, ip) ← evalOperand layout code vars
          (evalExpr layout code vars fuel) ip
        let (second, ip) ← evalOperand layout code vars
          (evalExpr layout code vars fuel) ip
        match comparison op first second with
        | .ok value => pure (value, ip)
        | .error status => Eval.fail status

/-- `lvm_execute` -/
def lvmExecute (code : ByteMem) (vars : Variables machine)
    (fuel : Nat) : Eval Bool :=
  if layout.typeAt code 0 = .cmpOp then do
    let (value, _) ← evalLogic layout code vars fuel
      (layout.afterOperator 0) (layout.operatorAt code 0)
    pure value
  else Eval.fail .executionError

/-! ## Derivation -/

/-- The range of a variable in both derivations, if it is derived at all:
`both` combines two ranges. -/
def combine (both : Derivation machine → Derivation machine →
      Derivation machine)
    (result first second : Derivations machine) (maxVariableId : Nat) :
    Derivations machine := fun id =>
  if maxVariableId ≤ id then result id
  else if ¬ (first id).derived ∧ ¬ (second id).derived then result id
  else if (first id).derived ∧ ¬ (second id).derived then
    { first id with derived := true }
  else if ¬ (first id).derived ∧ (second id).derived then
    { second id with derived := true }
  else { both (first id) (second id) with derived := true }

/-- `create_intersection` -/
def createIntersection (result first second : Derivations machine)
    (maxVariableId : Nat) : Derivations machine :=
  combine (fun first second =>
    { min := if second.min.slt first.min then first.min else second.min
      max := if first.max.slt second.max then first.max else second.max
      derived := true }) result first second maxVariableId

/-- `create_union` -/
def createUnion (result first second : Derivations machine)
    (maxVariableId : Nat) : Derivations machine :=
  combine (fun first second =>
    { min := if second.min.slt first.min then second.min else first.min
      max := if first.max.slt second.max then second.max else first.max
      derived := true }) result first second maxVariableId

/-- The range that a comparison of a variable with a constant gives. -/
def deriveComparison (op : Operator) (value : Long machine) :
    Option (Derivation machine) :=
  let low := BitVec.intMin machine.longBits
  let high := BitVec.intMax machine.longBits
  match op with
  | .eq => some { min := value, max := value, derived := true }
  | .ge => some { min := value + 1, max := high, derived := true }
  | .geq => some { min := value, max := high, derived := true }
  | .le => some { min := low, max := value - 1, derived := true }
  | .leq => some { min := low, max := value, derived := true }
  | _ => none

/-- The comparison part of `derive_relation`, for its two operands. -/
def deriveOperands (maxVariableId : Nat) (op : Operator)
    (first second : Operand machine) (local_ : Derivations machine) :
    Option (Derivations machine) :=
  if first.type = .variable ∧ second.type = .variable then none
  else
    let (id, value) :=
      if first.type = .variable then (first.id, second.value)
      else (second.id, first.value)
    if maxVariableId ≤ id then none
    else (deriveComparison op value).map fun derivation =>
      Function.update local_ id derivation

/-- `derive_relation` -/
def deriveRelation (code : ByteMem) (maxVariableId : Nat) :
    Nat → Nat → Derivations machine → Eval (Derivations machine × Nat)
  | 0, _, _ => none
  | fuel + 1, ip, local_ =>
      let op := layout.operatorAt code ip
      let ip := layout.afterOperator ip
      if op.isConnective then
        if op ≠ .and ∧ op ≠ .or then Eval.fail .derivationError
        else do
          let (first, ip) ← deriveRelation code maxVariableId fuel ip .zero
          let (second, ip) ← deriveRelation code maxVariableId fuel ip .zero
          pure (if op = .and then
              createIntersection local_ first second maxVariableId
            else createUnion local_ first second maxVariableId, ip)
      else if layout.typeAt code ip ≠ .operand then
        Eval.fail .derivationError
      else
        let second := layout.afterOperand ip
        if layout.typeAt code second ≠ .operand then
          Eval.fail .derivationError
        else
          match deriveOperands maxVariableId op (layout.operandAt code ip)
              (layout.operandAt code second) local_ with
          | some local_ => pure (local_, layout.afterOperand second)
          | none => Eval.fail .derivationError

/-- `lvm_derive` behind `lvm_reset`.  The last identifier has no entry in
`derivations`: what is there, and all that is there when it is written, is a
parameter. -/
def lvmDerive (code : ByteMem) (maxVariableId : Nat)
    (behind : Derivations machine → Derivations machine) (fuel : Nat) :
    Eval (Derivations machine) := do
  let (derivations, _) ←
    deriveRelation layout code maxVariableId fuel 0 .zero
  let outside := (derivations (tableSize maxVariableId)).derived
  pure fun id =>
    if id < tableSize maxVariableId ∧ ¬ outside then derivations id
    else behind derivations id

/-- `lvm_get_derived_range` -/
def lvmGetDerivedRange (vars : Variables machine)
    (derivations : Derivations machine) (maxVariableId : Nat)
    (name : String) : Except LvmStatus (Long machine × Long machine) :=
  match (List.range maxVariableId).find?
      fun id => (vars id).name = name with
  | some id =>
      if (derivations id).derived then
        .ok ((derivations id).min, (derivations id).max)
      else .error .derivationError
  | none => .error .invalidIdentifier

/-! ## A layout -/

namespace Ilp32

/-- A word with a value of less than a byte, least significant byte
first. -/
def word (value : UInt8) : List UInt8 := [value, 0, 0, 0]

def encodeNodeType : NodeType → List UInt8
  | .arithOp => word 0x10
  | .operand => word 0x20
  | .cmpOp => word 0x40
  | .other => word 0

def decodeNodeType (bytes : List UInt8) : NodeType :=
  if bytes = word 0x10 then .arithOp
  else if bytes = word 0x20 then .operand
  else if bytes = word 0x40 then .cmpOp
  else .other

def encodeOperator : Operator → List UInt8
  | .add => word 0x11
  | .sub => word 0x12
  | .mul => word 0x13
  | .div => word 0x14
  | .eq => word 0x41
  | .neq => word 0x42
  | .ge => word 0x43
  | .geq => word 0x44
  | .le => word 0x45
  | .leq => word 0x46
  | .and => word 0x81
  | .or => word 0x82
  | .not => word 0x83
  | .other connective => word (if connective then 0x80 else 0)

def decodeOperator (bytes : List UInt8) : Operator :=
  if bytes = word 0x11 then .add
  else if bytes = word 0x12 then .sub
  else if bytes = word 0x13 then .mul
  else if bytes = word 0x14 then .div
  else if bytes = word 0x41 then .eq
  else if bytes = word 0x42 then .neq
  else if bytes = word 0x43 then .ge
  else if bytes = word 0x44 then .geq
  else if bytes = word 0x45 then .le
  else if bytes = word 0x46 then .leq
  else if bytes = word 0x81 then .and
  else if bytes = word 0x82 then .or
  else if bytes = word 0x83 then .not
  else .other ((bytes.headD 0) &&& 0x80 ≠ 0)

def encodeOperandType : OperandType → List UInt8
  | .variable => word 0
  | .float => word 1
  | .long => word 2
  | .other => word 3

def decodeOperandType (bytes : List UInt8) : OperandType :=
  if bytes = word 0 then .variable
  else if bytes = word 1 then .float
  else if bytes = word 2 then .long
  else .other

def encodeLong (value : BitVec 32) : List UInt8 :=
  [UInt8.ofNat value.toNat, UInt8.ofNat (value.toNat / 2 ^ 8),
    UInt8.ofNat (value.toNat / 2 ^ 16), UInt8.ofNat (value.toNat / 2 ^ 24)]

def decodeLong : List UInt8 → BitVec 32
  | [first, second, third, fourth] =>
      BitVec.ofNat 32 (first.toNat + second.toNat * 2 ^ 8 +
        third.toNat * 2 ^ 16 + fourth.toNat * 2 ^ 24)
  | _ => 0

theorem decode_encodeLong (value : BitVec 32) :
    decodeLong (encodeLong value) = value := by
  unfold decodeLong encodeLong
  apply BitVec.eq_of_toNat_eq
  have bound := value.isLt
  rw [BitVec.toNat_ofNat]
  simp only [UInt8.toNat_ofNat']
  omega

end Ilp32

def Layout.ilp32 : Layout .ilp32 where
  nodeTypeSize := 4
  operatorSize := 4
  operandSize := 8
  encodeNodeType := Ilp32.encodeNodeType
  encodeOperator := Ilp32.encodeOperator
  encodeOperand operand :=
    Ilp32.encodeOperandType operand.type ++ Ilp32.encodeLong operand.value
  decodeNodeType := Ilp32.decodeNodeType
  decodeOperator := Ilp32.decodeOperator
  decodeOperand bytes :=
    { type := Ilp32.decodeOperandType (bytes.take 4)
      value := Ilp32.decodeLong (bytes.drop 4) }
  length_nodeType type := by cases type <;> rfl
  length_operator op := by cases op <;> rfl
  length_operand operand := by
    obtain ⟨type, value⟩ := operand
    cases type <;> rfl
  decode_nodeType type := by cases type <;> decide
  decode_operator op := by
    cases op with
    | other connective => cases connective <;> decide
    | _ => decide
  decode_operand operand := by
    obtain ⟨type, value⟩ := operand
    have isLong := Ilp32.decode_encodeLong value
    cases type <;> exact congrArg (Operand.mk _) isLong

end Contiki.Antelope
