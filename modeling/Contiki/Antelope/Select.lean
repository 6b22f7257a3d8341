import Contiki.Antelope.Lvm
import Contiki.Antelope.Parser
import Contiki.Antelope.Row

/-!
# Selections

`relation_select`, `generate_attribute_map` and `relation_process_select` of
`relation.c` for queries without aggregates.  The condition is what
`lvm_execute` returns for the values of the variables; the iterators of the
indexes are a parameter.
-/

namespace Contiki.Antelope

open Contiki.Lib

/-! ## Setting up -/

/-- `LVM_MAX_VARIABLE_ID` -/
def lvmMaxVariableId : Nat := aqlAttributeLimit - 1

/-- `aql_attribute_t`: an attribute of a query, which may be there for the
condition only. -/
structure AqlAttribute where
  name : String
  noStore : Bool

/-- `aql_add_attribute`; the parser ignores its result. -/
def aqlAddAttribute (attributes : List AqlAttribute) (name : String)
    (processedOnly : Bool) : List AqlAttribute :=
  if attributes.length = aqlAttributeLimit then attributes
  else if processedOnly ∧ attributes.any fun attr => attr.name = name then
    attributes
  else attributes ++ [{ name := name, noStore := processedOnly }]

/-- The attributes of a `SELECT` of some names with a condition on some
variables. -/
def aqlAttributes (names variables_ : List String) : List AqlAttribute :=
  variables_.foldl (fun attributes name =>
      aqlAddAttribute attributes name true)
    (names.foldl (fun attributes name =>
      aqlAddAttribute attributes name false) [])

/-- `struct source_dest_map` -/
structure SourceDest where
  toAttr : Attribute
  fromOffset : Nat
  toOffset : Nat

/-- The loop of `generate_attribute_map`. -/
def generateAttributeMap (from_ : List Attribute) :
    List Attribute → Nat → Except DbResult (List SourceDest)
  | [], _ => .ok []
  | toAttr :: attributes, sizeSum =>
      match attributeFind from_ toAttr.name with
      | none => .error .nameError
      | some position => do
          let rest ← generateAttributeMap from_ attributes
            (sizeSum + toAttr.elementSize)
          return ⟨toAttr, valueOffset from_ position, sizeSum⟩ :: rest

/-- What `lvm_execute` returns for the values of the variables. -/
abbrev Condition (machine : Machine) :=
  Variables machine → Except LvmStatus Bool

/-- What `relation_select` finds out about a selection. -/
structure Select (machine : Machine) where
  rel : Relation
  attributes : List Attribute
  attrMap : List SourceDest
  condition : Option (Condition machine)
  /-- `AQL_FLAG_INVERSE_LOGIC` -/
  inverseLogic : Bool

/-- The attribute that `relation_select` adds to the result relation. -/
def resultAttribute (attributes : List Attribute) (attr : AqlAttribute) :
    Except DbResult Attribute :=
  match (attributeFind attributes attr.name).bind
      fun position => attributes[position]? with
  | none => .error .nameError
  | some found => .ok { found with noStore := attr.noStore }

/-- `relation_select` -/
def relationSelect {machine : Machine} (rel : Relation)
    (aqlAttributes : List AqlAttribute)
    (condition : Option (Condition machine)) (inverseLogic : Bool) :
    Except DbResult (Select machine) := do
  let attributes ← aqlAttributes.mapM (resultAttribute rel.attributes)
  let normalAttributes := (attributes.filter fun attr => !attr.noStore).length
  if 0 < normalAttributes ∧ normalAttributes < attributes.length then
    .error .relationalError
  else
    match generateAttributeMap rel.attributes attributes 0 with
    | .error _ => .error .implementationError
    | .ok attrMap =>
        .ok { rel, attributes, attrMap, condition, inverseLogic }

/-! ## Processing -/

variable {machine : Machine}

/-- `lookup` of `lvm.c`. -/
def lvmLookup (vars : Variables machine) (name : String) : Nat :=
  ((List.range lvmMaxVariableId).find? fun id =>
    (vars id).name = "" ∨ (vars id).name = name).getD lvmMaxVariableId

/-- `lvm_set_variable_value` -/
def lvmSetVariableValue (vars : Variables machine) (name : String)
    (value : Long machine) : Variables machine :=
  let id := lvmLookup vars name
  if id = lvmMaxVariableId then vars
  else Function.update vars id { vars id with value := value }

/-- The value that a variable is given for the bytes of an attribute. -/
def operandValue (machine : Machine) (attr : Attribute)
    (bytes : ByteMem) : Option (Long machine) :=
  match attr.domain with
  | .int => some (BitVec.ofInt _ (twoBytes bytes))
  | .long => some (BitVec.ofInt _ (fourBytes bytes))
  | _ => none

/-- The variables after the loop over the attribute map. -/
def setVariables (attrMap : List SourceDest) (row : List UInt8)
    (vars : Variables machine) : Variables machine :=
  attrMap.foldl (fun vars entry =>
    match operandValue machine entry.toAttr
        ((ByteMem.ofList row).shift entry.fromOffset) with
    | some value => lvmSetVariableValue vars entry.toAttr.name value
    | none => vars) vars

/-- `result_row` after the loop over the attribute map. -/
def copyRow (attrMap : List SourceDest) (row : List UInt8)
    (tuple : ByteMem) : ByteMem :=
  attrMap.foldl (fun tuple entry =>
    if entry.toAttr.noStore then tuple
    else tuple.write entry.toOffset
      (((ByteMem.ofList row).shift entry.fromOffset).read 0
        entry.toAttr.elementSize)) tuple

/-- The fields of `db_handle_t` that a selection uses, the variables of the
engine and `result_row`. -/
structure SelectHandle (machine : Machine) (Iterator : Type) where
  tupleId : Nat
  currentRow : Nat
  /-- The iterator under `DB_HANDLE_FLAG_SEARCH_INDEX`. -/
  search : Option Iterator
  vars : Variables machine
  tuple : ByteMem
  /-- The tuple file of the result relation under `AQL_FLAG_ASSIGN`. -/
  target : Option TupleFile

section

variable {Iterator : Type} (select : Select machine)

/-- The variables fulfil the condition or, with inverse logic, violate it. -/
def Select.accepts (vars : Variables machine) : Bool :=
  match select.condition with
  | none => true
  | some execute =>
      match execute vars with
      | .ok value => value = !select.inverseLogic
      | .error _ => false

/-- `relation_process_select` behind the step of the index. -/
def processRow (handle : SelectHandle machine Iterator) :
    DbResult × SelectHandle machine Iterator :=
  let found := select.rel.file.getRow select.rel.rowLength handle.tupleId
  let handle := { handle with tupleId := handle.tupleId + 1 }
  match found with
  | none => (.finished, handle)
  | some row =>
      let handle :=
        { handle with
          vars := setVariables select.attrMap row handle.vars
          tuple := copyRow select.attrMap row handle.tuple }
      if select.accepts handle.vars then
        match handle.target with
        | none =>
            (.gotRow, { handle with currentRow := handle.currentRow + 1 })
        | some file =>
            let (result, file) :=
              file.putRow (handle.tuple.read 0 (rowLength select.attributes))
            let handle := { handle with target := some file }
            if result.isError then (.storageError, handle)
            else
              (.gotRow, { handle with currentRow := handle.currentRow + 1 })
      else (.ok, handle)

/-- `relation_process_select` -/
def relationProcessSelect (getNext : Iterator → Option Nat × Iterator)
    (nextItemNo : Iterator → Nat) (handle : SelectHandle machine Iterator) :
    DbResult × SelectHandle machine Iterator :=
  match handle.search with
  | none => processRow select handle
  | some iterator =>
      let (found, iterator) := getNext iterator
      let handle := { handle with search := some iterator }
      match found with
      | some tupleId =>
          processRow select { handle with tupleId := tupleId }
      | none =>
          if nextItemNo iterator = 0 then (.indexError, handle)
          else (.finished, handle)

end

end Contiki.Antelope
