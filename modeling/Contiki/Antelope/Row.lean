import Contiki.Antelope.Relation

/-!
# Rows

Where the values of the attributes are in a row, and what is read back of a
row that is put together from them.
-/

namespace Contiki.Antelope

open Contiki.Lib

/-- The datum of an attribute in a row. -/
def attributeDatum (machine : Machine) (attributes : List Attribute)
    (position : Nat) (row : List UInt8) : Except DbResult Datum :=
  match attributes[position]? with
  | some attr =>
      attr.datumAt machine
        ((ByteMem.ofList row).shift (valueOffset attributes position))
  | none => .error .implementationError

/-- Conversion of a string by `db_phy_to_value` terminates it in the row. -/
def terminateString (attributes : List Attribute) (position : Nat)
    (row : List UInt8) : List UInt8 :=
  match attributes[position]? with
  | some attr =>
      if attr.domain = .string then
        row.set (valueOffset attributes position + attr.elementSize - 1) 0
      else row
  | none => row

/-! ## Results -/

theorem bind_eq_ok {α β : Type} {first : Except DbResult α}
    {rest : α → Except DbResult β} {result : β}
    (succeeds : (first >>= rest) = .ok result) :
    ∃ value, first = .ok value ∧ rest value = .ok result := by
  cases first with
  | error error => exact absurd succeeds (by rintro ⟨⟩)
  | ok value => exact ⟨value, rfl, succeeds⟩

theorem forall₂_of_mapM {α β : Type} {f : α → Except DbResult β}
    {inputs : List α} {outputs : List β}
    (maps : inputs.mapM f = .ok outputs) :
    List.Forall₂ (fun input output => f input = .ok output)
      inputs outputs := by
  induction inputs generalizing outputs with
  | nil =>
      obtain rfl : [] = outputs := Except.ok.inj maps
      exact .nil
  | cons input inputs inductionHypothesis =>
      rw [List.mapM_cons] at maps
      obtain ⟨output, isOutput, maps⟩ := bind_eq_ok maps
      obtain ⟨rest, areRest, maps⟩ := bind_eq_ok maps
      obtain rfl : output :: rest = outputs := Except.ok.inj maps
      exact .cons isOutput (inductionHypothesis areRest)

/-! ## Offsets -/

theorem rowLength_cons (attr : Attribute) (attributes : List Attribute) :
    rowLength (attr :: attributes) =
      attr.elementSize + rowLength attributes := rfl

theorem valueOffset_zero (attributes : List Attribute) :
    valueOffset attributes 0 = 0 := rfl

theorem valueOffset_cons_succ (attr : Attribute)
    (attributes : List Attribute) (position : Nat) :
    valueOffset (attr :: attributes) (position + 1) =
      attr.elementSize + valueOffset attributes position := rfl

theorem valueOffset_add_le {attributes : List Attribute}
    {position later : Nat} {attr : Attribute}
    (isAttr : attributes[position]? = some attr) (isLater : position < later) :
    valueOffset attributes position + attr.elementSize ≤
      valueOffset attributes later := by
  induction attributes generalizing position later with
  | nil =>
      exact absurd isAttr (by simp)
  | cons first attributes inductionHypothesis =>
      cases later with
      | zero => exact absurd isLater (Nat.not_lt_zero _)
      | succ later =>
      cases position with
      | zero =>
          obtain rfl := Option.some.inj isAttr
          rw [valueOffset_cons_succ, valueOffset_zero]
          omega
      | succ position =>
          have isBefore := inductionHypothesis isAttr
            (Nat.lt_of_succ_lt_succ isLater)
          rw [valueOffset_cons_succ, valueOffset_cons_succ]
          omega

theorem valueOffset_le_rowLength (attributes : List Attribute)
    (position : Nat) :
    valueOffset attributes position ≤ rowLength attributes := by
  induction attributes generalizing position with
  | nil =>
      simp [valueOffset, rowLength]
  | cons first attributes inductionHypothesis =>
      cases position with
      | zero => exact Nat.zero_le _
      | succ position =>
          rw [valueOffset_cons_succ, rowLength_cons]
          exact Nat.add_le_add_left (inductionHypothesis position) _

theorem valueOffset_add_le_rowLength {attributes : List Attribute}
    {position : Nat} {attr : Attribute}
    (isAttr : attributes[position]? = some attr) :
    valueOffset attributes position + attr.elementSize ≤
      rowLength attributes :=
  (valueOffset_add_le isAttr (Nat.lt_succ_self position)).trans
    (valueOffset_le_rowLength attributes _)

/-- `attributeFind` finds an attribute with the name. -/
theorem exists_of_attributeFind {attributes : List Attribute}
    {name : String} {position : Nat}
    (finds : attributeFind attributes name = some position) :
    ∃ attr, attributes[position]? = some attr ∧ attr.name = name := by
  obtain ⟨bound, isName, -⟩ := List.findIdx?_eq_some_iff_getElem.1 finds
  exact ⟨_, List.getElem?_eq_getElem bound, of_decide_eq_true isName⟩

/-! ## Rows of a file -/

theorem length_maskRow (row : List UInt8) :
    (maskRow row).length = row.length := by
  unfold maskRow
  exact List.length_modify _ _ _

variable {machine : Machine} {file : TupleFile}

theorem TupleFile.lt_of_getRow {rowLength tupleId : Nat}
    {row : List UInt8} (gets : file.getRow rowLength tupleId = some row) :
    tupleId < file.getRowAmount rowLength := by
  unfold TupleFile.getRow at gets
  by_contra outside
  rw [if_neg outside] at gets
  exact absurd gets (by rintro ⟨⟩)

theorem TupleFile.exists_getRow {rowLength tupleId : Nat}
    (bound : tupleId < file.getRowAmount rowLength) :
    ∃ row, file.getRow rowLength tupleId = some row := by
  unfold TupleFile.getRow
  rw [if_pos bound]
  exact ⟨_, rfl⟩

theorem TupleFile.length_of_getRow
    {rowLength tupleId : Nat} {row : List UInt8}
    (gets : file.getRow rowLength tupleId = some row) :
    row.length = rowLength := by
  have bound := TupleFile.lt_of_getRow gets
  unfold TupleFile.getRow at gets
  rw [if_pos bound] at gets
  obtain rfl := Option.some.inj gets
  rw [length_maskRow, List.length_take, List.length_drop]
  unfold TupleFile.getRowAmount at bound
  split at bound
  · exact absurd bound (Nat.not_lt_zero _)
  · rename_i notZero
    have isComplete := Nat.mul_le_of_le_div _ _ _
      (Nat.succ_le_of_lt bound)
    rw [Nat.succ_mul] at isComplete
    omega

theorem TupleFile.putRow_of_fits {row : List UInt8}
    (fits : file.bytes.length + row.length ≤ file.capacity) :
    file.putRow row =
      (.ok, { file with bytes := file.bytes ++ maskRow row }) :=
  if_pos fits

/-! ## Reading a row -/

theorem read_shift_ofList {bytes : List UInt8} {offset count : Nat}
    (inside : offset + count ≤ bytes.length) :
    ((ByteMem.ofList bytes).shift offset).read 0 count =
      (bytes.drop offset).take count := by
  rw [ByteMem.read_shift, Nat.add_zero]
  apply List.ext_getElem (by simp; omega)
  intro index bound _
  rw [ByteMem.length_read] at bound
  have isByte : offset + index < bytes.length := by omega
  simp [ByteMem.getElem_read, ByteMem.ofList, isByte]

theorem ofList_set_zero (bytes : List UInt8) (address : Nat) :
    ByteMem.ofList (bytes.set address 0) =
      (ByteMem.ofList bytes).write address [0] := by
  funext position
  by_cases same : position = address
  · subst same
    have isZero := @ByteMem.write_inside (ByteMem.ofList bytes) position 0
      [0] Nat.zero_lt_one
    rw [Nat.add_zero] at isZero
    rw [isZero]
    unfold ByteMem.ofList
    rw [List.getD_eq_getElem?_getD, List.getElem?_set_self']
    cases bytes[position]? with
    | none => rfl
    | some byte => rfl
  · rw [ByteMem.write_outside (by simp only [List.length_singleton]; omega)]
    unfold ByteMem.ofList
    rw [List.getD_eq_getElem?_getD, List.getElem?_set_ne (Ne.symm same),
      List.getD_eq_getElem?_getD]

theorem attributeDatum_terminateString
    {attributes : List Attribute} (position terminated : Nat)
    (row : List UInt8) :
    attributeDatum machine attributes position
        (terminateString attributes terminated row) =
      attributeDatum machine attributes position row := by
  unfold attributeDatum terminateString
  cases isAttr : attributes[position]? with
  | none => rfl
  | some attr =>
  cases isTerminated : attributes[terminated]? with
  | none => rfl
  | some other =>
  dsimp only
  by_cases isString : other.domain = .string
  · rw [if_pos isString, ofList_set_zero]
    have notEmpty := other.elementSize_pos
    by_cases same : position = terminated
    · subst same
      obtain rfl : attr = other :=
        Option.some.inj (isAttr.symm.trans isTerminated)
      have twice : (((ByteMem.ofList row).write
          (valueOffset attributes position + attr.elementSize - 1)
            [0]).shift (valueOffset attributes position)).write
              (attr.elementSize - 1) [0] =
          ((ByteMem.ofList row).shift
            (valueOffset attributes position)).write
              (attr.elementSize - 1) [0] := by
        funext address
        by_cases isLast : address = attr.elementSize - 1
        · unfold ByteMem.write
          rw [isLast, if_neg (Nat.lt_irrefl _), if_neg (Nat.lt_irrefl _),
            Nat.sub_self]
          rfl
        · rw [ByteMem.write_outside
              (by simp only [List.length_singleton]; omega),
            ByteMem.write_outside
              (by simp only [List.length_singleton]; omega),
            ByteMem.shift_apply, ByteMem.shift_apply,
            ByteMem.write_outside
              (by simp only [List.length_singleton]; omega)]
      unfold Attribute.datumAt dbPhyToValue
      rw [isString, twice]
    · refine Attribute.datumAt_congr (ByteMem.read_congr ?_)
      intro address _ bound
      rw [ByteMem.shift_apply, ByteMem.shift_apply]
      refine ByteMem.write_outside ?_
      rw [List.length_singleton]
      rcases Nat.lt_or_gt_of_ne same with isBefore | isAfter
      · have apart := valueOffset_add_le isAttr isBefore
        omega
      · have apart := valueOffset_add_le isTerminated isAfter
        omega
  · rw [if_neg isString]

/-- Attributes with the bytes that are stored for them. -/
abbrev Fields := List (Attribute × List UInt8)

theorem getValueFrom_of_holds {fields : Fields}
    {tuple : ByteMem} {col offset : Nat}
    (areStored : ∀ field ∈ fields, field.1.noStore = false)
    (areSized : ∀ field ∈ fields,
      field.2.length = field.1.elementSize)
    (holds : tuple.Holds offset (fields.flatMap Prod.snd)) :
    (getValueFrom machine tuple (fields.map Prod.fst) col offset).map
        (fun found => found.2.datum machine found.1) =
      match fields[col]? with
      | some field => field.1.datumAt machine (ByteMem.ofList field.2)
      | none => .error .nameError := by
  induction fields generalizing col offset with
  | nil =>
      rfl
  | cons field fields inductionHypothesis =>
      have stored := areStored field List.mem_cons_self
      have sized := areSized field List.mem_cons_self
      rw [List.flatMap_cons, ByteMem.holds_append] at holds
      obtain ⟨holdsField, holdsFields⟩ := holds
      rw [sized] at holdsFields
      rw [List.map_cons]
      unfold getValueFrom
      rw [if_neg (by rw [stored]; decide)]
      cases col with
      | zero =>
          dsimp only [List.getElem?_cons_zero]
          have same : (tuple.shift offset).read 0 field.1.elementSize =
              (ByteMem.ofList field.2).read 0 field.1.elementSize := by
            rw [ByteMem.read_shift, Nat.add_zero, ← sized,
              ByteMem.read_ofList]
            exact holdsField
          rw [← Attribute.datumAt_congr same]
          unfold Attribute.datumAt
          cases dbPhyToValue machine field.1 (tuple.shift offset) with
          | error error => rfl
          | ok value => rfl
      | succ col =>
          dsimp only [List.getElem?_cons_succ]
          exact inductionHypothesis
            (fun other member =>
              areStored other (List.mem_cons_of_mem _ member))
            (fun other member =>
              areSized other (List.mem_cons_of_mem _ member)) holdsFields

/-- What a user reads of a row of some attributes. -/
def readTuple (machine : Machine) (attributes : List Attribute)
    (tuple : ByteMem) : List (Except DbResult Datum) :=
  (List.range attributes.length).map
    (columnDatum machine attributes attributes.length tuple)

/-- What a user reads of a row that is put together from fields. -/
theorem readTuple_of_holds {fields : Fields}
    {tuple : ByteMem} (areStored : ∀ field ∈ fields, field.1.noStore = false)
    (areSized : ∀ field ∈ fields,
      field.2.length = field.1.elementSize)
    (holds : tuple.Holds 0 (fields.flatMap Prod.snd)) :
    readTuple machine (fields.map Prod.fst) tuple =
      fields.map fun field =>
        field.1.datumAt machine (ByteMem.ofList field.2) := by
  unfold readTuple
  apply List.ext_getElem (by simp)
  intro col bound _
  have isCol : col < fields.length := by simpa using bound
  rw [List.getElem_map, List.getElem_map, List.getElem_range]
  unfold columnDatum dbGetValue
  rw [if_neg (by simpa using isCol),
    getValueFrom_of_holds areStored areSized holds,
    List.getElem?_eq_getElem isCol]

end Contiki.Antelope
