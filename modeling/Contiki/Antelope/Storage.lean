import Contiki.Antelope.Insertion
import Contiki.Antelope.SelectRuns
import Mathlib.Data.List.Nodup

/-!
# Storing tuples

Tuples that are inserted in several sessions with a relation, and what a
selection of all attributes without a condition returns of them afterwards.
-/

namespace Contiki.Antelope

open Contiki.Lib

variable {machine : Machine}

/-! ## Histories -/

/-- A literal of a query with its datum. -/
structure Literal where
  datum : Datum
  value : AttributeValue
  isLiteral : value.IsLiteral datum

abbrev Tuple := List Literal

/-- The array of values that the parser makes of a tuple. -/
def Tuple.values (tuple : Tuple) (index : Nat) : AttributeValue :=
  (tuple[index]?.map Literal.value).getD ⟨.unspecified, 0, fun _ => 0⟩

/-- The data are in the domains of the attributes. -/
def Tuple.Fits (attributes : List Attribute) (tuple : Tuple) : Prop :=
  List.Forall₂ (fun attr literal => attr.InDomain literal.datum)
    attributes tuple

def Tuple.Signed (machine : Machine) (attributes : List Attribute)
    (tuple : Tuple) : Prop :=
  List.Forall₂ (fun attr literal => attr.Signed machine literal.datum)
    attributes tuple

/-- A session with a relation: whether the object of the relation was still
in memory, whether the entry of its tuple file in the table of open files
had been evicted, and the tuples that are inserted. -/
structure Session where
  cached : Bool
  evicted : Bool
  tuples : List Tuple

/-- `relation_load` -/
def Relation.loadFor (relation : Relation) (cached evicted : Bool) :
    Relation :=
  if cached then relation.open_ evicted else relation.load evicted

def insertAll (machine : Machine) :
    Relation → List Tuple → Relation × List DbResult
  | relation, [] => (relation, [])
  | relation, tuple :: tuples =>
      let (relation, result) := relation.insert machine tuple.values
      let (relation, results) := insertAll machine relation tuples
      (relation, result :: results)

/-- Sessions one after the other; the relation is released at the end of
each. -/
def runSessions (machine : Machine) :
    Relation → List Session → Relation × List DbResult
  | relation, [] => (relation, [])
  | relation, session :: sessions =>
      let (relation, results) := insertAll machine
        (relation.loadFor session.cached session.evicted) session.tuples
      let (relation, others) := runSessions machine relation.unload sessions
      (relation, results ++ others)

/-- The handle of a selection without an index and an assignment. -/
def SelectHandle.start (machine : Machine) (Iterator : Type)
    (vars : Variables machine) (tuple : ByteMem) :
    SelectHandle machine Iterator where
  tupleId := 0
  currentRow := 0
  search := none
  vars := vars
  tuple := tuple
  target := none

/-- The row of a tuple ends with the byte that `ROW_XOR` maps to zero: its
last value is a number with this byte at its end. -/
def Tuple.EndsWithMark (tuple : Tuple) : Prop :=
  ∃ literal number, tuple.getLast? = some literal ∧
    literal.datum = .number number ∧ number % 2 ^ 8 = rowXor.toNat

/-- Wherever the end of the tuple file is determined again, the last tuple
does not end with the mark. -/
def Survives : Option Tuple → List Session → Prop
  | _, [] => True
  | last, session :: sessions =>
      (session.evicted = true → ∀ tuple ∈ last, ¬ tuple.EndsWithMark) ∧
        Survives (session.tuples.getLast?.or last) sessions

/-! ## Records -/

theorem read_of_holds {fields : Fields} {memory : ByteMem}
    {base position : Nat} {field : Attribute × List UInt8}
    (areSized : ∀ field ∈ fields,
      field.2.length = field.1.elementSize)
    (holds : memory.Holds base (fields.flatMap Prod.snd))
    (isField : fields[position]? = some field) :
    memory.Holds (base + valueOffset (fields.map Prod.fst) position)
      field.2 := by
  induction fields generalizing base position with
  | nil => exact absurd isField (by simp)
  | cons first fields inductionHypothesis =>
      rw [List.flatMap_cons, ByteMem.holds_append] at holds
      obtain ⟨holdsFirst, holdsFields⟩ := holds
      have sized := areSized first List.mem_cons_self
      cases position with
      | zero =>
          obtain rfl := Option.some.inj isField
          exact holdsFirst
      | succ position =>
          rw [List.map_cons, valueOffset_cons_succ, ← sized,
            ← Nat.add_assoc]
          exact inductionHypothesis
            (fun other member =>
              areSized other (List.mem_cons_of_mem _ member))
            holdsFields isField

/-- The datum of an attribute in a row that is put together from fields. -/
theorem attributeDatum_flatMap {fields : Fields} {position : Nat}
    {field : Attribute × List UInt8}
    (areSized : ∀ field ∈ fields,
      field.2.length = field.1.elementSize)
    (isField : fields[position]? = some field) :
    attributeDatum machine (fields.map Prod.fst) position
        (fields.flatMap Prod.snd) =
      field.1.datumAt machine (ByteMem.ofList field.2) := by
  have holds := read_of_holds areSized (ByteMem.read_ofList _) isField
  have isLength := areSized field (List.mem_of_getElem? isField)
  unfold attributeDatum
  rw [List.getElem?_map, isField]
  dsimp only [Option.map_some]
  refine Attribute.datumAt_congr ?_
  rw [ByteMem.read_shift, Nat.add_zero, ← isLength, ByteMem.read_ofList]
  rw [Nat.zero_add] at holds
  exact holds

theorem attributeFind_of_nodup {attributes : List Attribute}
    (nodup : (attributes.map Attribute.name).Nodup) {position : Nat}
    {attr : Attribute} (isAttr : attributes[position]? = some attr) :
    attributeFind attributes attr.name = some position := by
  obtain ⟨bound, isAttr⟩ := List.getElem?_eq_some_iff.1 isAttr
  refine List.findIdx?_eq_some_iff_getElem.2 ⟨bound, ?_, ?_⟩
  · rw [isAttr]
    exact decide_eq_true rfl
  · intro earlier isEarlier
    rw [decide_eq_true_iff, ← isAttr]
    intro same
    have inRange : earlier < (attributes.map Attribute.name).length := by
      rw [List.length_map]
      omega
    have isPosition : position < (attributes.map Attribute.name).length := by
      rw [List.length_map]
      exact bound
    have equal := (@List.Nodup.getElem_inj_iff _ _ nodup _ inRange _
      isPosition).1 (by simpa using same)
    omega

/-- The record of a tuple that fits, and when it is read back. -/
theorem exists_fields {attributes : List Attribute} {tuple : Tuple}
    {values : Nat → AttributeValue} {next : Nat}
    (fits : tuple.Fits attributes)
    (areValues : ∀ index literal, tuple[index]? = some literal →
      values (next + index) = literal.value) :
    ∃ fields : Fields, fields.map Prod.fst = attributes ∧
      (∀ field ∈ fields, field.2.length = field.1.elementSize) ∧
      encodeRecord machine values attributes next =
          .ok (fields.flatMap Prod.snd) ∧
        (fields.map (fun field =>
            field.1.datumAt machine (ByteMem.ofList field.2)) =
          tuple.map (fun literal => .ok literal.datum) ↔
            tuple.Signed machine attributes) := by
  unfold Tuple.Fits at fits
  unfold Tuple.Signed
  induction fits generalizing next with
  | nil =>
      exact ⟨[], rfl, by simp, rfl, by simp⟩
  | @cons attr literal attributes tuple inDomain _ inductionHypothesis =>
      obtain ⟨fields, areAttributes, areSized, encodes, reads⟩ :=
        @inductionHypothesis (next + 1) fun index other isOther => by
          rw [Nat.add_assoc, Nat.add_comm 1 index]
          exact areValues (index + 1) other isOther
      obtain ⟨bytes, isBytes, isLength, decodes⟩ :=
        @dbPhyToValue_dbValueToPhy machine _ _ _ inDomain literal.isLiteral
      obtain ⟨decoded, isDecoded, isDatum⟩ := decodes (ByteMem.ofList bytes)
        (isLength ▸ ByteMem.read_ofList bytes)
      have isValue : values next = literal.value := areValues 0 literal rfl
      refine ⟨(attr, bytes) :: fields, congrArg _ areAttributes, ?_, ?_, ?_⟩
      · intro field member
        rcases List.mem_cons.1 member with rfl | member
        · exact isLength
        · exact areSized field member
      · unfold encodeRecord
        rw [isValue, isBytes]
        dsimp only
        rw [encodes]
        rfl
      · have isRead : attr.datumAt machine (ByteMem.ofList bytes) =
            .ok (decoded.datum machine attr) := by
          unfold Attribute.datumAt
          rw [isDecoded]
          rfl
        rw [List.map_cons, List.map_cons, List.cons.injEq,
          List.forall₂_cons, reads, isRead, Except.ok.injEq, isDatum]

/-! ## The last byte -/

theorem xor_rowXor_rowXor (byte : UInt8) :
    byte ^^^ rowXor ^^^ rowXor = byte := by
  rw [UInt8.xor_assoc, UInt8.xor_self, UInt8.xor_zero]

theorem maskRow_maskRow (row : List UInt8) : maskRow (maskRow row) = row := by
  unfold maskRow
  rw [List.length_modify, List.modify_modify_eq]
  have cancels : ((fun byte : UInt8 => byte ^^^ rowXor) ∘
      fun byte : UInt8 => byte ^^^ rowXor) = id :=
    funext xor_rowXor_rowXor
  rw [cancels]
  exact List.modify_id _ _

/-- A stored row ends with a zero if the row ends with the mark. -/
theorem getLast?_maskRow_iff (row : List UInt8) :
    (maskRow row).getLast? = some 0 ↔ row.getLast? = some rowXor := by
  have isLast : (maskRow row).getLast? =
      row.getLast?.map (· ^^^ rowXor) := by
    unfold maskRow
    rw [List.getLast?_eq_getElem?, List.getLast?_eq_getElem?,
      List.length_modify, List.getElem?_modify_eq]
    rfl
  rw [isLast]
  cases row.getLast? with
  | none => simp
  | some byte =>
      rw [Option.map_some, Option.some.injEq, Option.some.injEq]
      constructor
      · intro isZero
        rw [← xor_rowXor_rowXor byte, isZero, UInt8.zero_xor]
      · rintro rfl
        exact UInt8.xor_self

theorem byte_eq_rowXor_iff (number : Int) :
    byte number = rowXor ↔ number % 2 ^ 8 = rowXor.toNat := by
  rw [← toNat_byte]
  exact ⟨fun same => by rw [same],
    fun same => UInt8.toNat_inj.1 (by exact_mod_cast same)⟩

theorem getLast?_dbValueToPhy {attr : Attribute} {literal : Literal}
    {bytes : List UInt8} (inDomain : attr.InDomain literal.datum)
    (isBytes : dbValueToPhy machine attr literal.value = .ok bytes) :
    bytes.getLast? = some rowXor ↔
      ∃ number, literal.datum = .number number ∧
        number % 2 ^ 8 = rowXor.toNat := by
  obtain ⟨datum, value, isLiteral⟩ := literal
  dsimp only at inDomain isBytes ⊢
  unfold dbValueToPhy at isBytes
  cases datum with
  | number number =>
      obtain ⟨-, rfl⟩ := isLiteral
      have isByte : bytes.getLast? = some (byte value.number) := by
        rcases inDomain with ⟨isInt, lower, upper⟩ | ⟨isLong, lower, upper⟩
        · rw [isInt] at isBytes
          obtain rfl := Except.ok.inj isBytes
          have isNumber := @AttributeValue.int_of_mem machine value lower upper
          rw [isNumber]
          rfl
        · rw [isLong] at isBytes
          obtain rfl := Except.ok.inj isBytes
          have isNumber := @AttributeValue.long_of_mem machine value lower upper
          rw [isNumber]
          rfl
      rw [isByte, Option.some.injEq, byte_eq_rowXor_iff]
      constructor
      · exact fun marked => ⟨_, rfl, marked⟩
      · rintro ⟨_, ⟨⟩, marked⟩
        exact marked
  | text characters =>
      obtain ⟨isString, -, -⟩ := inDomain
      rw [isString] at isBytes
      obtain rfl := Except.ok.inj isBytes
      have notEmpty := attr.elementSize_pos
      rw [List.getLast?_eq_getElem?, List.length_set, ByteMem.length_read,
        List.getElem?_set_self (by rw [ByteMem.length_read]; omega)]
      constructor
      · intro isMark
        exact absurd (Option.some.inj isMark) (by decide)
      · rintro ⟨_, ⟨⟩, -⟩

theorem getLast?_encodeRecord {attributes : List Attribute} {tuple : Tuple}
    {values : Nat → AttributeValue} {next : Nat} {record : List UInt8}
    (fits : tuple.Fits attributes) (notEmpty : attributes ≠ [])
    (areValues : ∀ index literal, tuple[index]? = some literal →
      values (next + index) = literal.value)
    (encodes : encodeRecord machine values attributes next = .ok record) :
    record.getLast? = some rowXor ↔ tuple.EndsWithMark := by
  unfold Tuple.Fits at fits
  unfold Tuple.EndsWithMark
  induction fits generalizing next record with
  | nil => exact absurd rfl notEmpty
  | @cons attr literal attributes tuple inDomain fits inductionHypothesis =>
      obtain ⟨bytes, rest, isBytes, isRest, rfl⟩ :=
        encodeRecord_cons_eq_ok encodes
      have isValue : values next = literal.value := areValues 0 literal rfl
      cases fits with
      | nil =>
          obtain rfl := Except.ok.inj isRest
          rw [isValue] at isBytes
          rw [List.append_nil, getLast?_dbValueToPhy inDomain isBytes]
          constructor
          · rintro ⟨number, isNumber, marked⟩
            exact ⟨literal, number, rfl, isNumber, marked⟩
          · rintro ⟨_, number, isLast, isNumber, marked⟩
            obtain rfl := Option.some.inj isLast
            exact ⟨number, isNumber, marked⟩
      | @cons second other attributes tuple _ _ =>
          have longer := length_encodeRecord isRest
          have positive := @rowLength_pos (second :: attributes) (by simp)
          have isLast : (bytes ++ rest).getLast? = rest.getLast? :=
            List.getLast?_append_of_ne_nil _
              (List.ne_nil_of_length_pos (by omega))
          rw [isLast, inductionHypothesis (by simp) (by
            intro index found isFound
            rw [Nat.add_assoc, Nat.add_comm 1 index]
            exact areValues (index + 1) found isFound) isRest,
            List.getLast?_cons_cons]

/-! ## The tuple file -/

/-- The end that is determined again is the end unless the last byte is a
zero. -/
theorem reopen_bytes (file : TupleFile) (evicted : Bool) :
    ((evicted = true → file.bytes.getLast? ≠ some 0) →
      (file.reopen evicted) = file) ∧
      (evicted = true → file.bytes.getLast? = some 0 →
        (file.reopen evicted).bytes.length < file.bytes.length) ∧
        (file.reopen evicted).bytes.length ≤ file.bytes.length := by
  unfold TupleFile.reopen
  cases evicted with
  | false => exact ⟨fun _ => rfl, by rintro ⟨⟩, le_refl _⟩
  | true =>
      rw [if_pos rfl]
      have isPrefix := List.rdropWhile_prefix
        (fun byte : UInt8 => decide (byte = 0)) (l := file.bytes)
      have isTaken : file.bytes.take (fileEnd file.bytes) =
          file.bytes.rdropWhile (· = 0) :=
        (List.prefix_iff_eq_take.1 isPrefix).symm
      refine ⟨fun notZero => ?_, fun _ isZero => ?_, ?_⟩
      · have isSelf : file.bytes.rdropWhile (· = 0) = file.bytes := by
          refine List.rdropWhile_eq_self_iff.2 fun notEmpty isZero => ?_
          refine notZero rfl ?_
          rw [List.getLast?_eq_some_getLast notEmpty]
          exact congrArg some (of_decide_eq_true isZero)
        rw [isTaken, isSelf]
      · dsimp only
        rw [isTaken]
        refine lt_of_le_of_ne isPrefix.length_le fun same => ?_
        have isSelf := isPrefix.eq_of_length same
        have notEmpty : file.bytes ≠ [] := by
          rintro isEmpty
          rw [isEmpty] at isZero
          exact absurd isZero (by simp)
        refine List.rdropWhile_eq_self_iff.1 isSelf notEmpty ?_
        rw [List.getLast?_eq_some_getLast notEmpty] at isZero
        exact decide_eq_true (Option.some.inj isZero)
      · dsimp only
        rw [isTaken]
        exact isPrefix.length_le

theorem length_flatten_rows {rows : List (List UInt8)} {width : Nat}
    (areLength : ∀ row ∈ rows, row.length = width) :
    rows.flatten.length = rows.length * width := by
  induction rows with
  | nil => simp
  | cons row rows inductionHypothesis =>
      rw [List.flatten_cons, List.length_append, List.length_cons,
        areLength row List.mem_cons_self, inductionHypothesis
          fun other member => areLength other (List.mem_cons_of_mem _ member),
        Nat.succ_mul, Nat.add_comm]

theorem take_drop_flatten {rows : List (List UInt8)} {width index : Nat}
    (areLength : ∀ row ∈ rows, row.length = width)
    (bound : index < rows.length) :
    (rows.flatten.drop (index * width)).take width = rows[index] := by
  induction rows generalizing index with
  | nil => exact absurd bound (Nat.not_lt_zero _)
  | cons row rows inductionHypothesis =>
      have isLength := areLength row List.mem_cons_self
      rw [List.flatten_cons]
      cases index with
      | zero =>
          rw [Nat.zero_mul, List.drop_zero, ← isLength, List.take_left]
          rfl
      | succ index =>
          rw [Nat.succ_mul, Nat.add_comm, ← List.drop_drop, ← isLength,
            List.drop_left, isLength]
          exact inductionHypothesis
            (fun other member =>
              areLength other (List.mem_cons_of_mem _ member))
            (Nat.lt_of_succ_lt_succ bound)

theorem rowsFrom_flatten {file : TupleFile} {records : List (List UInt8)}
    {rowLength : Nat} (positive : 0 < rowLength)
    (areLength : ∀ record ∈ records, record.length = rowLength)
    (isFile : file.bytes = (records.map maskRow).flatten) :
    file.rowsFrom rowLength 0 = records := by
  have areMasked : ∀ row ∈ records.map maskRow, row.length = rowLength := by
    intro row member
    obtain ⟨record, isRecord, rfl⟩ := List.mem_map.1 member
    rw [length_maskRow, areLength record isRecord]
  have isLength : file.bytes.length = records.length * rowLength := by
    rw [isFile, length_flatten_rows areMasked, List.length_map]
  have amount : file.getRowAmount rowLength = records.length := by
    unfold TupleFile.getRowAmount
    rw [if_neg (by omega), isLength, Nat.mul_div_cancel _ positive]
  unfold TupleFile.rowsFrom
  rw [amount, Nat.sub_zero]
  apply List.ext_getElem (by simp)
  intro index bound inRange
  rw [List.getElem_map, List.getElem_range']
  unfold TupleFile.rowAt
  rw [isFile]
  have isRow : ((records.map maskRow).flatten.drop
      ((0 + 1 * index) * rowLength)).take rowLength =
        maskRow records[index] := by
    rw [Nat.zero_add, Nat.one_mul]
    exact (take_drop_flatten areMasked (by simpa using inRange)).trans
      (List.getElem_map _)
  rw [isRow, maskRow_maskRow]

/-! ## Histories and the tuple file -/

/-- The record of a tuple that fits. -/
def Tuple.record (machine : Machine) (attributes : List Attribute)
    (tuple : Tuple) : List UInt8 :=
  match encodeRecord machine tuple.values attributes 0 with
  | .ok record => record
  | .error _ => []

theorem Tuple.values_of_getElem? (tuple : Tuple) (index : Nat)
    (literal : Literal) (isLiteral : tuple[index]? = some literal) :
    tuple.values (0 + index) = literal.value := by
  unfold Tuple.values
  rw [Nat.zero_add, isLiteral]
  rfl

theorem Tuple.Fits.encodes {attributes : List Attribute} {tuple : Tuple}
    (fits : tuple.Fits attributes) :
    encodeRecord machine tuple.values attributes 0 =
      .ok (tuple.record machine attributes) := by
  obtain ⟨fields, -, -, encodes, -⟩ :=
    @exists_fields machine _ _ _ _ fits tuple.values_of_getElem?
  unfold Tuple.record
  rw [encodes]

/-- The tuple file holds the rows of all tuples that were inserted. -/
def Whole (machine : Machine) (attributes : List Attribute)
    (file : TupleFile) (inserted : List Tuple) : Prop :=
  file.bytes = ((inserted.map (Tuple.record machine attributes)).map
    maskRow).flatten

/-- The tuple file has lost a part of the rows. -/
def Short (attributes : List Attribute) (file : TupleFile)
    (inserted : List Tuple) : Prop :=
  file.bytes.length < inserted.length * rowLength attributes

theorem length_record {attributes : List Attribute} {inserted : List Tuple}
    (fits : ∀ tuple ∈ inserted, tuple.Fits attributes) :
    ∀ record ∈ inserted.map (Tuple.record machine attributes),
      record.length = rowLength attributes := by
  intro record member
  obtain ⟨tuple, isTuple, rfl⟩ := List.mem_map.1 member
  exact length_encodeRecord (fits tuple isTuple).encodes

theorem Whole.getLast? {attributes : List Attribute} {file : TupleFile}
    {inserted : List Tuple} (whole : Whole machine attributes file inserted)
    (notEmpty : attributes ≠ [])
    (fits : ∀ tuple ∈ inserted, tuple.Fits attributes) :
    file.bytes.getLast? = some 0 ↔
      ∃ tuple ∈ inserted.getLast?, tuple.EndsWithMark := by
  unfold Whole at whole
  rw [whole]
  cases inserted using List.reverseRecOn with
  | nil => simp
  | append_singleton inserted tuple =>
      have isTuple := fits tuple
        (List.mem_append_right _ (List.mem_singleton_self _))
      have encodes := @Tuple.Fits.encodes machine _ _ isTuple
      have isMark := getLast?_encodeRecord isTuple notEmpty
        tuple.values_of_getElem? encodes
      have isLength := length_encodeRecord encodes
      have positive := rowLength_pos notEmpty
      rw [List.map_append, List.map_append, List.flatten_append,
        List.map_singleton, List.map_singleton, List.flatten_singleton,
        List.getLast?_append_of_ne_nil _ (List.ne_nil_of_length_pos
          (by rw [length_maskRow]; omega)),
        getLast?_maskRow_iff, isMark, List.getLast?_concat]
      simp

/-- An insertion adds its row to a whole file, and a short file stays
short. -/
theorem insert_file {attributes : List Attribute} {relation : Relation}
    {inserted : List Tuple} {tuple : Tuple}
    (areAttributes : relation.attributes = attributes)
    (fits : tuple.Fits attributes)
    (isOk : (relation.insert machine tuple.values).2 = .ok) :
    let after := (relation.insert machine tuple.values).1
    after.attributes = attributes ∧
      (Whole machine attributes relation.file inserted →
        Whole machine attributes after.file (inserted ++ [tuple])) ∧
        (Short attributes relation.file inserted →
          Short attributes after.file (inserted ++ [tuple])) := by
  obtain ⟨areSame, -, spec, -⟩ := insert_spec relation tuple.values
  obtain ⟨-, record, isInserted⟩ := spec isOk
  have encodes := @Tuple.Fits.encodes machine _ _ fits
  have isRecord := isInserted.isRecord
  rw [areAttributes] at isRecord
  obtain rfl := Except.ok.inj (encodes.symm.trans isRecord)
  have isFile := isInserted.isFile
  refine ⟨areSame.trans areAttributes, fun whole => ?_, fun short => ?_⟩
  · unfold Whole at whole ⊢
    rw [isFile]
    dsimp only
    rw [whole, List.map_append, List.map_append, List.flatten_append,
      List.map_singleton, List.map_singleton, List.flatten_singleton]
  · unfold Short at short ⊢
    rw [isFile]
    dsimp only
    rw [List.length_append, length_maskRow, length_encodeRecord encodes,
      List.length_append, List.length_singleton, Nat.succ_mul]
    omega

theorem insertAll_file {attributes : List Attribute} {relation : Relation}
    {inserted tuples : List Tuple}
    (areAttributes : relation.attributes = attributes)
    (fits : ∀ tuple ∈ tuples, tuple.Fits attributes)
    (areOk : ∀ result ∈ (insertAll machine relation tuples).2,
      result = .ok) :
    let after := (insertAll machine relation tuples).1
    after.attributes = attributes ∧
      (Whole machine attributes relation.file inserted →
        Whole machine attributes after.file (inserted ++ tuples)) ∧
        (Short attributes relation.file inserted →
          Short attributes after.file (inserted ++ tuples)) := by
  induction tuples generalizing relation inserted with
  | nil =>
      rw [List.append_nil]
      exact ⟨areAttributes, id, id⟩
  | cons tuple tuples inductionHypothesis =>
      unfold insertAll at areOk ⊢
      dsimp only at areOk ⊢
      obtain ⟨areSame, wholeStep, shortStep⟩ := @insert_file machine
        attributes relation inserted tuple areAttributes
        (fits tuple List.mem_cons_self) (areOk _ List.mem_cons_self)
      obtain ⟨areKept, wholeRest, shortRest⟩ := @inductionHypothesis _
        (inserted ++ [tuple]) areSame
        (fun other member => fits other (List.mem_cons_of_mem _ member))
        (fun result member => areOk result (List.mem_cons_of_mem _ member))
      rw [List.append_assoc, List.singleton_append] at wholeRest shortRest
      exact ⟨areKept, fun whole => wholeRest (wholeStep whole),
        fun short => shortRest (shortStep short)⟩

/-- Loading a relation keeps its attributes; its file stays whole unless its
end is lost. -/
theorem loadFor_file {attributes : List Attribute} {relation : Relation}
    {inserted : List Tuple} (cached evicted : Bool)
    (areAttributes : relation.attributes = attributes)
    (notEmpty : attributes ≠ [])
    (fits : ∀ tuple ∈ inserted, tuple.Fits attributes) :
    let after := relation.loadFor cached evicted
    after.attributes = attributes ∧
      (Whole machine attributes relation.file inserted →
        (evicted = true → ∀ tuple ∈ inserted.getLast?,
            ¬ tuple.EndsWithMark) →
          Whole machine attributes after.file inserted) ∧
      (Whole machine attributes relation.file inserted →
        ¬ (evicted = true → ∀ tuple ∈ inserted.getLast?,
            ¬ tuple.EndsWithMark) →
          Short attributes after.file inserted) ∧
        (Short attributes relation.file inserted →
          Short attributes after.file inserted) := by
  intro after
  have areKept : after.attributes = attributes := by
    rw [← areAttributes]
    unfold after Relation.loadFor Relation.attributes
    cases cached with
    | true => rfl
    | false =>
        rw [if_neg (by decide)]
        unfold Relation.load
        dsimp only
        rw [List.map_map]
        rfl
  have isFile : after.file = relation.file.reopen evicted := by
    unfold after Relation.loadFor
    cases cached with
    | true => rfl
    | false => rfl
  obtain ⟨unchanged, loses, shorter⟩ := reopen_bytes relation.file evicted
  refine ⟨areKept, fun whole notMarked => ?_, fun whole isMarked => ?_,
    fun short => ?_⟩
  · have lastByte := whole.getLast? notEmpty fits
    rw [isFile, unchanged fun isEvicted isZero => ?_]
    · exact whole
    · obtain ⟨tuple, isLast, marked⟩ := lastByte.1 isZero
      exact notMarked isEvicted tuple isLast marked
  · have lastByte := whole.getLast? notEmpty fits
    push Not at isMarked
    obtain ⟨isEvicted, tuple, isLast, marked⟩ := isMarked
    have isShorter := loses isEvicted (lastByte.2 ⟨tuple, isLast, marked⟩)
    have isLength : relation.file.bytes.length =
        inserted.length * rowLength attributes := by
      have areMasked : ∀ row ∈ (inserted.map (Tuple.record machine
          attributes)).map maskRow, row.length = rowLength attributes := by
        intro row member
        obtain ⟨record, isRecord, rfl⟩ := List.mem_map.1 member
        rw [length_maskRow]
        exact length_record fits record isRecord
      unfold Whole at whole
      rw [whole, length_flatten_rows areMasked, List.length_map,
        List.length_map]
    unfold Short
    rw [isFile, ← isLength]
    exact isShorter
  · unfold Short at short ⊢
    rw [isFile]
    omega

/-- The file after sessions is whole if no session lost its end, and short
otherwise. -/
theorem runSessions_file {attributes : List Attribute}
    {relation : Relation} {inserted : List Tuple} {sessions : List Session}
    (areAttributes : relation.attributes = attributes)
    (notEmpty : attributes ≠ [])
    (fits : ∀ tuple ∈ inserted, tuple.Fits attributes)
    (sessionsFit : ∀ session ∈ sessions, ∀ tuple ∈ session.tuples,
      tuple.Fits attributes)
    (areOk : ∀ result ∈ (runSessions machine relation sessions).2,
      result = .ok) :
    let after := (runSessions machine relation sessions).1
    let all := inserted ++ sessions.flatMap Session.tuples
    after.attributes = attributes ∧
      (Whole machine attributes relation.file inserted →
        Survives inserted.getLast? sessions →
          Whole machine attributes after.file all) ∧
      (Whole machine attributes relation.file inserted →
        ¬ Survives inserted.getLast? sessions →
          Short attributes after.file all) ∧
        (Short attributes relation.file inserted →
          Short attributes after.file all) := by
  induction sessions generalizing relation inserted with
  | nil =>
      rw [List.flatMap_nil, List.append_nil]
      exact ⟨areAttributes, fun whole _ => whole,
        fun _ lost => absurd trivial lost, id⟩
  | cons session sessions inductionHypothesis =>
      unfold runSessions at areOk ⊢
      dsimp only at areOk ⊢
      have tuplesFit := sessionsFit session List.mem_cons_self
      obtain ⟨areLoaded, keepsWhole, losesEnd, keepsShort⟩ :=
        @loadFor_file machine attributes relation inserted session.cached
          session.evicted areAttributes notEmpty fits
      obtain ⟨areInserted, addsWhole, addsShort⟩ :=
        @insertAll_file machine attributes _ inserted session.tuples
          areLoaded tuplesFit
          (fun result member => areOk result (List.mem_append_left _ member))
      obtain ⟨areSame, wholeRest, lostRest, shortRest⟩ :=
        @inductionHypothesis (insertAll machine (relation.loadFor
            session.cached session.evicted) session.tuples).1.unload
          (inserted ++ session.tuples) areInserted
          (fun tuple member => (List.mem_append.1 member).elim (fits tuple)
            (tuplesFit tuple))
          (fun other member =>
            sessionsFit other (List.mem_cons_of_mem _ member))
          (fun result member => areOk result (List.mem_append_right _ member))
      rw [List.append_assoc, List.getLast?_append] at wholeRest lostRest
      rw [List.append_assoc] at shortRest
      rw [List.flatMap_cons]
      refine ⟨areSame, fun whole survives => ?_, fun whole lost => ?_,
        fun short => shortRest (addsShort (keepsShort short))⟩
      · exact wholeRest (addsWhole (keepsWhole whole survives.1))
          survives.2
      · by_cases keeps : session.evicted = true →
            ∀ tuple ∈ inserted.getLast?, ¬ tuple.EndsWithMark
        · exact lostRest (addsWhole (keepsWhole whole keeps))
            fun survives => lost ⟨keeps, survives⟩
        · exact shortRest (addsShort (losesEnd whole keeps))

theorem runSessions_append (relation : Relation)
    (sessions later : List Session) :
    runSessions machine relation (sessions ++ later) =
      ((runSessions machine (runSessions machine relation sessions).1
          later).1,
        (runSessions machine relation sessions).2 ++ (runSessions machine
          (runSessions machine relation sessions).1 later).2) := by
  induction sessions generalizing relation with
  | nil => rfl
  | cons session sessions inductionHypothesis =>
      simp only [List.cons_append, runSessions, inductionHypothesis,
        List.append_assoc]

/-! ## What is read back -/

def Tuple.data (tuple : Tuple) : List (Except DbResult Datum) :=
  tuple.map fun literal => .ok literal.datum

/-- What is projected of the record of a tuple on some of the attributes. -/
theorem projection_record {attributes : List Attribute} {tuple : Tuple}
    (nodup : (attributes.map Attribute.name).Nodup)
    (fits : tuple.Fits attributes) (limit : Nat) :
    (projection machine attributes ((attributes.map Attribute.name).take
        limit) (tuple.record machine attributes)).length =
      min limit attributes.length ∧
      (attributes.length ≤ limit →
        (projection machine attributes ((attributes.map
            Attribute.name).take limit) (tuple.record machine attributes) =
          tuple.data ↔ tuple.Signed machine attributes)) := by
  obtain ⟨fields, areAttributes, areSized, encodes, reads⟩ :=
    @exists_fields machine _ _ _ _ fits tuple.values_of_getElem?
  obtain isRecord := Except.ok.inj
    ((@Tuple.Fits.encodes machine _ _ fits).symm.trans encodes)
  constructor
  · unfold projection
    rw [List.length_map, List.length_take, List.length_map]
  · intro few
    rw [List.take_of_length_le (by rw [List.length_map]; exact few),
      ← reads]
    have isProjection : projection machine attributes
        (attributes.map Attribute.name) (tuple.record machine attributes) =
          fields.map fun field =>
            field.1.datumAt machine (ByteMem.ofList field.2) := by
      unfold projection
      rw [List.map_map]
      apply List.ext_getElem (by simp [← areAttributes])
      intro index bound inFields
      rw [List.length_map] at bound inFields
      have isField : fields[index]? = some fields[index] :=
        List.getElem?_eq_getElem inFields
      rw [List.getElem_map, List.getElem_map, Function.comp_apply,
        attributeFind_of_nodup nodup (List.getElem?_eq_getElem bound)]
      dsimp only
      rw [isRecord, ← attributeDatum_flatMap areSized isField, areAttributes]
    rw [isProjection]
    rfl

/-- A selection of all attributes without a condition returns these
tuples. -/
def SelectsAll {Iterator : Type} (machine : Machine)
    (getNext : Iterator → Option Nat × Iterator)
    (nextItemNo : Iterator → Nat) (relation : Relation)
    (vars : Variables machine) (result : ByteMem) (tuples : List Tuple) :
    Prop :=
  ∃ select : Select machine,
    relationSelect relation
        (aqlAttributes (relation.attributes.map Attribute.name) []) none
        false = .ok select ∧
      select.Yields getNext nextItemNo
        (.start machine Iterator vars result) (tuples.map Tuple.data)

/-- The names of the attributes are different, and there is one. -/
structure Schema (attributes : List Attribute) : Prop where
  notEmpty : attributes ≠ []
  nodup : (attributes.map Attribute.name).Nodup

theorem selectsAll_iff {Iterator : Type}
    {getNext : Iterator → Option Nat × Iterator}
    {nextItemNo : Iterator → Nat} {relation : Relation}
    (schema : Schema relation.attributes) (vars : Variables machine)
    (result : ByteMem) (tuples : List Tuple) :
    SelectsAll machine getNext nextItemNo relation vars result tuples ↔
      (relation.file.rowsFrom relation.rowLength 0).map
          (projection machine relation.attributes
            ((relation.attributes.map Attribute.name).take
              aqlAttributeLimit)) = tuples.map Tuple.data := by
  have isQuery := aqlAttributes_nil (relation.attributes.map Attribute.name)
  have yields {select : Select machine}
      (selects : relationSelect relation (aqlAttributes
        (relation.attributes.map Attribute.name) []) none false =
          .ok select) :
      select.Yields getNext nextItemNo
        (.start machine Iterator vars result)
        ((relation.file.rowsFrom relation.rowLength 0).map
          (projection machine relation.attributes
            ((relation.attributes.map Attribute.name).take
              aqlAttributeLimit))) := by
    obtain ⟨rfl, noCondition, -, wellFormed, names, -, stored⟩ :=
      relationSelect_eq_ok selects
    rw [isQuery, List.map_map] at names
    have areNames : select.attributes.map Attribute.name =
        (select.rel.attributes.map Attribute.name).take
          aqlAttributeLimit := names.trans (List.map_id _)
    have areStored := stored (by
      rw [isQuery]
      obtain ⟨first, rest, isCons⟩ := List.exists_cons_of_ne_nil
        schema.notEmpty
      rw [isCons]
      exact ⟨_, List.mem_cons_self, rfl⟩)
    have all := @Select.yields_selected machine Iterator getNext nextItemNo
      select wellFormed areStored (.start machine Iterator vars result) rfl
      (by rintro file ⟨⟩)
    rw [Select.selected_of_none noCondition, areNames] at all
    exact all
  constructor
  · rintro ⟨select, selects, yieldsTuples⟩
    exact (yields selects).unique yieldsTuples
  · intro same
    obtain ⟨select, selects⟩ := @exists_relationSelect machine relation
      (aqlAttributes (relation.attributes.map Attribute.name) [])
      (by
        rw [isQuery]
        intro query member
        obtain ⟨name, isName, rfl⟩ := List.mem_map.1 member
        obtain ⟨attr, isAttr, rfl⟩ :=
          List.mem_map.1 (List.mem_of_mem_take isName)
        obtain ⟨position, bound, rfl⟩ := List.getElem_of_mem isAttr
        exact ⟨position, attributeFind_of_nodup schema.nodup
          (List.getElem?_eq_getElem bound)⟩)
      (by
        rw [isQuery]
        intro query member
        obtain ⟨name, -, rfl⟩ := List.mem_map.1 member
        rfl)
      none false
    exact ⟨select, selects, same ▸ yields selects⟩

theorem Whole.reads_iff {relation : Relation} {tuples : List Tuple}
    (whole : Whole machine relation.attributes relation.file tuples)
    (schema : Schema relation.attributes)
    (fits : ∀ tuple ∈ tuples, tuple.Fits relation.attributes) :
    (relation.file.rowsFrom relation.rowLength 0).map
        (projection machine relation.attributes
          ((relation.attributes.map Attribute.name).take
            aqlAttributeLimit)) = tuples.map Tuple.data ↔
      ∀ tuple ∈ tuples,
        relation.attributes.length ≤ aqlAttributeLimit ∧
          tuple.Signed machine relation.attributes := by
  have areRows : relation.file.rowsFrom relation.rowLength 0 =
      tuples.map (Tuple.record machine relation.attributes) :=
    rowsFrom_flatten (rowLength_pos schema.notEmpty) (length_record fits)
      whole
  rw [areRows, List.map_map, List.map_inj_left]
  refine forall₂_congr fun tuple member => ?_
  obtain ⟨isLength, reads⟩ := @projection_record machine _ _ schema.nodup
    (fits tuple member) aqlAttributeLimit
  rw [Function.comp_apply]
  constructor
  · intro same
    have few : relation.attributes.length ≤ aqlAttributeLimit := by
      have lengths := congrArg List.length same
      have isTuple := (fits tuple member).length_eq
      rw [isLength] at lengths
      unfold Tuple.data at lengths
      rw [List.length_map] at lengths
      omega
    exact ⟨few, (reads few).1 same⟩
  · rintro ⟨few, signed⟩
    exact (reads few).2 signed

theorem Short.reads_ne {relation : Relation} {tuples : List Tuple}
    (short : Short relation.attributes relation.file tuples)
    (schema : Schema relation.attributes) :
    (relation.file.rowsFrom relation.rowLength 0).map
        (projection machine relation.attributes
          ((relation.attributes.map Attribute.name).take
            aqlAttributeLimit)) ≠ tuples.map Tuple.data := by
  intro same
  have positive := rowLength_pos schema.notEmpty
  have lengths := congrArg List.length same
  unfold TupleFile.rowsFrom TupleFile.getRowAmount at lengths
  have isLength : relation.rowLength = rowLength relation.attributes := rfl
  rw [List.length_map, List.length_map, List.length_range', List.length_map,
    Nat.sub_zero, isLength, if_neg (by omega)] at lengths
  have isShort : relation.file.bytes.length <
      rowLength relation.attributes * tuples.length := by
    rw [Nat.mul_comm]
    exact short
  have fewer := Nat.div_lt_of_lt_mul isShort
  omega

/-- After sessions in which all insertions succeed, a selection of all
attributes returns exactly the inserted tuples in their order if and only if
no session, nor the one of the selection, determines the end of the tuple
file again behind a row with a zero at its end, and either nothing was
inserted or all attributes can be selected and all numbers are read back
with their signs. -/
theorem selectsAll_inserted_iff {Iterator : Type}
    {getNext : Iterator → Option Nat × Iterator}
    {nextItemNo : Iterator → Nat} {relation : Relation}
    {sessions : List Session} (cached evicted : Bool)
    (schema : Schema relation.attributes)
    (isEmpty : relation.file.bytes = [])
    (fits : ∀ session ∈ sessions, ∀ tuple ∈ session.tuples,
      tuple.Fits relation.attributes)
    (areOk : ∀ result ∈ (runSessions machine relation sessions).2,
      result = .ok) (vars : Variables machine) (result : ByteMem) :
    SelectsAll machine getNext nextItemNo
        ((runSessions machine relation sessions).1.loadFor cached evicted)
        vars result (sessions.flatMap Session.tuples) ↔
      Survives none (sessions ++ [⟨cached, evicted, []⟩]) ∧
        ∀ session ∈ sessions, ∀ tuple ∈ session.tuples,
          relation.attributes.length ≤ aqlAttributeLimit ∧
            tuple.Signed machine relation.attributes := by
  have sessionsFit : ∀ session ∈ sessions ++ [⟨cached, evicted, []⟩],
      ∀ tuple ∈ session.tuples, tuple.Fits relation.attributes := by
    intro session member tuple isTuple
    rcases List.mem_append.1 member with member | member
    · exact fits session member tuple isTuple
    · obtain rfl := List.mem_singleton.1 member
      exact absurd isTuple (by simp)
  obtain ⟨areSame, wholeIf, shortIf, -⟩ := @runSessions_file machine
    relation.attributes relation [] (sessions ++ [⟨cached, evicted, []⟩])
    rfl schema.notEmpty (by simp) sessionsFit
    (by
      rw [runSessions_append]
      intro found member
      rcases List.mem_append.1 member with member | member
      · exact areOk found member
      · exact absurd member (by simp [runSessions, insertAll]))
  rw [runSessions_append] at areSame wholeIf shortIf
  have isWhole : Whole machine relation.attributes relation.file [] := isEmpty
  generalize isLoaded : (runSessions machine relation sessions).1.loadFor
    cached evicted = loaded
  have isFinal : (runSessions machine (runSessions machine relation
      sessions).1 [⟨cached, evicted, []⟩]).1 = loaded.unload := by
    rw [← isLoaded]
    rfl
  have areTuples : [] ++ (sessions ++ [Session.mk cached evicted
      []]).flatMap Session.tuples = sessions.flatMap Session.tuples := by
    rw [List.nil_append, List.flatMap_append]
    exact List.append_nil _
  dsimp only at areSame wholeIf shortIf
  rw [isFinal, areTuples] at wholeIf shortIf
  rw [isFinal] at areSame
  have areAttributes : loaded.attributes = relation.attributes := areSame
  rw [← areAttributes] at schema fits wholeIf shortIf isWhole ⊢
  have allFit : ∀ tuple ∈ sessions.flatMap Session.tuples,
      tuple.Fits loaded.attributes := by
    intro tuple member
    obtain ⟨session, isSession, isTuple⟩ := List.mem_flatMap.1 member
    exact fits session isSession tuple isTuple
  rw [selectsAll_iff schema]
  by_cases survives : Survives none (sessions ++ [⟨cached, evicted, []⟩])
  · rw [(wholeIf isWhole survives).reads_iff schema allFit]
    constructor
    · intro each
      exact ⟨survives, fun session isSession tuple isTuple =>
        each tuple (List.mem_flatMap.2 ⟨session, isSession, isTuple⟩)⟩
    · rintro ⟨-, each⟩ tuple member
      obtain ⟨session, isSession, isTuple⟩ := List.mem_flatMap.1 member
      exact each session isSession tuple isTuple
  · constructor
    · intro same
      exact absurd same ((shortIf isWhole survives).reads_ne schema)
    · rintro ⟨keeps, -⟩
      exact absurd keeps survives

/-! ## A relation with one attribute -/

def intLiteral (number : Int) : Literal where
  datum := .number number
  value := ⟨.int, number, fun _ => 0⟩
  isLiteral := ⟨rfl, rfl⟩

/-- A new relation with an `INT` attribute. -/
def counters : Relation where
  columns :=
    [⟨⟨"counter", .int, 2, false, sized_int⟩, none⟩]
  cardinality := 0
  nextRow := 0
  hasTuples := true
  file := ⟨[], 64⟩

def insertNumber (number : Int) : List Session :=
  [⟨true, false, [[intLiteral number]]⟩]

theorem counters_schema : Schema counters.attributes :=
  ⟨by decide, by decide⟩

theorem insertNumber_fits {number : Int} (lower : -2 ^ 15 ≤ number)
    (upper : number < 2 ^ 15) :
    ∀ session ∈ insertNumber number, ∀ tuple ∈ session.tuples,
      tuple.Fits counters.attributes := by
  intro session isSession tuple isTuple
  obtain rfl := List.mem_singleton.1 isSession
  obtain rfl := List.mem_singleton.1 isTuple
  exact .cons (Or.inl ⟨rfl, lower, upper⟩) .nil

theorem selectsAll_inserted_iff_counters :
    @SelectsAll Empty .ilp32 Empty.elim Empty.elim
        ((runSessions .ilp32 counters (insertNumber 7)).1.loadFor false
          true) (fun _ => ⟨"", 0⟩) (fun _ => 0)
        ((insertNumber 7).flatMap Session.tuples) ↔
      Survives none (insertNumber 7 ++ [⟨false, true, []⟩]) ∧
        ∀ session ∈ insertNumber 7, ∀ tuple ∈ session.tuples,
          counters.attributes.length ≤ aqlAttributeLimit ∧
            tuple.Signed .ilp32 counters.attributes :=
  selectsAll_inserted_iff false true counters_schema rfl
    (insertNumber_fits (by decide) (by decide)) (by decide) _ _

/-- The number 246 is lost when the end of the tuple file is determined
again. -/
theorem counters_not_selectsAll :
    Schema counters.attributes ∧
      (∀ session ∈ insertNumber 246, ∀ tuple ∈ session.tuples,
        tuple.Fits counters.attributes) ∧
      (∀ result ∈ (runSessions .ilp32 counters (insertNumber 246)).2,
        result = .ok) ∧
        ¬ @SelectsAll Empty .ilp32 Empty.elim Empty.elim
          ((runSessions .ilp32 counters (insertNumber 246)).1.loadFor false
            true) (fun _ => ⟨"", 0⟩) (fun _ => 0)
          ((insertNumber 246).flatMap Session.tuples) := by
  refine ⟨counters_schema, insertNumber_fits (by decide) (by decide),
    by decide, fun selectsAll => ?_⟩
  have schema : Schema ((runSessions .ilp32 counters
      (insertNumber 246)).1.loadFor false true).attributes :=
    ⟨by decide, by decide⟩
  have same := (selectsAll_iff schema _ _ _).1 selectsAll
  exact absurd (congrArg List.length same) (by decide)

end Contiki.Antelope
