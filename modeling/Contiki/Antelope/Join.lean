import Contiki.Antelope.Row

/-!
# Joins

`relation_join`, `generate_join_result` and `relation_process_join` of
`relation.c`.  The iterators of the index on the right relation are a
parameter.
-/

namespace Contiki.Antelope

open Contiki.Lib

/-! ## Setting up -/

/-- `struct source_map`: an attribute and where its values are. -/
structure Source where
  attr : Attribute
  fromLeft : Bool
  offset : Nat

/-- The attribute that `relation_join` projects under a name. -/
def projectedAttribute (left right : List Attribute) (name : String) :
    Except DbResult Attribute :=
  match (attributeFind left name).bind fun position => left[position]? with
  | some attr => .ok { attr with noStore := false }
  | none =>
      match (attributeFind right name).bind
          fun position => right[position]? with
      | some attr => .ok { attr with noStore := false }
      | none => .error .relationalError

/-- The loop of `generate_join_result` for one attribute. -/
def sourceOf (left right : List Attribute) (name : String) :
    Except DbResult Source :=
  match attributeFind left name with
  | some position =>
      match left[position]? with
      | some attr => .ok ⟨attr, true, valueOffset left position⟩
      | none => .error .implementationError
  | none =>
      match attributeFind right name with
      | some position =>
          match right[position]? with
          | some attr => .ok ⟨attr, false, valueOffset right position⟩
          | none => .error .implementationError
      | none => .error .nameError

/-- What `relation_join` finds out about a join. -/
structure Join where
  left : Relation
  right : Relation
  leftJoinAttr : Nat
  rightJoinAttr : Nat
  rightIndex : Index
  attributes : List Attribute
  sourceMap : List Source

/-- `relation_join` on the attribute `joinName`. -/
def relationJoin (left right : Relation) (joinName : String)
    (projected : List String) : Except DbResult Join :=
  match attributeFind left.attributes joinName,
      attributeFind right.attributes joinName with
  | some leftJoinAttr, some rightJoinAttr =>
      match right.columns[rightJoinAttr]?.bind Column.index with
      | none => .error .indexError
      | some rightIndex => do
          let attributes ← projected.mapM
            (projectedAttribute left.attributes right.attributes)
          let sourceMap ← attributes.mapM fun attr =>
            sourceOf left.attributes right.attributes attr.name
          return { left, right, leftJoinAttr, rightJoinAttr, rightIndex,
                   attributes, sourceMap }
  | _, _ => .error .relationalError

/-! ## Processing -/

/-- The size of `row` and of `extra_row`, `DB_MAX_ATTRIBUTES_PER_RELATION *
DB_MAX_ELEMENT_SIZE`.  Nothing keeps the rows of a relation below it. -/
def rowBufferSize : Nat := 6 * 16

/-- The size of `result_row`, `AQL_ATTRIBUTE_LIMIT * DB_MAX_ELEMENT_SIZE`. -/
def resultRowSize : Nat := 5 * 16

/-- The fields of `db_handle_t` that a join uses. -/
structure JoinHandle (Iterator : Type) where
  tupleId : Nat
  currentRow : Nat
  /-- No iterator while `DB_HANDLE_FLAG_INDEX_STEP` is set. -/
  iterator : Option Iterator
  leftRow : List UInt8
  tuple : List UInt8
  /-- A row has been stored behind the end of its buffer. -/
  overrun : Bool
  /-- The tuple file of the join relation under `AQL_FLAG_ASSIGN`. -/
  target : Option TupleFile

/-- The handle that `relation_join` leaves. -/
def JoinHandle.start (Iterator : Type) (leftRow tuple : List UInt8)
    (target : Option TupleFile) : JoinHandle Iterator where
  tupleId := 0
  currentRow := 0
  iterator := none
  leftRow := leftRow
  tuple := tuple
  overrun := false
  target := target

/-- The bytes that are copied for an attribute. -/
def Source.bytes (leftRow rightRow : List UInt8) (source : Source) :
    List UInt8 :=
  ((if source.fromLeft then leftRow else rightRow).drop
    source.offset).take source.attr.elementSize

/-- The number of bytes that the loop over the source map stores. -/
def copiedLength (sourceMap : List Source) : Nat :=
  (sourceMap.map fun source => source.attr.elementSize).sum

def joinRow (sourceMap : List Source) (leftRow rightRow : List UInt8) :
    List UInt8 :=
  sourceMap.flatMap (Source.bytes leftRow rightRow)

section

variable {Iterator : Type}
  (getIterator : Index → AttributeValue → AttributeValue →
    Except DbResult Iterator)
  (getNext : Iterator → Option Nat × Iterator)
  (machine : Machine) (join : Join)

/-- One turn of the inner loop; no result if it ends. -/
def joinInner (handle : JoinHandle Iterator) (iterator : Iterator) :
    Option (DbResult × JoinHandle Iterator) :=
  match getNext iterator with
  | (none, _) => none
  | (some rightTupleId, iterator) =>
      let handle := { handle with iterator := some iterator }
      match join.right.file.getRow join.right.rowLength rightTupleId with
      | none => some (.implementationError, handle)
      | some rightRow =>
          let tuple := joinRow join.sourceMap handle.leftRow rightRow
          let handle :=
            { handle with
              tuple := tuple
              overrun := handle.overrun ||
                decide (rowBufferSize < join.right.rowLength) ||
                decide (resultRowSize < copiedLength join.sourceMap) }
          match handle.target with
          | none =>
              some (.gotRow,
                { handle with currentRow := handle.currentRow + 1 })
          | some file =>
              let (result, file) := file.putRow tuple
              let handle := { handle with target := some file }
              if result.isError then some (.storageError, handle)
              else
                some (.gotRow,
                  { handle with currentRow := handle.currentRow + 1 })

/-- The outer loop, from a tuple of the left relation on. -/
def joinOuter (handle : JoinHandle Iterator) :
    DbResult × JoinHandle Iterator :=
  match _gets :
      join.left.file.getRow join.left.rowLength handle.tupleId with
  | none => (.finished, handle)
  | some leftRow =>
      let handle :=
        { handle with
          leftRow := leftRow
          overrun := handle.overrun ||
            decide (rowBufferSize < join.left.rowLength) }
      match relationGetValue machine join.left.attributes
          join.leftJoinAttr leftRow with
      | .error _ => (.implementationError, handle)
      | .ok value =>
          let handle :=
            { handle with
              leftRow :=
                terminateString join.left.attributes join.leftJoinAttr
                  leftRow }
          match getIterator join.rightIndex value value with
          | .error _ => (.indexError, handle)
          | .ok iterator =>
              match joinInner getNext join handle iterator with
              | some result => result
              | none =>
                  joinOuter
                    { handle with
                      tupleId := handle.tupleId + 1
                      iterator := none }
termination_by
  join.left.file.getRowAmount join.left.rowLength - handle.tupleId
decreasing_by
  exact Nat.sub_succ_lt_self _ _ (TupleFile.lt_of_getRow (by assumption))

/-- `relation_process_join` -/
def relationProcessJoin (handle : JoinHandle Iterator) :
    DbResult × JoinHandle Iterator :=
  match handle.iterator with
  | none =>
      joinOuter getIterator getNext machine join { handle with tupleId := 0 }
  | some iterator =>
      match joinInner getNext join handle iterator with
      | some result => result
      | none =>
          joinOuter getIterator getNext machine join
            { handle with
              tupleId := handle.tupleId + 1
              iterator := none }

/-! ## What a join returns -/

/-- The datum under a name in a pair of rows: that of the left row if the
left relation has the attribute. -/
def projectedDatum (left right : List Attribute)
    (leftRow rightRow : List UInt8) (name : String) :
    Except DbResult Datum :=
  match attributeFind left name with
  | some position => attributeDatum machine left position leftRow
  | none =>
      match attributeFind right name with
      | some position => attributeDatum machine right position rightRow
      | none => .error .nameError

/-- The row numbers that an iterator yields. -/
def Yields : Iterator → List Nat → Prop
  | iterator, [] => (getNext iterator).1 = none
  | iterator, id :: ids =>
      (getNext iterator).1 = some id ∧ Yields (getNext iterator).2 ids

/-- The index on the right relation enumerates exactly the rows with a value
of the left attribute. -/
def Join.Enumerates (leftAttr : Attribute) : Prop :=
  ∀ value : AttributeValue, value.domain = leftAttr.domain →
    ∃ iterator ids, getIterator join.rightIndex value value = .ok iterator ∧
      Yields getNext iterator ids ∧ ids.Nodup ∧
        ∀ id, id ∈ ids ↔
          ∃ row, join.right.file.getRow join.right.rowLength id = some row ∧
            attributeDatum machine join.right.attributes join.rightJoinAttr
              row = .ok (value.datum machine leftAttr)

/-- A left row and a right row with equal join values. -/
def Join.Matches (pair : Nat × Nat) : Prop :=
  ∃ leftRow rightRow datum,
    join.left.file.getRow join.left.rowLength pair.1 = some leftRow ∧
      join.right.file.getRow join.right.rowLength pair.2 = some rightRow ∧
        attributeDatum machine join.left.attributes join.leftJoinAttr
          leftRow = .ok datum ∧
        attributeDatum machine join.right.attributes join.rightJoinAttr
          rightRow = .ok datum

/-- The projection of a pair of rows. -/
def Join.projection (projected : List String) (pair : Nat × Nat) :
    List (Except DbResult Datum) :=
  match join.left.file.getRow join.left.rowLength pair.1,
      join.right.file.getRow join.right.rowLength pair.2 with
  | some leftRow, some rightRow =>
      projected.map (projectedDatum machine join.left.attributes
        join.right.attributes leftRow rightRow)
  | _, _ => []

/-- Repeated calls return exactly these tuples and then `DB_FINISHED`, and
store no row behind its buffer. -/
def Join.Returns :
    JoinHandle Iterator → List (List (Except DbResult Datum)) → Prop
  | handle, [] =>
      let (result, handle) :=
        relationProcessJoin getIterator getNext machine join handle
      result = .finished ∧ handle.overrun = false
  | handle, tuple :: tuples =>
      let (result, handle) :=
        relationProcessJoin getIterator getNext machine join handle
      result = .gotRow ∧ handle.overrun = false ∧
        readTuple machine join.attributes (ByteMem.ofList handle.tuple) =
            tuple ∧
          Join.Returns handle tuples

/-- The file of the join relation takes that many rows. -/
def Join.Room (target : Option TupleFile) (rows : Nat) : Prop :=
  ∀ file ∈ target,
    file.bytes.length + rows * Antelope.rowLength join.attributes ≤
      file.capacity

/-- The rows of the left relation fit into their buffer. -/
def Join.LeftFits : Prop := join.left.rowLength ≤ rowBufferSize

/-- The rows of the right relation and those of the join relation fit into
their buffers. -/
def Join.PairFits : Prop :=
  join.right.rowLength ≤ rowBufferSize ∧
    copiedLength join.sourceMap ≤ resultRowSize

/-- All rows that are stored for these pairs fit into their buffers: the left
relation has no tuple or its rows fit, and there is no pair or its rows
fit. -/
def Join.Fits (pairs : List (Nat × Nat)) : Prop :=
  (0 < join.left.file.getRowAmount join.left.rowLength → join.LeftFits) ∧
    (pairs ≠ [] → join.PairFits)

end

/-! ## The tuples of a join -/

/-- The attribute of the join relation and the bytes that are copied
for it. -/
def Source.field (leftRow rightRow : List UInt8) (source : Source) :
    Attribute × List UInt8 :=
  ({ source.attr with noStore := false }, source.bytes leftRow rightRow)

theorem datumAt_copied {machine : Machine} {attributes : List Attribute}
    {position : Nat} {attr : Attribute} {row : List UInt8}
    (isAttr : attributes[position]? = some attr)
    (isRow : row.length = rowLength attributes) :
    let bytes :=
      (row.drop (valueOffset attributes position)).take attr.elementSize
    bytes.length = attr.elementSize ∧
      attr.datumAt machine (ByteMem.ofList bytes) =
        attributeDatum machine attributes position row := by
  intro bytes
  have inside := valueOffset_add_le_rowLength isAttr
  have isLength : bytes.length = attr.elementSize := by
    rw [List.length_take, List.length_drop]
    omega
  refine ⟨isLength, ?_⟩
  unfold attributeDatum
  rw [isAttr]
  refine Attribute.datumAt_congr ?_
  rw [read_shift_ofList (by omega)]
  exact (congrArg _ isLength.symm).trans (ByteMem.read_ofList bytes)

/-- The two passes of `relation_join` over the projected attributes find the
same attribute. -/
theorem field_of_source {machine : Machine} {left right : List Attribute}
    {name : String} {attr : Attribute} {source : Source}
    {leftRow rightRow : List UInt8}
    (isAttr : projectedAttribute left right name = .ok attr)
    (isSource : sourceOf left right attr.name = .ok source)
    (isLeft : leftRow.length = rowLength left)
    (isRight : rightRow.length = rowLength right) :
    (source.field leftRow rightRow).1 = attr ∧
      (source.field leftRow rightRow).2.length = attr.elementSize ∧
        attr.datumAt machine
            (ByteMem.ofList (source.field leftRow rightRow).2) =
          projectedDatum machine left right leftRow rightRow name := by
  unfold projectedAttribute at isAttr
  unfold projectedDatum
  cases inLeft : attributeFind left name with
  | some position =>
      obtain ⟨found, isFound, isName⟩ := exists_of_attributeFind inLeft
      rw [inLeft, Option.bind_some, isFound] at isAttr
      obtain rfl := Except.ok.inj isAttr
      unfold sourceOf at isSource
      dsimp only at isSource
      rw [isName, inLeft] at isSource
      dsimp only at isSource
      rw [isFound] at isSource
      obtain rfl := Except.ok.inj isSource
      exact ⟨rfl, datumAt_copied isFound isLeft⟩
  | none =>
      rw [inLeft, Option.bind_none] at isAttr
      dsimp only at isAttr
      cases inRight : attributeFind right name with
      | none =>
          rw [inRight] at isAttr
          exact absurd isAttr (by rintro ⟨⟩)
      | some position =>
          obtain ⟨found, isFound, isName⟩ := exists_of_attributeFind inRight
          rw [inRight, Option.bind_some, isFound] at isAttr
          obtain rfl := Except.ok.inj isAttr
          unfold sourceOf at isSource
          dsimp only at isSource
          rw [isName, inLeft, inRight] at isSource
          dsimp only at isSource
          rw [isFound] at isSource
          obtain rfl := Except.ok.inj isSource
          exact ⟨rfl, datumAt_copied isFound isRight⟩

/-- `relation_join` keeps the relations and finds the attributes. -/
theorem relationJoin_eq_ok {left right : Relation} {joinName : String}
    {projected : List String} {join : Join}
    (joins : relationJoin left right joinName projected = .ok join) :
    join.left = left ∧ join.right = right ∧
      attributeFind left.attributes joinName = some join.leftJoinAttr ∧
      List.Forall₂ (fun name attr =>
          projectedAttribute left.attributes right.attributes name = .ok attr)
        projected join.attributes ∧
      List.Forall₂ (fun attr source =>
          sourceOf left.attributes right.attributes attr.name = .ok source)
        join.attributes join.sourceMap := by
  unfold relationJoin at joins
  cases isLeft : attributeFind left.attributes joinName with
  | none =>
      rw [isLeft] at joins
      exact absurd joins (by rintro ⟨⟩)
  | some leftJoinAttr =>
  cases isRight : attributeFind right.attributes joinName with
  | none =>
      rw [isLeft, isRight] at joins
      exact absurd joins (by rintro ⟨⟩)
  | some rightJoinAttr =>
  rw [isLeft, isRight] at joins
  dsimp only at joins
  cases isIndex : right.columns[rightJoinAttr]?.bind Column.index with
  | none =>
      rw [isIndex] at joins
      exact absurd joins (by rintro ⟨⟩)
  | some rightIndex =>
  rw [isIndex] at joins
  obtain ⟨attributes, areAttributes, joins⟩ := bind_eq_ok joins
  obtain ⟨sourceMap, isSourceMap, joins⟩ := bind_eq_ok joins
  obtain rfl := Except.ok.inj joins
  exact ⟨rfl, rfl, rfl, forall₂_of_mapM areAttributes,
    forall₂_of_mapM isSourceMap⟩

theorem fields_of_sourceMap {machine : Machine}
    {left right : List Attribute} {projected : List String}
    {attributes : List Attribute} {sourceMap : List Source}
    {leftRow rightRow : List UInt8}
    (areAttributes : List.Forall₂ (fun name attr =>
      projectedAttribute left right name = .ok attr) projected attributes)
    (isSourceMap : List.Forall₂ (fun attr source =>
      sourceOf left right attr.name = .ok source) attributes sourceMap)
    (isLeft : leftRow.length = rowLength left)
    (isRight : rightRow.length = rowLength right) :
    let fields := sourceMap.map (Source.field leftRow rightRow)
    fields.map Prod.fst = attributes ∧
      (∀ field ∈ fields, field.2.length = field.1.elementSize) ∧
        fields.map (fun field =>
            field.1.datumAt machine (ByteMem.ofList field.2)) =
          projected.map
            (projectedDatum machine left right leftRow rightRow) := by
  induction areAttributes generalizing sourceMap with
  | nil =>
      cases isSourceMap
      exact ⟨rfl, by simp, rfl⟩
  | @cons name attr projected attributes isAttr areAttributes
      inductionHypothesis =>
      obtain _ | ⟨isSource, areRest⟩ := isSourceMap
      obtain ⟨areSame, areSized, areData⟩ := inductionHypothesis areRest
      obtain ⟨isSame, isSized, isDatum⟩ :=
        @field_of_source machine _ _ _ _ _ _ _ isAttr isSource isLeft
          isRight
      subst isSame
      refine ⟨congrArg _ areSame, ?_, congrArg₂ List.cons isDatum areData⟩
      intro field member
      rcases List.mem_cons.1 member with rfl | member
      · exact isSized
      · exact areSized field member

theorem joinRow_eq_flatMap (sourceMap : List Source)
    (leftRow rightRow : List UInt8) :
    joinRow sourceMap leftRow rightRow =
      (sourceMap.map (Source.field leftRow rightRow)).flatMap Prod.snd := by
  unfold joinRow
  rw [List.flatMap_map]
  rfl

theorem length_flatMap_fields {fields : Fields}
    (areSized : ∀ field ∈ fields, field.2.length = field.1.elementSize) :
    (fields.flatMap Prod.snd).length = rowLength (fields.map Prod.fst) := by
  induction fields with
  | nil => rfl
  | cons field fields inductionHypothesis =>
      rw [List.flatMap_cons, List.length_append, List.map_cons,
        rowLength_cons, areSized field List.mem_cons_self,
        inductionHypothesis fun other member =>
          areSized other (List.mem_cons_of_mem _ member)]

/-- What a user reads of a tuple is the projection of its pair of rows. -/
theorem readTuple_joinRow {machine : Machine} {left right : List Attribute}
    {projected : List String} {attributes : List Attribute}
    {sourceMap : List Source} {leftRow rightRow : List UInt8}
    (areAttributes : List.Forall₂ (fun name attr =>
      projectedAttribute left right name = .ok attr) projected attributes)
    (isSourceMap : List.Forall₂ (fun attr source =>
      sourceOf left right attr.name = .ok source) attributes sourceMap)
    (isLeft : leftRow.length = rowLength left)
    (isRight : rightRow.length = rowLength right) :
    (joinRow sourceMap leftRow rightRow).length = rowLength attributes ∧
      readTuple machine attributes
          (ByteMem.ofList (joinRow sourceMap leftRow rightRow)) =
        projected.map
          (projectedDatum machine left right leftRow rightRow) := by
  obtain ⟨areSame, areSized, areData⟩ :=
    @fields_of_sourceMap machine _ _ _ _ _ _ _ areAttributes isSourceMap
      isLeft isRight
  rw [joinRow_eq_flatMap, ← areData, ← areSame]
  refine ⟨length_flatMap_fields areSized, ?_⟩
  generalize isFields : sourceMap.map (Source.field leftRow rightRow) =
    fields at areSized
  have areStored : ∀ field ∈ fields, field.1.noStore = false := by
    intro field member
    rw [← isFields] at member
    obtain ⟨source, -, rfl⟩ := List.mem_map.1 member
    rfl
  exact readTuple_of_holds areStored areSized (ByteMem.read_ofList _)

end Contiki.Antelope
