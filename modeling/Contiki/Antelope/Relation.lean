import Contiki.Antelope.Value
import Mathlib.Data.List.DropRight

/-!
# Relations and their tuple files

The functions of `storage-cfs.c` that read and write rows, and those of
`relation.c` that load a relation, insert a row and count the rows.

A tuple file is only appended to, so that Coffee keeps no log for it.  Its
end is kept while the file is in the table of open files; afterwards
`file_end` of `cfs-coffee.c` looks for the last byte that is not zero.
-/

namespace Contiki.Antelope

open Contiki.Lib

/-! ## Tuple files -/

/-- A file up to its end, and the size up to which it can grow. -/
structure TupleFile where
  bytes : List UInt8
  capacity : Nat

/-- `file_end` -/
def fileEnd (bytes : List UInt8) : Nat :=
  (bytes.rdropWhile (· = 0)).length

/-- `ROW_XOR` -/
def rowXor : UInt8 := 0xf6

/-- Flip the last byte of a row. -/
def maskRow (row : List UInt8) : List UInt8 :=
  row.modify (row.length - 1) (· ^^^ rowXor)

namespace TupleFile

/-- `cfs_open` after the file was closed: if its entry in the table of open
files has been evicted, the end is determined again. -/
def reopen (file : TupleFile) (evicted : Bool) : TupleFile :=
  if evicted then { file with bytes := file.bytes.take (fileEnd file.bytes) }
  else file

/-- `storage_get_row_amount` -/
def getRowAmount (file : TupleFile) (rowLength : Nat) : Nat :=
  if rowLength = 0 then 0 else file.bytes.length / rowLength

/-- `storage_get_row`; no result is `DB_FINISHED`. -/
def getRow (file : TupleFile) (rowLength tupleId : Nat) :
    Option (List UInt8) :=
  if tupleId < file.getRowAmount rowLength then
    some (maskRow ((file.bytes.drop (tupleId * rowLength)).take rowLength))
  else none

/-- `storage_put_row` -/
def putRow (file : TupleFile) (row : List UInt8) : DbResult × TupleFile :=
  if file.bytes.length + row.length ≤ file.capacity then
    (.ok, { file with bytes := file.bytes ++ maskRow row })
  else (.storageError, file)

end TupleFile

/-! ## Relations -/

/-- `tuple_id_t` -/
abbrev TupleId := UInt32

/-- `INVALID_TUPLE` -/
def invalidTuple : TupleId := 0xffffffff

/-- An index: the keys and row numbers that have been inserted, and whether
it refuses another one. -/
structure Index where
  entries : List (AttributeValue × TupleId)
  refuses : List (AttributeValue × TupleId) → AttributeValue → TupleId → Bool

/-- `index_insert` -/
def Index.insert (index : Index) (value : AttributeValue)
    (tupleId : TupleId) : Option Index :=
  if index.refuses index.entries value tupleId then none
  else some { index with entries := index.entries ++ [(value, tupleId)] }

/-- An attribute of a relation with its index. -/
structure Column where
  attr : Attribute
  index : Option Index

/-- `relation_t` -/
structure Relation where
  columns : List Column
  cardinality : TupleId
  nextRow : TupleId
  /-- The tuple file is open. -/
  hasTuples : Bool
  file : TupleFile

/-- The size of a row of some attributes. -/
def rowLength (attributes : List Attribute) : Nat :=
  (attributes.map Attribute.elementSize).sum

namespace Relation

variable (machine : Machine)

def attributes (relation : Relation) : List Attribute :=
  relation.columns.map Column.attr

/-- `row_length` -/
def rowLength (relation : Relation) : Nat :=
  Antelope.rowLength relation.attributes

/-- The domain check of `relation_insert`: an `INT` may be promoted to
`LONG`. -/
def Accepts (attr : Attribute) (value : AttributeValue) : Prop :=
  attr.domain = value.domain ∨
    attr.domain = .long ∧ value.domain = .int

instance (attr : Attribute) (value : AttributeValue) :
    Decidable (Accepts attr value) :=
  inferInstanceAs (Decidable (_ ∨ _))

/-- Insert a value into the index of an attribute. -/
def insertIndex (column : Column) (value : AttributeValue)
    (tupleId : TupleId) : Option Column :=
  match column.index with
  | none => some column
  | some index =>
      (index.insert value tupleId).map fun index =>
        { column with index := some index }

/-- The loop of `relation_insert` over the attributes; the values are those
of the array from `next` on. -/
def insertValues (nextRow : TupleId) (values : Nat → AttributeValue) :
    List Column → Nat → List Column × Except DbResult (List UInt8)
  | [], _ => ([], .ok [])
  | column :: columns, next =>
      let value := values next
      if ¬ Accepts column.attr value then
        (column :: columns, .error .relationalError)
      else
        match dbValueToPhy machine column.attr value with
        | .error error => (column :: columns, .error error)
        | .ok bytes =>
            match insertIndex column value nextRow with
            | none => (column :: columns, .error .indexError)
            | some column =>
                let (columns, record) :=
                  insertValues nextRow values columns (next + 1)
                (column :: columns, record.map (bytes ++ ·))

/-- `relation_insert` -/
def insert (relation : Relation) (values : Nat → AttributeValue) :
    Relation × DbResult :=
  let (columns, record) :=
    insertValues machine relation.nextRow values relation.columns 0
  let relation := { relation with columns := columns }
  match record with
  | .error error => (relation, error)
  | .ok record =>
      let relation :=
        { relation with
          cardinality := relation.cardinality + 1
          nextRow := relation.nextRow + 1 }
      if relation.hasTuples then
        let (result, file) := relation.file.putRow record
        ({ relation with file := file }, result)
      else (relation, .storageError)

/-- `relation_cardinality` -/
def getCardinality (relation : Relation) : TupleId × Relation :=
  if relation.cardinality ≠ invalidTuple then
    (relation.cardinality, relation)
  else if ¬ relation.hasTuples then (0, relation)
  else
    let amount :=
      UInt32.ofNat (relation.file.getRowAmount relation.rowLength)
    (amount, { relation with cardinality := amount })

/-- `relation_load` of a relation that is in memory. -/
def open_ (relation : Relation) (evicted : Bool) : Relation :=
  { relation with
    file := relation.file.reopen evicted
    hasTuples := true }

/-- `relation_load` of a relation that is not in memory.  No index is loaded
with it: an inline index has no descriptor, and the `load` of a maxheap index
compares the result of `storage_read` with a size. -/
def load (relation : Relation) (evicted : Bool) : Relation :=
  { relation with
    columns := relation.columns.map fun column =>
      { column with index := none }
    cardinality := invalidTuple
    nextRow := 0
    file := relation.file.reopen evicted
    hasTuples := true }

/-- `storage_unload` -/
def unload (relation : Relation) : Relation :=
  { relation with hasTuples := false }

end Relation

/-! ## Attributes in rows -/

/-- `attribute_find`: the position of the first attribute with a name. -/
def attributeFind (attributes : List Attribute) (name : String) :
    Option Nat :=
  attributes.findIdx? fun attr => attr.name = name

/-- `get_attribute_value_offset` -/
def valueOffset (attributes : List Attribute) (position : Nat) : Nat :=
  rowLength (attributes.take position)

/-- `relation_get_value` -/
def relationGetValue (machine : Machine) (attributes : List Attribute)
    (position : Nat) (row : List UInt8) : Except DbResult AttributeValue :=
  match attributes[position]? with
  | some attr =>
      dbPhyToValue machine attr
        ((ByteMem.ofList row).shift (valueOffset attributes position))
  | none => .error .implementationError

/-- The loop of `db_get_value`, from an attribute on whose value is at
`offset`. -/
def getValueFrom (machine : Machine) (tuple : ByteMem) :
    List Attribute → Nat → Nat → Except DbResult (Attribute × AttributeValue)
  | [], _, _ => .error .nameError
  | attr :: attributes, col, offset =>
      if attr.noStore then
        getValueFrom machine tuple attributes col offset
      else
        match col with
        | 0 =>
            (dbPhyToValue machine attr (tuple.shift offset)).map (attr, ·)
        | col + 1 =>
            getValueFrom machine tuple attributes col
              (offset + attr.elementSize)

/-- `db_get_value`, with the attribute that the value has. -/
def dbGetValue (machine : Machine) (attributes : List Attribute)
    (ncolumns : Nat) (tuple : ByteMem) (col : Nat) :
    Except DbResult (Attribute × AttributeValue) :=
  if ncolumns ≤ col then .error .limitError
  else getValueFrom machine tuple attributes col 0

/-- What a user reads in a column. -/
def columnDatum (machine : Machine) (attributes : List Attribute)
    (ncolumns : Nat) (tuple : ByteMem) (col : Nat) :
    Except DbResult Datum :=
  (dbGetValue machine attributes ncolumns tuple col).map fun found =>
    found.2.datum machine found.1

end Contiki.Antelope
