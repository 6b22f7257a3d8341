import Contiki.Antelope.Row

/-!
# Insertions

What `relation_insert` does to the columns, the counters and the tuple file
of a relation.
-/

namespace Contiki.Antelope

open Contiki.Lib

variable {machine : Machine}

/-- The record that is stored for the values from one on. -/
def encodeRecord (machine : Machine) (values : Nat → AttributeValue) :
    List Attribute → Nat → Except DbResult (List UInt8)
  | [], _ => .ok []
  | attr :: attributes, next =>
      match dbValueToPhy machine attr (values next) with
      | .error error => .error error
      | .ok bytes =>
          (encodeRecord machine values attributes (next + 1)).map (bytes ++ ·)

theorem map_eq_ok {α β : Type} {f : α → β} {input : Except DbResult α}
    {output : β} (isOutput : input.map f = .ok output) :
    ∃ value, input = .ok value ∧ f value = output := by
  cases input with
  | error error => exact absurd isOutput (by rintro ⟨⟩)
  | ok value => exact ⟨value, rfl, Except.ok.inj isOutput⟩

theorem map_eq_error {α β : Type} {f : α → β} {input : Except DbResult α}
    {error : DbResult} (isError : input.map f = .error error) :
    input = .error error := by
  cases input with
  | error found => exact congrArg _ (Except.error.inj isError)
  | ok value => exact absurd isError (by rintro ⟨⟩)

variable {nextRow : TupleId} {values : Nat → AttributeValue}
  {attr : Attribute}

theorem encodeRecord_cons_eq_ok {attributes : List Attribute} {next : Nat}
    {record : List UInt8}
    (encodes : encodeRecord machine values (attr :: attributes) next =
      .ok record) :
    ∃ bytes rest, dbValueToPhy machine attr (values next) = .ok bytes ∧
      encodeRecord machine values attributes (next + 1) = .ok rest ∧
        record = bytes ++ rest := by
  unfold encodeRecord at encodes
  cases isBytes : dbValueToPhy machine attr (values next) with
  | error error =>
      rw [isBytes] at encodes
      exact absurd encodes (by rintro ⟨⟩)
  | ok bytes =>
      rw [isBytes] at encodes
      obtain ⟨rest, isRest, rfl⟩ := map_eq_ok encodes
      exact ⟨bytes, rest, rfl, isRest, rfl⟩

variable {value : AttributeValue}

theorem length_dbValueToPhy {bytes : List UInt8}
    (isBytes : dbValueToPhy machine attr value = .ok bytes) :
    bytes.length = attr.elementSize := by
  obtain ⟨_, domain, elementSize, _, sized⟩ := attr
  unfold dbValueToPhy at isBytes
  cases domain with
  | int =>
      obtain rfl := Except.ok.inj isBytes
      have isTwo : elementSize = 2 := sized
      exact isTwo.symm
  | long =>
      obtain rfl := Except.ok.inj isBytes
      have isFour : elementSize = 4 := sized
      exact isFour.symm
  | string =>
      obtain rfl := Except.ok.inj isBytes
      rw [List.length_set, ByteMem.length_read]
  | unspecified => exact absurd isBytes (by rintro ⟨⟩)
  | float => exact absurd isBytes (by rintro ⟨⟩)

theorem length_encodeRecord
    {attributes : List Attribute} {next : Nat} {record : List UInt8}
    (encodes : encodeRecord machine values attributes next = .ok record) :
    record.length = rowLength attributes := by
  induction attributes generalizing next record with
  | nil =>
      obtain rfl := Except.ok.inj encodes
      rfl
  | cons attr attributes inductionHypothesis =>
      obtain ⟨bytes, rest, isBytes, isRest, rfl⟩ :=
        encodeRecord_cons_eq_ok encodes
      rw [List.length_append, rowLength_cons, length_dbValueToPhy isBytes,
        inductionHypothesis isRest]

theorem rowLength_pos {attributes : List Attribute}
    (notEmpty : attributes ≠ []) : 0 < rowLength attributes := by
  cases attributes with
  | nil => exact absurd rfl notEmpty
  | cons attr attributes =>
      rw [rowLength_cons]
      exact Nat.add_pos_left attr.elementSize_pos _

theorem attr_of_insertIndex {column changed : Column}
    {value : AttributeValue} {tupleId : TupleId}
    (inserts : Relation.insertIndex column value tupleId = some changed) :
    changed.attr = column.attr := by
  unfold Relation.insertIndex at inserts
  split at inserts
  · obtain rfl := Option.some.inj inserts
    rfl
  · rename_i index _
    cases isIndex : index.insert value tupleId with
    | none =>
        rw [isIndex] at inserts
        exact absurd inserts (by rintro ⟨⟩)
    | some index =>
        rw [isIndex] at inserts
        obtain rfl := Option.some.inj inserts
        rfl

theorem dbValueToPhy_error {error : DbResult}
    (fails : dbValueToPhy machine attr value = .error error) :
    error = .typeError := by
  unfold dbValueToPhy at fails
  split at fails
  · exact absurd fails (by rintro ⟨⟩)
  · exact absurd fails (by rintro ⟨⟩)
  · exact absurd fails (by rintro ⟨⟩)
  · exact (Except.error.inj fails).symm

theorem insertValues_cons (nextRow : TupleId)
    (values : Nat → AttributeValue) (column : Column)
    (columns : List Column) (next : Nat) :
    Relation.insertValues machine nextRow values (column :: columns) next =
      if ¬ Relation.Accepts column.attr (values next) then
        (column :: columns, .error .relationalError)
      else
        match dbValueToPhy machine column.attr (values next) with
        | .error error => (column :: columns, .error error)
        | .ok bytes =>
            match Relation.insertIndex column (values next) nextRow with
            | none => (column :: columns, .error .indexError)
            | some column =>
                let (columns, record) := Relation.insertValues machine
                  nextRow values columns (next + 1)
                (column :: columns, record.map (bytes ++ ·)) := rfl

/-- The loop over the attributes keeps them, and what it stores if it ends
is the record. -/
theorem insertValues_spec {nextRow : TupleId}
    {values : Nat → AttributeValue} (columns : List Column) (next : Nat) :
    let result := Relation.insertValues machine nextRow values columns next
    result.1.map Column.attr = columns.map Column.attr ∧
      (∀ record, result.2 = .ok record →
        encodeRecord machine values (columns.map Column.attr) next =
            .ok record) ∧
        ∀ error, result.2 = .error error → error.isError = true := by
  induction columns generalizing next with
  | nil =>
      exact ⟨rfl, fun record isRecord => isRecord, by rintro error ⟨⟩⟩
  | cons column columns inductionHypothesis =>
      intro result
      obtain ⟨areSame, encodes, errors⟩ := inductionHypothesis (next + 1)
      have isResult : result = _ := insertValues_cons nextRow values column
        columns next
      split at isResult
      · rw [isResult]
        exact ⟨rfl, by rintro record ⟨⟩, by rintro error ⟨⟩; rfl⟩
      · cases isBytes : dbValueToPhy machine column.attr (values next) with
        | error error =>
            rw [isBytes] at isResult
            rw [isResult]
            refine ⟨rfl, by rintro record ⟨⟩, ?_⟩
            rintro _ ⟨⟩
            rw [dbValueToPhy_error isBytes]
            rfl
        | ok bytes =>
            rw [isBytes] at isResult
            dsimp only at isResult
            cases isIndex : Relation.insertIndex column (values next)
                nextRow with
            | none =>
                rw [isIndex] at isResult
                rw [isResult]
                exact ⟨rfl, by rintro record ⟨⟩, by rintro error ⟨⟩; rfl⟩
            | some changed =>
                rw [isIndex] at isResult
                dsimp only at isResult
                rw [isResult]
                refine ⟨congrArg₂ List.cons (attr_of_insertIndex isIndex)
                  areSame, ?_, ?_⟩
                · intro record isRecord
                  obtain ⟨rest, isRest, rfl⟩ := map_eq_ok isRecord
                  rw [List.map_cons]
                  unfold encodeRecord
                  rw [isBytes]
                  dsimp only
                  rw [encodes rest isRest]
                  rfl
                · intro error isError
                  exact errors error (map_eq_error isError)

/-- What a successful insertion does. -/
structure Inserted (machine : Machine) (relation : Relation)
    (values : Nat → AttributeValue) (after : Relation)
    (record : List UInt8) : Prop where
  isRecord : encodeRecord machine values relation.attributes 0 = .ok record
  fits : relation.file.bytes.length + record.length ≤ relation.file.capacity
  isFile : after.file =
    { relation.file with bytes := relation.file.bytes ++ maskRow record }
  cardinality : after.cardinality = relation.cardinality + 1
  nextRow : after.nextRow = relation.nextRow + 1

/-- An insertion keeps the attributes and the tuple file open or closed, and
it stores a record or leaves the file. -/
theorem insert_spec (relation : Relation)
    (values : Nat → AttributeValue) :
    (relation.insert machine values).1.attributes = relation.attributes ∧
      (relation.insert machine values).1.hasTuples = relation.hasTuples ∧
        ((relation.insert machine values).2 = .ok →
          relation.hasTuples = true ∧ ∃ record, Inserted machine relation
            values (relation.insert machine values).1 record) ∧
          ((relation.insert machine values).2 ≠ .ok →
            (relation.insert machine values).1.file = relation.file) := by
  obtain ⟨areSame, encodes, errors⟩ := @insertValues_spec machine
    relation.nextRow values relation.columns 0
  generalize isResult : relation.insert machine values = outcome
  unfold Relation.insert at isResult
  cases inserts : Relation.insertValues machine relation.nextRow values
      relation.columns 0 with
  | mk columns record =>
  rw [inserts] at isResult areSame encodes errors
  dsimp only at isResult areSame encodes errors
  cases record with
  | error error =>
      subst isResult
      refine ⟨areSame, rfl, ?_, fun _ => rfl⟩
      intro succeeds
      have isOk : error = .ok := succeeds
      have isError := errors error rfl
      rw [isOk] at isError
      exact absurd isError (by decide)
  | ok record =>
      have isRecord := encodes record rfl
      dsimp only at isResult
      split at isResult
      · rename_i isOpen
        by_cases fits : relation.file.bytes.length + record.length ≤
            relation.file.capacity
        · rw [TupleFile.putRow_of_fits fits] at isResult
          subst isResult
          exact ⟨areSame, rfl,
            fun _ => ⟨isOpen, record, isRecord, fits, rfl, rfl, rfl⟩,
            fun notOk => absurd rfl notOk⟩
        · have full : relation.file.putRow record =
            (.storageError, relation.file) := if_neg fits
          rw [full] at isResult
          subst isResult
          exact ⟨areSame, rfl, by rintro ⟨⟩, fun _ => rfl⟩
      · subst isResult
        exact ⟨areSame, rfl, by rintro ⟨⟩, fun _ => rfl⟩

/-! ## Values that are taken -/

def Admits (nextRow : TupleId) (column : Column)
    (value : AttributeValue) : Prop :=
  Relation.Accepts column.attr value ∧ column.attr.domain.Valued ∧
    ∀ index ∈ column.index,
      index.refuses index.entries value nextRow = false

theorem isOk_dbValueToPhy_iff :
    (∃ bytes, dbValueToPhy machine attr value = .ok bytes) ↔
      attr.domain.Valued := by
  unfold dbValueToPhy Domain.Valued
  cases attr.domain with
  | int => exact ⟨fun _ => trivial, fun _ => ⟨_, rfl⟩⟩
  | long => exact ⟨fun _ => trivial, fun _ => ⟨_, rfl⟩⟩
  | string => exact ⟨fun _ => trivial, fun _ => ⟨_, rfl⟩⟩
  | unspecified =>
      refine ⟨?_, False.elim⟩
      rintro ⟨bytes, ⟨⟩⟩
  | float =>
      refine ⟨?_, False.elim⟩
      rintro ⟨bytes, ⟨⟩⟩

theorem isSome_insertIndex_iff {column : Column} {value : AttributeValue}
    {tupleId : TupleId} :
    (∃ changed, Relation.insertIndex column value tupleId =
        some changed) ↔
      ∀ index ∈ column.index,
        index.refuses index.entries value tupleId = false := by
  unfold Relation.insertIndex Index.insert
  cases column.index with
  | none => simp
  | some index =>
      cases index.refuses index.entries value tupleId with
      | true => simp
      | false => simp

/-- The loop over the attributes ends with a record if and only if every
column takes its value. -/
theorem insertValues_isOk_iff (columns : List Column) (next : Nat) :
    (∃ record, (Relation.insertValues machine nextRow values columns
        next).2 = .ok record) ↔
      ∀ position column, columns[position]? = some column →
        Admits nextRow column (values (next + position)) := by
  induction columns generalizing next with
  | nil => simp [Relation.insertValues]
  | cons column columns inductionHypothesis =>
      have split : (∀ position found,
          (column :: columns)[position]? = some found →
            Admits nextRow found (values (next + position))) ↔
          Admits nextRow column (values next) ∧
            ∀ position found, columns[position]? = some found →
              Admits nextRow found (values (next + 1 + position)) := by
        constructor
        · intro each
          refine ⟨each 0 column rfl, fun position found isFound => ?_⟩
          rw [Nat.add_assoc, Nat.add_comm 1 position]
          exact each (position + 1) found isFound
        · rintro ⟨first, rest⟩ position found isFound
          cases position with
          | zero =>
              obtain rfl := Option.some.inj isFound
              exact first
          | succ position =>
              rw [Nat.add_comm position 1, ← Nat.add_assoc]
              exact rest position found isFound
      rw [split, ← inductionHypothesis (next + 1)]
      unfold Admits
      rw [← @isOk_dbValueToPhy_iff machine _ (values next),
        ← isSome_insertIndex_iff]
      rw [insertValues_cons]
      by_cases accepted : Relation.Accepts column.attr (values next)
      · rw [if_neg (not_not.2 accepted)]
        cases isBytes : dbValueToPhy machine column.attr (values next) with
        | error error => simp
        | ok bytes =>
            cases isIndex : Relation.insertIndex column (values next)
                nextRow with
            | none => simp
            | some changed =>
                dsimp only
                constructor
                · rintro ⟨record, isRecord⟩
                  obtain ⟨rest, isRest, -⟩ := map_eq_ok isRecord
                  exact ⟨⟨accepted, ⟨bytes, rfl⟩, ⟨changed, rfl⟩⟩,
                    ⟨rest, isRest⟩⟩
                · rintro ⟨-, rest, isRest⟩
                  rw [isRest]
                  exact ⟨_, rfl⟩
      · rw [if_pos accepted]
        constructor
        · rintro ⟨record, ⟨⟩⟩
        · rintro ⟨⟨isAccepted, -⟩, -⟩
          exact absurd isAccepted accepted

def Relation.AdmitsAll (relation : Relation)
    (values : Nat → AttributeValue) : Prop :=
  ∀ position column, relation.columns[position]? = some column →
    Admits relation.nextRow column (values position)

theorem insert_of_not_admits {relation : Relation}
    {values : Nat → AttributeValue}
    (notTaken : ¬ relation.AdmitsAll values) :
    (relation.insert machine values).1.cardinality = relation.cardinality ∧
      (relation.insert machine values).1.nextRow = relation.nextRow ∧
        (relation.insert machine values).1.file = relation.file ∧
          (relation.insert machine values).2.isError = true := by
  have isOk := @insertValues_isOk_iff machine relation.nextRow values
    relation.columns 0
  obtain ⟨-, -, errors⟩ := @insertValues_spec machine relation.nextRow
    values relation.columns 0
  simp only [Nat.zero_add] at isOk
  unfold Relation.insert
  cases inserts : Relation.insertValues machine relation.nextRow values
      relation.columns 0 with
  | mk columns record =>
  rw [inserts] at isOk errors
  cases record with
  | ok record => exact absurd (isOk.1 ⟨record, rfl⟩) notTaken
  | error error => exact ⟨rfl, rfl, rfl, errors error rfl⟩

/-- Values that are taken make a record, if the file is open and has
room. -/
theorem insert_of_admits {relation : Relation}
    {values : Nat → AttributeValue} (taken : relation.AdmitsAll values)
    (isOpen : relation.hasTuples = true)
    (room : relation.file.bytes.length + relation.rowLength ≤
      relation.file.capacity) :
    (relation.insert machine values).2 = .ok := by
  obtain ⟨record, isRecord⟩ := (@insertValues_isOk_iff machine
    relation.nextRow values relation.columns 0).2
      fun position column isColumn => by
        rw [Nat.zero_add]
        exact taken position column isColumn
  obtain ⟨-, encodes, -⟩ := @insertValues_spec machine relation.nextRow
    values relation.columns 0
  have isLength := length_encodeRecord (encodes record isRecord)
  unfold Relation.insert
  cases inserts : Relation.insertValues machine relation.nextRow values
      relation.columns 0 with
  | mk columns found =>
  rw [inserts] at isRecord
  dsimp only at isRecord ⊢
  subst isRecord
  dsimp only
  rw [if_pos isOpen, TupleFile.putRow_of_fits (isLength ▸ room)]

/-! ## The columns after an insertion -/

/-- A column with another entry in its index. -/
def Column.addEntry (column : Column) (value : AttributeValue)
    (tupleId : TupleId) : Column :=
  { column with
    index := column.index.map fun index =>
      { index with entries := index.entries ++ [(value, tupleId)] } }

theorem insertIndex_eq_addEntry {column changed : Column}
    {value : AttributeValue} {tupleId : TupleId}
    (inserts : Relation.insertIndex column value tupleId = some changed) :
    changed = column.addEntry value tupleId := by
  unfold Relation.insertIndex Index.insert at inserts
  unfold Column.addEntry
  cases isIndex : column.index with
  | none =>
      rw [isIndex] at inserts
      obtain rfl := Option.some.inj inserts
      rw [Option.map_none, ← isIndex]
  | some index =>
      rw [isIndex] at inserts
      dsimp only at inserts
      split at inserts
      · exact absurd inserts (by rintro ⟨⟩)
      · obtain rfl := Option.some.inj inserts
        rfl

/-- If the loop ends with a record, every index has one more entry. -/
theorem insertValues_columns {columns : List Column} {next : Nat}
    {record : List UInt8}
    (isOk : (Relation.insertValues machine nextRow values columns next).2 =
      .ok record) :
    (Relation.insertValues machine nextRow values columns next).1 =
      columns.mapIdx fun position column =>
        column.addEntry (values (next + position)) nextRow := by
  induction columns generalizing next record with
  | nil => rfl
  | cons column columns inductionHypothesis =>
      rw [insertValues_cons] at isOk ⊢
      split at isOk
      · exact absurd isOk (by rintro ⟨⟩)
      · rename_i accepted
        rw [if_neg accepted]
        cases isBytes : dbValueToPhy machine column.attr (values next) with
        | error error =>
            rw [isBytes] at isOk
            exact absurd isOk (by rintro ⟨⟩)
        | ok bytes =>
            rw [isBytes] at isOk
            dsimp only at isOk ⊢
            cases isIndex : Relation.insertIndex column (values next)
                nextRow with
            | none =>
                rw [isIndex] at isOk
                exact absurd isOk (by rintro ⟨⟩)
            | some changed =>
                rw [isIndex] at isOk
                dsimp only at isOk ⊢
                obtain ⟨rest, isRest, -⟩ := map_eq_ok isOk
                rw [List.mapIdx_cons, Nat.add_zero,
                  inductionHypothesis isRest,
                  insertIndex_eq_addEntry isIndex]
                congr 2
                funext position found
                rw [Nat.add_assoc, Nat.add_comm 1 position]

/-- A column rejects its value before any column with an index is
reached. -/
def RejectsFirst (columns : List Column) (domains : Nat → Domain) : Prop :=
  ∃ position column, columns[position]? = some column ∧
    column.attr.domain ≠ domains position ∧
      ¬ (column.attr.domain = .long ∧ domains position = .int) ∧
        ∀ earlier < position, ∀ other, columns[earlier]? = some other →
          other.index = none

theorem insertValues_of_rejectsFirst {columns : List Column} {next : Nat}
    (rejects : RejectsFirst columns fun position =>
      (values (next + position)).domain) :
    (Relation.insertValues machine nextRow values columns next).1 =
        columns ∧
      ∃ error, (Relation.insertValues machine nextRow values columns
        next).2 = .error error := by
  induction columns generalizing next with
  | nil =>
      obtain ⟨position, column, isColumn, -⟩ := rejects
      exact absurd isColumn (by simp)
  | cons column columns inductionHypothesis =>
      obtain ⟨position, rejecting, isColumn, notSame, notPromoted,
        noIndex⟩ := rejects
      rw [insertValues_cons]
      cases position with
      | zero =>
          obtain rfl := Option.some.inj isColumn
          rw [if_pos (fun accepts => accepts.elim notSame notPromoted)]
          exact ⟨rfl, _, rfl⟩
      | succ position =>
          split
          · exact ⟨rfl, _, rfl⟩
          · cases dbValueToPhy machine column.attr (values next) with
            | error error => exact ⟨rfl, _, rfl⟩
            | ok bytes =>
                have isNone := noIndex 0 (Nat.succ_pos _) column rfl
                have inserts : Relation.insertIndex column (values next)
                    nextRow = some column := by
                  unfold Relation.insertIndex
                  rw [isNone]
                dsimp only
                rw [inserts]
                dsimp only
                have isShifted : next + 1 + position =
                    next + (position + 1) := by omega
                dsimp only at notSame notPromoted
                rw [← isShifted] at notSame notPromoted
                obtain ⟨sameColumns, error, isError⟩ :=
                  @inductionHypothesis (next + 1) ⟨position, rejecting,
                    isColumn, notSame, notPromoted,
                    fun earlier isEarlier other isOther =>
                      noIndex (earlier + 1) (Nat.succ_lt_succ isEarlier)
                        other isOther⟩
                rw [isError]
                exact ⟨congrArg _ sameColumns, error, rfl⟩

end Contiki.Antelope
