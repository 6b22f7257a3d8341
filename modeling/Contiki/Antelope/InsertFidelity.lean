import Contiki.Antelope.InsertQuery
import Contiki.Antelope.Storage

/-!
# What insertions by queries add

Insertions in a history of queries: what one that succeeds has added, and
what one whose values do not match the attributes has changed.
-/

namespace Contiki.Antelope

open Contiki.Lib

variable {machine : Machine}

/-! ## Histories of queries -/

/-- The description of the last query and the relations. -/
structure Database where
  adt : Adt
  relations : String → Option Cached

/-- What `relation_allocate` meets: a free entry of the pool, relations that
are not in use, or neither. -/
inductive Allocation where
  | free
  | purges
  | fails
  deriving DecidableEq

/-- The pool of relations of a `relation_load`, which allocates an object for
a relation that has none. -/
def allocateRelation (machine : Machine) (allocation : Allocation)
    (db : Database) (name : String) : Option Database :=
  if (db.relations name).any Cached.inMemory then some db
  else
    match allocation with
    | .free => some db
    | .purges =>
        some { db with
          relations := fun other =>
            (db.relations other).map fun cached =>
              cached.apply machine .purge }
    | .fails => none

/-- `aql_execute` of an insertion; `evicted` says whether the entry of the
tuple file is evicted before the relation is loaded. -/
def executeInsert (machine : Machine) (null : ByteMem) (evicted : Bool)
    (allocation : Allocation) (db : Database) : DbResult × Database :=
  match db.adt.relations.head? with
  | none => (.nameError, db)
  | some name =>
      match allocateRelation machine allocation db name with
      | none => (.nameError, db)
      | some db =>
      match db.relations name with
      | none => (.nameError, db)
      | some cached =>
          let loaded := cached.apply machine (.load evicted)
          let (relation, result) :=
            loaded.relation.insert machine (db.adt.attributeValues null)
          let inserted := { loaded with relation := relation }
          (result,
            { db with
              relations := Function.update db.relations name
                (some (inserted.apply machine .release)) })

/-- `db_query` of an insertion. -/
def dbQueryInsert (machine : Machine) (null : ByteMem) (evicted : Bool)
    (allocation : Allocation) (query : InsertQuery) (db : Database) :
    DbResult × Database :=
  let (status, adt) := parseInsertQuery query.tokens db.adt
  let db := { db with adt := adt }
  if aqlError status then (.parsingError, db)
  else executeInsert machine null evicted allocation db

/-- A query: an insertion, or another one that changes the database in some
way. -/
inductive Query where
  | insert (query : InsertQuery) (evicted : Bool) (allocation : Allocation)
  | other (change : Database → Database)

def runQueries (machine : Machine) (null : ByteMem) :
    Database → List Query → Database
  | db, [] => db
  | db, .insert query evicted allocation :: queries =>
      runQueries machine null
        (dbQueryInsert machine null evicted allocation query db).2 queries
  | db, .other change :: queries =>
      runQueries machine null (change db) queries

/-! ## Faithful insertions -/

/-- The type of a datum is that of an attribute. -/
def Attribute.TypeOf (attr : Attribute) : Datum → Prop
  | .number _ => attr.domain = .int ∨ attr.domain = .long
  | .text _ => attr.domain = .string

/-- The value list has one value of the type for each attribute. -/
def InsertQuery.Matches (query : InsertQuery)
    (attributes : List Attribute) : Prop :=
  List.Forall₂ (fun attr item => ∃ datum, item.datum = some datum ∧
    attr.TypeOf datum) attributes query.items

/-- The bytes represent a datum, numbers in the complement of two. -/
def Attribute.Holds (attr : Attribute) (bytes : List UInt8)
    (datum : Datum) : Prop :=
  bytes.length = attr.elementSize ∧
    match datum with
    | .number number =>
        (attr.domain = .int ∧
            signed 16 (twoBytes (ByteMem.ofList bytes)) = number) ∨
          attr.domain = .long ∧
            signed 32 (fourBytes (ByteMem.ofList bytes)) = number
    | .text characters =>
        attr.domain = .string ∧
          cString (ByteMem.ofList bytes) attr.elementSize = characters

/-- A row holds data in the order of the attributes. -/
def RowHolds (attributes : List Attribute) (row : List UInt8)
    (data : List Datum) : Prop :=
  ∃ fields : Fields, fields.map Prod.fst = attributes ∧
    row = fields.flatMap Prod.snd ∧
      List.Forall₂ (fun field datum => field.1.Holds field.2 datum)
        fields data

/-- A row with these data has been added, and an entry to each index. -/
structure Added (before after : Relation) (data : List Datum) : Prop where
  row : ∃ row, RowHolds before.attributes row data ∧
    after.file.bytes = before.file.bytes ++ maskRow row
  indexes : ∃ values : Nat → AttributeValue,
    (∀ position datum, data[position]? = some datum →
      (values position).IsLiteral datum) ∧
      after.columns = before.columns.mapIdx fun position column =>
        column.addEntry (values position) before.nextRow

/-- The file, the indexes and the count of a relation are the same. -/
structure Unchanged (before after : Cached) : Prop where
  file : after.relation.file = before.relation.file
  columns : after.relation.columns = before.relation.columns
  cardinality : before.inMemory = true →
    after.relation.cardinality = before.relation.cardinality

/-- An insertion stores nothing behind the description of the query; one that
succeeds adds exactly its values, and one whose values do not match the
attributes fails and changes nothing. -/
structure Faithful (machine : Machine) (null : ByteMem) (evicted : Bool)
    (allocation : Allocation) (query : InsertQuery) (db : Database) :
    Prop where
  contained : (dbQueryInsert machine null evicted allocation query
    db).2.adt.overrun = false
  success : (dbQueryInsert machine null evicted allocation query db).1 =
      .ok →
    ∃ before after data, db.relations query.name = some before ∧
      (dbQueryInsert machine null evicted allocation query
          db).2.relations =
          Function.update db.relations query.name (some after) ∧
        query.items.map Token.datum = data.map some ∧
          query.Matches before.relation.attributes ∧
            Added before.relation after.relation data
  mismatch : ∀ before, db.relations query.name = some before →
    ¬ query.Matches before.relation.attributes →
      (dbQueryInsert machine null evicted allocation query db).1.isError =
          true ∧
        ∃ after, (dbQueryInsert machine null evicted allocation query
            db).2.relations =
              Function.update db.relations query.name (some after) ∧
          Unchanged before after

/-! ## When insertions are faithful -/

/-- The domain of a slot of the array of values: that of the listed value,
or else that of an earlier query. -/
def slotDomain (adt : Adt) (data : List Datum) (position : Nat) : Domain :=
  match data[position]? with
  | some datum =>
      if position < aqlAttributeLimit then datum.domain
      else (adt.values position).domain
  | none => (adt.values position).domain

/-- The insertion does not meet one of the defects of its relation: no other
relation is purged, the end of the tuple file is kept, and no index was lost
in a reload; values that match can be
represented, saved and passed on; and otherwise a column rejects the value of
its slot before an index is reached, if the list is accepted at all. -/
structure SafeInsert (query : InsertQuery) (evicted : Bool)
    (allocation : Allocation) (adt : Adt) (before : Cached) : Prop where
  keepsOthers : before.inMemory = false → allocation ≠ .purges
  keepsEnd : evicted = true → before.relation.file.bytes.getLast? ≠ some 0
  keepsIndexes : before.inMemory = false →
    ∀ column ∈ before.relation.columns, column.index = none
  representable : query.Matches before.relation.attributes →
    List.Forall₂ (fun attr item => ∀ datum, item.datum = some datum →
        attr.InDomain datum) before.relation.attributes query.items ∧
      query.items.length ≤ aqlAttributeLimit ∧
        charSize (query.items.filterMap Token.datum) ≤ dbMaxCharSizePerRow
  rejects : ¬ query.Matches before.relation.attributes →
    ∀ data, leading query.items = some data →
      RejectsFirst before.relation.columns (slotDomain adt data)

/-- The insertion meets no defect: no query has stored a name behind its
entry, and this one does not if it comes to the relations; and it is safe for
its relation. -/
structure SafeQuery (query : InsertQuery) (evicted : Bool)
    (allocation : Allocation) (db : Database) : Prop where
  intact : db.adt.overrun = false
  namesFit : ∀ data, leading query.items = some data → query.NamesFit
  safe : ∀ before, db.relations query.name = some before →
    SafeInsert query evicted allocation db.adt before

/-! ## Values that match -/

theorem leading_of_values {items : List Token} (notEmpty : items ≠ [])
    (areValues : ∀ item ∈ items, ∃ datum, item.datum = some datum) :
    leading items = some (items.filterMap Token.datum) ∧
      items.map Token.datum = (items.filterMap Token.datum).map some := by
  induction items with
  | nil => exact absurd rfl notEmpty
  | cons item items inductionHypothesis =>
      obtain ⟨datum, isDatum⟩ := areValues item List.mem_cons_self
      rw [List.filterMap_cons_some isDatum, List.map_cons, List.map_cons,
        isDatum, leading, isDatum]
      cases items with
      | nil => exact ⟨rfl, rfl⟩
      | cons second items =>
          obtain ⟨isLeading, areData⟩ := inductionHypothesis (by simp)
            fun other member => areValues other
              (List.mem_cons_of_mem _ member)
          obtain ⟨next, isNext⟩ := areValues second
            (List.mem_cons_of_mem _ List.mem_cons_self)
          dsimp only
          rw [if_neg (by rw [isNext]; simp), isLeading, areData]
          exact ⟨rfl, rfl⟩

theorem dbValueToPhy_holds {attr : Attribute} {datum : Datum}
    {value : AttributeValue} (inDomain : attr.InDomain datum)
    (literal : value.IsLiteral datum) :
    ∃ bytes, dbValueToPhy machine attr value = .ok bytes ∧
      attr.Holds bytes datum := by
  obtain ⟨_, domain, elementSize, _, sized⟩ := attr
  cases datum with
  | number number =>
      obtain ⟨-, rfl⟩ := literal
      rcases inDomain with ⟨isInt, lower, upper⟩ | ⟨isLong, lower, upper⟩
      · dsimp only at isInt
        subst isInt
        have isTwo : elementSize = 2 := sized
        subst isTwo
        have isNumber := @AttributeValue.int_of_mem machine value lower upper
        refine ⟨_, rfl, rfl, Or.inl ⟨rfl, ?_⟩⟩
        rw [twoBytes_of_read (ByteMem.read_ofList _), isNumber]
        exact (signed_emod_eq_iff (le_refl _) lower upper).2 (Or.inr rfl)
      · dsimp only at isLong
        subst isLong
        have isFour : elementSize = 4 := sized
        subst isFour
        have isNumber := @AttributeValue.long_of_mem machine value lower upper
        refine ⟨_, rfl, rfl, Or.inr ⟨rfl, ?_⟩⟩
        rw [fourBytes_of_read (ByteMem.read_ofList _), isNumber]
        exact (signed_emod_eq_iff (le_refl _) lower upper).2 (Or.inr rfl)
  | text characters =>
      obtain ⟨isString, short, noZero⟩ := inDomain
      obtain ⟨-, isText⟩ := literal
      dsimp only at isString short
      subst isString
      refine ⟨_, rfl, by simp, rfl, ?_⟩
      dsimp only
      generalize isStored : (value.string.read 0 elementSize).set
        (elementSize - 1) 0 = stored
      have isLength : stored.length = elementSize := by
        rw [← isStored]
        simp
      have isRead : (ByteMem.ofList stored).read 0 elementSize = stored :=
        isLength ▸ ByteMem.read_ofList stored
      have terminated := cString_of_read isText short noZero
        (isRead.trans isStored.symm)
      have lastByte : (ByteMem.ofList stored).write (elementSize - 1) [0] =
          ByteMem.ofList stored := by
        rw [← ofList_set_zero, ← isStored, List.set_set]
      rw [lastByte] at terminated
      exact terminated

theorem exists_rowHolds {attributes : List Attribute} {data : List Datum}
    {values : Nat → AttributeValue} {next : Nat}
    (inDomain : List.Forall₂ Attribute.InDomain attributes data)
    (literals : ∀ position datum, data[position]? = some datum →
      (values (next + position)).IsLiteral datum) :
    ∃ row, encodeRecord machine values attributes next = .ok row ∧
      RowHolds attributes row data := by
  induction inDomain generalizing next with
  | nil => exact ⟨[], rfl, [], rfl, rfl, .nil⟩
  | @cons attr datum attributes data isDomain _ inductionHypothesis =>
      obtain ⟨rest, isRest, fields, areAttributes, isRow, hold⟩ :=
        @inductionHypothesis (next + 1) fun position found isFound => by
          rw [Nat.add_assoc, Nat.add_comm 1 position]
          exact literals (position + 1) found isFound
      obtain ⟨bytes, isBytes, holds⟩ := @dbValueToPhy_holds machine _ _ _
        isDomain (literals 0 datum rfl)
      refine ⟨bytes ++ rest, ?_, (attr, bytes) :: fields,
        congrArg _ areAttributes, ?_, .cons holds hold⟩
      · unfold encodeRecord
        rw [Nat.add_zero] at isBytes
        rw [isBytes]
        dsimp only
        rw [isRest]
        rfl
      · rw [List.flatMap_cons, isRow]

/-! ## The relation of an insertion -/

/-- The relation behind `relation_load`, if its end and its indexes are
kept. -/
theorem load_of_safe {before : Cached} {evicted : Bool}
    (keepsEnd : evicted = true →
      before.relation.file.bytes.getLast? ≠ some 0)
    (keepsIndexes : before.inMemory = false →
      ∀ column ∈ before.relation.columns, column.index = none) :
    let loaded := (before.apply machine (.load evicted)).relation
    loaded.file = before.relation.file ∧
      loaded.columns = before.relation.columns ∧ loaded.hasTuples = true ∧
        (before.inMemory = true →
          loaded.cardinality = before.relation.cardinality ∧
            loaded.nextRow = before.relation.nextRow) := by
  have sameFile := (reopen_bytes before.relation.file evicted).1 keepsEnd
  unfold Cached.apply
  dsimp only
  split
  · exact ⟨sameFile, rfl, rfl, fun _ => ⟨rfl, rfl⟩⟩
  · rename_i notLoaded
    refine ⟨sameFile, ?_, rfl, fun inMemory => absurd inMemory notLoaded⟩
    have noIndexes := keepsIndexes (by simpa using notLoaded)
    unfold Relation.load
    dsimp only
    rw [List.map_congr_left fun column member => ?_, List.map_id]
    obtain ⟨attr, index⟩ := column
    have isNone : index = none := noIndexes _ member
    rw [isNone]
    rfl

theorem insert_of_rejectsFirst {relation : Relation}
    {values : Nat → AttributeValue}
    (rejects : RejectsFirst relation.columns fun position =>
      (values position).domain) :
    (relation.insert machine values).1 = relation ∧
      (relation.insert machine values).2.isError = true := by
  obtain ⟨sameColumns, error, isError⟩ := @insertValues_of_rejectsFirst
    machine relation.nextRow values relation.columns 0
      (by simpa only [Nat.zero_add] using rejects)
  obtain ⟨-, -, errors⟩ := @insertValues_spec machine relation.nextRow
    values relation.columns 0
  unfold Relation.insert
  cases inserts : Relation.insertValues machine relation.nextRow values
      relation.columns 0 with
  | mk columns record =>
  rw [inserts] at sameColumns isError errors
  dsimp only at sameColumns isError errors ⊢
  subst sameColumns isError
  exact ⟨rfl, errors error rfl⟩

theorem insert_columns {relation : Relation}
    {values : Nat → AttributeValue}
    (isOk : (relation.insert machine values).2 = .ok) :
    (relation.insert machine values).1.columns =
      relation.columns.mapIdx fun position column =>
        column.addEntry (values position) relation.nextRow := by
  obtain ⟨-, -, errors⟩ := @insertValues_spec machine relation.nextRow
    values relation.columns 0
  have areColumns := fun record => @insertValues_columns machine
    relation.nextRow values relation.columns 0 record
  simp only [Nat.zero_add] at areColumns
  unfold Relation.insert at isOk ⊢
  cases inserts : Relation.insertValues machine relation.nextRow values
      relation.columns 0 with
  | mk columns record =>
  rw [inserts] at errors areColumns isOk
  dsimp only at errors areColumns isOk ⊢
  cases record with
  | error error =>
      have isError := errors error rfl
      dsimp only at isOk
      rw [isOk] at isError
      exact absurd isError (by decide)
  | ok record =>
      rw [← areColumns record rfl]
      dsimp only
      split
      · rfl
      · rfl

theorem apply_release (state : Cached) :
    (state.apply machine .release).relation.file = state.relation.file ∧
      (state.apply machine .release).relation.columns =
          state.relation.columns ∧
        (state.apply machine .release).relation.cardinality =
          state.relation.cardinality := by
  unfold Cached.apply
  dsimp only
  split
  · exact ⟨rfl, rfl, rfl⟩
  · exact ⟨rfl, rfl, rfl⟩

/-! ## Insertions in a history -/

theorem domain_attributeValues {adt after : Adt} {data : List Datum}
    (areValues : after.values = (data.foldl Adt.add adt.clear).values)
    (null : ByteMem) (position : Nat) :
    (after.attributeValues null position).domain =
      slotDomain adt data position := by
  obtain ⟨-, unchanged, domains⟩ := @Adt.foldl_add_spec adt.clear
    (Nat.zero_le _) data
  have isZero : adt.clear.valueCount = 0 := rfl
  simp only [isZero, Nat.zero_add] at unchanged domains
  have isSlot : (after.attributeValues null position).domain =
      ((data.foldl Adt.add adt.clear).values position).domain := by
    rw [← areValues]
    rfl
  rw [isSlot]
  unfold slotDomain
  cases isFound : data[position]? with
  | none =>
      have outside := List.getElem?_eq_none_iff.1 isFound
      rw [unchanged position (Or.inr (by omega))]
      rfl
  | some datum =>
      dsimp only
      split
      · rename_i isRoom
        exact domains position datum isFound isRoom
      · rw [unchanged position (Or.inr (by omega))]
        rfl

theorem inDomain_of_matches {attributes : List Attribute}
    {items : List Token}
    (areValues : List.Forall₂ (fun attr item => ∃ datum,
      item.datum = some datum ∧ attr.TypeOf datum) attributes items)
    (inDomain : List.Forall₂ (fun attr item => ∀ datum,
      item.datum = some datum → attr.InDomain datum) attributes items) :
    (∀ item ∈ items, ∃ datum, item.datum = some datum) ∧
      List.Forall₂ Attribute.InDomain attributes
        (items.filterMap Token.datum) := by
  induction areValues with
  | nil => exact ⟨by simp, .nil⟩
  | @cons attr item attributes items isValue _ inductionHypothesis =>
      obtain ⟨datum, isDatum, -⟩ := isValue
      cases inDomain with
      | cons isDomain inDomain =>
          obtain ⟨areData, areDomains⟩ := inductionHypothesis inDomain
          rw [List.filterMap_cons_some isDatum]
          refine ⟨fun other member => ?_,
            .cons (isDomain datum isDatum) areDomains⟩
          rcases List.mem_cons.1 member with rfl | member
          · exact ⟨datum, isDatum⟩
          · exact areData other member

theorem added_of_matches {query : InsertQuery} {evicted : Bool}
    {allocation : Allocation} {adt after : Adt} {before : Cached}
    {null : ByteMem} {data : List Datum}
    (safe : SafeInsert query evicted allocation adt before)
    (isMatch : query.Matches before.relation.attributes)
    (isLeading : leading query.items = some data)
    (areValues : after.values = (data.foldl Adt.add adt.clear).values)
    (isCharBuf : after.charBuf = (data.foldl Adt.add adt.clear).charBuf)
    (isOk : ((before.apply machine (.load evicted)).relation.insert machine
      (after.attributeValues null)).2 = .ok) :
    query.items.map Token.datum = data.map some ∧
      Added before.relation ((before.apply machine
        (.load evicted)).relation.insert machine
          (after.attributeValues null)).1 data := by
  obtain ⟨inDomain, few, room⟩ := safe.representable isMatch
  obtain ⟨areData, isDomain⟩ := inDomain_of_matches isMatch inDomain
  obtain ⟨isList, sameData⟩ := leading_of_values query.notEmpty areData
  obtain rfl := Option.some.inj (isLeading.symm.trans isList)
  refine ⟨sameData, ?_⟩
  have isLength : (query.items.filterMap Token.datum).length =
      query.items.length := by
    have lengths := congrArg List.length sameData
    rw [List.length_map, List.length_map] at lengths
    exact lengths.symm
  have isZero : adt.clear.valueCount = 0 := rfl
  have literals : ∀ position datum,
      (query.items.filterMap Token.datum)[position]? = some datum →
        (after.attributeValues null position).IsLiteral datum := by
    intro position datum isDatum
    have isLiteral := @Adt.isLiteral_foldl_add adt.clear
      (query.items.filterMap Token.datum) (by omega)
        (by
          have isFree : adt.clear.nextFreeOffset = 0 := rfl
          omega) null position datum isDatum
    rw [isZero, Nat.zero_add] at isLiteral
    have sameSlot : after.attributeValues null position =
        ((query.items.filterMap Token.datum).foldl Adt.add
          adt.clear).attributeValues null position := by
      unfold Adt.attributeValues
      rw [areValues, isCharBuf]
    rw [sameSlot]
    exact isLiteral
  obtain ⟨sameFile, sameColumns, -, sameCounts⟩ :=
    @load_of_safe machine before evicted safe.keepsEnd safe.keepsIndexes
  generalize (before.apply machine (.load evicted)).relation = loaded
    at isOk sameFile sameColumns sameCounts
  have sameAttributes : loaded.attributes = before.relation.attributes :=
    congrArg (List.map Column.attr) sameColumns
  obtain ⟨row, isRow, holds⟩ := @exists_rowHolds machine _ _
    (after.attributeValues null) 0 isDomain
      fun position datum isDatum => by
        rw [Nat.zero_add]
        exact literals position datum isDatum
  obtain ⟨-, -, inserts, -⟩ :=
    @insert_spec machine loaded (after.attributeValues null)
  obtain ⟨-, record, inserted⟩ := inserts isOk
  have isRecord := inserted.isRecord
  rw [sameAttributes, isRow] at isRecord
  obtain rfl := Except.ok.inj isRecord
  refine ⟨⟨row, holds, ?_⟩, _, literals, ?_⟩
  · rw [inserted.isFile, sameFile]
  · rw [insert_columns isOk, sameColumns]
    by_cases inMemory : before.inMemory = true
    · rw [(sameCounts inMemory).2]
    · have noIndexes := safe.keepsIndexes (by simpa using inMemory)
      refine List.mapIdx_eq_mapIdx_iff.2 fun position isBelow => ?_
      have isNone := noIndexes _ (List.getElem_mem isBelow)
      unfold Column.addEntry
      rw [isNone]
      rfl

theorem allocateRelation_cases {allocation : Allocation} {db : Database}
    {name : String} {before : Cached}
    (isBefore : db.relations name = some before)
    (keepsOthers : before.inMemory = false → allocation ≠ .purges) :
    allocateRelation machine allocation db name = some db ∨
      allocateRelation machine allocation db name = none := by
  unfold allocateRelation
  rw [isBefore, Option.any_some]
  cases inMemory : before.inMemory with
  | true => exact Or.inl rfl
  | false =>
      cases allocation with
      | free => exact Or.inl rfl
      | purges => exact absurd rfl (keepsOthers inMemory)
      | fails => exact Or.inr rfl

/-- What `aql_execute` does with a relation. -/
theorem executeInsert_of_some {null : ByteMem} {evicted : Bool}
    {allocation : Allocation} {db : Database} {name : String}
    {before : Cached} (isHead : db.adt.relations.head? = some name)
    (isAllocated : allocateRelation machine allocation db name = some db)
    (isBefore : db.relations name = some before) :
    let loaded := before.apply machine (.load evicted)
    let inserted := loaded.relation.insert machine
      (db.adt.attributeValues null)
    executeInsert machine null evicted allocation db =
      (inserted.2,
        { db with
          relations := Function.update db.relations name
            (some ({ loaded with relation := inserted.1 }.apply machine
              .release)) }) := by
  unfold executeInsert
  rw [isHead]
  dsimp only
  rw [isAllocated]
  dsimp only
  rw [isBefore]

theorem dbQueryInsert_adt (machine : Machine) (null : ByteMem)
    (evicted : Bool) (allocation : Allocation) (query : InsertQuery)
    (db : Database) :
    (dbQueryInsert machine null evicted allocation query db).2.adt =
      (parseInsertQuery query.tokens db.adt).2 := by
  have allocates {before after : Database} {name : String}
      (isAllocated : allocateRelation machine allocation before name =
        some after) : after.adt = before.adt := by
    unfold allocateRelation at isAllocated
    split at isAllocated
    · cases isAllocated
      rfl
    · cases allocation <;> cases isAllocated <;> rfl
  unfold dbQueryInsert
  dsimp only
  split
  · rfl
  · unfold executeInsert
    split
    · rfl
    · split
      · rfl
      · rename_i isAllocated
        split
        · exact allocates isAllocated
        · exact allocates isAllocated

theorem faithful_of_unchanged {null : ByteMem} {evicted : Bool}
    {allocation : Allocation} {query : InsertQuery} {db after : Database}
    {result : DbResult} (isError : result.isError = true)
    (contained : (dbQueryInsert machine null evicted allocation query
      db).2.adt.overrun = false)
    (isOutcome : dbQueryInsert machine null evicted allocation query db =
      (result, after))
    (same : after.relations = db.relations) :
    Faithful machine null evicted allocation query db := by
  refine ⟨contained, ?_, ?_⟩
  · rw [isOutcome]
    rintro rfl
    cases isError
  · intro before isBefore _
    rw [isOutcome]
    refine ⟨isError, before, ?_, rfl, rfl, fun _ => rfl⟩
    rw [← isBefore, same]
    exact (Function.update_eq_self _ _).symm

theorem faithful_of_accepted {null : ByteMem} {evicted : Bool}
    {allocation : Allocation} {query : InsertQuery} {db : Database}
    (accepted : aqlError (parseInsertQuery query.tokens db.adt).1 = false)
    (contained : (dbQueryInsert machine null evicted allocation query
      db).2.adt.overrun = false)
    (safe : ∀ before, db.relations query.name = some before →
      SafeInsert query evicted allocation db.adt before) :
    Faithful machine null evicted allocation query db := by
  obtain ⟨data, isLeading, isHead, areValues, isCharBuf⟩ :=
    parseInsertQuery_spec query db.adt accepted
  have isOutcome : dbQueryInsert machine null evicted allocation query db =
      executeInsert machine null evicted allocation
        { db with adt := (parseInsertQuery query.tokens db.adt).2 } := by
    have notError : ¬ aqlError (parseInsertQuery query.tokens
        db.adt).1 = true := by
      rw [accepted]
      decide
    exact if_neg notError
  generalize (parseInsertQuery query.tokens db.adt).2 = adt
    at isOutcome isHead areValues isCharBuf
  cases isBefore : db.relations query.name with
  | none =>
      have isError : (dbQueryInsert machine null evicted allocation query
          db).1 = .nameError := by
        rw [isOutcome]
        unfold executeInsert allocateRelation
        dsimp only
        rw [isHead]
        dsimp only
        rw [isBefore]
        cases allocation <;> simp [isBefore]
      refine ⟨contained, ?_, ?_⟩
      · rw [isError]
        rintro ⟨⟩
      · intro before isSome
        exact absurd (isBefore.symm.trans isSome) (by rintro ⟨⟩)
  | some before =>
      have isSafe := safe before isBefore
      obtain isAllocated | isFailure := @allocateRelation_cases machine
        allocation { db with adt := adt } query.name before isBefore
        isSafe.keepsOthers
      case inr =>
        have failed : executeInsert machine null evicted allocation
            { db with adt := adt } = (.nameError, { db with adt := adt }) := by
          unfold executeInsert
          dsimp only
          rw [isHead]
          dsimp only
          rw [isFailure]
        exact faithful_of_unchanged (rfl : DbResult.nameError.isError = true)
          contained (isOutcome.trans failed) rfl
      rw [executeInsert_of_some isHead isAllocated isBefore] at isOutcome
      dsimp only at isOutcome
      obtain ⟨sameFile, sameColumns, -, sameCounts⟩ := @load_of_safe machine
        before evicted isSafe.keepsEnd isSafe.keepsIndexes
      have rejected : ¬ query.Matches before.relation.attributes →
          ((before.apply machine (.load evicted)).relation.insert machine
              (adt.attributeValues null)).1 =
            (before.apply machine (.load evicted)).relation ∧
            ((before.apply machine (.load evicted)).relation.insert machine
              (adt.attributeValues null)).2.isError = true := by
        intro noMatch
        refine insert_of_rejectsFirst ?_
        rw [sameColumns]
        simp only [domain_attributeValues areValues]
        exact isSafe.rejects noMatch data isLeading
      refine ⟨contained, ?_, ?_⟩
      · rw [isOutcome]
        intro isOk
        have isMatch : query.Matches before.relation.attributes := by
          by_contra noMatch
          have isError := (rejected noMatch).2
          dsimp only at isOk
          rw [isOk] at isError
          exact absurd isError (by decide)
        obtain ⟨sameData, added⟩ := added_of_matches isSafe isMatch
          isLeading areValues isCharBuf isOk
        obtain ⟨releasedFile, releasedColumns, -⟩ := @apply_release machine
          { before.apply machine (.load evicted) with
            relation := ((before.apply machine
              (.load evicted)).relation.insert machine
                (adt.attributeValues null)).1 }
        refine ⟨before, _, data, isBefore, rfl, sameData, isMatch, ?_, ?_⟩
        · obtain ⟨row, holds, isRow⟩ := added.row
          exact ⟨row, holds,
            (congrArg TupleFile.bytes releasedFile).trans isRow⟩
        · obtain ⟨values, literals, areColumns⟩ := added.indexes
          exact ⟨values, literals, releasedColumns.trans areColumns⟩
      · intro found isFound noMatch
        obtain rfl := Option.some.inj (isBefore.symm.trans isFound)
        obtain ⟨sameRelation, isError⟩ := rejected noMatch
        rw [isOutcome]
        refine ⟨isError, _, rfl, ?_⟩
        rw [sameRelation]
        obtain ⟨releasedFile, releasedColumns, releasedCount⟩ :=
          @apply_release machine (before.apply machine (.load evicted))
        exact ⟨releasedFile.trans sameFile,
          releasedColumns.trans sameColumns,
          fun inMemory => releasedCount.trans (sameCounts inMemory).1⟩

theorem insert_faithful (machine : Machine) (null : ByteMem)
    (evicted : Bool) (allocation : Allocation) (query : InsertQuery)
    (history : List Query) (initial : Database) :
    let db := runQueries machine null initial history
    SafeQuery query evicted allocation db →
      Faithful machine null evicted allocation query db := by
  intro db safe
  have contained : (dbQueryInsert machine null evicted allocation query
      db).2.adt.overrun = false := by
    rw [dbQueryInsert_adt]
    exact parseInsertQuery_overrun query safe.intact safe.namesFit
  cases accepted : aqlError (parseInsertQuery query.tokens db.adt).1 with
  | true =>
      exact faithful_of_unchanged (rfl : DbResult.parsingError.isError = true)
        contained (if_pos accepted) rfl
  | false => exact faithful_of_accepted accepted contained safe.safe

/-! ## A relation with two attributes -/

/-- A handle that has had no query, and a relation with two `INT`
attributes. -/
def emptyPairs : Database where
  adt :=
    { relations := []
      overrun := false
      values := fun _ => ⟨.unspecified, 0, none⟩
      valueCount := 0
      charBuf := fun _ => 0
      nextFreeOffset := 0 }
  relations := fun name =>
    if name = "pairs" then
      some
        { relation :=
            { columns :=
                [⟨⟨"first", .int, 2, false, sized_int⟩, none⟩,
                  ⟨⟨"second", .int, 2, false, sized_int⟩, none⟩]
              cardinality := 0
              nextRow := 0
              hasTuples := false
              file := ⟨[], 64⟩ }
          inMemory := true
          references := 0 }
    else none

def insertNumbers (first : Int) (more : List Int) : InsertQuery where
  items := (first :: more).map .integerValue
  notEmpty := by rintro ⟨⟩
  name := "pairs"
  rest := [.end_]

theorem insert_faithful_emptyPairs :
    Faithful .ilp32 (fun _ => 0) false .free (insertNumbers 5 [7])
      emptyPairs := by
  refine insert_faithful .ilp32 (fun _ => 0) false .free
    (insertNumbers 5 [7]) [] emptyPairs ⟨rfl, fun _ _ => ?_,
      fun before isBefore => ?_⟩
  · exact ⟨by decide, by decide +kernel⟩
  obtain rfl := Option.some.inj isBefore
  have isMatch : (insertNumbers 5 [7]).Matches
      [⟨"first", .int, 2, false, sized_int⟩,
        ⟨"second", .int, 2, false, sized_int⟩] :=
    .cons ⟨_, rfl, Or.inl rfl⟩ (.cons ⟨_, rfl, Or.inl rfl⟩ .nil)
  refine ⟨by rintro ⟨⟩, by rintro ⟨⟩, by rintro ⟨⟩,
    fun _ => ⟨?_, by decide, by decide⟩,
    fun noMatch => absurd isMatch noMatch⟩
  refine .cons ?_ (.cons ?_ .nil)
  · rintro _ ⟨⟩
    exact Or.inl ⟨rfl, by decide, by decide⟩
  · rintro _ ⟨⟩
    exact Or.inl ⟨rfl, by decide, by decide⟩

/-- A list with one value for two attributes is accepted: the other value is
that of the query before. -/
theorem insertNumbers_not_faithful :
    ¬ Faithful .ilp32 (fun _ => 0) false .free (insertNumbers 1 [])
      (runQueries .ilp32 (fun _ => 0) emptyPairs
        [.insert (insertNumbers 5 [7]) false .free]) := by
  intro faithful
  obtain ⟨before, isBefore, noMatch⟩ : ∃ before,
      (runQueries .ilp32 (fun _ => 0) emptyPairs
        [.insert (insertNumbers 5 [7]) false .free]).relations "pairs" =
          some before ∧
        ¬ (insertNumbers 1 []).Matches before.relation.attributes := by
    refine ⟨_, rfl, fun isMatch => ?_⟩
    exact absurd isMatch.length_eq (by decide)
  obtain ⟨isError, -⟩ := faithful.mismatch before isBefore noMatch
  exact absurd isError (by decide)

end Contiki.Antelope
