import Contiki.Antelope.Select

/-!
# What a selection yields

The tuples that repeated calls of `relation_process_select` return without
an index: one for each row that fulfils the condition, in the order of the
file.
-/

namespace Contiki.Antelope

open Contiki.Lib

variable {machine : Machine} {Iterator : Type}

/-- The row of a tuple number before the end. -/
def TupleFile.rowAt (file : TupleFile) (rowLength tupleId : Nat) :
    List UInt8 :=
  maskRow ((file.bytes.drop (tupleId * rowLength)).take rowLength)

def TupleFile.rowsFrom (file : TupleFile) (rowLength start : Nat) :
    List (List UInt8) :=
  (List.range' start (file.getRowAmount rowLength - start)).map
    (file.rowAt rowLength)

variable {file : TupleFile}

theorem TupleFile.getRow_of_lt {rowLength tupleId : Nat}
    (bound : tupleId < file.getRowAmount rowLength) :
    file.getRow rowLength tupleId = some (file.rowAt rowLength tupleId) :=
  if_pos bound

theorem TupleFile.getRow_of_ge {rowLength tupleId : Nat}
    (outside : file.getRowAmount rowLength ≤ tupleId) :
    file.getRow rowLength tupleId = none :=
  if_neg (Nat.not_lt.2 outside)

theorem TupleFile.rowsFrom_of_lt {rowLength tupleId : Nat}
    (bound : tupleId < file.getRowAmount rowLength) :
    file.rowsFrom rowLength tupleId =
      file.rowAt rowLength tupleId ::
        file.rowsFrom rowLength (tupleId + 1) := by
  unfold TupleFile.rowsFrom
  have isSucc : file.getRowAmount rowLength - tupleId =
      file.getRowAmount rowLength - (tupleId + 1) + 1 := by omega
  rw [isSucc, List.range'_succ, List.map_cons]

theorem TupleFile.rowsFrom_of_ge {rowLength tupleId : Nat}
    (outside : file.getRowAmount rowLength ≤ tupleId) :
    file.rowsFrom rowLength tupleId = [] := by
  unfold TupleFile.rowsFrom
  rw [Nat.sub_eq_zero_of_le outside]
  rfl

/-! ## The projected row -/

/-- What a selection projects from a row. -/
def projection (machine : Machine) (attributes : List Attribute)
    (names : List String) (row : List UInt8) :
    List (Except DbResult Datum) :=
  names.map fun name =>
    match attributeFind attributes name with
    | some position => attributeDatum machine attributes position row
    | none => .error .nameError

/-- An entry of the attribute map for a projected attribute. -/
structure SourceDest.Maps (from_ : List Attribute) (entry : SourceDest)
    (position : Nat) : Prop where
  isFound : attributeFind from_ entry.toAttr.name = some position
  isSame : from_[position]?.map (fun attr =>
    { attr with noStore := entry.toAttr.noStore }) = some entry.toAttr
  isOffset : entry.fromOffset = valueOffset from_ position

def Consecutive : List SourceDest → Nat → Prop
  | [], _ => True
  | entry :: entries, offset =>
      entry.toOffset = offset ∧
        Consecutive entries (offset + entry.toAttr.elementSize)

/-- The attribute map of a selection. -/
structure Select.WellFormed (select : Select machine) : Prop where
  maps : ∀ entry ∈ select.attrMap, ∃ position,
    entry.Maps select.rel.attributes position
  areAttributes : select.attrMap.map SourceDest.toAttr = select.attributes
  consecutive : Consecutive select.attrMap 0

/-- The bytes that are copied for an entry. -/
def SourceDest.bytes (row : List UInt8) (entry : SourceDest) :
    List UInt8 :=
  ((ByteMem.ofList row).shift entry.fromOffset).read 0
    entry.toAttr.elementSize

theorem copyRow_cons (entry : SourceDest) (attrMap : List SourceDest)
    (row : List UInt8) (tuple : ByteMem) :
    copyRow (entry :: attrMap) row tuple =
      copyRow attrMap row (if entry.toAttr.noStore then tuple
        else tuple.write entry.toOffset (entry.bytes row)) := rfl

theorem copyRow_outside {attrMap : List SourceDest} {row : List UInt8}
    {tuple : ByteMem} {offset address : Nat}
    (consecutive : Consecutive attrMap offset) (isBefore : address < offset) :
    copyRow attrMap row tuple address = tuple address := by
  induction attrMap generalizing tuple offset with
  | nil => rfl
  | cons entry attrMap inductionHypothesis =>
      obtain ⟨isOffset, consecutive⟩ := consecutive
      rw [copyRow_cons, inductionHypothesis consecutive (by omega)]
      split
      · rfl
      · exact ByteMem.write_of_lt (by omega)

theorem copyRow_holds {attrMap : List SourceDest} {row : List UInt8}
    {tuple : ByteMem} {offset : Nat}
    (consecutive : Consecutive attrMap offset)
    (areStored : ∀ entry ∈ attrMap, entry.toAttr.noStore = false) :
    (copyRow attrMap row tuple).Holds offset
      (attrMap.flatMap (SourceDest.bytes row)) := by
  induction attrMap generalizing tuple offset with
  | nil => rfl
  | cons entry attrMap inductionHypothesis =>
      obtain ⟨isOffset, consecutive⟩ := consecutive
      have stored := areStored entry List.mem_cons_self
      rw [copyRow_cons, if_neg (by rw [stored]; decide),
        List.flatMap_cons, ByteMem.holds_append]
      have isLength : (entry.bytes row).length = entry.toAttr.elementSize :=
        ByteMem.length_read _ _ _
      constructor
      · have unchanged : (copyRow attrMap row (tuple.write entry.toOffset
            (entry.bytes row))).read offset (entry.bytes row).length =
            (tuple.write entry.toOffset (entry.bytes row)).read offset
              (entry.bytes row).length :=
          ByteMem.read_congr fun address _ bound =>
            copyRow_outside consecutive (by rw [isLength] at bound; omega)
        unfold ByteMem.Holds
        rw [unchanged, isOffset]
        exact ByteMem.read_write_self _ _ _
      · rw [isLength]
        exact inductionHypothesis consecutive
          fun other member => areStored other (List.mem_cons_of_mem _ member)

theorem SourceDest.Maps.datumAt_bytes {from_ : List Attribute}
    {entry : SourceDest} {position : Nat} (maps : entry.Maps from_ position)
    (row : List UInt8) :
    entry.toAttr.datumAt machine (ByteMem.ofList (entry.bytes row)) =
      attributeDatum machine from_ position row := by
  obtain ⟨-, isSame, isOffset⟩ := maps
  unfold attributeDatum
  cases isAttr : from_[position]? with
  | none =>
      rw [isAttr] at isSame
      exact absurd isSame (by rintro ⟨⟩)
  | some attr =>
      rw [isAttr] at isSame
      have same : { attr with noStore := entry.toAttr.noStore } =
          entry.toAttr := Option.some.inj isSame
      have isLength : (entry.bytes row).length = entry.toAttr.elementSize :=
        ByteMem.length_read _ _ _
      dsimp only
      rw [← isOffset]
      have isDatum : attr.datumAt machine
            ((ByteMem.ofList row).shift entry.fromOffset) =
          entry.toAttr.datumAt machine
            ((ByteMem.ofList row).shift entry.fromOffset) := by
        rw [← same]
        rfl
      rw [isDatum]
      refine Attribute.datumAt_congr ?_
      exact (congrArg _ isLength.symm).trans (ByteMem.read_ofList _)

theorem readTuple_copyRow {select : Select machine}
    (wellFormed : select.WellFormed)
    (areStored : ∀ attr ∈ select.attributes, attr.noStore = false)
    (row : List UInt8) (tuple : ByteMem) :
    readTuple machine select.attributes
        (copyRow select.attrMap row tuple) =
      projection machine select.rel.attributes
        (select.attributes.map Attribute.name) row := by
  obtain ⟨maps, areAttributes, consecutive⟩ := wellFormed
  let fields : Fields := select.attrMap.map fun entry =>
    (entry.toAttr, entry.bytes row)
  have areFields : fields.map Prod.fst = select.attributes := by
    rw [← areAttributes, List.map_map]
    rfl
  have stored : ∀ entry ∈ select.attrMap, entry.toAttr.noStore = false :=
    fun entry member => areStored _
      (areAttributes ▸ List.mem_map_of_mem member)
  have holds := @copyRow_holds _ row tuple _ consecutive stored
  have reads := @readTuple_of_holds machine fields
    (copyRow select.attrMap row tuple)
    (by
      intro field member
      obtain ⟨entry, isEntry, rfl⟩ := List.mem_map.1 member
      exact stored entry isEntry)
    (by
      intro field member
      obtain ⟨entry, isEntry, rfl⟩ := List.mem_map.1 member
      exact ByteMem.length_read _ _ _)
    (by
      rw [List.flatMap_map]
      exact holds)
  rw [areFields] at reads
  rw [reads]
  unfold projection
  rw [← areAttributes, List.map_map, List.map_map, List.map_map]
  refine List.map_congr_left fun entry member => ?_
  obtain ⟨position, isMap⟩ := maps entry member
  dsimp only [Function.comp_apply]
  rw [isMap.isFound]
  exact isMap.datumAt_bytes row

/-! ## A selection that is set up -/

theorem generateAttributeMap_spec {from_ attributes : List Attribute}
    {offset : Nat} {attrMap : List SourceDest}
    (areFrom : ∀ attr ∈ attributes, ∀ position,
      attributeFind from_ attr.name = some position →
        from_[position]?.map (fun found =>
          { found with noStore := attr.noStore }) = some attr)
    (generates : generateAttributeMap from_ attributes offset =
      .ok attrMap) :
    (∀ entry ∈ attrMap, ∃ position, entry.Maps from_ position) ∧
      attrMap.map SourceDest.toAttr = attributes ∧
        Consecutive attrMap offset := by
  induction attributes generalizing offset attrMap with
  | nil =>
      obtain rfl : [] = attrMap := Except.ok.inj generates
      exact ⟨by simp, rfl, trivial⟩
  | cons attr attributes inductionHypothesis =>
      unfold generateAttributeMap at generates
      cases isFound : attributeFind from_ attr.name with
      | none =>
          rw [isFound] at generates
          exact absurd generates (by rintro ⟨⟩)
      | some position =>
          rw [isFound] at generates
          obtain ⟨rest, isRest, generates⟩ := bind_eq_ok generates
          obtain rfl := Except.ok.inj generates
          obtain ⟨maps, areAttributes, consecutive⟩ := inductionHypothesis
            (fun other member =>
              areFrom other (List.mem_cons_of_mem _ member)) isRest
          refine ⟨?_, congrArg _ areAttributes, rfl, consecutive⟩
          intro entry member
          rcases List.mem_cons.1 member with rfl | member
          · exact ⟨position, isFound,
              areFrom attr List.mem_cons_self position isFound, rfl⟩
          · exact maps entry member

/-- The attributes that `relation_select` adds. -/
theorem resultAttributes_spec {from_ : List Attribute}
    {queries : List AqlAttribute} {attributes : List Attribute}
    (areResults : List.Forall₂ (fun query attr =>
      resultAttribute from_ query = .ok attr) queries attributes) :
    attributes.map Attribute.name = queries.map AqlAttribute.name ∧
      attributes.map Attribute.noStore = queries.map AqlAttribute.noStore ∧
        ∀ attr ∈ attributes, ∀ position,
          attributeFind from_ attr.name = some position →
            from_[position]?.map (fun found =>
              { found with noStore := attr.noStore }) = some attr := by
  induction areResults with
  | nil => exact ⟨rfl, rfl, by simp⟩
  | @cons query attr queries attributes isAttr _ inductionHypothesis =>
      obtain ⟨names, flags, areFrom⟩ := inductionHypothesis
      unfold resultAttribute at isAttr
      cases finds : attributeFind from_ query.name with
      | none =>
          rw [finds] at isAttr
          exact absurd isAttr (by rintro ⟨⟩)
      | some position =>
          obtain ⟨found, isFound, isName⟩ := exists_of_attributeFind finds
          rw [finds, Option.bind_some, isFound] at isAttr
          obtain rfl := Except.ok.inj isAttr
          refine ⟨congrArg₂ List.cons isName names,
            congrArg₂ List.cons rfl flags, ?_⟩
          intro attr member
          rcases List.mem_cons.1 member with rfl | member
          · intro other isOther
            dsimp only at isOther
            rw [isName, finds] at isOther
            obtain rfl := Option.some.inj isOther
            rw [isFound]
            rfl
          · exact areFrom attr member

/-- What `relation_select` sets up, if it succeeds: all attributes are
projected, or none is. -/
theorem relationSelect_eq_ok {rel : Relation}
    {aqlAttributes : List AqlAttribute}
    {condition : Option (Condition machine)} {inverseLogic : Bool}
    {select : Select machine}
    (selects : relationSelect rel aqlAttributes condition inverseLogic =
      .ok select) :
    select.rel = rel ∧ select.condition = condition ∧
      select.inverseLogic = inverseLogic ∧ select.WellFormed ∧
        select.attributes.map Attribute.name =
            aqlAttributes.map AqlAttribute.name ∧
          select.attributes.map Attribute.noStore =
            aqlAttributes.map AqlAttribute.noStore ∧
            ((∃ attr ∈ aqlAttributes, attr.noStore = false) →
              ∀ attr ∈ select.attributes, attr.noStore = false) := by
  unfold relationSelect at selects
  obtain ⟨attributes, areAttributes, selects⟩ := bind_eq_ok selects
  obtain ⟨names, flags, areFrom⟩ :=
    resultAttributes_spec (forall₂_of_mapM areAttributes)
  dsimp only at selects
  split at selects
  · exact absurd selects (by rintro ⟨⟩)
  · rename_i notMixed
    cases generates : generateAttributeMap rel.attributes attributes 0 with
    | error error =>
        rw [generates] at selects
        exact absurd selects (by rintro ⟨⟩)
    | ok attrMap =>
        rw [generates] at selects
        obtain rfl := Except.ok.inj selects
        obtain ⟨maps, areMapped, consecutive⟩ :=
          generateAttributeMap_spec areFrom generates
        refine ⟨rfl, rfl, rfl, ⟨maps, areMapped, consecutive⟩, names, flags,
          ?_⟩
        rintro ⟨query, isQuery, isProjected⟩ attr member
        dsimp only at member
        have isFlag : false ∈ attributes.map Attribute.noStore := by
          rw [flags]
          exact isProjected ▸ List.mem_map_of_mem isQuery
        obtain ⟨projected, isMember, isStored⟩ := List.mem_map.1 isFlag
        have positive : 0 < (attributes.filter
            fun attr => !attr.noStore).length :=
          List.length_pos_of_mem
            (List.mem_filter.2 ⟨isMember, by rw [isStored]; rfl⟩)
        have all : (attributes.filter fun attr => !attr.noStore).length =
            attributes.length :=
          le_antisymm (List.length_filter_le _ _) (by omega)
        have keeps := List.length_filter_eq_length_iff.1 all attr member
        simpa using keeps

theorem ok_bind_except {α β : Type} (value : α)
    (rest : α → Except DbResult β) :
    (Except.ok value >>= rest) = rest value := rfl

theorem exists_mapM {α β : Type} {f : α → Except DbResult β}
    {inputs : List α} (each : ∀ input ∈ inputs, ∃ output,
      f input = .ok output) :
    ∃ outputs, inputs.mapM f = .ok outputs := by
  induction inputs with
  | nil => exact ⟨[], rfl⟩
  | cons input inputs inductionHypothesis =>
      obtain ⟨output, isOutput⟩ := each input List.mem_cons_self
      obtain ⟨outputs, areOutputs⟩ := inductionHypothesis
        fun other member => each other (List.mem_cons_of_mem _ member)
      refine ⟨output :: outputs, ?_⟩
      rw [List.mapM_cons, isOutput, areOutputs]
      rfl

theorem exists_generateAttributeMap {from_ attributes : List Attribute}
    (areFound : ∀ attr ∈ attributes, ∃ position,
      attributeFind from_ attr.name = some position) (offset : Nat) :
    ∃ attrMap, generateAttributeMap from_ attributes offset =
      .ok attrMap := by
  induction attributes generalizing offset with
  | nil => exact ⟨[], rfl⟩
  | cons attr attributes inductionHypothesis =>
      obtain ⟨position, isFound⟩ := areFound attr List.mem_cons_self
      obtain ⟨rest, isRest⟩ := inductionHypothesis
        (fun other member => areFound other (List.mem_cons_of_mem _ member))
        (offset + attr.elementSize)
      refine ⟨⟨attr, valueOffset from_ position, offset⟩ :: rest, ?_⟩
      unfold generateAttributeMap
      rw [isFound]
      dsimp only
      rw [isRest]
      rfl

/-- A selection of attributes of the relation succeeds if all of them are
projected. -/
theorem exists_relationSelect {rel : Relation}
    {aqlAttributes : List AqlAttribute}
    (areFound : ∀ query ∈ aqlAttributes, ∃ position,
      attributeFind rel.attributes query.name = some position)
    (areStored : ∀ query ∈ aqlAttributes, query.noStore = false)
    (condition : Option (Condition machine)) (inverseLogic : Bool) :
    ∃ select, relationSelect rel aqlAttributes condition inverseLogic =
      .ok select := by
  have each : ∀ query ∈ aqlAttributes, ∃ attr,
      resultAttribute rel.attributes query = .ok attr := by
    intro query member
    obtain ⟨position, isFound⟩ := areFound query member
    obtain ⟨attr, isAttr, -⟩ := exists_of_attributeFind isFound
    unfold resultAttribute
    rw [isFound, Option.bind_some, isAttr]
    exact ⟨_, rfl⟩
  obtain ⟨attributes, areAttributes⟩ := exists_mapM each
  obtain ⟨names, flags, -⟩ :=
    resultAttributes_spec (forall₂_of_mapM areAttributes)
  have stored : ∀ attr ∈ attributes, attr.noStore = false := by
    intro attr member
    have isFlag : attr.noStore ∈ aqlAttributes.map AqlAttribute.noStore :=
      flags ▸ List.mem_map_of_mem member
    obtain ⟨query, isQuery, same⟩ := List.mem_map.1 isFlag
    exact same ▸ areStored query isQuery
  have all : attributes.filter (fun attr => !attr.noStore) = attributes :=
    List.filter_eq_self.2 fun attr member => by
      rw [stored attr member]
      rfl
  have found : ∀ attr ∈ attributes, ∃ position,
      attributeFind rel.attributes attr.name = some position := by
    intro attr member
    have isName : attr.name ∈ aqlAttributes.map AqlAttribute.name :=
      names ▸ List.mem_map_of_mem member
    obtain ⟨query, isQuery, same⟩ := List.mem_map.1 isName
    exact same ▸ areFound query isQuery
  obtain ⟨attrMap, isMap⟩ := exists_generateAttributeMap found 0
  refine ⟨⟨rel, attributes, attrMap, condition, inverseLogic⟩, ?_⟩
  unfold relationSelect
  rw [areAttributes, ok_bind_except]
  dsimp only
  rw [all, if_neg (by omega), isMap]

/-- The attributes of a `SELECT` without a condition. -/
theorem aqlAttributes_nil (names : List String) :
    aqlAttributes names [] =
      (names.take aqlAttributeLimit).map fun name =>
        { name := name, noStore := false } := by
  have adds : ∀ (names : List String) (attributes : List AqlAttribute),
      attributes.length ≤ aqlAttributeLimit →
        names.foldl (fun attributes name =>
            aqlAddAttribute attributes name false) attributes =
          attributes ++ (names.take
            (aqlAttributeLimit - attributes.length)).map
              fun name => { name := name, noStore := false } := by
    intro names
    induction names with
    | nil => simp
    | cons name names inductionHypothesis =>
        intro attributes atMost
        rw [List.foldl_cons]
        by_cases full : attributes.length = aqlAttributeLimit
        · have unchanged : aqlAddAttribute attributes name false =
              attributes := if_pos full
          rw [unchanged, inductionHypothesis attributes atMost, full,
            Nat.sub_self]
          simp
        · have added : aqlAddAttribute attributes name false =
              attributes ++ [{ name := name, noStore := false }] := by
            unfold aqlAddAttribute
            rw [if_neg full, if_neg (by simp)]
          have isSucc : aqlAttributeLimit - attributes.length =
              aqlAttributeLimit - (attributes.length + 1) + 1 := by omega
          rw [added, inductionHypothesis _
            (by rw [List.length_append, List.length_singleton]; omega),
            isSucc, List.take_succ_cons, List.length_append,
            List.length_singleton, List.map_cons, List.append_assoc,
            List.singleton_append]
  exact (adds names [] (Nat.zero_le _)).trans (List.nil_append _)

/-! ## The tuples that are returned -/

/-- Repeated calls of `relation_process_select` return these tuples and then
`DB_FINISHED`. -/
inductive Select.Yields (getNext : Iterator → Option Nat × Iterator)
    (nextItemNo : Iterator → Nat) (select : Select machine) :
    SelectHandle machine Iterator → List (List (Except DbResult Datum)) →
      Prop where
  | finished {handle : SelectHandle machine Iterator}
      (isFinished : (relationProcessSelect select getNext nextItemNo
        handle).1 = .finished) :
      Yields getNext nextItemNo select handle []
  | ok {handle : SelectHandle machine Iterator}
      {tuples : List (List (Except DbResult Datum))}
      (isOk : (relationProcessSelect select getNext nextItemNo handle).1 =
        .ok)
      (rest : Yields getNext nextItemNo select
        (relationProcessSelect select getNext nextItemNo handle).2 tuples) :
      Yields getNext nextItemNo select handle tuples
  | gotRow {handle : SelectHandle machine Iterator}
      {tuples : List (List (Except DbResult Datum))}
      (isRow : (relationProcessSelect select getNext nextItemNo handle).1 =
        .gotRow)
      (rest : Yields getNext nextItemNo select
        (relationProcessSelect select getNext nextItemNo handle).2 tuples) :
      Yields getNext nextItemNo select handle
        (readTuple machine select.attributes (relationProcessSelect select
          getNext nextItemNo handle).2.tuple :: tuples)

theorem Select.Yields.unique {getNext : Iterator → Option Nat × Iterator}
    {nextItemNo : Iterator → Nat} {select : Select machine}
    {handle : SelectHandle machine Iterator}
    {first second : List (List (Except DbResult Datum))}
    (yieldsFirst : select.Yields getNext nextItemNo handle first)
    (yieldsSecond : select.Yields getNext nextItemNo handle second) :
    first = second := by
  induction yieldsFirst generalizing second with
  | finished isFinished =>
      cases yieldsSecond with
      | finished _ => rfl
      | ok isOk _ => exact absurd (isFinished.symm.trans isOk) (by decide)
      | gotRow isRow _ =>
          exact absurd (isFinished.symm.trans isRow) (by decide)
  | ok isOk _ inductionHypothesis =>
      cases yieldsSecond with
      | finished isFinished =>
          exact absurd (isOk.symm.trans isFinished) (by decide)
      | ok _ rest => exact inductionHypothesis rest
      | gotRow isRow _ => exact absurd (isOk.symm.trans isRow) (by decide)
  | gotRow isRow _ inductionHypothesis =>
      cases yieldsSecond with
      | finished isFinished =>
          exact absurd (isRow.symm.trans isFinished) (by decide)
      | ok isOk _ => exact absurd (isRow.symm.trans isOk) (by decide)
      | gotRow _ rest => exact congrArg _ (inductionHypothesis rest)

/-- The rows that are selected, one after the other. -/
def Select.selected (select : Select machine) :
    Variables machine → List (List UInt8) → List (List UInt8)
  | _, [] => []
  | vars, row :: rows =>
      let vars := setVariables select.attrMap row vars
      if select.accepts vars then row :: select.selected vars rows
      else select.selected vars rows

/-- The file of the result relation takes that many rows. -/
def Select.Room (select : Select machine) (target : Option TupleFile)
    (rows : Nat) : Prop :=
  ∀ file ∈ target,
    file.bytes.length + rows * rowLength select.attributes ≤ file.capacity

theorem Select.selected_of_none {select : Select machine}
    (noCondition : select.condition = none) (vars : Variables machine)
    (rows : List (List UInt8)) : select.selected vars rows = rows := by
  induction rows generalizing vars with
  | nil => rfl
  | cons row rows inductionHypothesis =>
      unfold Select.selected Select.accepts
      rw [noCondition]
      dsimp only
      rw [if_pos rfl, inductionHypothesis]

/-- Repeated calls return the projections of the selected rows from the
current one on. -/
theorem Select.yields_selected {getNext : Iterator → Option Nat × Iterator}
    {nextItemNo : Iterator → Nat} {select : Select machine}
    (wellFormed : select.WellFormed)
    (areStored : ∀ attr ∈ select.attributes, attr.noStore = false)
    {handle : SelectHandle machine Iterator} (noIndex : handle.search = none)
    (room : select.Room handle.target (select.selected handle.vars
      (select.rel.file.rowsFrom select.rel.rowLength
        handle.tupleId)).length) :
    select.Yields getNext nextItemNo handle
      ((select.selected handle.vars (select.rel.file.rowsFrom
        select.rel.rowLength handle.tupleId)).map
          (projection machine select.rel.attributes
            (select.attributes.map Attribute.name))) := by
  induction remaining :
      select.rel.file.getRowAmount select.rel.rowLength - handle.tupleId
      generalizing handle with
  | zero =>
      have outside : select.rel.file.getRowAmount select.rel.rowLength ≤
          handle.tupleId := Nat.le_of_sub_eq_zero remaining
      rw [TupleFile.rowsFrom_of_ge outside]
      refine .finished ?_
      unfold relationProcessSelect processRow
      rw [noIndex]
      dsimp only
      rw [TupleFile.getRow_of_ge outside]
  | succ remaining inductionHypothesis =>
      have inside : handle.tupleId <
          select.rel.file.getRowAmount select.rel.rowLength := by omega
      have gets := TupleFile.getRow_of_lt inside
      rw [TupleFile.rowsFrom_of_lt inside] at room ⊢
      generalize isRow : select.rel.file.rowAt select.rel.rowLength
        handle.tupleId = row at room gets ⊢
      unfold Select.selected at room ⊢
      dsimp only at room ⊢
      by_cases accepted : select.accepts
          (setVariables select.attrMap row handle.vars) = true
      · rw [if_pos accepted] at room ⊢
        rw [List.length_cons] at room
        rw [List.map_cons, ← readTuple_copyRow wellFormed areStored row
          handle.tuple]
        cases isTarget : handle.target with
        | none =>
            have steps : relationProcessSelect select getNext nextItemNo
                handle = (.gotRow, { handle with
                  tupleId := handle.tupleId + 1
                  currentRow := handle.currentRow + 1
                  vars := setVariables select.attrMap row handle.vars
                  tuple := copyRow select.attrMap row handle.tuple }) := by
              unfold relationProcessSelect processRow
              rw [noIndex]
              dsimp only
              rw [gets]
              dsimp only
              rw [if_pos accepted, isTarget]
            have yields := @Select.Yields.gotRow machine Iterator getNext
              nextItemNo select handle
            rw [steps] at yields
            refine yields rfl (inductionHypothesis noIndex ?_ ?_)
            · dsimp only
              rw [isTarget]
              rintro file ⟨⟩
            · dsimp only
              omega
        | some file =>
            have fits := room file isTarget
            rw [Nat.succ_mul] at fits
            have steps : relationProcessSelect select getNext nextItemNo
                handle = (.gotRow, { handle with
                  tupleId := handle.tupleId + 1
                  currentRow := handle.currentRow + 1
                  vars := setVariables select.attrMap row handle.vars
                  tuple := copyRow select.attrMap row handle.tuple
                  target := some { file with
                    bytes := file.bytes ++ maskRow ((copyRow select.attrMap
                      row handle.tuple).read 0
                        (rowLength select.attributes)) } }) := by
              unfold relationProcessSelect processRow
              rw [noIndex]
              dsimp only
              rw [gets]
              dsimp only
              rw [if_pos accepted, isTarget]
              dsimp only
              rw [TupleFile.putRow_of_fits
                (by rw [ByteMem.length_read]; omega)]
              rfl
            have yields := @Select.Yields.gotRow machine Iterator getNext
              nextItemNo select handle
            rw [steps] at yields
            refine yields rfl (inductionHypothesis noIndex ?_ ?_)
            · rintro written ⟨⟩
              rw [List.length_append, length_maskRow, ByteMem.length_read]
              dsimp only at fits ⊢
              omega
            · dsimp only
              omega
      · rw [if_neg accepted] at room ⊢
        have steps : relationProcessSelect select getNext nextItemNo
            handle = (.ok, { handle with
              tupleId := handle.tupleId + 1
              vars := setVariables select.attrMap row handle.vars
              tuple := copyRow select.attrMap row handle.tuple }) := by
          unfold relationProcessSelect processRow
          rw [noIndex]
          dsimp only
          rw [gets]
          dsimp only
          rw [if_neg accepted]
        have yields := @Select.Yields.ok machine Iterator getNext
          nextItemNo select handle
        rw [steps] at yields
        refine yields rfl (inductionHypothesis noIndex room ?_)
        dsimp only
        omega

end Contiki.Antelope
