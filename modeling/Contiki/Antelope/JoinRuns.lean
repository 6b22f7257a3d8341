import Contiki.Antelope.Join
import Mathlib.Data.List.Nodup

/-!
# Joins return the nested loop

What one call of `relation_process_join` returns, whatever tuple of the left
relation and whatever iterator the handle is at, and from it all that
repeated calls return.
-/

namespace Contiki.Antelope

open Contiki.Lib

variable {Iterator : Type}
  {getIterator : Index → AttributeValue → AttributeValue →
    Except DbResult Iterator}
  {getNext : Iterator → Option Nat × Iterator}
  {machine : Machine} {join : Join} {ids : Nat → List Nat}

/-- The rows that the index yields for each left row are `ids`. -/
structure Join.Serves
    (getIterator : Index → AttributeValue → AttributeValue →
      Except DbResult Iterator)
    (getNext : Iterator → Option Nat × Iterator)
    (machine : Machine) (join : Join) (ids : Nat → List Nat) : Prop where
  opens : ∀ tupleId row,
    join.left.file.getRow join.left.rowLength tupleId = some row →
      ∃ value iterator,
        relationGetValue machine join.left.attributes join.leftJoinAttr row =
            .ok value ∧
          getIterator join.rightIndex value value = .ok iterator ∧
            Yields getNext iterator (ids tupleId)
  areRows : ∀ tupleId, ∀ id ∈ ids tupleId, ∃ row,
    join.right.file.getRow join.right.rowLength id = some row
  /-- The tuples that are put together have the length of a row. -/
  isLength : ∀ tupleId row rightId rightRow,
    join.left.file.getRow join.left.rowLength tupleId = some row →
    join.right.file.getRow join.right.rowLength rightId = some rightRow →
      (joinRow join.sourceMap (terminateString join.left.attributes
        join.leftJoinAttr row) rightRow).length = rowLength join.attributes

/-- The pairs of the left rows from one on. -/
def Join.pairsFrom (join : Join) (ids : Nat → List Nat) (start : Nat) :
    List (Nat × Nat) :=
  (List.range' start
    (join.left.file.getRowAmount join.left.rowLength - start)).flatMap
      fun tupleId => (ids tupleId).map (tupleId, ·)

/-- The pairs that a handle has not returned yet. -/
def Join.Pending (getNext : Iterator → Option Nat × Iterator) (join : Join)
    (ids : Nat → List Nat) (handle : JoinHandle Iterator)
    (pairs : List (Nat × Nat)) : Prop :=
  match handle.iterator with
  | none => pairs = join.pairsFrom ids 0
  | some iterator =>
      ∃ row rest,
        join.left.file.getRow join.left.rowLength handle.tupleId =
            some row ∧
          handle.leftRow = terminateString join.left.attributes
            join.leftJoinAttr row ∧
          Yields getNext iterator rest ∧
            (∀ id ∈ rest, ∃ row,
              join.right.file.getRow join.right.rowLength id = some row) ∧
              pairs = rest.map (handle.tupleId, ·) ++
                join.pairsFrom ids (handle.tupleId + 1)

/-- What a call returns if these pairs are pending. -/
def Join.Delivers (getNext : Iterator → Option Nat × Iterator) (join : Join)
    (ids : Nat → List Nat) (result : DbResult × JoinHandle Iterator) :
    List (Nat × Nat) → Prop
  | [] => result.1 = .finished ∧ result.2.overrun = false
  | pair :: pairs =>
      result.1 = .gotRow ∧ result.2.overrun = false ∧
        (∃ leftRow rightRow,
          join.left.file.getRow join.left.rowLength pair.1 = some leftRow ∧
          join.right.file.getRow join.right.rowLength pair.2 =
              some rightRow ∧
            result.2.tuple = joinRow join.sourceMap (terminateString
              join.left.attributes join.leftJoinAttr leftRow) rightRow) ∧
          join.Pending getNext ids result.2 pairs ∧
            join.Room result.2.target pairs.length

theorem joinInner_of_end {handle : JoinHandle Iterator}
    {iterator : Iterator} (yields : Yields getNext iterator []) :
    joinInner getNext join handle iterator = none := by
  unfold joinInner
  have isNone : (getNext iterator).1 = none := yields
  cases next : getNext iterator with
  | mk id iterator =>
      rw [next] at isNone
      dsimp only at isNone
      subst isNone
      rfl

theorem joinInner_of_next (serves : join.Serves getIterator getNext machine
      ids) (handle : JoinHandle Iterator)
    {iterator : Iterator} {id : Nat} {rest : List Nat} {row : List UInt8}
    (yields : Yields getNext iterator (id :: rest))
    (isRow : join.left.file.getRow join.left.rowLength handle.tupleId =
      some row)
    (isLeftRow : handle.leftRow = terminateString join.left.attributes
      join.leftJoinAttr row)
    (areRows : ∀ other ∈ id :: rest, ∃ row,
      join.right.file.getRow join.right.rowLength other = some row)
    {others : List (Nat × Nat)}
    (areOthers : others = rest.map (handle.tupleId, ·) ++
      join.pairsFrom ids (handle.tupleId + 1))
    (clean : handle.overrun = false) (pairFits : join.PairFits)
    (room : join.Room handle.target (others.length + 1)) :
    ∃ result, joinInner getNext join handle iterator = some result ∧
      join.Delivers getNext ids result ((handle.tupleId, id) :: others) := by
  obtain ⟨isId, yieldsRest⟩ := yields
  obtain ⟨rightRow, isRightRow⟩ := areRows id List.mem_cons_self
  have isLength := serves.isLength _ _ _ _ isRow isRightRow
  unfold joinInner
  cases next : getNext iterator with
  | mk found following =>
  rw [next] at isId yieldsRest
  dsimp only at isId yieldsRest
  subst isId
  dsimp only
  rw [isRightRow]
  dsimp only
  have pending (tuple : List UInt8) (currentRow : Nat) (overrun : Bool)
      (target : Option TupleFile) :
      join.Pending getNext ids
        { handle with
          currentRow := currentRow
          iterator := some following
          tuple := tuple
          overrun := overrun
          target := target } others :=
    ⟨row, rest, isRow, isLeftRow, yieldsRest,
      fun other member => areRows other (List.mem_cons_of_mem _ member),
      areOthers⟩
  have isTuple : joinRow join.sourceMap handle.leftRow rightRow =
      joinRow join.sourceMap (terminateString join.left.attributes
        join.leftJoinAttr row) rightRow := by
    rw [isLeftRow]
  have stays : (handle.overrun ||
      decide (rowBufferSize < join.right.rowLength) ||
      decide (resultRowSize < copiedLength join.sourceMap)) = false := by
    rw [clean, decide_eq_false (Nat.not_lt.2 pairFits.1),
      decide_eq_false (Nat.not_lt.2 pairFits.2)]
    rfl
  cases isTarget : handle.target with
  | none =>
      exact ⟨_, rfl, rfl, stays, ⟨row, rightRow, isRow, isRightRow, isTuple⟩,
        pending _ _ _ none, by rintro file ⟨⟩⟩
  | some file =>
      have fits := room file isTarget
      rw [Nat.succ_mul] at fits
      dsimp only
      rw [TupleFile.putRow_of_fits (by rw [isTuple, isLength]; omega)]
      refine ⟨_, rfl, rfl, stays,
        ⟨row, rightRow, isRow, isRightRow, isTuple⟩,
        pending _ _ _ (some _), ?_⟩
      rintro written ⟨⟩
      rw [List.length_append, length_maskRow, isTuple, isLength]
      dsimp only
      omega

/-- The pairs of a left row come before those of the rows after it. -/
theorem Join.pairsFrom_of_row {tupleId : Nat} {row : List UInt8}
    (isRow : join.left.file.getRow join.left.rowLength tupleId = some row) :
    join.pairsFrom ids tupleId =
      (ids tupleId).map (tupleId, ·) ++ join.pairsFrom ids (tupleId + 1) := by
  have bound := TupleFile.lt_of_getRow isRow
  unfold Join.pairsFrom
  have isSucc : join.left.file.getRowAmount join.left.rowLength - tupleId =
      join.left.file.getRowAmount join.left.rowLength - (tupleId + 1) + 1 := by
    omega
  rw [isSucc, List.range'_succ, List.flatMap_cons]

theorem Join.pairsFrom_of_end {tupleId : Nat}
    (isEnd : join.left.file.getRow join.left.rowLength tupleId = none) :
    join.pairsFrom ids tupleId = [] := by
  have outside : ¬ tupleId <
      join.left.file.getRowAmount join.left.rowLength := by
    intro bound
    obtain ⟨row, isRow⟩ := TupleFile.exists_getRow bound
    exact absurd (isRow.symm.trans isEnd) (by rintro ⟨⟩)
  unfold Join.pairsFrom
  rw [Nat.sub_eq_zero_of_le (Nat.le_of_not_lt outside)]
  rfl

theorem joinOuter_delivers (serves : join.Serves getIterator getNext machine
      ids) (handle : JoinHandle Iterator) (clean : handle.overrun = false)
    (fits : join.Fits (join.pairsFrom ids handle.tupleId))
    (room : join.Room handle.target
      (join.pairsFrom ids handle.tupleId).length) :
    join.Delivers getNext ids
      (joinOuter getIterator getNext machine join handle)
      (join.pairsFrom ids handle.tupleId) := by
  induction remaining :
      join.left.file.getRowAmount join.left.rowLength - handle.tupleId
      using Nat.strong_induction_on generalizing handle with
  | _ remaining inductionHypothesis =>
  rw [joinOuter]
  split
  · rename_i isEnd
    rw [Join.pairsFrom_of_end isEnd]
    exact ⟨rfl, clean⟩
  · rename_i row isRow
    obtain ⟨value, iterator, isValue, isIterator, yields⟩ :=
      serves.opens _ _ isRow
    rw [isValue]
    dsimp only
    rw [isIterator]
    dsimp only
    have bound := TupleFile.lt_of_getRow isRow
    have leftFits : join.left.rowLength ≤ rowBufferSize :=
      fits.1 (Nat.zero_lt_of_lt bound)
    have stays : (handle.overrun ||
        decide (rowBufferSize < join.left.rowLength)) = false := by
      rw [clean, decide_eq_false (Nat.not_lt.2 leftFits)]
      rfl
    rw [Join.pairsFrom_of_row isRow] at fits room ⊢
    cases isIds : ids handle.tupleId with
    | nil =>
        rw [isIds] at yields fits room
        rw [joinInner_of_end yields]
        exact inductionHypothesis _ (by dsimp only; omega) _ stays fits room
          rfl
    | cons id rest =>
        rw [isIds] at yields fits room
        obtain ⟨result, isResult, delivers⟩ := joinInner_of_next serves
          { handle with
            leftRow := terminateString join.left.attributes
              join.leftJoinAttr row
            overrun := handle.overrun ||
              decide (rowBufferSize < join.left.rowLength) }
          yields isRow rfl (by rw [← isIds]; exact serves.areRows _) rfl
          stays (fits.2 (List.cons_ne_nil _ _)) (by simpa using room)
        rw [isResult]
        exact delivers

theorem relationProcessJoin_delivers
    (serves : join.Serves getIterator getNext machine ids)
    {handle : JoinHandle Iterator} {pairs : List (Nat × Nat)}
    (pending : join.Pending getNext ids handle pairs)
    (clean : handle.overrun = false) (fits : join.Fits pairs)
    (room : join.Room handle.target pairs.length) :
    join.Delivers getNext ids
      (relationProcessJoin getIterator getNext machine join handle)
      pairs := by
  unfold relationProcessJoin
  unfold Join.Pending at pending
  cases isIterator : handle.iterator with
  | none =>
      rw [isIterator] at pending
      dsimp only at pending ⊢
      subst pending
      exact joinOuter_delivers serves _ clean fits room
  | some iterator =>
      rw [isIterator] at pending
      obtain ⟨row, rest, isRow, isLeftRow, yields, areRows, rfl⟩ := pending
      dsimp only
      cases rest with
      | nil =>
          rw [joinInner_of_end yields]
          exact joinOuter_delivers serves _ clean fits room
      | cons id rest =>
          obtain ⟨result, isResult, delivers⟩ := joinInner_of_next serves
            handle yields isRow isLeftRow areRows rfl clean
            (fits.2 (List.cons_ne_nil _ _)) (by simpa using room)
          rw [isResult]
          exact delivers

theorem dbPhyToValue_of_valued {attr : Attribute}
    (valued : attr.domain.Valued) (bytes : ByteMem) :
    ∃ value, dbPhyToValue machine attr bytes = .ok value ∧
      value.domain = attr.domain := by
  unfold dbPhyToValue
  cases isDomain : attr.domain with
  | int => exact ⟨_, rfl, rfl⟩
  | long => exact ⟨_, rfl, rfl⟩
  | string => exact ⟨_, rfl, rfl⟩
  | unspecified =>
      rw [isDomain] at valued
      exact absurd valued not_false
  | float =>
      rw [isDomain] at valued
      exact absurd valued not_false

/-- The value that `relation_get_value` reads has the datum of the row. -/
theorem relationGetValue_of_valued {attributes : List Attribute}
    {position : Nat} {attr : Attribute}
    (isAttr : attributes[position]? = some attr)
    (valued : attr.domain.Valued) (row : List UInt8) :
    ∃ value, relationGetValue machine attributes position row = .ok value ∧
      value.domain = attr.domain ∧
        attributeDatum machine attributes position row =
          .ok (value.datum machine attr) := by
  obtain ⟨value, isValue, isDomain⟩ := @dbPhyToValue_of_valued machine attr
    valued ((ByteMem.ofList row).shift (valueOffset attributes position))
  refine ⟨value, ?_, isDomain, ?_⟩
  · unfold relationGetValue
    rw [isAttr]
    exact isValue
  · unfold attributeDatum Attribute.datumAt
    rw [isAttr]
    dsimp only
    rw [isValue]
    rfl

theorem length_terminateString (attributes : List Attribute)
    (position : Nat) (row : List UInt8) :
    (terminateString attributes position row).length = row.length := by
  unfold terminateString
  split
  · split
    · exact List.length_set
    · rfl
  · rfl

theorem readTuple_of_rows {left right : Relation} {joinName : String}
    {projected : List String}
    (joins : relationJoin left right joinName projected = .ok join)
    {pair : Nat × Nat} {leftRow rightRow : List UInt8}
    (isLeft : join.left.file.getRow join.left.rowLength pair.1 =
      some leftRow)
    (isRight : join.right.file.getRow join.right.rowLength pair.2 =
      some rightRow) :
    let tuple := joinRow join.sourceMap (terminateString
      join.left.attributes join.leftJoinAttr leftRow) rightRow
    tuple.length = rowLength join.attributes ∧
      readTuple machine join.attributes (ByteMem.ofList tuple) =
        join.projection machine projected pair := by
  obtain ⟨rfl, rfl, -, areAttributes, isSourceMap⟩ :=
    relationJoin_eq_ok joins
  obtain ⟨isLength, reads⟩ := @readTuple_joinRow machine _ _ _ _ _
    (terminateString join.left.attributes join.leftJoinAttr leftRow)
    rightRow areAttributes isSourceMap
    ((length_terminateString _ _ _).trans (TupleFile.length_of_getRow isLeft))
    (TupleFile.length_of_getRow isRight)
  refine ⟨isLength, reads.trans ?_⟩
  unfold Join.projection
  rw [isLeft, isRight]
  refine List.map_congr_left fun name _ => ?_
  unfold projectedDatum
  cases attributeFind join.left.attributes name with
  | some position => exact attributeDatum_terminateString position _ _
  | none => rfl

theorem returns_of_pending
    (serves : join.Serves getIterator getNext machine ids)
    {left right : Relation} {joinName : String} {projected : List String}
    (joins : relationJoin left right joinName projected = .ok join)
    {handle : JoinHandle Iterator} {pairs : List (Nat × Nat)}
    (pending : join.Pending getNext ids handle pairs)
    (clean : handle.overrun = false) (fits : join.Fits pairs)
    (room : join.Room handle.target pairs.length) :
    join.Returns getIterator getNext machine handle
      (pairs.map (join.projection machine projected)) := by
  induction pairs generalizing handle with
  | nil =>
      exact relationProcessJoin_delivers serves pending clean fits room
  | cons pair pairs inductionHypothesis =>
      obtain ⟨gotRow, clean, ⟨leftRow, rightRow, isLeft, isRight, isTuple⟩,
        pending, room⟩ :=
          relationProcessJoin_delivers serves pending clean fits room
      exact ⟨gotRow, clean, (congrArg (fun tuple => readTuple machine
        join.attributes (ByteMem.ofList tuple)) isTuple).trans
          (readTuple_of_rows joins isLeft isRight).2,
        inductionHypothesis pending clean
          ⟨fits.1, fun _ => fits.2 (List.cons_ne_nil _ _)⟩ room⟩

/-! ## Rows behind their buffers -/

theorem joinInner_clean {handle : JoinHandle Iterator} {iterator : Iterator}
    {result : DbResult × JoinHandle Iterator}
    (isResult : joinInner getNext join handle iterator = some result)
    (clean : result.2.overrun = false) :
    handle.overrun = false ∧ (result.1 = .gotRow → join.PairFits) := by
  have fits (stays : (handle.overrun ||
      decide (rowBufferSize < join.right.rowLength) ||
      decide (resultRowSize < copiedLength join.sourceMap)) = false) :
      handle.overrun = false ∧ join.PairFits := by
    rw [Bool.or_eq_false_iff, Bool.or_eq_false_iff, decide_eq_false_iff_not,
      decide_eq_false_iff_not, Nat.not_lt, Nat.not_lt] at stays
    exact ⟨stays.1.1, stays.1.2, stays.2⟩
  unfold joinInner at isResult
  split at isResult
  · cases isResult
  dsimp only at isResult
  split at isResult
  · cases isResult
    exact ⟨clean, by rintro ⟨⟩⟩
  split at isResult
  · cases isResult
    exact ⟨(fits clean).1, fun _ => (fits clean).2⟩
  split at isResult
  · cases isResult
    exact ⟨(fits clean).1, by rintro ⟨⟩⟩
  · cases isResult
    exact ⟨(fits clean).1, fun _ => (fits clean).2⟩

theorem joinOuter_clean (handle : JoinHandle Iterator)
    (clean : (joinOuter getIterator getNext machine join handle).2.overrun =
      false) :
    handle.overrun = false ∧
      (handle.tupleId < join.left.file.getRowAmount join.left.rowLength →
        join.LeftFits) ∧
      ((joinOuter getIterator getNext machine join handle).1 = .gotRow →
        join.PairFits) := by
  induction remaining :
      join.left.file.getRowAmount join.left.rowLength - handle.tupleId
      using Nat.strong_induction_on generalizing handle with
  | _ remaining inductionHypothesis =>
  have fits (stays : (handle.overrun ||
      decide (rowBufferSize < join.left.rowLength)) = false) :
      handle.overrun = false ∧ join.LeftFits := by
    rw [Bool.or_eq_false_iff, decide_eq_false_iff_not, Nat.not_lt] at stays
    exact stays
  rw [joinOuter] at clean ⊢
  split at clean
  · rename_i isEnd
    refine ⟨clean, fun inside => ?_, by rintro ⟨⟩⟩
    obtain ⟨row, isRow⟩ := TupleFile.exists_getRow inside
    exact absurd (isRow.symm.trans isEnd) (by rintro ⟨⟩)
  rename_i row isRow
  have bound := TupleFile.lt_of_getRow isRow
  dsimp only at clean ⊢
  split at clean
  · exact ⟨(fits clean).1, fun _ => (fits clean).2, by rintro ⟨⟩⟩
  split at clean
  · exact ⟨(fits clean).1, fun _ => (fits clean).2, by rintro ⟨⟩⟩
  split at clean
  · next result isResult =>
      obtain ⟨stays, pairFits⟩ := joinInner_clean isResult clean
      exact ⟨(fits stays).1, fun _ => (fits stays).2, pairFits⟩
  · obtain ⟨stays, -, pairFits⟩ :=
      inductionHypothesis _ (by dsimp only; omega) _ clean rfl
    exact ⟨(fits stays).1, fun _ => (fits stays).2, pairFits⟩

theorem fits_of_returns {leftRow tuple : List UInt8}
    {target : Option TupleFile} {projected : List String}
    {pairs : List (Nat × Nat)}
    (returns : join.Returns getIterator getNext machine
      (.start Iterator leftRow tuple target)
      (pairs.map (join.projection machine projected))) :
    join.Fits pairs := by
  cases pairs with
  | nil =>
      obtain ⟨-, clean⟩ := returns
      obtain ⟨-, leftFits, -⟩ := joinOuter_clean _ clean
      exact ⟨leftFits, fun some => absurd rfl some⟩
  | cons pair pairs =>
      obtain ⟨gotRow, clean, -⟩ := returns
      obtain ⟨-, leftFits, pairFits⟩ := joinOuter_clean _ clean
      exact ⟨leftFits, fun _ => pairFits gotRow⟩

theorem exists_serves {left right : Relation} {joinName : String}
    {projected : List String}
    (joins : relationJoin left right joinName projected = .ok join)
    {leftAttr : Attribute}
    (isLeftAttr : join.left.attributes[join.leftJoinAttr]? = some leftAttr)
    (valued : leftAttr.domain.Valued)
    (enumerates : join.Enumerates getIterator getNext machine leftAttr) :
    ∃ ids, join.Serves getIterator getNext machine ids ∧
      (∀ tupleId, (ids tupleId).Nodup) ∧
        ∀ pair : Nat × Nat,
          pair.1 < join.left.file.getRowAmount join.left.rowLength ∧
            pair.2 ∈ ids pair.1 ↔ join.Matches machine pair := by
  have each (tupleId : Nat) : ∃ ids : List Nat, ids.Nodup ∧
      (∀ id ∈ ids, ∃ row,
        join.right.file.getRow join.right.rowLength id = some row) ∧
      (∀ row, join.left.file.getRow join.left.rowLength tupleId = some row →
        ∃ value iterator,
          relationGetValue machine join.left.attributes join.leftJoinAttr
              row = .ok value ∧
            getIterator join.rightIndex value value = .ok iterator ∧
              Yields getNext iterator ids) ∧
        ∀ id, tupleId < join.left.file.getRowAmount join.left.rowLength ∧
          id ∈ ids ↔ join.Matches machine (tupleId, id) := by
    cases isRow : join.left.file.getRow join.left.rowLength tupleId with
    | none =>
        refine ⟨[], List.nodup_nil, ?_, ?_, ?_⟩
        · rintro id ⟨⟩
        · rintro row ⟨⟩
        · intro id
          constructor
          · rintro ⟨-, ⟨⟩⟩
          · rintro ⟨leftRow, rightRow, datum, isLeft, -⟩
            exact absurd (isLeft.symm.trans isRow) (by rintro ⟨⟩)
    | some row =>
        obtain ⟨value, isValue, isDomain, isDatum⟩ :=
          @relationGetValue_of_valued machine _ _ _ isLeftAttr valued row
        obtain ⟨iterator, ids, isIterator, yields, nodup, mem_iff⟩ :=
          enumerates value isDomain
        refine ⟨ids, nodup, ?_, ?_, ?_⟩
        · intro id member
          obtain ⟨rightRow, isRight, -⟩ := (mem_iff id).1 member
          exact ⟨rightRow, isRight⟩
        · rintro _ ⟨⟩
          exact ⟨value, iterator, isValue, isIterator, yields⟩
        · intro id
          constructor
          · rintro ⟨-, member⟩
            obtain ⟨rightRow, isRight, isSame⟩ := (mem_iff id).1 member
            exact ⟨row, rightRow, _, isRow, isRight, isDatum, isSame⟩
          · rintro ⟨leftRow, rightRow, datum, isLeft, isRight, isLeftDatum,
              isRightDatum⟩
            dsimp only at isLeft isRight
            obtain rfl := Option.some.inj (isLeft.symm.trans isRow)
            obtain rfl := Except.ok.inj (isLeftDatum.symm.trans isDatum)
            exact ⟨TupleFile.lt_of_getRow isLeft,
              (mem_iff id).2 ⟨rightRow, isRight, isRightDatum⟩⟩
  choose ids nodup areRows opens matches_ using each
  refine ⟨ids, ⟨opens, areRows, ?_⟩, nodup, fun pair => matches_ _ _⟩
  intro tupleId row rightId rightRow isRow isRightRow
  exact (@readTuple_of_rows machine _ _ _ _ _ joins (tupleId, rightId) _ _
    isRow isRightRow).1

/-- Repeated calls of `relation_process_join` return the projections of
exactly the pairs of rows with equal join values, each pair once and in the
order of the left rows, and then `DB_FINISHED`, exactly when the rows fit into
their buffers. -/
theorem join_returns_nestedLoop {left right : Relation} {joinName : String}
    {projected : List String}
    (joins : relationJoin left right joinName projected = .ok join)
    {leftAttr : Attribute}
    (isLeftAttr : join.left.attributes[join.leftJoinAttr]? = some leftAttr)
    (valued : leftAttr.domain.Valued)
    (enumerates : join.Enumerates getIterator getNext machine leftAttr)
    (leftRow tuple : List UInt8) (target : Option TupleFile) :
    ∃ pairs : List (Nat × Nat), pairs.Nodup ∧
      (∀ pair, pair ∈ pairs ↔ join.Matches machine pair) ∧
      pairs.Pairwise (fun earlier later => earlier.1 ≤ later.1) ∧
        (join.Room target pairs.length →
          (join.Returns getIterator getNext machine
              (.start Iterator leftRow tuple target)
              (pairs.map (join.projection machine projected)) ↔
            join.Fits pairs)) := by
  obtain ⟨ids, serves, nodup, matches_⟩ :=
    exists_serves joins isLeftAttr valued enumerates
  refine ⟨join.pairsFrom ids 0, ?_, ?_, ?_,
    fun room => ⟨fits_of_returns,
      fun fits => returns_of_pending serves joins rfl rfl fits room⟩⟩
  · refine List.nodup_flatMap.2 ⟨fun tupleId _ => ?_, ?_⟩
    · exact (nodup tupleId).map (Prod.mk_right_injective tupleId)
    · refine (List.nodup_range').imp fun {first second} different => ?_
      intro pair isFirst isSecond
      obtain ⟨_, -, rfl⟩ := List.mem_map.1 isFirst
      obtain ⟨_, -, same⟩ := List.mem_map.1 isSecond
      exact different (congrArg Prod.fst same).symm
  · intro pair
    rw [← matches_ pair]
    unfold Join.pairsFrom
    rw [List.mem_flatMap]
    constructor
    · rintro ⟨tupleId, inRange, member⟩
      obtain ⟨id, isId, rfl⟩ := List.mem_map.1 member
      exact ⟨by simpa using inRange, isId⟩
    · rintro ⟨bound, member⟩
      exact ⟨pair.1, by simpa using bound,
        List.mem_map.2 ⟨pair.2, member, rfl⟩⟩
  · refine List.pairwise_flatMap.2 ⟨fun tupleId _ => ?_, ?_⟩
    · refine List.pairwise_map.2 (List.pairwise_of_forall ?_)
      intro _ _
      exact le_refl tupleId
    · refine (List.pairwise_lt_range').imp ?_
      intro first second isBefore pair isFirst other isSecond
      obtain ⟨_, -, rfl⟩ := List.mem_map.1 isFirst
      obtain ⟨_, -, rfl⟩ := List.mem_map.1 isSecond
      exact Nat.le_of_lt isBefore

/-! ## A join of two relations -/

/-- An iterator over the rows of a relation with the datum of a value. -/
def scanRows (machine : Machine) (right : Relation) (position : Nat)
    (leftAttr : Attribute) (value : AttributeValue) : List Nat :=
  (List.range (right.file.getRowAmount right.rowLength)).filter fun id =>
    match right.file.getRow right.rowLength id with
    | some row =>
        match attributeDatum machine right.attributes position row with
        | .ok datum => datum = value.datum machine leftAttr
        | .error _ => false
    | none => false

def scanNext (ids : List Nat) : Option Nat × List Nat :=
  (ids.head?, ids.tail)

theorem yields_scanNext (ids : List Nat) : Yields scanNext ids ids := by
  induction ids with
  | nil => rfl
  | cons id ids inductionHypothesis => exact ⟨rfl, inductionHypothesis⟩

theorem enumerates_scanRows (machine : Machine) (join : Join)
    (leftAttr : Attribute) :
    join.Enumerates
      (fun _ value _ => .ok (scanRows machine join.right
        join.rightJoinAttr leftAttr value))
      scanNext machine leftAttr := by
  intro value _
  refine ⟨_, _, rfl, yields_scanNext _, List.nodup_range.filter _, ?_⟩
  intro id
  unfold scanRows
  rw [List.mem_filter, List.mem_range]
  constructor
  · rintro ⟨bound, isSame⟩
    obtain ⟨row, isRow⟩ := TupleFile.exists_getRow bound
    rw [isRow] at isSame
    dsimp only at isSame
    cases isDatum : attributeDatum machine join.right.attributes
        join.rightJoinAttr row with
    | error error =>
        rw [isDatum] at isSame
        exact absurd isSame Bool.false_ne_true
    | ok datum =>
        rw [isDatum] at isSame
        exact ⟨row, isRow, isDatum.trans
          (congrArg Except.ok (of_decide_eq_true isSame))⟩
  · rintro ⟨row, isRow, isDatum⟩
    refine ⟨TupleFile.lt_of_getRow isRow, ?_⟩
    rw [isRow]
    dsimp only
    rw [isDatum]
    exact decide_eq_true rfl

/-- An `INT` attribute. -/
def intAttribute (name : String) : Attribute where
  name := name
  domain := .int
  elementSize := 2
  noStore := false
  sized := sized_int

def readings : Relation where
  columns := [⟨intAttribute "node", none⟩, ⟨intAttribute "value", none⟩]
  cardinality := 3
  nextRow := 3
  hasTuples := true
  file :=
    { bytes := [0, 1, 0, 0xfc, 0, 2, 0, 0xe2, 0, 1, 0, 0xe8]
      capacity := 64 }

/-- Nodes with their places, indexed by the nodes. -/
def places : Relation where
  columns :=
    [⟨intAttribute "node", some ⟨[], fun _ _ _ => false⟩⟩,
      ⟨intAttribute "place", none⟩]
  cardinality := 2
  nextRow := 2
  hasTuples := true
  file :=
    { bytes := [0, 1, 0, 0xf1, 0, 1, 0, 0xfe]
      capacity := 64 }

/-- The join of the readings with the places. -/
def readingPlaces : Join where
  left := readings
  right := places
  leftJoinAttr := 0
  rightJoinAttr := 0
  rightIndex := ⟨[], fun _ _ _ => false⟩
  attributes := [intAttribute "value", intAttribute "place"]
  sourceMap :=
    [⟨intAttribute "value", true, 2⟩, ⟨intAttribute "place", false, 2⟩]

theorem join_returns_nestedLoop_readingPlaces :
    ∃ pairs : List (Nat × Nat), pairs.Nodup ∧
      (∀ pair, pair ∈ pairs ↔ readingPlaces.Matches .ilp32 pair) ∧
      pairs.Pairwise (fun earlier later => earlier.1 ≤ later.1) ∧
        readingPlaces.Returns
          (fun _ value _ => .ok (scanRows .ilp32 places 0
            (intAttribute "node") value))
          scanNext .ilp32 (.start (List Nat) [] [] none)
          (pairs.map (readingPlaces.projection .ilp32
            ["value", "place"])) := by
  have joins : relationJoin readings places "node" ["value", "place"] =
      .ok readingPlaces := rfl
  obtain ⟨pairs, nodup, mem_iff, ordered, returns_iff⟩ :=
    @join_returns_nestedLoop _ _ _ _ _ _ _ _ _ joins (intAttribute "node")
      rfl (by decide)
      (enumerates_scanRows .ilp32 readingPlaces (intAttribute "node")) [] []
      none
  exact ⟨pairs, nodup, mem_iff, ordered, (returns_iff (by rintro file ⟨⟩)).2
    ⟨fun _ => by unfold Join.LeftFits; decide,
      fun _ => by unfold Join.PairFits; decide⟩⟩

theorem sized_string : Domain.string.Sized 16 := Nat.zero_lt_succ 15

/-- A `STRING` attribute of the largest size. -/
def stringAttribute (name : String) : Attribute where
  name := name
  domain := .string
  elementSize := 16
  noStore := false
  sized := sized_string

/-- A reading with seven attributes, one more than
`DB_MAX_ATTRIBUTES_PER_RELATION`. -/
def wideReadings : Relation where
  columns := ⟨intAttribute "node", none⟩ ::
    ["a", "b", "c", "d", "e", "f"].map fun name =>
      ⟨stringAttribute name, none⟩
  cardinality := 1
  nextRow := 1
  hasTuples := true
  file :=
    { bytes := List.replicate 98 1
      capacity := 128 }

/-- The join of the wide reading with the places. -/
def widePlaces : Join :=
  { readingPlaces with
    left := wideReadings
    attributes := [intAttribute "place"]
    sourceMap := [⟨intAttribute "place", false, 2⟩] }

/-- The row of the left relation has 98 bytes, `row` has 96. -/
theorem widePlaces_not_returned :
    relationJoin wideReadings places "node" ["place"] = .ok widePlaces ∧
      widePlaces.Enumerates
        (fun _ value _ => .ok (scanRows .ilp32 places 0
          (intAttribute "node") value))
        scanNext .ilp32 (intAttribute "node") ∧
      ∀ pairs : List (Nat × Nat), ¬ widePlaces.Returns
        (fun _ value _ => .ok (scanRows .ilp32 places 0
          (intAttribute "node") value))
        scanNext .ilp32 (.start (List Nat) [] [] none)
        (pairs.map (widePlaces.projection .ilp32 ["place"])) := by
  refine ⟨rfl, enumerates_scanRows .ilp32 widePlaces (intAttribute "node"),
    fun pairs returns => ?_⟩
  have leftFits := (fits_of_returns returns).1 (by decide)
  unfold Join.LeftFits at leftFits
  exact absurd leftFits (by decide)

end Contiki.Antelope
