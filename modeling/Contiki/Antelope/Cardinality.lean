import Contiki.Antelope.Insertion
import Contiki.Antelope.SelectRuns

/-!
# The cardinality of a relation

The count of rows that an object of a relation caches, over its loads,
releases, insertions and removals.
-/

namespace Contiki.Antelope

open Contiki.Lib

variable {machine : Machine}

/-- A stored relation and its object in the pool of relations, if there is
one. -/
structure Cached where
  relation : Relation
  inMemory : Bool
  references : Nat

/-- What happens to a relation. -/
inductive CachedOp where
  /-- A `relation_load`, with the entry of the tuple file evicted or not. -/
  | load (evicted : Bool)
  | release
  /-- `purge_relations` -/
  | purge
  | insert (values : Nat → AttributeValue)
  | cardinality
  /-- A `REMOVE` that is completed: its result is the new tuple file, and
  `relation_remove` has freed the object. -/
  | remove (file : TupleFile)

variable {state : Cached}

namespace Cached

/-- One operation; nothing happens if it needs another state. -/
def apply (machine : Machine) (state : Cached) : CachedOp → Cached
  | .load evicted =>
      if state.inMemory then
        { state with
          relation := state.relation.open_ evicted
          references := state.references + 1 }
      else
        { relation := state.relation.load evicted
          inMemory := true
          references := 1 }
  | .release =>
      let references := state.references - 1
      if references = 0 then
        { state with
          relation := state.relation.unload
          references := references }
      else { state with references := references }
  | .purge =>
      if state.references = 0 then { state with inMemory := false }
      else state
  | .insert values =>
      if state.inMemory ∧ state.relation.hasTuples then
        { state with
          relation := (state.relation.insert machine values).1 }
      else state
  | .cardinality =>
      if state.inMemory then
        { state with relation := state.relation.getCardinality.2 }
      else state
  | .remove file =>
      if state.references = 0 then
        { state with
          relation := { state.relation.unload with file := file }
          inMemory := false }
      else state

/-- The number of complete rows in the tuple file. -/
def rows (state : Cached) : Nat :=
  state.relation.file.getRowAmount state.relation.rowLength

/-- While the relation is loaded, `relation_cardinality` is the number of
complete rows and the next row has it as its number. -/
def Counts (state : Cached) : Prop :=
  state.inMemory = true → state.relation.hasTuples = true →
    state.relation.getCardinality.1.toNat = state.rows ∧
      state.relation.nextRow.toNat = state.rows

/-- The operation does not meet a state in which it miscounts. -/
def Safe (state : Cached) : CachedOp → Prop
  | .load evicted =>
      (state.relation.file.reopen evicted).getRowAmount
          state.relation.rowLength =
        if state.inMemory then state.rows else 0
  | .insert values =>
      state.relation.AdmitsAll values →
        state.relation.cardinality ≠ invalidTuple ∧
          state.relation.columns ≠ [] ∧
            state.relation.file.bytes.length + state.relation.rowLength ≤
              state.relation.file.capacity
  | _ => True

/-- The file system addresses bytes with numbers of 31 bits. -/
def Fits (file : TupleFile) : Prop :=
  file.bytes.length ≤ file.capacity ∧ file.capacity < 2 ^ 31

/-- The files that an operation brings fit. -/
def FileFits : CachedOp → Prop
  | .remove file => Fits file
  | _ => True

/-- The states that operations within a condition reach. -/
inductive Run (machine : Machine) (condition : Cached → CachedOp → Prop)
    (initial : Cached) : Cached → Prop
  | start : Run machine condition initial initial
  | step {state : Cached} (op : CachedOp)
      (run : Run machine condition initial state) (fits : FileFits op)
      (meets : condition state op) :
      Run machine condition initial (state.apply machine op)

/-- A stored relation that is not in memory, or one that has just been
created. -/
def Initial (state : Cached) : Prop :=
  Fits state.relation.file ∧
    (state.inMemory = false ∨
      state.relation.cardinality = 0 ∧ state.relation.nextRow = 0 ∧
        state.relation.file.bytes = [])

/-! ## The count -/

/-- What an object in memory has counted. -/
structure Counted (state : Cached) : Prop where
  fits : Fits state.relation.file
  cardinality : state.inMemory = true →
    state.relation.cardinality = invalidTuple ∨
      state.relation.cardinality.toNat = state.rows
  nextRow : state.inMemory = true →
    state.relation.nextRow.toNat = state.rows

theorem rows_le (state : Cached) :
    state.rows ≤ state.relation.file.bytes.length := by
  unfold rows TupleFile.getRowAmount
  split
  · exact Nat.zero_le _
  · exact Nat.div_le_self _ _

theorem Counted.counts (counted : state.Counted) : state.Counts := by
  intro inMemory isOpen
  refine ⟨?_, counted.nextRow inMemory⟩
  unfold Relation.getCardinality
  split
  · rename_i isKnown
    exact (counted.cardinality inMemory).resolve_left isKnown
  · dsimp only
    have bound := rows_le state
    obtain ⟨atMost, isBelow⟩ := counted.fits
    exact UInt32.toNat_ofNat_of_lt' (by
      have isRows : state.relation.file.getRowAmount
        state.relation.rowLength = state.rows := rfl
      rw [isRows]
      simp only [UInt32.size]
      omega)

theorem Initial.counted (initial : state.Initial) : state.Counted := by
  obtain ⟨fits, notLoaded | ⟨cardinality, nextRow, isEmpty⟩⟩ := initial
  · refine ⟨fits, fun inMemory => ?_, fun inMemory => ?_⟩
    · exact absurd (inMemory.symm.trans notLoaded) (by decide)
    · exact absurd (inMemory.symm.trans notLoaded) (by decide)
  · have noRows : state.rows = 0 := by
      have bound := rows_le state
      rw [isEmpty] at bound
      exact Nat.le_zero.1 bound
    refine ⟨fits, fun _ => Or.inr ?_, fun _ => ?_⟩
    · rw [cardinality, noRows]
      rfl
    · rw [nextRow, noRows]
      rfl

theorem fits_reopen {file : TupleFile} (fits : Fits file) (evicted : Bool) :
    Fits (file.reopen evicted) := by
  obtain ⟨atMost, isBelow⟩ := fits
  unfold TupleFile.reopen
  split
  · exact ⟨(List.length_take_le' _ _).trans atMost, isBelow⟩
  · exact ⟨atMost, isBelow⟩

theorem rowLength_load (relation : Relation) (evicted : Bool) :
    (relation.load evicted).rowLength = relation.rowLength := by
  unfold Relation.load Relation.rowLength Relation.attributes
  dsimp only
  rw [List.map_map]
  rfl

theorem Counted.load (counted : state.Counted)
    {evicted : Bool} (safe : state.Safe (.load evicted)) :
    (state.apply machine (.load evicted)).Counted := by
  unfold Safe at safe
  unfold apply
  dsimp only
  by_cases inMemory : state.inMemory = true
  · rw [if_pos inMemory] at safe ⊢
    have sameRows : ({ state with
        relation := state.relation.open_ evicted
        references := state.references + 1 } : Cached).rows =
          state.rows := safe
    refine ⟨fits_reopen counted.fits evicted, fun _ => ?_, fun _ => ?_⟩
    · rw [sameRows]
      exact counted.cardinality inMemory
    · rw [sameRows]
      exact counted.nextRow inMemory
  · rw [if_neg inMemory] at safe ⊢
    refine ⟨fits_reopen counted.fits evicted, fun _ => Or.inl rfl,
      fun _ => ?_⟩
    unfold rows
    dsimp only
    rw [rowLength_load]
    exact safe.symm

theorem Counted.insert (counted : state.Counted)
    {values : Nat → AttributeValue} (safe : state.Safe (.insert values)) :
    (state.apply machine (.insert values)).Counted := by
  unfold Safe at safe
  unfold apply
  dsimp only
  split
  · rename_i loaded
    obtain ⟨inMemory, isOpen⟩ := loaded
    obtain ⟨areSame, -, inserts, -⟩ :=
      @insert_spec machine state.relation values
    have sameLength : (state.relation.insert machine values).1.rowLength =
        state.relation.rowLength :=
      congrArg Antelope.rowLength areSame
    by_cases taken : state.relation.AdmitsAll values
    · obtain ⟨isKnown, notEmpty, room⟩ := safe taken
      obtain ⟨-, record, inserted⟩ :=
        inserts (insert_of_admits taken isOpen room)
      have isLength : record.length = state.relation.rowLength :=
        length_encodeRecord inserted.isRecord
      have positive : 0 < state.relation.rowLength :=
        rowLength_pos (by simpa [Relation.attributes] using notEmpty)
      obtain ⟨atMost, isBelow⟩ := counted.fits
      have bound := rows_le state
      have oneMore : ({ state with
          relation := (state.relation.insert machine values).1 } :
            Cached).rows = state.rows + 1 := by
        unfold rows TupleFile.getRowAmount
        dsimp only
        rw [sameLength, if_neg (by omega), if_neg (by omega),
          inserted.isFile]
        dsimp only
        rw [List.length_append, length_maskRow, isLength,
          Nat.add_div_right _ positive]
      have fits := inserted.fits
      have countsUp : ∀ number : TupleId, number.toNat = state.rows →
          (number + 1).toNat = state.rows + 1 := by
        intro number isNumber
        rw [UInt32.toNat_add, isNumber]
        exact Nat.mod_eq_of_lt (by
          have isOne : (1 : UInt32).toNat = 1 := rfl
          omega)
      refine ⟨?_, fun _ => Or.inr ?_, fun _ => ?_⟩
      · unfold Fits
        dsimp only
        rw [inserted.isFile]
        dsimp only
        rw [List.length_append, length_maskRow]
        exact ⟨fits, isBelow⟩
      · rw [oneMore]
        dsimp only
        rw [inserted.cardinality]
        exact countsUp _
          ((counted.cardinality inMemory).resolve_left isKnown)
      · rw [oneMore]
        dsimp only
        rw [inserted.nextRow]
        exact countsUp _ (counted.nextRow inMemory)
    · obtain ⟨sameCardinality, sameNext, sameFile, -⟩ :=
        @insert_of_not_admits machine state.relation values taken
      have sameRows : ({ state with
          relation := (state.relation.insert machine values).1 } :
            Cached).rows = state.rows := by
        unfold rows
        dsimp only
        rw [sameFile, sameLength]
      refine ⟨?_, fun _ => ?_, fun _ => ?_⟩
      · dsimp only
        rw [sameFile]
        exact counted.fits
      · rw [sameRows]
        dsimp only
        rw [sameCardinality]
        exact counted.cardinality inMemory
      · rw [sameRows]
        dsimp only
        rw [sameNext]
        exact counted.nextRow inMemory
  · exact counted

/-- `relation_cardinality` caches the number of rows. -/
theorem Counted.getCardinality (counted : state.Counted) :
    (state.apply machine .cardinality).Counted := by
  unfold apply
  dsimp only
  split
  · rename_i inMemory
    have counts := counted.counts inMemory
    unfold Relation.getCardinality at counts ⊢
    split
    · exact counted
    · rename_i isUnknown
      split
      · exact counted
      · rename_i isOpen
        rw [if_neg isUnknown, if_neg isOpen] at counts
        exact ⟨counted.fits, fun _ => Or.inr (counts (not_not.1 isOpen)).1,
          counted.nextRow⟩
  · exact counted

theorem Counted.apply (counted : state.Counted)
    {op : CachedOp} (fits : FileFits op) (safe : state.Safe op) :
    (state.apply machine op).Counted := by
  cases op with
  | load evicted => exact counted.load safe
  | insert values => exact counted.insert safe
  | cardinality => exact counted.getCardinality
  | release =>
      unfold Cached.apply
      dsimp only
      split
      · exact ⟨counted.fits, counted.cardinality, counted.nextRow⟩
      · exact ⟨counted.fits, counted.cardinality, counted.nextRow⟩
  | purge =>
      unfold Cached.apply
      dsimp only
      split
      · exact ⟨counted.fits, by rintro ⟨⟩, by rintro ⟨⟩⟩
      · exact counted
  | remove file =>
      unfold Cached.apply
      dsimp only
      split
      · exact ⟨fits, by rintro ⟨⟩, by rintro ⟨⟩⟩
      · exact counted

/-- In every run of safe operations `relation_cardinality` is the number of
complete rows in the tuple file, which is also the number of the next row. -/
theorem run_counts {initial state : Cached} (isInitial : initial.Initial)
    (run : Run machine Safe initial state) : state.Counts := by
  have counted : state.Counted := by
    induction run with
    | start => exact isInitial.counted
    | step op _ fits safe inductionHypothesis =>
        exact inductionHypothesis.apply fits safe
  exact counted.counts

/-! ## A relation with one attribute -/

/-- A relation with an `INT` attribute and some rows, which has an object or
not. -/
def ofBytes (bytes : List UInt8) (inMemory : Bool) : Cached where
  relation :=
    { columns := [⟨⟨"reading", .int, 2, false, sized_int⟩, none⟩]
      cardinality := 0
      nextRow := 0
      hasTuples := false
      file := ⟨bytes, 64⟩ }
  inMemory := inMemory
  references := 0

/-- The values of an insertion of a number. -/
def oneNumber (number : Int) : Nat → AttributeValue :=
  fun _ => ⟨.int, number, fun _ => 0⟩

/-- A new relation is loaded, and a number is inserted. -/
def afterInsertion : Cached :=
  ((ofBytes [] true).apply .ilp32 (.load true)).apply .ilp32
    (.insert (oneNumber 5))

theorem run_counts_afterInsertion : afterInsertion.Counts :=
  have created : (ofBytes [] true).Initial :=
    ⟨by unfold Fits; decide, Or.inr ⟨rfl, rfl, rfl⟩⟩
  have loads : (ofBytes [] true).Safe (.load true) := rfl
  have inserts : ((ofBytes [] true).apply .ilp32 (.load true)).Safe
      (.insert (oneNumber 5)) :=
    fun _ => ⟨by decide, by rintro ⟨⟩, by decide⟩
  run_counts created
    (.step (.insert (oneNumber 5))
      (.step (.load true) .start trivial loads) trivial inserts)

/-- A stored relation with a row is loaded, and a number is inserted: the
relation has two rows, its count is none and the next row is the first. -/
theorem stored_not_counts :
    (ofBytes [0, 0xf1] false).Initial ∧
      ∃ state, Run .ilp32 (fun _ _ => True) (ofBytes [0, 0xf1] false)
          state ∧
        state.rows = 2 ∧
          state.relation.getCardinality.1 = 0 ∧
            state.relation.nextRow = 1 ∧ ¬ state.Counts := by
  refine ⟨⟨by unfold Fits; decide, Or.inl rfl⟩, _,
    .step (.insert (oneNumber 5))
      (.step (.load false) .start trivial trivial) trivial trivial,
    by decide, by decide, by decide, fun counts => ?_⟩
  exact absurd (counts (by decide) (by decide)).2 (by decide)

end Cached

end Contiki.Antelope
