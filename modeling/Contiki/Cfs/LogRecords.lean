import Contiki.Cfs.Coffee

/-!
# Log records

A log begins with a table of the regions that its records hold.  An entry of
zero is a record that has not been used.
-/

namespace Contiki.Cfs

/-- The configuration of the logs and of the platform. -/
structure LogConfig where
  /-- `COFFEE_LOG_TABLE_LIMIT` -/
  tableLimit : Nat
  tableLimit_pos : 0 < tableLimit
  /-- `COFFEE_PAGE_SIZE` -/
  pageSize : UInt16
  /-- `COFFEE_LOG_SIZE` -/
  logSize : Nat
  /-- `int` has more than 16 bits. -/
  wideInt : Bool

/-- `adjust_log_config`: the size and the number of the records. -/
def adjustLogConfig (log : LogConfig) (hdr : FileHeader) :
    UInt16 × UInt16 :=
  let logRecordSize :=
    if hdr.logRecordSize = 0 then log.pageSize else hdr.logRecordSize
  (logRecordSize,
    if hdr.logRecords = 0 then
      UInt16.ofNat (log.logSize / logRecordSize.toNat)
    else hdr.logRecords)

/-! ## The next record -/

/-- The inner loop of `find_next_record`. -/
def searchBatch (indices : Nat → UInt16) (processed batchSize : Nat) : Nat :=
  match (List.range batchSize).find? fun logRecord =>
      indices (processed + logRecord) = 0 with
  | some logRecord => logRecord + processed
  | none => batchSize

/-- The outer loop of `find_next_record`, with at most `batches` to come. -/
def searchFrom (indices : Nat → UInt16) (logRecords preferred : Nat) :
    Nat → Nat → Nat → Nat
  | 0, _, logRecord => logRecord
  | batches + 1, processed, logRecord =>
      if processed < logRecords then
        let batchSize :=
          if preferred ≤ logRecords - processed then preferred
          else logRecords - processed
        searchFrom indices logRecords preferred batches
          (processed + batchSize) (searchBatch indices processed batchSize)
      else logRecord

/-- The search of `find_next_record` through the table; each batch has a
record. -/
def searchTable (log : LogConfig) (indices : Nat → UInt16)
    (logRecords : Nat) : Nat :=
  let preferredBatchSize :=
    if log.tableLimit < logRecords then log.tableLimit else logRecords
  searchFrom indices logRecords preferredBatchSize logRecords 0 logRecords

/-- `find_next_record`.  There is no result where the number of the records
does not fit in an `int`. -/
def findNextRecord (log : LogConfig) (recordCount : Int)
    (indices : Nat → UInt16) (logRecords : UInt16) : Option Int :=
  if 0 ≤ recordCount then some recordCount
  else if ¬ log.wideInt ∧ 0x8000 ≤ logRecords.toNat then none
  else some (searchTable log indices logRecords.toNat)

/-- The index of the first record that has not been used, or the number of the
records. -/
def nextUnused (indices : Nat → UInt16) (logRecords : Nat) : Nat :=
  ((List.range logRecords).find? fun logRecord =>
    indices logRecord = 0).getD logRecords

/-! ## Writing -/

/-- What `write_log_page` does: it merges the log, it writes a record and its
entry in the table, or it has no pages for a log. -/
inductive LogWrite where
  | merged
  | written (logPage : Nat) (logRecord : Int) (region : UInt16)
  | noLog
  deriving DecidableEq

/-- The conversion to `int16_t`. -/
def toInt16 (value : Int) : Int :=
  (value + 0x8000) % 0x10000 - 0x8000

/-- `write_log_page` for the offset of the data, with the tables of the logs on
the medium and the page that `create_log` returns. -/
def writeLogPage (log : LogConfig) (hdr : FileHeader) (recordCount : Int)
    (offset : Nat) (tables : Nat → Nat → UInt16)
    (createLog : Option Nat) : Option LogWrite :=
  let (logRecordSize, logRecords) := adjustLogConfig log hdr
  let region := UInt16.ofNat (offset / logRecordSize.toNat)
  if hdr.modified then
    match findNextRecord log recordCount (tables hdr.logPage) logRecords with
    | none => none
    | some found =>
        let logRecord := toInt16 found
        if logRecords.toNat ≤ logRecord then some .merged
        else some (.written hdr.logPage logRecord (region + 1))
  else
    match createLog with
    | none => some .noLog
    | some logPage => some (.written logPage 0 (region + 1))

/-! ## The first record that has not been used -/

variable {indices : Nat → UInt16} {logRecords : Nat}

/-- The first record that has not been used, or the end of the table. -/
theorem nextUnused_spec (indices : Nat → UInt16) (logRecords : Nat) :
    nextUnused indices logRecords ≤ logRecords ∧
      (∀ logRecord < nextUnused indices logRecords,
        indices logRecord ≠ 0) ∧
      (nextUnused indices logRecords < logRecords →
        indices (nextUnused indices logRecords) = 0) := by
  unfold nextUnused
  cases found : (List.range logRecords).find? fun logRecord =>
      indices logRecord = 0 with
  | none =>
      rw [List.find?_range_eq_none] at found
      refine ⟨Nat.le_refl _, fun logRecord inside unused => ?_,
        fun less => absurd less (Nat.lt_irrefl _)⟩
      have used := found logRecord inside
      simp [unused] at used
  | some next =>
      rw [List.find?_range_eq_some] at found
      refine ⟨Nat.le_of_lt (List.mem_range.mp found.2.1),
        fun logRecord before unused => ?_,
        fun _ => of_decide_eq_true found.1⟩
      have used := found.2.2 logRecord before
      simp [unused] at used

theorem nextUnused_le (indices : Nat → UInt16) (logRecords : Nat) :
    nextUnused indices logRecords ≤ logRecords :=
  (nextUnused_spec indices logRecords).1

theorem used_of_lt {logRecord : Nat}
    (before : logRecord < nextUnused indices logRecords) :
    indices logRecord ≠ 0 :=
  (nextUnused_spec indices logRecords).2.1 logRecord before

theorem unused_nextUnused
    (notFull : nextUnused indices logRecords < logRecords) :
    indices (nextUnused indices logRecords) = 0 :=
  (nextUnused_spec indices logRecords).2.2 notFull

theorem nextUnused_eq {next : Nat} (inside : next ≤ logRecords)
    (used : ∀ logRecord < next, indices logRecord ≠ 0)
    (unused : next < logRecords → indices next = 0) :
    nextUnused indices logRecords = next := by
  rcases Nat.lt_trichotomy (nextUnused indices logRecords) next with
    less | same | greater
  · exact absurd (unused_nextUnused (Nat.lt_of_lt_of_le less inside))
      (used _ less)
  · exact same
  · exact absurd (unused (Nat.lt_of_lt_of_le greater
      (nextUnused_le indices logRecords))) (used_of_lt greater)

theorem full_iff :
    nextUnused indices logRecords = logRecords ↔
      ∀ logRecord < logRecords, indices logRecord ≠ 0 := by
  constructor
  · intro full logRecord inside
    exact used_of_lt (by rw [full]; exact inside)
  · intro used
    exact nextUnused_eq (Nat.le_refl _) used fun less =>
      absurd less (Nat.lt_irrefl _)

theorem searchBatch_eq (indices : Nat → UInt16) (processed batchSize : Nat) :
    searchBatch indices processed batchSize =
      if nextUnused (fun logRecord => indices (processed + logRecord))
          batchSize < batchSize then
        nextUnused (fun logRecord => indices (processed + logRecord))
          batchSize + processed
      else batchSize := by
  unfold searchBatch nextUnused
  cases found : (List.range batchSize).find? fun logRecord =>
      indices (processed + logRecord) = 0 with
  | none =>
      exact (if_neg (Nat.lt_irrefl _)).symm
  | some next =>
      exact (if_pos (List.mem_range.mp
        (List.mem_of_find?_eq_some found))).symm

/-! ## The batches -/

/-- The first record of the last batch. -/
def lastBatch (preferred logRecords : Nat) : Nat :=
  (logRecords - 1) / preferred * preferred

theorem lastBatch_eq {preferred processed : Nat} (positive : 0 < preferred)
    (whole : preferred ∣ processed) (more : processed < logRecords)
    (last : logRecords - processed ≤ preferred) :
    lastBatch preferred logRecords = processed := by
  obtain ⟨batch, rfl⟩ := whole
  unfold lastBatch
  have isBatch : (logRecords - 1) / preferred = batch := by
    rw [Nat.div_eq_iff positive]
    rw [Nat.mul_comm preferred batch] at more last
    omega
  rw [isBatch, Nat.mul_comm]

theorem searchFrom_eq {preferred : Nat} (positive : 0 < preferred)
    (indices : Nat → UInt16) {batches processed logRecord : Nat}
    (more : processed < logRecords)
    (enough : logRecords - processed ≤ batches)
    (whole : preferred ∣ processed) :
    searchFrom indices logRecords preferred batches processed logRecord =
      searchBatch indices (lastBatch preferred logRecords)
        (logRecords - lastBatch preferred logRecords) := by
  induction batches generalizing processed logRecord with
  | zero =>
      omega
  | succ batches inductionHypothesis =>
      unfold searchFrom
      rw [if_pos more]
      dsimp only
      by_cases last : logRecords - processed ≤ preferred
      · have batchSize : (if preferred ≤ logRecords - processed then preferred
            else logRecords - processed) = logRecords - processed := by
          split
          · omega
          · rfl
        rw [batchSize, lastBatch_eq positive whole more last]
        cases batches with
        | zero =>
            rfl
        | succ batches =>
            unfold searchFrom
            exact if_neg (by omega)
      · rw [if_pos (by omega)]
        exact inductionHypothesis (by omega) (by omega)
          (Nat.dvd_add_self_right.mpr whole)

variable (log : LogConfig)

theorem searchTable_short (indices : Nat → UInt16)
    (short : logRecords ≤ log.tableLimit) :
    searchTable log indices logRecords = nextUnused indices logRecords := by
  cases logRecords with
  | zero =>
      rfl
  | succ count =>
      have positive := Nat.succ_pos count
      have single : searchFrom indices (count + 1) (count + 1) (count + 1) 0
          (count + 1) = _ :=
        searchFrom_eq positive indices positive (Nat.le_refl _)
          (Nat.dvd_zero _)
      have first : lastBatch (count + 1) (count + 1) = 0 :=
        lastBatch_eq positive (Nat.dvd_zero _) positive (Nat.le_refl _)
      have bound := nextUnused_le indices (count + 1)
      unfold searchTable
      rw [if_neg (Nat.not_lt_of_le short)]
      rw [single, first, searchBatch_eq]
      simp only [Nat.zero_add, Nat.sub_zero, Nat.add_zero]
      change (if nextUnused indices (count + 1) < count + 1 then
        nextUnused indices (count + 1) else count + 1) = _
      split
      · rfl
      · omega

theorem searchTable_long (indices : Nat → UInt16)
    (long : log.tableLimit < logRecords) :
    searchTable log indices logRecords =
      searchBatch indices (lastBatch log.tableLimit logRecords)
        (logRecords - lastBatch log.tableLimit logRecords) := by
  unfold searchTable
  rw [if_pos long]
  exact searchFrom_eq log.tableLimit_pos indices (by omega) (by omega)
    (Nat.dvd_zero _)

/-- The last batch is not the first one, and no longer than it. -/
theorem lastBatch_bounds (long : log.tableLimit < logRecords) :
    log.tableLimit ≤ lastBatch log.tableLimit logRecords ∧
      lastBatch log.tableLimit logRecords < logRecords ∧
      logRecords - lastBatch log.tableLimit logRecords ≤ log.tableLimit := by
  have positive := log.tableLimit_pos
  have parts := Nat.div_add_mod (logRecords - 1) log.tableLimit
  have rest := Nat.mod_lt (logRecords - 1) positive
  have several : 1 ≤ (logRecords - 1) / log.tableLimit :=
    (Nat.one_le_div_iff positive).mpr (by omega)
  have first := Nat.mul_le_mul_right log.tableLimit several
  unfold lastBatch
  rw [Nat.mul_comm] at parts
  omega

/-- What the search needs: one batch, or the first record that has not been
used in the last batch, or a last batch that is full and whose size happens to
be the index of the first record that has not been used. -/
def SearchFits (log : LogConfig) (indices : Nat → UInt16)
    (logRecords : Nat) : Prop :=
  logRecords ≤ log.tableLimit ∨
    (lastBatch log.tableLimit logRecords ≤ nextUnused indices logRecords ∧
      nextUnused indices logRecords < logRecords) ∨
    (nextUnused indices logRecords =
        logRecords - lastBatch log.tableLimit logRecords ∧
      ∀ logRecord, lastBatch log.tableLimit logRecords ≤ logRecord →
        logRecord < logRecords → indices logRecord ≠ 0)

theorem searchTable_eq_iff (indices : Nat → UInt16) (logRecords : Nat) :
    searchTable log indices logRecords = nextUnused indices logRecords ↔
      SearchFits log indices logRecords := by
  by_cases short : logRecords ≤ log.tableLimit
  · exact iff_of_true (searchTable_short log indices short) (Or.inl short)
  have long := Nat.lt_of_not_le short
  have bounds := lastBatch_bounds log long
  unfold SearchFits
  rw [searchTable_long log indices long, searchBatch_eq, or_iff_right short]
  generalize lastBatch log.tableLimit logRecords = last at bounds ⊢
  have batch := nextUnused_spec
    (fun logRecord => indices (last + logRecord)) (logRecords - last)
  generalize nextUnused (fun logRecord => indices (last + logRecord))
    (logRecords - last) = next at batch ⊢
  by_cases unused : next < logRecords - last
  · rw [if_pos unused]
    constructor
    · intro same
      rw [← same]
      exact Or.inl ⟨Nat.le_add_left last next, by omega⟩
    · rintro (inLast | full)
      · apply Eq.symm
        apply nextUnused_eq (by omega)
        · intro logRecord before
          by_cases earlier : logRecord < last
          · exact used_of_lt (Nat.lt_of_lt_of_le earlier inLast.1)
          · have used := batch.2.1 (logRecord - last) (by omega)
            rw [Nat.add_sub_cancel' (Nat.le_of_not_lt earlier)] at used
            exact used
        · intro _
          have isUnused := batch.2.2 unused
          rw [Nat.add_comm] at isUnused
          exact isUnused
      · exact absurd (batch.2.2 unused)
          (full.2 (last + next) (by omega) (by omega))
  · rw [if_neg unused]
    have full : next = logRecords - last := by
      omega
    have used : ∀ logRecord, last ≤ logRecord → logRecord < logRecords →
        indices logRecord ≠ 0 := by
      intro logRecord after inside
      have isUsed := batch.2.1 (logRecord - last) (by omega)
      rw [Nat.add_sub_cancel' after] at isUsed
      exact isUsed
    constructor
    · intro same
      exact Or.inr ⟨same.symm, used⟩
    · rintro (inLast | atSize)
      · exact absurd (unused_nextUnused inLast.2)
          (used _ inLast.1 inLast.2)
      · exact atSize.1.symm

/-! ## The claims of the two functions -/

/-- `find_next_record` finds the first record that has not been used. -/
def FindsNext (log : LogConfig) (recordCount : Int)
    (indices : Nat → UInt16) (logRecords : UInt16) : Prop :=
  findNextRecord log recordCount indices logRecords =
    some (↑(nextUnused indices logRecords.toNat) : Int)

/-- A known number of records is that of the used records; otherwise the
number of all records is an `int` and the search finds the next one. -/
def FindFits (log : LogConfig) (recordCount : Int)
    (indices : Nat → UInt16) (logRecords : UInt16) : Prop :=
  if 0 ≤ recordCount then
    recordCount = nextUnused indices logRecords.toNat
  else
    (log.wideInt = false → logRecords.toNat < 0x8000) ∧
      SearchFits log indices logRecords.toNat

theorem findsNext_iff (recordCount : Int)
    (indices : Nat → UInt16) (logRecords : UInt16) :
    FindsNext log recordCount indices logRecords ↔
      FindFits log recordCount indices logRecords := by
  unfold FindsNext FindFits findNextRecord
  by_cases known : 0 ≤ recordCount
  · rw [if_pos known, if_pos known, Option.some.injEq]
  · rw [if_neg known, if_neg known, ← searchTable_eq_iff]
    by_cases tooMany : ¬ log.wideInt ∧ 0x8000 ≤ logRecords.toNat
    · rw [if_pos tooMany]
      refine iff_of_false (fun none => nomatch none) fun fits => ?_
      have isInt := fits.1 (Bool.eq_false_iff.mpr tooMany.1)
      omega
    · have isInt : log.wideInt = false → logRecords.toNat < 0x8000 := by
        intro narrow
        by_contra outside
        exact tooMany ⟨Bool.eq_false_iff.mp narrow, Nat.le_of_not_lt outside⟩
      rw [if_neg tooMany, Option.some.injEq, Int.natCast_inj]
      exact (and_iff_right isInt).symm

/-- A record that is written has not been used, and the log is merged exactly
when it is full. -/
def KeepsUsed (log : LogConfig) (hdr : FileHeader)
    (tables : Nat → Nat → UInt16) : Option LogWrite → Prop
  | none => False
  | some .noLog => True
  | some .merged => ∀ logRecord < (adjustLogConfig log hdr).2.toNat,
      tables hdr.logPage logRecord ≠ 0
  | some (.written logPage logRecord _) => ∃ unused : Nat,
      logRecord = unused ∧ unused < (adjustLogConfig log hdr).2.toNat ∧
        tables logPage unused = 0

/-- `write_log_page` for a file with a log finds the next record, and no used
record is written over. -/
def WriteKeeps (log : LogConfig) (hdr : FileHeader) (recordCount : Int)
    (offset : Nat) (tables : Nat → Nat → UInt16)
    (createLog : Option Nat) : Prop :=
  (hdr.modified = true → FindsNext log recordCount (tables hdr.logPage)
    (adjustLogConfig log hdr).2) ∧
  KeepsUsed log hdr tables
    (writeLogPage log hdr recordCount offset tables createLog)

/-- The next record of a log is found, and its index is an `int16_t`; a new
log begins with a record that has not been used. -/
def WriteFits (log : LogConfig) (hdr : FileHeader) (recordCount : Int)
    (tables : Nat → Nat → UInt16) (createLog : Option Nat) : Prop :=
  if hdr.modified then
    FindFits log recordCount (tables hdr.logPage)
        (adjustLogConfig log hdr).2 ∧
      nextUnused (tables hdr.logPage) (adjustLogConfig log hdr).2.toNat <
        0x8000
  else
    ∀ logPage ∈ createLog, 0 < (adjustLogConfig log hdr).2.toNat ∧
      tables logPage 0 = 0

theorem writeKeeps_iff (hdr : FileHeader)
    (recordCount : Int) (offset : Nat) (tables : Nat → Nat → UInt16)
    (createLog : Option Nat) :
    WriteKeeps log hdr recordCount offset tables createLog ↔
      WriteFits log hdr recordCount tables createLog := by
  unfold WriteKeeps WriteFits writeLogPage
  dsimp only
  generalize counted : (adjustLogConfig log hdr).2 = logRecords
  cases modified : hdr.modified with
  | true =>
      rw [forall_prop_of_true rfl, if_pos rfl, if_pos rfl, ← findsNext_iff]
      apply and_congr_right
      intro finds
      rw [finds]
      dsimp only
      have bound := nextUnused_le (tables hdr.logPage) logRecords.toNat
      have small := logRecords.toNat_lt
      have unused := @unused_nextUnused (tables hdr.logPage)
        logRecords.toNat
      generalize isNext : nextUnused (tables hdr.logPage)
        logRecords.toNat = next at bound unused ⊢
      by_cases fits : next < 0x8000
      · refine iff_of_true ?_ fits
        have same : toInt16 (next : Int) = next := by
          unfold toInt16
          omega
        rw [same]
        by_cases full : (logRecords.toNat : Int) ≤ next
        · rw [if_pos full]
          unfold KeepsUsed
          rw [counted]
          exact full_iff.mp (isNext.trans (by omega))
        · rw [if_neg full]
          unfold KeepsUsed
          rw [counted]
          exact ⟨next, rfl, by omega, unused (by omega)⟩
      · refine iff_of_false ?_ fits
        have negative : toInt16 (next : Int) < 0 := by
          unfold toInt16
          omega
        rw [if_neg (by omega)]
        rintro ⟨record, same, _⟩
        omega
  | false =>
      rw [forall_prop_of_false Bool.false_ne_true, true_and,
        if_neg Bool.false_ne_true, if_neg Bool.false_ne_true]
      cases createLog with
      | none =>
          exact iff_of_true trivial fun _ member => nomatch member
      | some logPage =>
          unfold KeepsUsed
          rw [counted]
          constructor
          · rintro ⟨unused, same, inside, isUnused⟩ page member
            have isFirst : unused = 0 := by
              omega
            rw [isFirst] at inside isUnused
            rw [← Option.mem_some_iff.mp member]
            exact ⟨inside, isUnused⟩
          · intro fits
            have first := fits logPage rfl
            exact ⟨0, rfl, first.1, first.2⟩

/-! ## A log of two batches -/

/-- A configuration with batches of 256 records. -/
def batchConfig : LogConfig where
  tableLimit := 256
  tableLimit_pos := Nat.succ_pos 255
  pageSize := 256
  logSize := 1024
  wideInt := false

/-- A file with a full log of 300 records of 16 bytes at page 5. -/
def fullLog : FileHeader :=
  { FileHeader.zero with
    logPage := 5
    logRecords := 300
    logRecordSize := 16
    modified := true }

/-- For a full log of 300 records the index of a used record is found, and
this record is written over. -/
theorem fullLog_overwritten :
    findNextRecord batchConfig (-1) (fun _ => 1) 300 = some 44 ∧
      writeLogPage batchConfig fullLog (-1) 0 (fun _ _ => 1) none =
        some (.written 5 44 1) ∧
      ¬ WriteKeeps batchConfig fullLog (-1) 0 (fun _ _ => 1) none := by
  have found : findNextRecord batchConfig (-1) (fun _ => 1) 300 =
      some 44 := by
    decide +kernel
  have full : nextUnused (fun _ => 1) 300 = 300 := by
    decide +kernel
  refine ⟨found, by decide +kernel, fun keeps => ?_⟩
  have finds : findNextRecord batchConfig (-1) (fun _ => 1) 300 =
      some (↑(nextUnused (fun _ => 1) 300) : Int) := keeps.1 rfl
  rw [found, full] at finds
  exact absurd finds (by decide)

/-- The next record is found exactly when the search fits, and no used record
is written over exactly when moreover its index is an `int16_t`. -/
theorem logRecords_iff (log : LogConfig) :
    (∀ (recordCount : Int) (indices : Nat → UInt16) (logRecords : UInt16),
      FindsNext log recordCount indices logRecords ↔
        FindFits log recordCount indices logRecords) ∧
    ∀ (hdr : FileHeader) (recordCount : Int) (offset : Nat)
      (tables : Nat → Nat → UInt16) (createLog : Option Nat),
      WriteKeeps log hdr recordCount offset tables createLog ↔
        WriteFits log hdr recordCount tables createLog :=
  ⟨findsNext_iff log, writeKeeps_iff log⟩

end Contiki.Cfs
