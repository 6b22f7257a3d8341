import Mathlib.Tactic.IntervalCases
import Contiki.Core.Settings

/-!
# The items of the settings manager

What is stored before an iterator, and how the loops over the items find
it.
-/

namespace Contiki.Core

open Contiki.Lib

namespace SettingsConfig

variable {config : SettingsConfig}

/-! ## Headers -/

theorem headerSize_bounds (config : SettingsConfig) :
    4 ≤ config.headerSize ∧ config.headerSize ≤ 6 := by
  unfold headerSize
  split
  · split <;> omega
  · omega

theorem length_headerBytes (config : SettingsConfig) (header : ItemHeader) :
    (config.headerBytes header).length = config.headerSize := by
  unfold headerBytes headerSize
  cases config.supportLargeValues <;> cases config.aligned <;> rfl

/-- Headers that say the same. -/
structure SameHeader (config : SettingsConfig) (first second : ItemHeader) :
    Prop where
  sizeExtra : config.supportLargeValues → first.sizeExtra = second.sizeExtra
  sizeLow : first.sizeLow = second.sizeLow
  sizeCheck : first.sizeCheck = second.sizeCheck
  key : first.key = second.key

theorem SameHeader.headerLength {first second : ItemHeader}
    (same : SameHeader config first second) :
    config.headerLength first = config.headerLength second := by
  unfold SettingsConfig.headerLength
  rw [same.sizeLow, same.sizeCheck]
  dsimp only
  cases large : config.supportLargeValues with
  | false =>
      simp
  | true =>
      rw [same.sizeExtra large]

theorem key_ofBytes (key : UInt16) :
    UInt16.ofNat ((UInt8.ofNat key.toNat).toNat +
      256 * (UInt8.ofNat (key.toNat / 256)).toNat) = key := by
  have bound := key.toNat_lt
  apply UInt16.toNat_inj.1
  rw [UInt16.toNat_ofNat', UInt8.toNat_ofNat', UInt8.toNat_ofNat']
  omega

variable {bytes : ByteMem} {iter : Nat}

theorem readHeader_of_holds
    {header : ItemHeader} (room : config.headerSize ≤ iter)
    (holds : bytes.Holds (iter - config.headerSize)
      (config.headerBytes header)) :
    SameHeader config (config.readHeader bytes iter) header := by
  obtain ⟨start, rfl⟩ := Nat.exists_eq_add_of_le' room
  rw [Nat.add_sub_cancel] at holds
  unfold ByteMem.Holds at holds
  rw [length_headerBytes] at holds
  have key := key_ofBytes header.key
  cases large : config.supportLargeValues with
  | false =>
      simp only [headerSize, headerBytes, large, Bool.false_eq_true,
        if_false, Bool.false_and, List.nil_append, List.append_nil,
        List.cons_append, ByteMem.read_succ, ByteMem.read_zero,
        List.cons.injEq, and_true] at holds
      obtain ⟨low, check, keyLow, keyHigh⟩ := holds
      refine ⟨fun isLarge => by simp [large] at isLarge, ?_, ?_, ?_⟩
      · simp [readHeader, headerSize, large, low]
      · simp [readHeader, headerSize, large, check]
      · simpa [readHeader, headerSize, large, keyLow, keyHigh] using key
  | true =>
      cases aligned : config.aligned with
      | false =>
          simp only [headerSize, headerBytes, large, aligned, if_true,
            Bool.false_eq_true, if_false, Bool.true_and, List.append_nil,
            List.cons_append, List.nil_append, ByteMem.read_succ,
            ByteMem.read_zero, List.cons.injEq, and_true] at holds
          obtain ⟨extra, low, check, keyLow, keyHigh⟩ := holds
          refine ⟨fun _ => ?_, ?_, ?_, ?_⟩
          · simp [readHeader, headerSize, large, aligned, extra]
          · simp [readHeader, headerSize, large, aligned, low]
          · simp [readHeader, headerSize, large, aligned, check]
          · simpa [readHeader, headerSize, large, aligned, keyLow, keyHigh]
              using key
      | true =>
          simp only [headerSize, headerBytes, large, aligned, if_true,
            Bool.true_and, List.cons_append, List.nil_append,
            ByteMem.read_succ, ByteMem.read_zero, List.cons.injEq,
            and_true] at holds
          obtain ⟨extra, low, check, _, keyLow, keyHigh⟩ := holds
          refine ⟨fun _ => ?_, ?_, ?_, ?_⟩
          · simp [readHeader, headerSize, large, aligned, extra]
          · simp [readHeader, headerSize, large, aligned, low]
          · simp [readHeader, headerSize, large, aligned, check]
          · simpa [readHeader, headerSize, large, aligned, keyLow, keyHigh]
              using key

theorem small_size {valueSize : Nat} (small : valueSize < 128) :
    (UInt8.ofNat valueSize).toUInt16 &&& (128 : UInt16) = 0 := by
  have bounded : (UInt8.ofNat valueSize).toNat < 2 ^ 7 := by
    rw [UInt8.toNat_ofNat']
    omega
  apply UInt16.toNat_inj.1
  rw [UInt16.toNat_and, UInt8.toNat_toUInt16]
  apply Nat.eq_of_testBit_eq
  intro bit
  rw [Nat.testBit_and]
  change ((UInt8.ofNat valueSize).toNat.testBit bit && (2 ^ 7).testBit bit) =
    (0 : Nat).testBit bit
  rw [Nat.testBit_two_pow, Nat.zero_testBit]
  by_cases isBit : 7 = bit
  · subst isBit
    rw [Nat.testBit_lt_two_pow bounded]
    rfl
  · simp [isBit]

theorem large_size {word : UInt16} (bounded : word.toNat < 2 ^ 14) :
    ((((word >>> (7 : UInt16) ||| (0x80 : UInt16)).toUInt8.toUInt16 &&&
      ~~~ (128 : UInt16)) <<< (7 : UInt16)) |||
        (word &&& ~~~ (0x80 : UInt16)).toUInt8.toUInt16) = word := by
  have clear14 : word.toBitVec[14] = false := by
    rw [← BitVec.getLsbD_eq_getElem]
    exact Nat.testBit_lt_two_pow bounded
  have clear15 : word.toBitVec[15] = false := by
    rw [← BitVec.getLsbD_eq_getElem]
    exact Nat.testBit_lt_two_pow (Nat.lt_trans bounded (by decide))
  apply UInt16.toBitVec_inj.1
  simp only [UInt16.toBitVec_or, UInt16.toBitVec_and, UInt16.toBitVec_not,
    UInt16.toBitVec_shiftLeft, UInt16.toBitVec_shiftRight,
    UInt8.toBitVec_toUInt16, UInt16.toBitVec_toUInt8]
  apply BitVec.eq_of_getLsbD_eq
  intro bit inside
  interval_cases bit <;> simp [clear14, clear15]

theorem large_bit (word : UInt16) :
    (word >>> (7 : UInt16) ||| (0x80 : UInt16)).toUInt8.toUInt16 &&&
      (128 : UInt16) ≠ 0 := by
  intro zero
  have bit := congrArg (fun word => word.toBitVec.getLsbD 7) zero
  simp at bit

theorem setHeader_spec {header set : ItemHeader} {key : UInt16}
    {valueSize : Nat}
    (isSet : config.setHeader header key valueSize = some set) :
    set.key = key ∧ set.sizeCheck = ~~~ set.sizeLow ∧
      (config.headerLength set).toNat = valueSize ∧
      (valueSize < 128 ∨ config.supportLargeValues = true) ∧
      valueSize ≤ 16383 := by
  unfold setHeader at isSet
  dsimp only at isSet
  split at isSet
  · next small =>
      rw [Option.some.injEq] at isSet
      subst isSet
      refine ⟨rfl, rfl, ?_, Or.inl small, by omega⟩
      unfold headerLength
      rw [if_pos rfl]
      dsimp only
      rw [small_size small, if_neg (by simp), UInt8.toNat_toUInt16,
        UInt8.toNat_ofNat']
      omega
  · split at isSet
    · next large =>
        have word : (UInt16.ofNat valueSize).toNat = valueSize := by
          rw [UInt16.toNat_ofNat']
          omega
        rw [Option.some.injEq] at isSet
        subst isSet
        refine ⟨rfl, rfl, ?_, Or.inr large.1, large.2⟩
        unfold headerLength
        rw [if_pos rfl]
        dsimp only
        rw [if_pos ⟨large.1, large_bit _⟩, large_size (by rw [word]; omega),
          word]
    · simp at isSet

/-! ## Items -/

def itemSize (config : SettingsConfig) (value : List UInt8) : Nat :=
  config.headerSize +
    if config.supportLargeValues ∧ 128 ≤ value.length then value.length + 1
    else value.length

/-- The item before an iterator. -/
structure ItemAt (config : SettingsConfig) (bytes : ByteMem) (iter : Nat)
    (key : UInt16) (value : List UInt8) : Prop where
  room : config.bottom + config.itemSize value ≤ iter
  check : (config.readHeader bytes iter).sizeCheck =
    ~~~ (config.readHeader bytes iter).sizeLow
  length : config.settingsIterGetValueLength bytes iter = value.length
  key : (config.readHeader bytes iter).key = key
  holds : bytes.Holds (iter - config.itemSize value) value

theorem readHeader_congr {first second : ByteMem} {iter : Nat}
    (room : config.headerSize ≤ iter)
    (agree : ∀ addr, iter - config.headerSize ≤ addr → addr < iter →
      first addr = second addr) :
    SameHeader config (config.readHeader first iter)
      (config.readHeader second iter) := by
  have bounds := config.headerSize_bounds
  unfold readHeader
  cases large : config.supportLargeValues with
  | false =>
      refine ⟨fun isLarge => by simp [large] at isLarge, ?_, ?_, ?_⟩ <;>
        simp only [Bool.false_eq_true, if_false]
      · exact agree _ (by omega) (by omega)
      · exact agree _ (by omega) (by omega)
      · rw [agree (iter - 2) (by omega) (by omega),
          agree (iter - 1) (by omega) (by omega)]
  | true =>
      have longer : 5 ≤ config.headerSize := by
        unfold headerSize
        rw [large, if_pos rfl]
        split <;> omega
      refine ⟨fun _ => ?_, ?_, ?_, ?_⟩ <;> simp only [if_true]
      · exact agree _ (by omega) (by omega)
      · exact agree _ (by omega) (by omega)
      · exact agree _ (by omega) (by omega)
      · rw [agree (iter - 2) (by omega) (by omega),
          agree (iter - 1) (by omega) (by omega)]

theorem headerSize_le_itemSize (config : SettingsConfig)
    (value : List UInt8) :
    config.headerSize + value.length ≤ config.itemSize value := by
  unfold itemSize
  split <;> omega

/-- An item is the same in a memory that has the same bytes there. -/
theorem ItemAt.congr {first second : ByteMem} {iter : Nat} {key : UInt16}
    {value : List UInt8} (item : ItemAt config first iter key value)
    (agree : ∀ addr, iter - config.itemSize value ≤ addr → addr < iter →
      first addr = second addr) : ItemAt config second iter key value := by
  have size := config.headerSize_le_itemSize value
  have room := item.room
  have same : SameHeader config (config.readHeader first iter)
      (config.readHeader second iter) :=
    readHeader_congr (by omega) fun addr lower upper =>
      agree addr (by omega) upper
  refine ⟨room, ?_, ?_, ?_, ?_⟩
  · rw [← same.sizeCheck, ← same.sizeLow]
    exact item.check
  · rw [← item.length]
    unfold settingsIterGetValueLength
    rw [same.headerLength]
  · rw [← same.key]
    exact item.key
  · have holds := item.holds
    unfold ByteMem.Holds at holds ⊢
    rw [← @ByteMem.read_congr first second _ _
      fun addr lower upper => agree addr lower (by omega)]
    exact holds

variable {key : UInt16} {value : List UInt8}

theorem ItemAt.getKey (item : ItemAt config bytes iter key value) :
    config.settingsIterGetKey bytes iter = key := by
  unfold settingsIterGetKey
  dsimp only
  rw [if_neg (not_not.2 item.check), item.key]

theorem ItemAt.isValid (item : ItemAt config bytes iter key value) :
    config.settingsIterIsValid bytes iter = true := by
  have size := config.headerSize_le_itemSize value
  have bounds := config.headerSize_bounds
  have room := item.room
  unfold settingsIterIsValid
  rw [decide_eq_true_iff, item.length]
  exact ⟨by omega, by omega, item.check, by omega⟩

theorem getValueAddr_of_length (room : config.itemSize value ≤ iter)
    (length : config.settingsIterGetValueLength bytes iter = value.length)
    (inside : iter < 65536) :
    config.settingsIterGetValueAddr bytes iter =
      iter - config.itemSize value := by
  unfold settingsIterGetValueAddr
  rw [length]
  unfold itemSize at room ⊢
  dsimp only
  split <;> simp_all <;> omega

theorem ItemAt.getValueAddr (item : ItemAt config bytes iter key value)
    (inside : iter < 65536) :
    config.settingsIterGetValueAddr bytes iter =
      iter - config.itemSize value :=
  getValueAddr_of_length (Nat.le_of_add_left_le item.room) item.length inside

theorem ItemAt.pos (item : ItemAt config bytes iter key value) :
    iter ≠ 0 := by
  have size := config.headerSize_le_itemSize value
  have bounds := config.headerSize_bounds
  have room := item.room
  omega

/-- The items from one iterator to another one. -/
inductive Stored (config : SettingsConfig) (bytes : ByteMem) :
    Nat → List (UInt16 × List UInt8) → Nat → Prop
  | nil {iter : Nat} : Stored config bytes iter [] iter
  | cons {iter last : Nat} {key : UInt16} {value : List UInt8}
      {rest : List (UInt16 × List UInt8)} :
      ItemAt config bytes iter key value →
      Stored config bytes (iter - config.itemSize value) rest last →
      Stored config bytes iter ((key, value) :: rest) last

namespace Stored

variable {bytes : ByteMem} {iter middle last : Nat}
  {items rest : List (UInt16 × List UInt8)}

theorem last_le (stored : Stored config bytes iter items last) :
    last + 4 * items.length ≤ iter := by
  induction stored with
  | nil =>
      simp
  | @cons iter last key value rest item _ inductionHypothesis =>
      have size := config.headerSize_le_itemSize value
      have bounds := config.headerSize_bounds
      have room := item.room
      rw [List.length_cons]
      omega

theorem congr {second : ByteMem}
    (stored : Stored config bytes iter items last)
    (agree : ∀ addr, last ≤ addr → addr < iter → bytes addr = second addr) :
    Stored config second iter items last := by
  induction stored with
  | nil =>
      exact nil
  | @cons iter last key value rest item tail inductionHypothesis =>
      have below := tail.last_le
      have size := config.headerSize_le_itemSize value
      refine cons (item.congr fun addr lower upper =>
        agree addr (by omega) upper) (inductionHypothesis
          fun addr lower upper => agree addr lower (by omega))

theorem append (stored : Stored config bytes iter items middle)
    (others : Stored config bytes middle rest last) :
    Stored config bytes iter (items ++ rest) last := by
  induction stored with
  | nil =>
      exact others
  | cons item _ inductionHypothesis =>
      exact cons item (inductionHypothesis others)

end Stored

/-! ## Loops -/

/-- The iterator of some items before another one: 0 if there are none. -/
def iterOf (items : List (UInt16 × List UInt8)) (iter : Nat) : Nat :=
  if items = [] then 0 else iter

theorem Stored.isValid {iter last : Nat} {items : List (UInt16 × List UInt8)}
    (stored : Stored config bytes iter items last)
    (ends : config.settingsIterIsValid bytes last = false) :
    (if config.settingsIterIsValid bytes iter then iter else 0) =
      iterOf items iter := by
  unfold iterOf
  cases stored with
  | nil =>
      rw [ends]
      rfl
  | cons item _ =>
      rw [item.isValid]
      rfl

theorem ItemAt.next {iter last : Nat} {key : UInt16}
    {value : List UInt8} {rest : List (UInt16 × List UInt8)}
    (item : ItemAt config bytes iter key value)
    (tail : Stored config bytes (iter - config.itemSize value) rest last)
    (ends : config.settingsIterIsValid bytes last = false)
    (inside : iter < 65536) :
    config.settingsIterNext bytes iter =
      iterOf rest (iter - config.itemSize value) := by
  unfold settingsIterNext
  rw [if_pos item.pos, item.getValueAddr inside]
  exact tail.isValid ends

/-- The values of a key in the order in which they were added. -/
def valuesOf (items : List (UInt16 × List UInt8)) (key : UInt16) :
    List (List UInt8) :=
  (items.filter fun item => item.1 = key).map Prod.snd

/-- A loop finds the item with a key and an index, or there is none. -/
theorem findItem_spec {iter last : Nat} {items : List (UInt16 × List UInt8)}
    (stored : Stored config bytes iter items last)
    (ends : config.settingsIterIsValid bytes last = false)
    (inside : iter < 65536) (key : UInt16) {rounds : Nat}
    (enough : items.length < rounds) (index : Nat) :
    ((valuesOf items key).length ≤ index ∧
      config.findItem bytes key rounds (iterOf items iter) index = some 0) ∨
    ∃ before value after found, items = before ++ (key, value) :: after ∧
      (valuesOf before key).length = index ∧
      Stored config bytes iter before found ∧
      ItemAt config bytes found key value ∧
      Stored config bytes (found - config.itemSize value) after last ∧
      config.findItem bytes key rounds (iterOf items iter) index =
        some found := by
  induction stored generalizing rounds index with
  | nil =>
      obtain ⟨rounds, rfl⟩ := Nat.exists_eq_succ_of_ne_zero
        (Nat.ne_of_gt (Nat.zero_lt_of_lt enough))
      exact Or.inl ⟨Nat.zero_le _, rfl⟩
  | @cons iter last other value rest item tail inductionHypothesis =>
      obtain ⟨rounds, rfl⟩ := Nat.exists_eq_succ_of_ne_zero
        (Nat.ne_of_gt (Nat.zero_lt_of_lt enough))
      have rest_ := inductionHypothesis ends (by omega)
        (Nat.lt_of_succ_lt_succ enough)
      have isIter : iterOf ((other, value) :: rest) iter = iter := rfl
      rw [isIter]
      unfold findItem
      rw [if_neg item.pos, item.getKey, item.next tail ends inside]
      by_cases same : other = key
      · rw [if_pos same]
        subst same
        cases index with
        | zero =>
            exact Or.inr ⟨[], value, rest, iter, rfl, rfl, Stored.nil, item,
              tail, rfl⟩
        | succ index =>
            obtain ⟨short, found⟩ | ⟨before, foundValue, after, at_, isRest,
              count, storedBefore, itemAt, storedAfter, found⟩ := rest_ index
            · refine Or.inl ⟨?_, found⟩
              unfold valuesOf at short ⊢
              rw [List.filter_cons_of_pos (by simp), List.map_cons,
                List.length_cons]
              omega
            · refine Or.inr ⟨(other, value) :: before, foundValue, after,
                at_, by rw [isRest]; rfl, ?_, Stored.cons item storedBefore,
                itemAt, storedAfter, found⟩
              unfold valuesOf at count ⊢
              rw [List.filter_cons_of_pos (by simp), List.map_cons,
                List.length_cons, count]
      · rw [if_neg same]
        obtain ⟨short, found⟩ | ⟨before, foundValue, after, at_, isRest,
          count, storedBefore, itemAt, storedAfter, found⟩ := rest_ index
        · refine Or.inl ⟨?_, found⟩
          unfold valuesOf at short ⊢
          rwa [List.filter_cons_of_neg (by simpa using same)]
        · refine Or.inr ⟨(other, value) :: before, foundValue, after, at_,
            by rw [isRest]; rfl, ?_, Stored.cons item storedBefore, itemAt,
            storedAfter, found⟩
          unfold valuesOf at count ⊢
          rwa [List.filter_cons_of_neg (by simpa using same)]

theorem lastItem_spec {iter last : Nat} {items : List (UInt16 × List UInt8)}
    (stored : Stored config bytes iter items last)
    (ends : config.settingsIterIsValid bytes last = false)
    (inside : iter < 65536) {rounds : Nat} (enough : items.length < rounds) :
    ∃ found, config.lastItem bytes rounds (iterOf items iter) = some found ∧
      (items = [] ∧ found = 0 ∧ iter = last ∨
        items ≠ [] ∧ found ≠ 0 ∧
          config.settingsIterGetValueAddr bytes found = last) := by
  induction stored generalizing rounds with
  | nil =>
      obtain ⟨rounds, rfl⟩ := Nat.exists_eq_succ_of_ne_zero
        (Nat.ne_of_gt (Nat.zero_lt_of_lt enough))
      exact ⟨0, rfl, Or.inl ⟨rfl, rfl, rfl⟩⟩
  | @cons iter last key value rest item tail inductionHypothesis =>
      obtain ⟨rounds, rfl⟩ := Nat.exists_eq_succ_of_ne_zero
        (Nat.ne_of_gt (Nat.zero_lt_of_lt enough))
      have isIter : iterOf ((key, value) :: rest) iter = iter := rfl
      have next := item.next tail ends inside
      have addr := item.getValueAddr inside
      rw [isIter]
      unfold lastItem
      rw [next]
      cases tail with
      | nil =>
          exact ⟨iter, rfl, Or.inr ⟨by simp, item.pos, addr⟩⟩
      | @cons _ _ nextKey nextValue others nextItem nextTail =>
          have notEnd : iterOf ((nextKey, nextValue) :: others)
              (iter - config.itemSize value) ≠ 0 := nextItem.pos
          rw [if_neg notEnd]
          obtain ⟨found, isFound, ⟨none, _⟩ | ⟨_, isItem⟩⟩ :=
            inductionHypothesis ends (by omega)
              (Nat.lt_of_succ_lt_succ enough)
          · simp at none
          · exact ⟨found, isFound, Or.inr ⟨by simp, isItem⟩⟩

end SettingsConfig

end Contiki.Core
