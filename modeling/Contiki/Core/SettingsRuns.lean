import Contiki.Core.SettingsItems

/-!
# The settings manager over runs

The store is a list of keys with values in the order in which they were added.
-/

namespace Contiki.Core

open Contiki.Lib

namespace SettingsConfig

variable {config : SettingsConfig}

/-! ## Writes -/

/-- A value that fills the store exactly, but for the byte that is left free
before a large value. -/
def LeavesNoByte (config : SettingsConfig) (iter : Nat)
    (value : List UInt8) : Prop :=
  config.supportLargeValues ∧ 128 ≤ value.length ∧ value.length ≤ 16383 ∧
    iter = config.bottom + config.headerSize + value.length

instance (config : SettingsConfig) (iter : Nat) (value : List UInt8) :
    Decidable (config.LeavesNoByte iter value) :=
  inferInstanceAs (Decidable (_ ∧ _ ∧ _ ∧ _))

theorem erased_eq (config : SettingsConfig) :
    config.erased = config.headerBytes
      { sizeExtra := 0xFF, sizeLow := 0xFF, sizeCheck := 0xFF,
        padding := 0xFF, key := 0xFFFF } := by
  unfold erased headerBytes headerSize
  cases config.supportLargeValues <;> cases config.aligned <;> decide

variable {bytes : ByteMem} {eeprom : Eeprom} {iter : Nat}

theorem isValid_of_erased (room : config.headerSize ≤ iter)
    (holds : bytes.Holds (iter - config.headerSize) config.erased) :
    config.settingsIterIsValid bytes iter = false := by
  rw [erased_eq] at holds
  have same := readHeader_of_holds room holds
  unfold settingsIterIsValid
  rw [same.sizeCheck, same.sizeLow]
  simp

theorem holds_write (bytes : ByteMem) (addr : Nat) (buf : List UInt8) :
    (bytes.write addr buf).Holds addr buf :=
  ByteMem.read_write_self bytes addr buf

theorem itemAt_of_holds {header : ItemHeader}
    {key : UInt16} {value : List UInt8}
    (room : config.bottom + config.itemSize value ≤ iter)
    (isKey : header.key = key) (check : header.sizeCheck = ~~~ header.sizeLow)
    (length : (config.headerLength header).toNat = value.length)
    (holdsHeader : bytes.Holds (iter - config.headerSize)
      (config.headerBytes header))
    (holdsValue : bytes.Holds (iter - config.itemSize value) value) :
    ItemAt config bytes iter key value := by
  have size := config.headerSize_le_itemSize value
  have same := @readHeader_of_holds config _ _ _ (by omega) holdsHeader
  refine ⟨room, ?_, ?_, same.key.trans isKey, holdsValue⟩
  · rw [same.sizeCheck, same.sizeLow]
    exact check
  · unfold settingsIterGetValueLength
    rw [same.headerLength]
    exact length

/-- An item is the last one of the items, and what was written is below an
iterator. -/
structure LastItem (config : SettingsConfig) (before after : Eeprom)
    (iter : Nat) (key : UInt16) (value : List UInt8) : Prop where
  writes : ∃ writes, after.writes = before.writes ++ writes ∧
    ∀ write ∈ writes, config.bottom ≤ write.1 ∧ write.1 + write.2 ≤ iter
  same : ∀ addr, iter ≤ addr → before.bytes addr = after.bytes addr
  item : ItemAt config after.bytes iter key value
  ends : config.settingsIterIsValid after.bytes
    (iter - config.itemSize value) = false

variable {items : List (UInt16 × List UInt8)} {key : UInt16}

theorem clearPhantom_spec {value : List UInt8} (inside : iter < 65536)
    (item : ItemAt config eeprom.bytes iter key value) :
    LastItem config eeprom (config.clearPhantom eeprom iter) iter key
      value := by
  have next : config.settingsIterNext eeprom.bytes iter =
      if config.settingsIterIsValid eeprom.bytes
          (iter - config.itemSize value) then iter - config.itemSize value
      else 0 := by
    unfold settingsIterNext
    rw [if_pos item.pos, item.getValueAddr inside]
  unfold clearPhantom
  dsimp only
  rw [next]
  cases valid : config.settingsIterIsValid eeprom.bytes
      (iter - config.itemSize value) with
  | false =>
      exact ⟨⟨[], (List.append_nil _).symm, by simp⟩, fun _ _ => rfl, item,
        valid⟩
  | true =>
      have room := of_decide_eq_true valid
      obtain ⟨positive, headerRoom, _⟩ := room
      have itemRoom := item.room
      rw [if_pos rfl, if_pos positive]
      have length : config.erased.length = config.headerSize := by
        simp [erased]
      have size := config.headerSize_le_itemSize value
      refine ⟨⟨[(_, _)], rfl, fun write member => ?_⟩, fun addr above => ?_,
        item.congr fun addr lower upper => ?_,
        isValid_of_erased (by omega) (holds_write _ _ _)⟩
      · rw [List.mem_singleton] at member
        subst member
        dsimp only
        rw [length]
        omega
      · refine (ByteMem.write_outside ?_).symm
        rw [length]
        omega
      · refine (ByteMem.write_outside ?_).symm
        rw [length]
        omega

theorem addItem_spec (inside : iter < 65536)
    (header : ItemHeader) (key : UInt16) {value : SettingsValue}
    (fits : ¬ config.LeavesNoByte iter value.val) :
    (∃ status, status ≠ .ok ∧
      config.addItem eeprom header key value iter =
        some (status, [], eeprom)) ∨
    ∃ after,
      config.addItem eeprom header key value iter = some (.ok, [], after) ∧
      LastItem config eeprom after iter key value.val := by
  have size := config.headerSize_le_itemSize value.val
  have bounds := config.headerSize_bounds
  unfold addItem
  split
  · exact Or.inl ⟨.outOfSpace, by simp, rfl⟩
  · next room =>
      cases isSet : config.setHeader header key value.val.length with
      | none =>
          exact Or.inl ⟨.valueTooBig, by simp, rfl⟩
      | some set =>
          obtain ⟨isKey, check, length, large, short⟩ := setHeader_spec isSet
          have noWrap := config.fits
          rw [Nat.mod_eq_of_lt (by omega)] at room
          have itemRoom : config.bottom + config.itemSize value.val ≤ iter := by
            unfold itemSize
            unfold LeavesNoByte at fits
            split
            · next isLarge =>
                have different : ¬ iter = config.bottom + config.headerSize +
                    value.val.length :=
                  fun exact => fits ⟨isLarge.1, isLarge.2, short, exact⟩
                omega
            · omega
          have headerHolds := holds_write eeprom.bytes
            (iter - config.headerSize) (config.headerBytes set)
          have headerLength := config.length_headerBytes set
          have withHeader := @readHeader_of_holds config _ iter _ (by omega)
            headerHolds
          have readLength : config.settingsIterGetValueLength
              (eeprom.bytes.write (iter - config.headerSize)
                (config.headerBytes set)) iter = value.val.length := by
            unfold settingsIterGetValueLength
            rw [withHeader.headerLength, length]
          have addr := getValueAddr_of_length (Nat.le_of_add_left_le itemRoom)
            readLength inside
          have disjoint : iter - config.itemSize value.val +
              value.val.length ≤ iter - config.headerSize := by omega
          -- the value is written below its header
          have item : ItemAt config ((eeprom.bytes.write
              (iter - config.headerSize) (config.headerBytes set)).write
                (iter - config.itemSize value.val) value.val) iter key
                  value.val := by
            refine itemAt_of_holds itemRoom isKey check length ?_
              (holds_write _ _ _)
            unfold ByteMem.Holds
            rw [ByteMem.read_write_disjoint (Or.inr disjoint)]
            exact headerHolds
          dsimp only
          have sameLength : config.settingsIterGetValueLength (eeprom.write
              (iter - config.headerSize) (config.headerBytes set)).bytes iter =
                value.val.length := readLength
          rw [if_neg (fun different => different sameLength)]
          have isAddr : config.settingsIterGetValueAddr (eeprom.write
              (iter - config.headerSize) (config.headerBytes set)).bytes iter =
                iter - config.itemSize value.val := addr
          rw [isAddr]
          have cleared := @clearPhantom_spec _ ((eeprom.write
            (iter - config.headerSize) (config.headerBytes set)).write
              (iter - config.itemSize value.val) value.val) _ _ _ inside item
          obtain ⟨writes, isWrites, inRange⟩ := cleared.writes
          refine Or.inr ⟨_, rfl, ⟨(iter - config.headerSize,
            (config.headerBytes set).length) ::
              (iter - config.itemSize value.val, value.val.length) :: writes,
              ?_, fun write member => ?_⟩, fun addr above => ?_, cleared.item,
              cleared.ends⟩
          · rw [isWrites]
            simp [Eeprom.write]
          · obtain rfl | rfl | inWrites := by
              simpa only [List.mem_cons] using member
            · dsimp only
              omega
            · dsimp only
              omega
            · exact inRange write inWrites
          · rw [← cleared.same addr above]
            unfold Eeprom.write
            dsimp only
            rw [ByteMem.write_outside (by omega),
              ByteMem.write_outside (by omega)]

/-! ## The items of a store -/

/-- A store keeps these items and no others. -/
def Keeps (config : SettingsConfig) (bytes : ByteMem)
    (items : List (UInt16 × List UInt8)) : Prop :=
  ∃ last, Stored config bytes config.top items last ∧
    config.settingsIterIsValid bytes last = false

theorem Stored.short {last : Nat} {items : List (UInt16 × List UInt8)}
    (stored : Stored config bytes config.top items last) :
    items.length < 65536 := by
  have below := stored.last_le
  have inside := config.topLt
  omega

theorem Stored.begin {last : Nat} {items : List (UInt16 × List UInt8)}
    (stored : Stored config bytes config.top items last)
    (ends : config.settingsIterIsValid bytes last = false) :
    config.settingsIterBegin bytes = iterOf items config.top :=
  stored.isValid ends

/-- Replace the first value of a key, or add one. -/
def setFirst (key : UInt16) (value : List UInt8) :
    List (UInt16 × List UInt8) → List (UInt16 × List UInt8)
  | [] => [(key, value)]
  | item :: items =>
      if item.1 = key then (key, value) :: items
      else item :: setFirst key value items

/-- Remove the item with a key and an index among the items with it. -/
def deleteAt (key : UInt16) :
    Nat → List (UInt16 × List UInt8) → List (UInt16 × List UInt8)
  | _, [] => []
  | index, item :: items =>
      if item.1 = key then
        match index with
        | 0 => items
        | index + 1 => item :: deleteAt key index items
      else item :: deleteAt key index items

theorem valuesOf_cons_self (key : UInt16) (value : List UInt8)
    (items : List (UInt16 × List UInt8)) :
    valuesOf ((key, value) :: items) key = value :: valuesOf items key := by
  simp [valuesOf]

theorem valuesOf_append (items rest : List (UInt16 × List UInt8))
    (key : UInt16) :
    valuesOf (items ++ rest) key = valuesOf items key ++ valuesOf rest key := by
  simp [valuesOf]

theorem not_mem_of_valuesOf (none : valuesOf items key = []) :
    ∀ item ∈ items, item.1 ≠ key := by
  simpa [valuesOf] using none

theorem setFirst_append (none : valuesOf items key = []) (value : List UInt8)
    (rest : List (UInt16 × List UInt8)) :
    setFirst key value (items ++ rest) =
      items ++ setFirst key value rest := by
  have different := not_mem_of_valuesOf none
  clear none
  induction items with
  | nil =>
      rfl
  | cons item items inductionHypothesis =>
      rw [List.cons_append, setFirst,
        if_neg (different item List.mem_cons_self),
        inductionHypothesis fun other member =>
          different other (List.mem_cons_of_mem item member)]
      rfl

/-- What an operation says about the items, and the items after it. -/
def Answers (items : List (UInt16 × List UInt8)) :
    SettingsOperation → SettingsStatus → List UInt8 →
      List (UInt16 × List UInt8) → Prop
  | .settingsAdd _ key value, status, _, after =>
      status = .ok ∧ after = items ++ [(key, value.val)] ∨
        status ≠ .ok ∧ after = items
  | .settingsSet _ key value, status, _, after =>
      status = .ok ∧ after = setFirst key value.val items ∨
        status ≠ .ok ∧ after = items
  | .settingsDelete key index, status, _, after =>
      status = .ok ∧ index.toNat < (valuesOf items key).length ∧
          after = deleteAt key index.toNat items ∨
        status ≠ .ok ∧ after = items
  | .settingsGet key index valueSize, status, bytes, after =>
      after = items ∧
        match (valuesOf items key)[index.toNat]? with
        | some value => status = .ok ∧ bytes = value.take valueSize
        | none => status = .notFound

/-- All that was written is in the range of the settings. -/
def WritesInside (config : SettingsConfig) (before after : Eeprom) : Prop :=
  ∃ writes, after.writes = before.writes ++ writes ∧
    ∀ write ∈ writes, config.bottom ≤ write.1 ∧
      write.1 + write.2 ≤ config.top + 1

theorem WritesInside.refl (eeprom : Eeprom) :
    WritesInside config eeprom eeprom :=
  ⟨[], (List.append_nil _).symm, by simp⟩

theorem WritesInside.trans {first second third : Eeprom}
    (before : WritesInside config first second)
    (after : WritesInside config second third) :
    WritesInside config first third := by
  obtain ⟨writes, isWrites, inside⟩ := before
  obtain ⟨others, isOthers, othersInside⟩ := after
  refine ⟨writes ++ others, by rw [isOthers, isWrites, List.append_assoc],
    fun write member => ?_⟩
  obtain member | member := List.mem_append.1 member
  · exact inside write member
  · exact othersInside write member

def Refines (config : SettingsConfig) (eeprom : Eeprom)
    (items : List (UInt16 × List UInt8)) (operation : SettingsOperation)
    (result : Option (SettingsStatus × List UInt8 × Eeprom)) : Prop :=
  ∃ status bytes after itemsAfter, result = some (status, bytes, after) ∧
    Answers items operation status bytes itemsAfter ∧
    Keeps config after.bytes itemsAfter ∧ WritesInside config eeprom after

/-! ## Calls -/

/-- The end of the items is no place where a value leaves no byte. -/
def HasRoom (config : SettingsConfig) (bytes : ByteMem)
    (value : List UInt8) : Prop :=
  ∀ iter, config.lastItem bytes 65536 (config.settingsIterBegin bytes) =
      some iter →
    ¬ config.LeavesNoByte
      (if iter ≠ 0 then config.settingsIterGetValueAddr bytes iter
        else config.top) value

theorem settingsAdd_spec
    (keeps : Keeps config eeprom.bytes items) (header : ItemHeader)
    (key : UInt16) {value : SettingsValue}
    (room : config.HasRoom eeprom.bytes value.val) :
    (∃ status, status ≠ .ok ∧
      config.settingsAdd eeprom header key value =
        some (status, [], eeprom)) ∨
    ∃ after,
      config.settingsAdd eeprom header key value = some (.ok, [], after) ∧
      Keeps config after.bytes (items ++ [(key, value.val)]) ∧
      WritesInside config eeprom after := by
  obtain ⟨last, stored, ends⟩ := keeps
  have below := stored.last_le
  have inside := config.topLt
  obtain ⟨found, isLast, isEnd⟩ :=
    lastItem_spec stored ends inside stored.short
  rw [← stored.begin ends] at isLast
  have fits := room found isLast
  have isIter : (if found ≠ 0 then
      config.settingsIterGetValueAddr eeprom.bytes found
      else config.top) = last := by
    obtain ⟨_, rfl, atTop⟩ | ⟨_, notZero, atLast⟩ := isEnd
    · exact atTop
    · rw [if_pos notZero, atLast]
  rw [isIter] at fits
  have isAdd : config.settingsAdd eeprom header key value =
      config.addItem eeprom header key value last := by
    unfold settingsAdd
    rw [isLast]
    dsimp only
    rw [isIter]
  rw [isAdd]
  obtain fails | ⟨after, adds, lastItem⟩ :=
    addItem_spec (by omega) header key fits
  · exact Or.inl fails
  · obtain ⟨writes, isWrites, inRange⟩ := lastItem.writes
    refine Or.inr ⟨after, adds, ⟨last - config.itemSize value.val, ?_,
      lastItem.ends⟩, writes, isWrites, fun write member => ?_⟩
    · exact (stored.congr fun addr lower _ =>
        lastItem.same addr lower).append (Stored.cons lastItem.item Stored.nil)
    · have := inRange write member
      omega

theorem isValid_congr {first second : ByteMem} {iter : Nat}
    (agree : ∀ addr, addr < iter → first addr = second addr) :
    config.settingsIterIsValid first iter =
      config.settingsIterIsValid second iter := by
  unfold settingsIterIsValid settingsIterGetValueLength
  by_cases room : iter < config.bottom + config.headerSize
  · simp [room]
  · have same : SameHeader config (config.readHeader first iter)
        (config.readHeader second iter) :=
      readHeader_congr (by omega) fun addr _ upper => agree addr upper
    rw [same.sizeCheck, same.sizeLow, same.headerLength]

theorem replace_spec
    {old value : List UInt8} {before after : List (UInt16 × List UInt8)}
    {found last : Nat}
    (storedBefore : Stored config eeprom.bytes config.top before found)
    (item : ItemAt config eeprom.bytes found key old)
    (storedAfter : Stored config eeprom.bytes
      (found - config.itemSize old) after last)
    (ends : config.settingsIterIsValid eeprom.bytes last = false)
    (length : value.length = old.length) :
    Keeps config
        (eeprom.write (found - config.itemSize old) value).bytes
        (before ++ (key, value) :: after) ∧
      WritesInside config eeprom
        (eeprom.write (found - config.itemSize old) value) := by
  have size := config.headerSize_le_itemSize old
  have sameSize : config.itemSize value = config.itemSize old := by
    unfold itemSize
    rw [length]
  have room := item.room
  have below := storedBefore.last_le
  have lower := storedAfter.last_le
  have outside : ∀ addr, (addr < found - config.itemSize old ∨
      found - config.itemSize old + value.length ≤ addr) →
        eeprom.bytes addr =
          (eeprom.write (found - config.itemSize old) value).bytes addr :=
    fun addr far => (ByteMem.write_outside far).symm
  have sameHeader : SameHeader config
      (config.readHeader eeprom.bytes found)
      (config.readHeader
        (eeprom.write (found - config.itemSize old) value).bytes found) :=
    readHeader_congr (by omega) fun addr far _ =>
      outside addr (Or.inr (by omega))
  have itemAfter : ItemAt config
      (eeprom.write (found - config.itemSize old) value).bytes found key
        value := by
    refine ⟨by omega, ?_, ?_, ?_, ?_⟩
    · rw [← sameHeader.sizeCheck, ← sameHeader.sizeLow]
      exact item.check
    · rw [length, ← item.length]
      unfold settingsIterGetValueLength
      rw [sameHeader.headerLength]
    · rw [← sameHeader.key]
      exact item.key
    · rw [sameSize]
      exact holds_write _ _ _
  refine ⟨⟨last, ?_, ?_⟩, [(_, _)], rfl, fun write member => ?_⟩
  · refine (storedBefore.congr fun addr far _ =>
      outside addr (Or.inr (by omega))).append (Stored.cons itemAfter ?_)
    rw [sameSize]
    exact storedAfter.congr fun addr _ far => outside addr (Or.inl far)
  · rw [← ends]
    exact (isValid_congr fun addr far => outside addr (Or.inl (by omega))).symm
  · rw [List.mem_singleton] at member
    subst member
    dsimp only
    omega

theorem take_holds {addr : Nat} {value : List UInt8}
    (holds : bytes.Holds addr value) (count : Nat) :
    bytes.read addr (min count value.length) = value.take count := by
  unfold ByteMem.Holds at holds
  obtain le | le := Nat.le_total count value.length
  · obtain ⟨rest, isLength⟩ := Nat.exists_eq_add_of_le le
    rw [isLength, ByteMem.read_add] at holds
    rw [Nat.min_eq_left le, ← holds, List.take_left' (by simp)]
  · rw [Nat.min_eq_right le, List.take_of_length_le le, holds]

theorem settingsGet_spec
    (keeps : Keeps config eeprom.bytes items) (key : UInt16) (index : UInt8)
    (valueSize : Nat) :
    Refines config eeprom items (.settingsGet key index valueSize)
      (config.settingsGet eeprom key index valueSize) := by
  have kept := keeps
  obtain ⟨last, stored, ends⟩ := keeps
  unfold settingsGet
  rw [stored.begin ends]
  obtain ⟨short, notFound⟩ | ⟨before, value, after, found, isItems, count,
    storedBefore, item, _, isFound⟩ :=
    findItem_spec stored ends config.topLt key stored.short index.toNat
  · rw [notFound]
    refine ⟨.notFound, [], eeprom, items, rfl, ⟨rfl, ?_⟩, kept,
      WritesInside.refl eeprom⟩
    rw [List.getElem?_eq_none short]
  · rw [isFound]
    obtain ⟨previous, isPrevious⟩ := Nat.exists_eq_succ_of_ne_zero item.pos
    refine ⟨.ok, value.take valueSize, eeprom, items, ?_, ⟨rfl, ?_⟩, kept,
      WritesInside.refl eeprom⟩
    · have below := storedBefore.last_le
      have inside := config.topLt
      have bytes : config.settingsIterGetValueBytes eeprom.bytes found
          valueSize = value.take valueSize := by
        unfold settingsIterGetValueBytes
        rw [item.getValueAddr (by omega), item.length]
        exact take_holds item.holds valueSize
      rw [isPrevious] at bytes ⊢
      exact congrArg (fun bytes => some (SettingsStatus.ok, bytes, eeprom))
        bytes
    · rw [isItems, valuesOf_append, valuesOf_cons_self, ← count,
        List.getElem?_append_right (Nat.le_refl _), Nat.sub_self]
      exact ⟨rfl, rfl⟩

theorem settingsSet_spec
    (keeps : Keeps config eeprom.bytes items) (header : ItemHeader)
    (key : UInt16) {value : SettingsValue}
    (room : config.findItem eeprom.bytes key 65536
        (config.settingsIterBegin eeprom.bytes) 0 = some 0 →
      config.HasRoom eeprom.bytes value.val) :
    Refines config eeprom items (.settingsSet header key value)
      (config.settingsSet eeprom header key value) := by
  have kept := keeps
  obtain ⟨last, stored, ends⟩ := keeps
  unfold settingsSet
  have isBegin := stored.begin ends
  obtain ⟨short, notFound⟩ | ⟨before, old, after, found, isItems, count,
    storedBefore, item, storedAfter, isFound⟩ :=
    findItem_spec stored ends config.topLt key stored.short 0
  · rw [← isBegin] at notFound
    rw [notFound]
    dsimp only
    rw [if_pos (Or.inl rfl)]
    have none : valuesOf items key = [] :=
      List.length_eq_zero_iff.1 (Nat.le_zero.1 short)
    obtain ⟨status, notOk, fails⟩ | ⟨added, adds, keepsAdded, writes⟩ :=
      settingsAdd_spec kept header key (room notFound)
    · exact ⟨status, [], eeprom, items, fails, Or.inr ⟨notOk, rfl⟩, kept,
        WritesInside.refl eeprom⟩
    · refine ⟨.ok, [], added, _, adds, Or.inl ⟨rfl, ?_⟩, keepsAdded, writes⟩
      have first := setFirst_append none value.val []
      rw [List.append_nil] at first
      exact first.symm
  · rw [← isBegin] at isFound
    rw [isFound]
    dsimp only
    have below := storedBefore.last_le
    have inside := config.topLt
    rw [if_neg (by simp [item.pos, item.isValid]), item.length,
      item.getValueAddr (by omega)]
    split
    · exact ⟨.unimplemented, [], eeprom, items, rfl, Or.inr ⟨by simp, rfl⟩,
        kept, WritesInside.refl eeprom⟩
    · next same =>
        obtain ⟨keepsSet, writes⟩ := replace_spec storedBefore item
          storedAfter ends (not_not.1 same)
        refine ⟨.ok, [], _, _, rfl, Or.inl ⟨rfl, ?_⟩, keepsSet, writes⟩
        rw [isItems, setFirst_append (List.length_eq_zero_iff.1 count),
          setFirst, if_pos rfl]

theorem settingsDelete_spec
    (keeps : Keeps config eeprom.bytes items) (key : UInt16) (index : UInt8)
    (notLast : ∀ iter, config.findItem eeprom.bytes key 65536
        (config.settingsIterBegin eeprom.bytes) index.toNat = some iter →
      iter ≠ 0 → config.settingsIterNext eeprom.bytes iter ≠ 0) :
    Refines config eeprom items (.settingsDelete key index)
      (config.settingsDelete eeprom key index) := by
  have kept := keeps
  obtain ⟨last, stored, ends⟩ := keeps
  have isBegin := stored.begin ends
  unfold settingsDelete
  obtain ⟨_, notFound⟩ | ⟨before, value, after, found, _, _, _, item, _,
    isFound⟩ :=
    findItem_spec stored ends config.topLt key stored.short index.toNat
  · rw [isBegin, notFound]
    exact ⟨.notFound, [], eeprom, items, rfl, Or.inr ⟨by simp, rfl⟩, kept,
      WritesInside.refl eeprom⟩
  · rw [← isBegin] at isFound
    have next := notLast found isFound item.pos
    rw [isFound]
    have isDelete : config.settingsIterDelete eeprom found =
        (.unimplemented, [], eeprom) := by
      unfold settingsIterDelete
      rw [if_neg next]
    obtain ⟨previous, isPrevious⟩ := Nat.exists_eq_succ_of_ne_zero item.pos
    rw [isPrevious] at isDelete ⊢
    exact ⟨.unimplemented, [], eeprom, items, congrArg some isDelete,
      Or.inr ⟨by simp, rfl⟩, kept, WritesInside.refl eeprom⟩

/-! ## Runs -/

/-- A new item does not fill the store up to the byte that a large value
leaves free, and the last item is not deleted. -/
def Meets (config : SettingsConfig) (eeprom : Eeprom) :
    SettingsOperation → Prop
  | .settingsAdd _ _ value => config.HasRoom eeprom.bytes value.val
  | .settingsSet _ key value =>
      config.findItem eeprom.bytes key 65536
          (config.settingsIterBegin eeprom.bytes) 0 = some 0 →
        config.HasRoom eeprom.bytes value.val
  | .settingsDelete key index =>
      ∀ iter, config.findItem eeprom.bytes key 65536
          (config.settingsIterBegin eeprom.bytes) index.toNat = some iter →
        iter ≠ 0 → config.settingsIterNext eeprom.bytes iter ≠ 0
  | .settingsGet _ _ _ => True

/-- Calls after each other, with the status and the bytes of each one. -/
inductive Run (config : SettingsConfig)
    (allowed : Eeprom → SettingsOperation → Prop) (start : Eeprom) :
    List (SettingsOperation × SettingsStatus × List UInt8) → Eeprom → Prop
  | nil : Run config allowed start [] start
  | step {calls : List (SettingsOperation × SettingsStatus × List UInt8)}
      {eeprom after : Eeprom} {operation : SettingsOperation}
      {status : SettingsStatus} {bytes : List UInt8} :
      Run config allowed start calls eeprom → allowed eeprom operation →
      config.step eeprom operation = some (status, bytes, after) →
      Run config allowed start (calls ++ [(operation, status, bytes)]) after

/-- What the calls say about a list that starts with no items. -/
inductive Accepts :
    List (SettingsOperation × SettingsStatus × List UInt8) →
      List (UInt16 × List UInt8) → Prop
  | nil : Accepts [] []
  | step {calls : List (SettingsOperation × SettingsStatus × List UInt8)}
      {items after : List (UInt16 × List UInt8)}
      {operation : SettingsOperation} {status : SettingsStatus}
      {bytes : List UInt8} :
      Accepts calls items → Answers items operation status bytes after →
      Accepts (calls ++ [(operation, status, bytes)]) after

theorem accepts_nil (accepts : Accepts [] items) : items = [] := by
  generalize isCalls : [] = all at accepts
  cases accepts with
  | nil =>
      rfl
  | step =>
      simp at isCalls

theorem accepts_append
    {calls : List (SettingsOperation × SettingsStatus × List UInt8)}
    {items : List (UInt16 × List UInt8)} {operation : SettingsOperation}
    {status : SettingsStatus} {bytes : List UInt8}
    (accepts : Accepts (calls ++ [(operation, status, bytes)]) items) :
    ∃ before, Accepts calls before ∧
      Answers before operation status bytes items := by
  generalize isCalls : calls ++ [(operation, status, bytes)] = all at accepts
  cases accepts with
  | nil =>
      simp at isCalls
  | step accepts answers =>
      obtain ⟨rfl, isCall⟩ := List.append_inj' isCalls rfl
      simp only [List.cons.injEq, Prod.mk.injEq, and_true] at isCall
      obtain ⟨rfl, rfl, rfl⟩ := isCall
      exact ⟨_, accepts, answers⟩

theorem step_spec
    (keeps : Keeps config eeprom.bytes items) {operation : SettingsOperation}
    (meets : config.Meets eeprom operation) :
    Refines config eeprom items operation (config.step eeprom operation) := by
  cases operation with
  | settingsAdd header key value =>
      obtain ⟨status, notOk, fails⟩ | ⟨added, adds, keepsAdded, writes⟩ :=
        settingsAdd_spec keeps header key meets
      · exact ⟨status, [], eeprom, items, fails, Or.inr ⟨notOk, rfl⟩, keeps,
          WritesInside.refl eeprom⟩
      · exact ⟨.ok, [], added, _, adds, Or.inl ⟨rfl, rfl⟩, keepsAdded, writes⟩
  | settingsSet header key value =>
      exact settingsSet_spec keeps header key meets
  | settingsDelete key index =>
      exact settingsDelete_spec keeps key index meets
  | settingsGet key index valueSize =>
      exact settingsGet_spec keeps key index valueSize

/-- A header that is not a check and its complement is left where the first
item would be, whatever the padding says. -/
def Wipes (config : SettingsConfig) (eeprom : Eeprom) : Prop :=
  ¬ (config.supportLargeValues ∧ config.aligned ∧
    eeprom.bytes (config.top - 5) = 0)

theorem settingsWipe_spec (wipes : config.Wipes eeprom) :
    Keeps config (config.settingsWipe eeprom).bytes [] := by
  refine ⟨config.top, Stored.nil, ?_⟩
  unfold settingsIterIsValid
  rw [decide_eq_false_iff_not]
  rintro ⟨_, room, check, _⟩
  have bounds := config.headerSize_bounds
  obtain ⟨start, isTop⟩ := Nat.exists_eq_add_of_le'
    (show config.headerSize ≤ config.top by omega)
  unfold settingsWipe Eeprom.write readHeader at check
  unfold Wipes at wipes
  rw [isTop] at check wipes
  cases large : config.supportLargeValues with
  | false =>
      simp [headerSize, large, ByteMem.write] at check
  | true =>
      cases aligned : config.aligned with
      | false =>
          simp [headerSize, large, aligned, ByteMem.write] at check
      | true =>
          simp [headerSize, large, aligned, ByteMem.write] at check wipes
          have complement := congrArg (fun byte => ~~~ byte) check
          simp only [UInt8.not_not] at complement
          exact wipes complement.symm

/-- In a run on a wiped store whose calls meet the condition, the answers are
these of a list of keys with values, the store keeps this list, only bytes of
the settings are written, and each call returns. -/
theorem settings_run {eeprom last : Eeprom} (wipes : config.Wipes eeprom)
    {calls : List (SettingsOperation × SettingsStatus × List UInt8)}
    (run : config.Run config.Meets (config.settingsWipe eeprom) calls last) :
    (∃ items, Accepts calls items ∧ Keeps config last.bytes items) ∧
      WritesInside config (config.settingsWipe eeprom) last ∧
      ∀ operation, config.Meets last operation →
        (config.step last operation).isSome := by
  have refines : (∃ items, Accepts calls items ∧
      Keeps config last.bytes items) ∧
        WritesInside config (config.settingsWipe eeprom) last := by
    induction run with
    | nil =>
        exact ⟨⟨[], Accepts.nil, settingsWipe_spec wipes⟩,
          WritesInside.refl _⟩
    | step _ meets isStep inductionHypothesis =>
        obtain ⟨⟨items, accepts, keeps⟩, writes⟩ := inductionHypothesis
        obtain ⟨status, bytes, after, itemsAfter, isResult, answers,
          keepsAfter, writesAfter⟩ := step_spec keeps meets
        rw [isStep, Option.some.injEq, Prod.mk.injEq,
          Prod.mk.injEq] at isResult
        obtain ⟨rfl, rfl, rfl⟩ := isResult
        exact ⟨⟨itemsAfter, Accepts.step accepts answers, keepsAfter⟩,
          writes.trans writesAfter⟩
  refine ⟨refines.1, refines.2, fun operation meets => ?_⟩
  obtain ⟨items, _, keeps⟩ := refines.1
  obtain ⟨status, bytes, after, _, isResult, _⟩ := step_spec keeps meets
  rw [isResult]
  rfl

/-- 127 bytes for settings with large values. -/
def smallStore : SettingsConfig where
  bottom := 128
  top := 254
  supportLargeValues := true
  aligned := false
  sizeValues := 65536
  topLt := by decide
  fits := by decide

/-- An EEPROM that has not been written. -/
def newEeprom : Eeprom where
  bytes := fun _ => 0xFF
  writes := []

def unsetHeader : ItemHeader where
  sizeExtra := 0
  sizeLow := 0
  sizeCheck := 0
  padding := 0
  key := 0

def eepromAfter (config : SettingsConfig) (eeprom : Eeprom)
    (operation : SettingsOperation) : Eeprom :=
  ((config.step eeprom operation).map fun result => result.2.2).getD eeprom

theorem Run.answer {allowed : Eeprom → SettingsOperation → Prop}
    {start eeprom : Eeprom}
    {calls : List (SettingsOperation × SettingsStatus × List UInt8)}
    (run : Run config allowed start calls eeprom)
    (operation : SettingsOperation) (status : SettingsStatus)
    (bytes : List UInt8) (isAllowed : allowed eeprom operation)
    (answers : (config.step eeprom operation).map
      (fun result => (result.1, result.2.1)) = some (status, bytes)) :
    Run config allowed start (calls ++ [(operation, status, bytes)])
      (config.eepromAfter eeprom operation) := by
  refine run.step isAllowed ?_
  obtain ⟨⟨_, _, after⟩, isStep, isAnswer⟩ :=
    Option.map_eq_some_iff.1 answers
  rw [Prod.mk.injEq] at isAnswer
  obtain ⟨rfl, rfl⟩ := isAnswer
  unfold eepromAfter
  rw [isStep]
  rfl

theorem settings_run_adds :
    ∃ last items, Accepts [
        (.settingsAdd unsetHeader 7 ⟨[1, 2], by decide⟩, .ok, []),
        (.settingsGet 7 0 5, .ok, [1, 2])] items ∧
      Keeps smallStore last.bytes items ∧
      WritesInside smallStore (smallStore.settingsWipe newEeprom) last := by
  have empty : smallStore.Run smallStore.Meets
      (smallStore.settingsWipe newEeprom) [] _ := Run.nil
  have adds := empty.answer
    (.settingsAdd unsetHeader 7 ⟨[1, 2], by decide⟩) .ok []
    (fun _ _ leaves => absurd leaves.2.1 (by decide)) (by decide +kernel)
  have gets := adds.answer (.settingsGet 7 0 5) .ok [1, 2] trivial
    (by decide +kernel)
  obtain ⟨⟨items, accepts, keeps⟩, writes, _⟩ :=
    settings_run (fun zero => absurd zero.2.1 (by decide)) gets
  exact ⟨_, items, accepts, keeps, writes⟩

/-- The last item is gone after a call that says that it is not
implemented. -/
theorem settingsDelete_forgets :
    ∃ calls last, smallStore.Run (fun _ _ => True)
        (smallStore.settingsWipe newEeprom) calls last ∧
      ¬ ∃ items, Accepts calls items := by
  have empty : smallStore.Run (fun _ _ => True)
      (smallStore.settingsWipe newEeprom) [] _ := Run.nil
  have adds := empty.answer
    (.settingsAdd unsetHeader 7 ⟨[1], by decide⟩) .ok [] trivial
    (by decide +kernel)
  have deletes := adds.answer (.settingsDelete 7 0) .unimplemented [] trivial
    (by decide +kernel)
  have gets := deletes.answer (.settingsGet 7 0 1) .notFound [] trivial
    (by decide +kernel)
  refine ⟨_, _, gets, ?_⟩
  rintro ⟨items, accepts⟩
  obtain ⟨deleted, accepts, getAnswers⟩ := accepts_append accepts
  obtain ⟨added, accepts, deleteAnswers⟩ := accepts_append accepts
  obtain ⟨none, accepts, addAnswers⟩ := accepts_append accepts
  obtain rfl := accepts_nil accepts
  simp only [Answers] at addAnswers deleteAnswers getAnswers
  simp_all [valuesOf]

end SettingsConfig

end Contiki.Core
