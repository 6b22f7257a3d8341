import Contiki.Lib.ByteMem

/-!
# The settings manager

Settings are kept at the end of the EEPROM.  An iterator is the first address
behind an item; before it stand the key, a check byte and the size of the
value, and before these the value, whose address is the next iterator.
-/

namespace Contiki.Core

open Contiki.Lib

/-- `settings_status_t` -/
inductive SettingsStatus where
  | ok
  | failure
  | invalidArgument
  | notFound
  | outOfSpace
  | valueTooBig
  | unimplemented
  deriving DecidableEq

/-- The configuration of the settings manager and the platform. -/
structure SettingsConfig where
  /-- `SETTINGS_BOTTOM_ADDR` -/
  bottom : Nat
  /-- `SETTINGS_TOP_ADDR` -/
  top : Nat
  /-- `SETTINGS_CONF_SUPPORT_LARGE_VALUES` -/
  supportLargeValues : Bool
  /-- A `uint16_t` in a structure has an even offset. -/
  aligned : Bool
  /-- The number of values of `size_t`. -/
  sizeValues : Nat
  topLt : top < 65536
  fits : bottom + 16389 < sizeValues

/-- `item_header_t` -/
structure ItemHeader where
  sizeExtra : UInt8
  sizeLow : UInt8
  sizeCheck : UInt8
  padding : UInt8
  key : UInt16

/-- The bytes of the EEPROM, and the addresses and lengths of all writes. -/
structure Eeprom where
  bytes : ByteMem
  writes : List (Nat × Nat)

/-- `eeprom_write` -/
def Eeprom.write (eeprom : Eeprom) (addr : Nat) (buf : List UInt8) :
    Eeprom where
  bytes := eeprom.bytes.write addr buf
  writes := eeprom.writes ++ [(addr, buf.length)]

/-- A value with its size, which is a `settings_length_t`. -/
abbrev SettingsValue := { value : List UInt8 // value.length < 65536 }

namespace SettingsConfig

variable (config : SettingsConfig)

/-- `sizeof(item_header_t)` -/
def headerSize : Nat :=
  if config.supportLargeValues then if config.aligned then 6 else 5 else 4

def headerBytes (header : ItemHeader) : List UInt8 :=
  (if config.supportLargeValues then [header.sizeExtra] else []) ++
    [header.sizeLow, header.sizeCheck] ++
    (if config.supportLargeValues && config.aligned then [header.padding]
      else []) ++
    [UInt8.ofNat header.key.toNat, UInt8.ofNat (header.key.toNat / 256)]

def readHeader (bytes : ByteMem) (iter : Nat) : ItemHeader :=
  let size := iter - config.headerSize +
    if config.supportLargeValues then 1 else 0
  { sizeExtra := bytes (iter - config.headerSize)
    sizeLow := bytes size
    sizeCheck := bytes (size + 1)
    padding := bytes (size + 2)
    key := UInt16.ofNat
      ((bytes (iter - 2)).toNat + 256 * (bytes (iter - 1)).toNat) }

def headerLength (header : ItemHeader) : UInt16 :=
  if header.sizeCheck = ~~~ header.sizeLow then
    let ret := header.sizeLow.toUInt16
    if config.supportLargeValues ∧ ret &&& (128 : UInt16) ≠ 0 then
      ((ret &&& ~~~ (128 : UInt16)) <<< (7 : UInt16)) |||
        header.sizeExtra.toUInt16
    else ret
  else 0

/-- `settings_iter_get_value_length` -/
def settingsIterGetValueLength (bytes : ByteMem) (iter : Nat) : Nat :=
  (config.headerLength (config.readHeader bytes iter)).toNat

/-- `settings_iter_get_key` -/
def settingsIterGetKey (bytes : ByteMem) (iter : Nat) : UInt16 :=
  let header := config.readHeader bytes iter
  if header.sizeCheck ≠ ~~~ header.sizeLow then 0xFFFF else header.key

/-- `settings_iter_get_value_addr` -/
def settingsIterGetValueAddr (bytes : ByteMem) (iter : Nat) : Nat :=
  let len := config.settingsIterGetValueLength bytes iter
  let len := if config.supportLargeValues ∧ 128 ≤ len then len + 1 else len
  (iter + 65536 - config.headerSize - len) % 65536

/-- `settings_iter_is_valid` -/
def settingsIterIsValid (bytes : ByteMem) (iter : Nat) : Bool :=
  iter ≠ 0 ∧ ¬ iter < config.bottom + config.headerSize ∧
    (config.readHeader bytes iter).sizeCheck =
      ~~~ (config.readHeader bytes iter).sizeLow ∧
    ¬ iter < config.bottom + config.headerSize +
      config.settingsIterGetValueLength bytes iter

/-- `settings_iter_begin`; the iterator 0 is none. -/
def settingsIterBegin (bytes : ByteMem) : Nat :=
  if config.settingsIterIsValid bytes config.top then config.top else 0

/-- `settings_iter_next` -/
def settingsIterNext (bytes : ByteMem) (iter : Nat) : Nat :=
  if iter ≠ 0 then
    let ret := config.settingsIterGetValueAddr bytes iter
    if config.settingsIterIsValid bytes ret then ret else 0
  else 0

/-- `settings_iter_get_value_bytes` -/
def settingsIterGetValueBytes (bytes : ByteMem) (iter maxLength : Nat) :
    List UInt8 :=
  bytes.read (config.settingsIterGetValueAddr bytes iter)
    (min maxLength (config.settingsIterGetValueLength bytes iter))

/-- The loop of `settings_get` and `settings_delete`, for at most so many
rounds: the item with a key and an index among the items with this key. -/
def findItem (bytes : ByteMem) (key : UInt16) : Nat → Nat → Nat → Option Nat
  | 0, _, _ => none
  | rounds + 1, iter, index =>
      if iter = 0 then some 0
      else if config.settingsIterGetKey bytes iter = key then
        match index with
        | 0 => some iter
        | index + 1 =>
            findItem bytes key rounds
              (config.settingsIterNext bytes iter) index
      else
        findItem bytes key rounds
          (config.settingsIterNext bytes iter) index

/-- The loop of `settings_add`. -/
def lastItem (bytes : ByteMem) : Nat → Nat → Option Nat
  | 0, _ => none
  | rounds + 1, iter =>
      if config.settingsIterNext bytes iter = 0 then some iter
      else lastItem bytes rounds (config.settingsIterNext bytes iter)

/-- `settings_get` with `*value_size` for the size of the buffer. -/
def settingsGet (eeprom : Eeprom) (key : UInt16) (index : UInt8)
    (valueSize : Nat) : Option (SettingsStatus × List UInt8 × Eeprom) :=
  match config.findItem eeprom.bytes key 65536
      (config.settingsIterBegin eeprom.bytes) index.toNat with
  | none => none
  | some 0 => some (.notFound, [], eeprom)
  | some iter =>
      some (.ok,
        config.settingsIterGetValueBytes eeprom.bytes iter valueSize, eeprom)

/-- The header for a value, in a variable that has not been initialized. -/
def setHeader (header : ItemHeader) (key : UInt16) (valueSize : Nat) :
    Option ItemHeader :=
  let header := { header with key := key }
  if valueSize < 0x80 then
    some { header with
      sizeLow := UInt8.ofNat valueSize
      sizeCheck := ~~~ UInt8.ofNat valueSize }
  else if config.supportLargeValues ∧ valueSize ≤ 0x3FFF then
    let sizeLow :=
      (UInt16.ofNat valueSize >>> (7 : UInt16) ||| (0x80 : UInt16)).toUInt8
    some { header with
      sizeLow := sizeLow
      sizeExtra := (UInt16.ofNat valueSize &&& ~~~ (0x80 : UInt16)).toUInt8
      sizeCheck := ~~~ sizeLow }
  else none

/-- The header of an item that is not one. -/
def erased : List UInt8 := List.replicate config.headerSize 0xFF

/-- The end of `settings_add`: the new item should be the last one. -/
def clearPhantom (eeprom : Eeprom) (iter : Nat) : Eeprom :=
  let iter := config.settingsIterNext eeprom.bytes iter
  if iter ≠ 0 then eeprom.write (iter - config.headerSize) config.erased
  else eeprom

/-- `settings_add` when the new item goes before an iterator. -/
def addItem (eeprom : Eeprom) (header : ItemHeader) (key : UInt16)
    (value : SettingsValue) (iter : Nat) :
    Option (SettingsStatus × List UInt8 × Eeprom) :=
  if iter < (config.bottom + value.val.length + config.headerSize) %
      config.sizeValues then
    some (.outOfSpace, [], eeprom)
  else
    match config.setHeader header key value.val.length with
    | none => some (.valueTooBig, [], eeprom)
    | some header =>
        let eeprom := eeprom.write (iter - config.headerSize)
          (config.headerBytes header)
        if config.settingsIterGetValueLength eeprom.bytes iter ≠
            value.val.length then
          some (.failure, [], eeprom)
        else
          let eeprom := eeprom.write
            (config.settingsIterGetValueAddr eeprom.bytes iter) value.val
          some (.ok, [], config.clearPhantom eeprom iter)

/-- `settings_add` -/
def settingsAdd (eeprom : Eeprom) (header : ItemHeader) (key : UInt16)
    (value : SettingsValue) :
    Option (SettingsStatus × List UInt8 × Eeprom) :=
  match config.lastItem eeprom.bytes 65536
      (config.settingsIterBegin eeprom.bytes) with
  | none => none
  | some iter =>
      config.addItem eeprom header key value
        (if iter ≠ 0 then config.settingsIterGetValueAddr eeprom.bytes iter
          else config.top)

/-- `settings_set` -/
def settingsSet (eeprom : Eeprom) (header : ItemHeader) (key : UInt16)
    (value : SettingsValue) :
    Option (SettingsStatus × List UInt8 × Eeprom) :=
  match config.findItem eeprom.bytes key 65536
      (config.settingsIterBegin eeprom.bytes) 0 with
  | none => none
  | some iter =>
      if iter = 0 ∨ ¬ config.settingsIterIsValid eeprom.bytes iter then
        config.settingsAdd eeprom header key value
      else if value.val.length ≠
          config.settingsIterGetValueLength eeprom.bytes iter then
        some (.unimplemented, [], eeprom)
      else
        some (.ok, [], eeprom.write
          (config.settingsIterGetValueAddr eeprom.bytes iter) value.val)

/-- `settings_iter_delete`; the status of the special case is overwritten. -/
def settingsIterDelete (eeprom : Eeprom) (iter : Nat) :
    SettingsStatus × List UInt8 × Eeprom :=
  if config.settingsIterNext eeprom.bytes iter = 0 then
    (.unimplemented, [],
      eeprom.write (iter - config.headerSize) config.erased)
  else (.unimplemented, [], eeprom)

/-- `settings_delete` -/
def settingsDelete (eeprom : Eeprom) (key : UInt16) (index : UInt8) :
    Option (SettingsStatus × List UInt8 × Eeprom) :=
  match config.findItem eeprom.bytes key 65536
      (config.settingsIterBegin eeprom.bytes) index.toNat with
  | none => none
  | some 0 => some (.notFound, [], eeprom)
  | some iter => some (config.settingsIterDelete eeprom iter)

/-- `settings_wipe` -/
def settingsWipe (eeprom : Eeprom) : Eeprom :=
  eeprom.write (config.top - 4) [0xFF, 0xFF, 0xFF, 0]

end SettingsConfig

/-- The calls of the settings manager; a header is a local variable that has
not been initialized. -/
inductive SettingsOperation where
  | settingsAdd (header : ItemHeader) (key : UInt16) (value : SettingsValue)
  | settingsSet (header : ItemHeader) (key : UInt16) (value : SettingsValue)
  | settingsDelete (key : UInt16) (index : UInt8)
  | settingsGet (key : UInt16) (index : UInt8) (valueSize : Nat)

namespace SettingsConfig

def step (config : SettingsConfig) (eeprom : Eeprom) :
    SettingsOperation → Option (SettingsStatus × List UInt8 × Eeprom)
  | .settingsAdd header key value =>
      config.settingsAdd eeprom header key value
  | .settingsSet header key value =>
      config.settingsSet eeprom header key value
  | .settingsDelete key index => config.settingsDelete eeprom key index
  | .settingsGet key index valueSize =>
      config.settingsGet eeprom key index valueSize

end SettingsConfig

end Contiki.Core
