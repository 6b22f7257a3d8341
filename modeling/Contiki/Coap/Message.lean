import Mathlib.Data.Nat.Bitwise
import Contiki.Lib.ByteMem

/-!
# CoAP messages

The packet structure of `er-coap.h`, the option numbers and error codes of
`er-coap-constants.h`, and the setters of `er-coap.c` that fill a packet
before it is serialized.

A packet is generic in the type of its string pointers: a packet under
construction points to strings of the application, a parsed packet points
into the received datagram.
-/

namespace Contiki.Coap

open Contiki.Lib

/-- The configuration of the CoAP engine: the width of `unsigned int` and
`size_t` and the two size limits of `er-coap-conf.h` and `rest-engine.h`. -/
structure CoapConfig where
  uintBits : Nat
  coapMaxHeaderSize : Nat
  restMaxChunkSize : Nat
  uintBits_ge : 16 ≤ uintBits
  uintBits_le : uintBits ≤ 32
  /-- A packet fits into the uIP buffer, whose length is a `uint16_t`. -/
  coapMaxPacketSize_lt : coapMaxHeaderSize + restMaxChunkSize < 65536

theorem sixteen_le_bits : 16 ≤ 32 := by decide

theorem bits_le_thirtyTwo : 32 ≤ 32 := by decide

/-- The defaults of `er-coap-conf.h` and `rest-engine.h` on a 32-bit
platform. -/
def CoapConfig.erConf : CoapConfig where
  uintBits := 32
  coapMaxHeaderSize := 62
  restMaxChunkSize := 64
  uintBits_ge := sixteen_le_bits
  uintBits_le := bits_le_thirtyTwo
  coapMaxPacketSize_lt := by decide

/-- `COAP_MAX_PACKET_SIZE`. -/
def CoapConfig.coapMaxPacketSize (config : CoapConfig) : Nat :=
  config.coapMaxHeaderSize + config.restMaxChunkSize

/-- The value of an `unsigned int` expression. -/
def CoapConfig.toUnsigned (config : CoapConfig) (value : Nat) : Nat :=
  value % 2 ^ config.uintBits

def coapHeaderLen : Nat := 4
def coapTokenLen : Nat := 8
def coapEtagLen : Nat := 8

/-- `OPTION_MAP_SIZE`: the number of options one bitmap byte covers. -/
def optionMapSize : Nat := 8

/-- `coap_message_type_t`. -/
inductive CoapMessageType where
  | con
  | non
  | ack
  | rst
  deriving DecidableEq, Repr

namespace CoapMessageType

def toByte : CoapMessageType → UInt8
  | .con => 0
  | .non => 1
  | .ack => 2
  | .rst => 3

/-- The message type of a two-bit field. -/
def ofByte (bits : UInt8) : CoapMessageType :=
  if bits = 0 then .con
  else if bits = 1 then .non
  else if bits = 2 then .ack
  else .rst

end CoapMessageType

/-- The members of `coap_status_t` that the parser returns. -/
inductive CoapStatus where
  | noError
  | badRequest
  | badOption
  | proxyingNotSupported
  deriving DecidableEq, Repr

/-- `coap_option_t`. -/
inductive CoapOption where
  | ifMatch
  | uriHost
  | etag
  | ifNoneMatch
  | observe
  | uriPort
  | locationPath
  | uriPath
  | contentFormat
  | maxAge
  | uriQuery
  | accept
  | locationQuery
  | block2
  | block1
  | size2
  | proxyUri
  | proxyScheme
  | size1
  deriving DecidableEq, Repr

variable (option : CoapOption)

namespace CoapOption

def number : CoapOption → Nat
  | ifMatch => 1
  | uriHost => 3
  | etag => 4
  | ifNoneMatch => 5
  | observe => 6
  | uriPort => 7
  | locationPath => 8
  | uriPath => 11
  | contentFormat => 12
  | maxAge => 14
  | uriQuery => 15
  | accept => 17
  | locationQuery => 20
  | block2 => 23
  | block1 => 27
  | size2 => 28
  | proxyUri => 35
  | proxyScheme => 39
  | size1 => 60

/-- Every option, in the order of the numbers. -/
def all : List CoapOption :=
  [ifMatch, uriHost, etag, ifNoneMatch, observe, uriPort, locationPath,
    uriPath, contentFormat, maxAge, uriQuery, accept, locationQuery,
    block2, block1, size2, proxyUri, proxyScheme, size1]

/-- The option with a number, if the number is known. -/
def ofNumber? (number : Nat) : Option CoapOption :=
  all.find? fun option => option.number == number

theorem mem_all : option ∈ all := by
  cases option <;> decide

@[simp]
theorem ofNumber?_number : ofNumber? option.number = some option := by
  cases option <;> rfl

theorem number_injective {first second : CoapOption}
    (same : first.number = second.number) : first = second := by
  have found := ofNumber?_number first
  rw [same, ofNumber?_number] at found
  exact (Option.some.inj found).symm

theorem number_le : option.number ≤ size1.number := by
  cases option <;> decide

end CoapOption

/-- The length of `options`, `COAP_OPTION_SIZE1 / OPTION_MAP_SIZE + 1`. -/
def optionsLength : Nat := CoapOption.size1.number / optionMapSize + 1

/-- `coap_packet_t`.  The byte arrays with a separate length field (`token`,
`etag`, `if_match`) are lists of that length. -/
structure CoapPacket (Pointer : Type) where
  version : UInt8
  type : CoapMessageType
  code : UInt8
  mid : UInt16
  token : List UInt8
  options : List UInt8
  contentFormat : Nat
  maxAge : UInt32
  etag : List UInt8
  proxyUriLen : Nat
  proxyUri : Pointer
  proxySchemeLen : Nat
  proxyScheme : Pointer
  uriHostLen : Nat
  uriHost : Pointer
  locationPathLen : Nat
  locationPath : Pointer
  uriPort : UInt16
  locationQueryLen : Nat
  locationQuery : Pointer
  uriPathLen : Nat
  uriPath : Pointer
  observe : UInt32
  accept : Nat
  ifMatch : List UInt8
  block2Num : UInt32
  block2More : UInt8
  block2Size : UInt16
  block2Offset : UInt32
  block1Num : UInt32
  block1More : UInt8
  block1Size : UInt16
  block1Offset : UInt32
  size2 : UInt32
  size1 : UInt32
  uriQueryLen : Nat
  uriQuery : Pointer
  ifNoneMatch : UInt8
  payloadLen : Nat
  payload : Pointer

variable {Pointer : Type}

/-- `memset(coap_pkt, 0, sizeof(coap_packet_t))`, with `null` for the null
pointer. -/
def CoapPacket.zero (null : Pointer) : CoapPacket Pointer where
  version := 0
  type := .con
  code := 0
  mid := 0
  token := []
  options := List.replicate optionsLength 0
  contentFormat := 0
  maxAge := 0
  etag := []
  proxyUriLen := 0
  proxyUri := null
  proxySchemeLen := 0
  proxyScheme := null
  uriHostLen := 0
  uriHost := null
  locationPathLen := 0
  locationPath := null
  uriPort := 0
  locationQueryLen := 0
  locationQuery := null
  uriPathLen := 0
  uriPath := null
  observe := 0
  accept := 0
  ifMatch := []
  block2Num := 0
  block2More := 0
  block2Size := 0
  block2Offset := 0
  block1Num := 0
  block1More := 0
  block1Size := 0
  block1Offset := 0
  size2 := 0
  size1 := 0
  uriQueryLen := 0
  uriQuery := null
  ifNoneMatch := 0
  payloadLen := 0
  payload := null

/-- `SET_OPTION`. -/
def setOption (packet : CoapPacket Pointer) (option : Nat) :
    CoapPacket Pointer :=
  { packet with
    options := packet.options.modify (option / optionMapSize)
      (· ||| 1 <<< UInt8.ofNat (option % optionMapSize)) }

/-- `IS_OPTION`. -/
def isOption (packet : CoapPacket Pointer) (option : Nat) : Bool :=
  packet.options.getD (option / optionMapSize) 0 &&&
    1 <<< UInt8.ofNat (option % optionMapSize) != 0

/-! ## The option bitmap -/

private theorem toNat_mapBit {index : Nat} (bound : index < 8) :
    (1 <<< UInt8.ofNat index : UInt8).toNat = 2 ^ index := by
  have all : ∀ index < 8,
      (1 <<< UInt8.ofNat index : UInt8).toNat = 2 ^ index := by
    decide
  exact all index bound

private theorem mapBit_eq_testBit
    (byte : UInt8) {index : Nat} (bound : index < 8) :
    (byte &&& 1 <<< UInt8.ofNat index != 0) =
      byte.toNat.testBit index := by
  have masked :
      (byte &&& 1 <<< UInt8.ofNat index).toNat =
        (byte.toNat.testBit index).toNat * 2 ^ index := by
    rw [UInt8.toNat_and, toNat_mapBit bound, Nat.and_two_pow]
  have zeroIff :
      byte &&& 1 <<< UInt8.ofNat index = 0 ↔
        (byte.toNat.testBit index).toNat * 2 ^ index = 0 := by
    rw [← masked, ← UInt8.toNat_inj]
    rfl
  cases tested : byte.toNat.testBit index with
  | false =>
      simp [tested] at zeroIff
      simp [zeroIff]
  | true =>
      simp [tested] at zeroIff
      simp [zeroIff]

private theorem testBit_or_mapBit
    (byte : UInt8) {set : Nat} (tested : Nat) (bound : set < 8) :
    (byte ||| 1 <<< UInt8.ofNat set).toNat.testBit tested =
      (byte.toNat.testBit tested || decide (set = tested)) := by
  rw [UInt8.toNat_or, toNat_mapBit bound, Nat.testBit_or,
    Nat.testBit_two_pow]

variable (packet : CoapPacket Pointer)

@[simp]
theorem length_options_setOption (option : Nat) :
    (setOption packet option).options.length = packet.options.length := by
  simp [setOption]

private theorem bit_lt (option : Nat) : option % optionMapSize < 8 :=
  Nat.mod_lt _ (by decide)

theorem isOption_setOption_self (option : Nat)
    (inside : option / optionMapSize < packet.options.length) :
    isOption (setOption packet option) option = true := by
  rw [isOption, mapBit_eq_testBit _ (bit_lt option)]
  simp only [setOption, List.getD_eq_getElem?_getD,
    List.getElem?_modify_eq, List.getElem?_eq_getElem inside,
    Option.map_some, Option.getD_some, Option.map_eq_map]
  rw [testBit_or_mapBit _ _ (bit_lt option)]
  simp

theorem isOption_setOption_of_ne {set tested : Nat}
    (different : set ≠ tested) :
    isOption (setOption packet set) tested = isOption packet tested := by
  rw [isOption, isOption, mapBit_eq_testBit _ (bit_lt tested),
    mapBit_eq_testBit _ (bit_lt tested)]
  simp only [setOption, List.getD_eq_getElem?_getD,
    List.getElem?_modify]
  by_cases sameByte : set / optionMapSize = tested / optionMapSize
  · have otherBit : set % optionMapSize ≠ tested % optionMapSize := by
      intro sameBit
      apply different
      rw [← Nat.div_add_mod set optionMapSize,
        ← Nat.div_add_mod tested optionMapSize, sameByte, sameBit]
    cases packet.options[tested / optionMapSize]? with
    | none =>
        rfl
    | some byte =>
        have unchanged :=
          testBit_or_mapBit byte (tested % optionMapSize)
            (bit_lt set)
        simp only [otherBit, decide_false, Bool.or_false] at unchanged
        simp only [sameByte, if_true, Option.map_eq_map,
          Option.map_some, Option.getD_some, unchanged]
  · simp [sameByte]

@[simp]
theorem isOption_zero (null : Pointer) (option : Nat) :
    isOption (CoapPacket.zero null) option = false := by
  have allZero : ∀ index,
      (List.replicate optionsLength (0 : UInt8)).getD index 0 = 0 := by
    intro index
    simp only [List.getD_eq_getElem?_getD, List.getElem?_replicate]
    split <;> rfl
  simp only [isOption, CoapPacket.zero, allZero]
  simp

end Contiki.Coap
