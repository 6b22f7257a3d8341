import Contiki.Coap.Setters

/-!
# Serializing a CoAP message

`coap_serialize_message` of `er-coap.c` with the functions and macros that it
writes the options with.  A function that appends to the buffer returns the
bytes it appends.
-/

namespace Contiki.Coap

open Contiki.Lib

/-- `coap_log_2`, whose loop halves the value until it is zero. -/
def coapLog2 (value : UInt16) : UInt16 :=
  let result := halvings 16 value
  if result ≠ 0 then result - 1 else result
where
  /-- `do { value = value >> 1; result++; } while(value);` -/
  halvings : Nat → UInt16 → UInt16
    | 0, _ => 0
    | fuel + 1, value =>
        if value >>> 1 ≠ 0 then halvings fuel (value >>> 1) + 1 else 1

/-- `coap_option_nibble`. -/
def coapOptionNibble (value : Nat) : UInt8 :=
  if value < 13 then UInt8.ofNat value
  else if value ≤ 0xFF + 13 then 13
  else 14

/-- One pass of the loop over the delta and the length in
`coap_set_option_header`. -/
def headerExtension (x : Nat) : List UInt8 :=
  if x > 268 then [UInt8.ofNat ((x - 269) >>> 8), UInt8.ofNat (x - 269)]
  else if x > 12 then [UInt8.ofNat (x - 13)]
  else []

/-- `coap_set_option_header`. -/
def coapSetOptionHeader (delta length : Nat) : List UInt8 :=
  (coapOptionNibble delta <<< 4 ||| coapOptionNibble length) ::
    (headerExtension delta ++ headerExtension length)

/-- The length that `coap_serialize_int_option` announces. -/
def intOptionLength (value : UInt32) : Nat :=
  (if 0xFF000000 &&& value ≠ 0 then 1 else 0) +
    (if 0xFFFF0000 &&& value ≠ 0 then 1 else 0) +
    (if 0xFFFFFF00 &&& value ≠ 0 then 1 else 0) +
    (if 0xFFFFFFFF &&& value ≠ 0 then 1 else 0)

/-- The value bytes that `coap_serialize_int_option` writes. -/
def intOptionBytes (value : UInt32) : List UInt8 :=
  (if 0xFF000000 &&& value ≠ 0 then [(value >>> 24).toUInt8] else []) ++
    (if 0xFFFF0000 &&& value ≠ 0 then [(value >>> 16).toUInt8] else []) ++
    (if 0xFFFFFF00 &&& value ≠ 0 then [(value >>> 8).toUInt8] else []) ++
    (if 0xFFFFFFFF &&& value ≠ 0 then [value.toUInt8] else [])

/-- `coap_serialize_int_option`. -/
def coapSerializeIntOption (number currentNumber : Nat)
    (value : UInt32) : List UInt8 :=
  coapSetOptionHeader (number - currentNumber) (intOptionLength value) ++
    intOptionBytes value

/-- The loop `for(j = 0; j <= length + 1; ++j)` of
`coap_serialize_array_option`.  It compares the bytes up to the one behind
the terminating zero. -/
def serializeParts (number : Nat) (array : ByteMem) (length : Nat)
    (splitChar : UInt8) : Nat → Nat → Nat → Nat → List UInt8
  | 0, _, _, _ => []
  | fuel + 1, j, partStart, currentNumber =>
      if j ≤ length + 1 then
        if array j = splitChar ∨ j = length then
          let tempLength := j - partStart
          coapSetOptionHeader (number - currentNumber) tempLength ++
            array.read partStart tempLength ++
            -- skip the splitter
            serializeParts number array length splitChar fuel (j + 2)
              (j + 1) number
        else
          serializeParts number array length splitChar fuel (j + 1)
            partStart currentNumber
      else []

/-- `coap_serialize_array_option`; a zero `splitChar` asks for a single
option. -/
def coapSerializeArrayOption (number currentNumber : Nat)
    (array : ByteMem) (length : Nat) (splitChar : UInt8) : List UInt8 :=
  if splitChar ≠ 0 then
    serializeParts number array length splitChar (length + 2) 0 0
      currentNumber
  else
    coapSetOptionHeader (number - currentNumber) length ++
      array.read 0 length

/-- The value that `COAP_SERIALIZE_BLOCK_OPTION` encodes. -/
def blockValue (num : UInt32) (more : UInt8) (size : UInt16) : UInt32 :=
  let block := num <<< 4
  let block := if more ≠ 0 then block ||| 0x8 else block
  block ||| (0xF &&& coapLog2 (size / 16)).toUInt32

/-- The macro call of `coap_serialize_message` for one option, when the
option is set. -/
def serializeSetOption (packet : SentPacket) (option : CoapOption)
    (currentNumber : Nat) : List UInt8 :=
  let number := option.number
  let int := coapSerializeIntOption number currentNumber
  let bytes := fun array : List UInt8 =>
    coapSerializeArrayOption number currentNumber (ByteMem.ofList array)
      array.length 0
  let string := coapSerializeArrayOption number currentNumber
  match option with
  | .ifMatch => bytes packet.ifMatch
  | .uriHost => string packet.uriHost packet.uriHostLen 0
  | .etag => bytes packet.etag
  | .ifNoneMatch =>
      int (UInt32.ofNat (packet.contentFormat - packet.contentFormat))
  | .observe => int packet.observe
  | .uriPort => int packet.uriPort.toUInt32
  | .locationPath =>
      string packet.locationPath packet.locationPathLen slash
  | .uriPath => string packet.uriPath packet.uriPathLen slash
  | .contentFormat => int (UInt32.ofNat packet.contentFormat)
  | .maxAge => int packet.maxAge
  | .uriQuery => string packet.uriQuery packet.uriQueryLen ampersand
  | .accept => int (UInt32.ofNat packet.accept)
  | .locationQuery =>
      string packet.locationQuery packet.locationQueryLen ampersand
  | .block2 =>
      int (blockValue packet.block2Num packet.block2More packet.block2Size)
  | .block1 =>
      int (blockValue packet.block1Num packet.block1More packet.block1Size)
  | .size2 => int packet.size2
  | .proxyUri => string packet.proxyUri packet.proxyUriLen 0
  | .proxyScheme => string packet.proxyScheme packet.proxySchemeLen 0
  | .size1 => int packet.size1

/-- The macro calls for a list of options, in its order. -/
def serializeOptions (packet : SentPacket) :
    List CoapOption → Nat → List UInt8
  | [], _ => []
  | option :: options, currentNumber =>
      if isOption packet option.number then
        serializeSetOption packet option currentNumber ++
          serializeOptions packet options option.number
      else serializeOptions packet options currentNumber

/-- `buffer[0]`: the version, the type and the token length. -/
def serializedFirstByte (type : CoapMessageType) (tokenLen : Nat) :
    UInt8 :=
  (0x00 : UInt8) ||| ((0xC0 : UInt8) &&& (1 : UInt8) <<< 6) |||
    ((0x30 : UInt8) &&& type.toByte <<< 4) |||
    ((0x0F : UInt8) &&& UInt8.ofNat tokenLen)

def coapSerializeHeader (packet : SentPacket) : List UInt8 :=
  [serializedFirstByte packet.type packet.token.length, packet.code,
    (packet.mid >>> 8).toUInt8, packet.mid.toUInt8]

/-- `coap_serialize_message`: the bytes written, or `coap_error_message`. -/
def coapSerializeMessage (config : CoapConfig) (packet : SentPacket) :
    Except String (List UInt8) :=
  -- empty packet, dont need to do more stuff
  if packet.code = 0 then .ok (coapSerializeHeader packet)
  else
    let header := coapSerializeHeader packet ++ packet.token ++
      serializeOptions packet CoapOption.all 0
    if header.length ≤ config.coapMaxHeaderSize then
      .ok (header ++
        (if packet.payloadLen ≠ 0 then [0xFF] else []) ++
        packet.payload.read 0 packet.payloadLen)
    else .error "Serialized header exceeds COAP_MAX_HEADER_SIZE"

end Contiki.Coap
