import Contiki.Coap.Setters

/-!
# Parsing a CoAP message

`coap_parse_message` of `er-coap.c` over the memory that starts at the first
byte of the datagram.  Pointers of a parsed packet are offsets from that
byte.  The state records the offset of every byte the parser reads and every
index at which it accesses the option bitmap, also where these lie outside
the datagram or the bitmap.
-/

namespace Contiki.Coap

open Contiki.Lib

/-- A parsed packet points into the datagram. -/
abbrev ReceivedPacket := CoapPacket Nat

/-- The state of `coap_parse_message`. -/
structure ParseState where
  packet : ReceivedPacket
  /-- The memory from `data` on; the parser merges strings in place. -/
  memory : ByteMem
  coapErrorMessage : String
  /-- The offsets of the bytes read so far. -/
  reads : List Nat
  /-- The indices of `options` accessed so far. -/
  bitmapAccesses : List Nat

/-- `coap_parse_int_option`. -/
def coapParseIntOption (memory : ByteMem) (bytes length : Nat) : UInt32 :=
  (memory.read bytes length).foldl
    (fun var byte => var <<< 8 ||| byte.toUInt32) 0

/-- The result of `coap_merge_multi_option`: the memory, the new `*dst` and
`*dst_len`, and the offsets read. -/
structure Merged where
  memory : ByteMem
  dst : Nat
  dstLen : Nat
  reads : List Nat

/-- `coap_merge_multi_option`. -/
def coapMergeMultiOption (memory : ByteMem)
    (dst dstLen option optionLen : Nat) (separator : UInt8) : Merged :=
  if dstLen > 0 then
    -- dst already contains an option: concatenate
    let memory := memory.write (dst + dstLen) [separator]
    { memory :=
        memory.write (dst + (dstLen + 1)) (memory.read option optionLen)
      dst := dst
      dstLen := dstLen + 1 + optionLen
      reads := List.range' option optionLen }
  else
    -- dst is empty: set to option
    { memory := memory
      dst := option
      dstLen := optionLen
      reads := [] }

/-- The value of a delta or length nibble with its extension bytes, the
position behind them, and the offsets read. -/
structure Extended where
  value : Nat
  next : Nat
  reads : List Nat

/-- The body of the loop that extends first the delta and then the
length. -/
def extendNibble (config : CoapConfig) (memory : ByteMem)
    (x current : Nat) : Extended :=
  if x = 13 then
    { value := config.toUnsigned (x + (memory current).toNat)
      next := current + 1
      reads := [current] }
  else if x = 14 then
    { value := config.toUnsigned
        (x + 255 + (memory current).toNat <<< 8 +
          (memory (current + 1)).toNat)
      next := current + 2
      reads := [current, current + 1] }
  else
    { value := x, next := current, reads := [] }

namespace ParseState

/-- Read the value of an integer option and store it in the packet. -/
def intOption (state : ParseState) (current length : Nat)
    (store : UInt32 → ReceivedPacket → ReceivedPacket) : ParseState :=
  { state with
    packet :=
      store (coapParseIntOption state.memory current length) state.packet
    reads := state.reads ++ List.range' current length }

/-- Copy at most `COAP_ETAG_LEN` bytes of a byte-array option. -/
def byteOption (state : ParseState) (current length : Nat)
    (store : List UInt8 → ReceivedPacket → ReceivedPacket) : ParseState :=
  let kept := min coapEtagLen length
  { state with
    packet := store (state.memory.read current kept) state.packet
    reads := state.reads ++ List.range' current kept }

/-- Merge one segment of a multi-segment option into the string with the
given pointer and length. -/
def multiOption (state : ParseState) (current length : Nat)
    (separator : UInt8) (string : ReceivedPacket → Nat × Nat)
    (store : Nat → Nat → ReceivedPacket → ReceivedPacket) : ParseState :=
  let merged := coapMergeMultiOption state.memory
    (string state.packet).1 (string state.packet).2
    current length separator
  { state with
    packet := store merged.dst merged.dstLen state.packet
    memory := merged.memory
    reads := state.reads ++ merged.reads }

end ParseState

def proxyMessage : String := "This is a constrained server (Contiki)"

/-- The size, offset, flag and number that a block option value encodes. -/
structure BlockFields where
  num : UInt32
  more : UInt8
  size : UInt16
  offset : UInt32

/-- How `coap_parse_message` splits the value of a block option. -/
def parseBlock (value : UInt32) : BlockFields where
  more := ((value &&& 0x08) >>> 3).toUInt8
  size := 16 <<< (value &&& 0x07).toUInt16
  offset := (value &&& ~~~0x0000000F) <<< (value &&& 0x07)
  num := value >>> 4

/-- The fields that the value of an integer option is assigned to. -/
def storeInt (config : CoapConfig) :
    CoapOption → UInt32 → ReceivedPacket → ReceivedPacket
  | .contentFormat, value, packet =>
      { packet with contentFormat := config.toUnsigned value.toNat }
  | .maxAge, value, packet => { packet with maxAge := value }
  | .accept, value, packet =>
      { packet with accept := config.toUnsigned value.toNat }
  | .uriPort, value, packet => { packet with uriPort := value.toUInt16 }
  | .observe, value, packet => { packet with observe := value }
  | .block2, value, packet =>
      { packet with
        block2More := (parseBlock value).more
        block2Size := (parseBlock value).size
        block2Offset := (parseBlock value).offset
        block2Num := (parseBlock value).num }
  | .block1, value, packet =>
      { packet with
        block1More := (parseBlock value).more
        block1Size := (parseBlock value).size
        block1Offset := (parseBlock value).offset
        block1Num := (parseBlock value).num }
  | .size2, value, packet => { packet with size2 := value }
  | .size1, value, packet => { packet with size1 := value }
  | _, _, packet => packet

/-- The field that a byte-array option is copied to. -/
def storeBytes :
    CoapOption → List UInt8 → ReceivedPacket → ReceivedPacket
  | .etag, bytes, packet => { packet with etag := bytes }
  | .ifMatch, bytes, packet => { packet with ifMatch := bytes }
  | _, _, packet => packet

/-- The pointer and the length of a string option. -/
def stringOf : CoapOption → ReceivedPacket → Nat × Nat
  | .uriHost, packet => (packet.uriHost, packet.uriHostLen)
  | .uriPath, packet => (packet.uriPath, packet.uriPathLen)
  | .uriQuery, packet => (packet.uriQuery, packet.uriQueryLen)
  | .locationPath, packet => (packet.locationPath, packet.locationPathLen)
  | .locationQuery, packet =>
      (packet.locationQuery, packet.locationQueryLen)
  | _, _ => (0, 0)

/-- Set the pointer and the length of a string option. -/
def storeString :
    CoapOption → Nat → Nat → ReceivedPacket → ReceivedPacket
  | .uriHost, string, length, packet =>
      { packet with uriHost := string, uriHostLen := length }
  | .uriPath, string, length, packet =>
      { packet with uriPath := string, uriPathLen := length }
  | .uriQuery, string, length, packet =>
      { packet with uriQuery := string, uriQueryLen := length }
  | .locationPath, string, length, packet =>
      { packet with locationPath := string, locationPathLen := length }
  | .locationQuery, string, length, packet =>
      { packet with locationQuery := string, locationQueryLen := length }
  | _, _, _, packet => packet

/-- The `switch(option_number)` of `coap_parse_message` for an option value
of `length` bytes at `current`.  A status ends the parser. -/
def coapParseOption (config : CoapConfig) (state : ParseState)
    (optionNumber current length : Nat) :
    Option CoapStatus × ParseState :=
  match CoapOption.ofNumber? optionNumber with
  | some option =>
      match option with
      | .contentFormat | .maxAge | .accept | .uriPort | .observe
      | .block2 | .block1 | .size2 | .size1 =>
          (none, state.intOption current length (storeInt config option))
      | .etag | .ifMatch =>
          (none, state.byteOption current length (storeBytes option))
      | .ifNoneMatch =>
          (none,
            { state with packet := { state.packet with ifNoneMatch := 1 } })
      | .proxyUri | .proxyScheme =>
          (some .proxyingNotSupported,
            { state with coapErrorMessage := proxyMessage })
      | .uriHost =>
          (none,
            { state with
              packet := storeString option current length state.packet })
      | .uriPath | .locationPath =>
          (none, state.multiOption current length slash
            (stringOf option) (storeString option))
      | .uriQuery | .locationQuery =>
          (none, state.multiOption current length ampersand
            (stringOf option) (storeString option))
  | none =>
      -- check if critical (odd)
      if optionNumber &&& 1 ≠ 0 then
        (some .badOption,
          { state with coapErrorMessage := "Unsupported critical option" })
      else (none, state)

/-- The payload branch of the option loop, with `current` at the payload
marker. -/
def coapParsePayload (config : CoapConfig) (state : ParseState)
    (dataLen current : Nat) : ParseState :=
  let payload := current + 1
  let available := (dataLen - payload) % 65536
  let payloadLen :=
    if available > config.restMaxChunkSize then config.restMaxChunkSize
    else available
  { state with
    packet := { state.packet with
      payload := payload
      payloadLen := payloadLen }
    -- null-terminate payload
    memory := state.memory.write (payload + payloadLen) [0] }

/-- The first two nibbles of an option and their extension bytes. -/
structure OptionHeader where
  optionDelta : Nat
  optionLength : Nat
  /-- The position of the option value. -/
  value : Nat
  reads : List Nat

/-- Decode the option header at `current`, whose first byte has been
read. -/
def coapParseOptionHeader (config : CoapConfig) (memory : ByteMem)
    (current : Nat) : OptionHeader :=
  let first := (memory current).toNat
  let delta := extendNibble config memory (first >>> 4) (current + 1)
  let length := extendNibble config memory (first &&& 0x0F) delta.next
  { optionDelta := delta.value
    optionLength := length.value
    value := length.next
    reads := delta.reads ++ length.reads }

/-- The loop `while(current_option < data + data_len)`.  Every iteration
advances `current`, so that `dataLen` iterations are enough. -/
def coapParseOptions (config : CoapConfig) (dataLen : Nat) :
    Nat → ParseState → Nat → Nat → CoapStatus × ParseState
  | 0, state, _, _ => (.noError, state)
  | fuel + 1, state, current, optionNumber =>
      if current < dataLen then
        let state := { state with reads := state.reads ++ [current] }
        if state.memory current &&& 0xF0 = 0xF0 then
          (.noError, coapParsePayload config state dataLen current)
        else
          let header :=
            coapParseOptionHeader config state.memory current
          let optionNumber :=
            config.toUnsigned (optionNumber + header.optionDelta)
          let state :=
            { state with
              packet := setOption state.packet optionNumber
              reads := state.reads ++ header.reads
              bitmapAccesses :=
                state.bitmapAccesses ++ [optionNumber / optionMapSize] }
          match coapParseOption config state optionNumber header.value
              header.optionLength with
          | (some status, state) => (status, state)
          | (none, state) =>
              coapParseOptions config dataLen fuel state
                (header.value + header.optionLength) optionNumber
      else (.noError, state)

/-- The token length of a datagram, at most `COAP_TOKEN_LEN`. -/
def parsedTokenLen (data : ByteMem) : Nat :=
  min coapTokenLen (0x0F &&& data 0).toNat

/-- The header fields of the first four bytes of a datagram; the token is
not copied yet. -/
def coapParseHeader (data : ByteMem) : ReceivedPacket :=
  { CoapPacket.zero 0 with
    version := (0xC0 &&& data 0) >>> 6
    type := CoapMessageType.ofByte ((0x30 &&& data 0) >>> 4)
    token := List.replicate (parsedTokenLen data) 0
    code := data 1
    mid := (data 2).toUInt16 <<< 8 ||| (data 3).toUInt16 }

/-- `coap_parse_message` for a datagram of `dataLen` bytes at `data`. -/
def coapParseMessage (config : CoapConfig) (data : ByteMem)
    (dataLen : Nat) (coapErrorMessage : String) :
    CoapStatus × ParseState :=
  let state : ParseState :=
    { packet := coapParseHeader data
      memory := data
      coapErrorMessage := coapErrorMessage
      reads := [0, 1, 2, 3]
      bitmapAccesses := [] }
  if state.packet.version ≠ 1 then
    (.badRequest,
      { state with coapErrorMessage := "CoAP version must be 1" })
  else
    let tokenLen := parsedTokenLen data
    let state :=
      { state with
        packet := { state.packet with
          token := data.read coapHeaderLen tokenLen }
        reads := state.reads ++ List.range' coapHeaderLen tokenLen }
    coapParseOptions config dataLen dataLen state
      (coapHeaderLen + tokenLen) 0

/-! ## Steps of the parser -/

section Loop

variable (config : CoapConfig) (dataLen : Nat)

/-- The number of the option at `current`. -/
def nextNumber (memory : ByteMem) (current optionNumber : Nat) : Nat :=
  config.toUnsigned (optionNumber +
    (coapParseOptionHeader config memory current).optionDelta)

/-- The state in which the value of the option at `current` is parsed. -/
def optionState (state : ParseState) (current optionNumber : Nat) :
    ParseState :=
  { state with
    packet := setOption state.packet
      (nextNumber config state.memory current optionNumber)
    reads := state.reads ++ [current] ++
      (coapParseOptionHeader config state.memory current).reads
    bitmapAccesses := state.bitmapAccesses ++
      [nextNumber config state.memory current optionNumber /
        optionMapSize] }

/-- The `switch` for the option at `current`. -/
def optionResult (state : ParseState) (current optionNumber : Nat) :
    Option CoapStatus × ParseState :=
  coapParseOption config
    (optionState config state current optionNumber)
    (nextNumber config state.memory current optionNumber)
    (coapParseOptionHeader config state.memory current).value
    (coapParseOptionHeader config state.memory current).optionLength

/-- The position behind the option at `current`. -/
def optionEnd (memory : ByteMem) (current : Nat) : Nat :=
  (coapParseOptionHeader config memory current).value +
    (coapParseOptionHeader config memory current).optionLength

theorem coapParseOptions_option (fuel : Nat) (state : ParseState)
    {current optionNumber : Nat} (inside : current < dataLen)
    (notPayload : state.memory current &&& 0xF0 ≠ 0xF0) :
    coapParseOptions config dataLen (fuel + 1) state current
        optionNumber =
      match optionResult config state current optionNumber with
      | (some status, state) => (status, state)
      | (none, after) =>
          coapParseOptions config dataLen fuel after
            (optionEnd config state.memory current)
            (nextNumber config state.memory current optionNumber) := by
  rw [coapParseOptions, if_pos inside]
  simp only [if_neg notPayload]
  rfl

theorem coapParseOptions_payload (fuel : Nat) (state : ParseState)
    {current optionNumber : Nat} (inside : current < dataLen)
    (payload : state.memory current &&& 0xF0 = 0xF0) :
    coapParseOptions config dataLen (fuel + 1) state current
        optionNumber =
      (.noError, coapParsePayload config
        { state with reads := state.reads ++ [current] }
        dataLen current) := by
  rw [coapParseOptions, if_pos inside]
  simp only [if_pos payload]

theorem coapParseOptions_done (fuel : Nat) (state : ParseState)
    {current optionNumber : Nat} (done : dataLen ≤ current) :
    coapParseOptions config dataLen fuel state current optionNumber =
      (.noError, state) := by
  cases fuel with
  | zero =>
      rfl
  | succ fuel =>
      rw [coapParseOptions, if_neg (by omega)]

end Loop

/-- The state in which the option loop starts. -/
def tokenState (data : ByteMem) (coapErrorMessage : String) :
    ParseState where
  packet := { coapParseHeader data with
    token := data.read coapHeaderLen (parsedTokenLen data) }
  memory := data
  coapErrorMessage := coapErrorMessage
  reads := [0, 1, 2, 3] ++
    List.range' coapHeaderLen (parsedTokenLen data)
  bitmapAccesses := []

theorem coapParseMessage_version_one (config : CoapConfig)
    {data : ByteMem} (dataLen : Nat) (coapErrorMessage : String)
    (version : (0xC0 &&& data 0) >>> 6 = 1) :
    coapParseMessage config data dataLen coapErrorMessage =
      coapParseOptions config dataLen dataLen
        (tokenState data coapErrorMessage)
        (coapHeaderLen + parsedTokenLen data) 0 := by
  unfold coapParseMessage
  exact if_neg fun different => different version

end Contiki.Coap
