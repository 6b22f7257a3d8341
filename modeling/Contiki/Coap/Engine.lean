import Contiki.Coap.Parse
import Contiki.Coap.Transactions

/-!
# Receiving CoAP messages

`coap_receive` of `er-coap-engine.c`.  Its static variable `transaction`
keeps its value from one datagram to the next.
-/

namespace Contiki.Coap

open Contiki.Lib

variable {size observers : Nat}

/-- Members of `coap_status_t`. -/
def statusNoError : UInt8 := 0
def statusContent : UInt8 := 69
def statusBadRequest : UInt8 := 128
def statusBadOption : UInt8 := 130
def statusInternalServerError : UInt8 := 160
def statusNotImplemented : UInt8 := 161
def statusServiceUnavailable : UInt8 := 163
def statusProxyingNotSupported : UInt8 := 165
def statusMemoryAllocationError : UInt8 := 192
def statusPacketSerializationError : UInt8 := 193
def statusManualResponse : UInt8 := 194
def statusPingResponse : UInt8 := 195

/-- The code of a status of the parser. -/
def CoapStatus.code : CoapStatus → UInt8
  | .noError => statusNoError
  | .badRequest => statusBadRequest
  | .badOption => statusBadOption
  | .proxyingNotSupported => statusProxyingNotSupported

/-- `COAP_MAX_BLOCK_SIZE`: the next lower power of two. -/
def CoapConfig.coapMaxBlockSize (config : CoapConfig) : Nat :=
  if config.restMaxChunkSize < 32 then 16
  else if config.restMaxChunkSize < 64 then 32
  else if config.restMaxChunkSize < 128 then 64
  else if config.restMaxChunkSize < 256 then 128
  else if config.restMaxChunkSize < 512 then 256
  else if config.restMaxChunkSize < 1024 then 512
  else if config.restMaxChunkSize < 2048 then 1024
  else 2048

/-- A UDP datagram in the uIP buffer. -/
structure Datagram where
  source : Endpoint
  data : ByteMem
  dataLen : Nat

/-- The static variables of the engine. -/
structure Engine (size observers : Nat) where
  store : Store size observers
  transaction : Option (Fin size)
  currentMid : UInt16
  coapErrorMessage : String

/-- What the service callback does: its result, the status and the error
message it sets, the response, the next offset, and its operations on the
transactions. -/
structure Served (size : Nat) where
  accepted : Bool
  status : UInt8
  coapErrorMessage : String
  response : SentPacket
  newOffset : UInt32
  operations : List (Operation size)

/-- `service_cbk`, with the request, the response, the buffer size and the
offset. -/
abbrev ServiceCallback (size : Nat) :=
  ReceivedPacket → SentPacket → UInt16 → UInt32 → Served size

/-- `erbium_status_code`, `coap_error_message` and the response. -/
structure Prepared where
  status : UInt8
  coapErrorMessage : String
  response : SentPacket

/-- What the client asks for with a Block2 option, or the defaults. -/
structure BlockRequest where
  num : UInt32
  size : UInt16
  offset : UInt32
  newOffset : UInt32

/-- The block variables of `coap_receive`. -/
def blockRequest (config : CoapConfig) (message : ReceivedPacket) :
    BlockRequest :=
  if isOption message CoapOption.block2.number then
    { num := message.block2Num
      size := UInt16.ofNat
        (min message.block2Size.toNat config.restMaxChunkSize)
      offset := message.block2Offset
      newOffset := message.block2Offset }
  else
    { num := 0
      size := UInt16.ofNat config.restMaxChunkSize
      offset := 0
      newOffset := 0 }

/-- The response before the service callback, and `current_mid`. -/
def initResponse (message : ReceivedPacket) (currentMid : UInt16) :
    SentPacket × UInt16 :=
  let reliable : Bool := message.type = .con
  let response :=
    if reliable then coapInitMessage .ack statusContent message.mid
    else coapInitMessage .non statusContent (currentMid + 1)
  (if message.token.length ≠ 0 then
      (coapSetToken response message.token).1
    else response,
    if reliable then currentMid else currentMid + 1)

/-- The blockwise transfer handling behind a service callback without
error. -/
def handleBlockwise (config : CoapConfig) (message : ReceivedPacket)
    (block : BlockRequest) (served : Served size) : Prepared :=
  let response := served.response
  let prepared : SentPacket → Prepared := fun response =>
    { status := served.status
      coapErrorMessage := served.coapErrorMessage
      response := response }
  let payloadLen := response.payloadLen
  if isOption message CoapOption.block1.number ∧
      response.code < statusBadRequest ∧
      ¬ isOption response CoapOption.block1.number then
    { status := statusNotImplemented
      coapErrorMessage := "NoBlock1Support"
      response := response }
  else if isOption message CoapOption.block2.number then
    -- unchanged new_offset: the resource is unaware of blockwise
    if served.newOffset = block.offset then
      if payloadLen ≤ block.offset.toNat then
        prepared (coapSetPayload config
          { response with code := statusBadOption }
          (ByteMem.ofList "BlockOutOfScope".toUTF8.toList) 15).1
      else
        let rest := payloadLen - block.offset.toNat
        let response := (coapSetHeaderBlock2 response block.num
          (if rest > block.size.toNat then 1 else 0) block.size).1
        prepared (coapSetPayload config response
          (response.payload.shift block.offset.toNat)
          (min rest block.size.toNat)).1
    else
      let response := (coapSetHeaderBlock2 response block.num
        (if served.newOffset ≠ 0xFFFFFFFF ∨
          payloadLen > block.size.toNat then 1 else 0) block.size).1
      prepared
        (if payloadLen > block.size.toNat then
          (coapSetPayload config response response.payload
            block.size.toNat).1
        else response)
  else if served.newOffset ≠ 0 then
    let response := (coapSetHeaderBlock2 response 0
      (if served.newOffset ≠ 0xFFFFFFFF then 1 else 0)
      (UInt16.ofNat config.coapMaxBlockSize)).1
    prepared (coapSetPayload config response response.payload
      (min payloadLen config.coapMaxBlockSize)).1
  else prepared response

namespace Engine

def serializeResponse (config : CoapConfig) (slot : Fin size)
    (prepared : Prepared) (engine : Engine size observers) :
    Engine size observers × UInt8 :=
  let store := engine.store
  match coapSerializeMessage config prepared.response with
  | .ok bytes =>
      ({ engine with
          store := store.update slot
            { store.at_ slot with
              packetLen := bytes.length
              packet := ByteMem.ofList bytes }
          coapErrorMessage := prepared.coapErrorMessage },
        prepared.status)
  | .error message =>
      ({ engine with
          store := store.update slot { store.at_ slot with packetLen := 0 }
          coapErrorMessage := message },
        statusPacketSerializationError)

/-- The request branch behind the service callback. -/
def respond (config : CoapConfig) (message : ReceivedPacket)
    (slot : Fin size) (block : BlockRequest) (served : Served size)
    (engine : Engine size observers) : Engine size observers × UInt8 :=
  let prepared :=
    if served.accepted ∧ served.status = statusNoError then
      handleBlockwise config message block served
    else
      { status := served.status
        coapErrorMessage := served.coapErrorMessage
        response := served.response }
  if prepared.status = statusNoError then
    serializeResponse config slot prepared engine
  else
    ({ engine with coapErrorMessage := prepared.coapErrorMessage },
      prepared.status)

/-- What the service callback answers to a request. -/
def answer (config : CoapConfig) (callback : ServiceCallback size)
    (message : ReceivedPacket) (currentMid : UInt16) : Served size :=
  let block := blockRequest config message
  callback message (initResponse message currentMid).1 block.size
    block.newOffset

/-- The branch for requests; the status is `erbium_status_code`. -/
def handleRequest (config : CoapConfig) (datagram : Datagram)
    (service : Option (ServiceCallback size)) (message : ReceivedPacket)
    (engine : Engine size observers) : Engine size observers × UInt8 :=
  let created :=
    engine.store.coapNewTransaction message.mid datagram.source
  let engine := { engine with
    store := created.2, transaction := created.1 }
  match created.1 with
  | none =>
      ({ engine with coapErrorMessage := "NoFreeTraBuffer" },
        statusServiceUnavailable)
  | some slot =>
      let served := fun callback =>
        answer config callback message engine.currentMid
      let engine := { engine with
        currentMid := (initResponse message engine.currentMid).2 }
      match service with
      | none =>
          ({ engine with coapErrorMessage := "NoServiceCallbck" },
            statusNotImplemented)
      | some callback =>
          respond config message slot (blockRequest config message)
            (served callback)
            { engine with
              store := (served callback).operations.foldl Store.perform
                engine.store }

/-- The branch for responses, pings and resets. -/
def handleResponse (datagram : Datagram) (message : ReceivedPacket)
    (engine : Engine size observers) : Engine size observers × UInt8 :=
  let ping : Bool := message.type = .con ∧ message.code = 0
  let store :=
    if ¬ ping ∧ message.type = .rst then
      engine.store.coapRemoveObserverByMid datagram.source message.mid
    else engine.store
  let store :=
    match store.coapGetTransactionByMid message.mid with
    | some slot =>
        (store.coapClearTransaction (some slot)).invoke slot
          (store.at_ slot)
    | none => store
  ({ engine with store := store, transaction := none },
    if ping then statusPingResponse else statusNoError)

/-- The end of `coap_receive`: send the response, or clear the transaction
and send an error message. -/
def finish (config : CoapConfig) (datagram : Datagram)
    (message : ReceivedPacket) (interval : UInt32)
    (result : Engine size observers × UInt8) : Engine size observers :=
  let (engine, status) := result
  if status = statusNoError then
    match engine.transaction with
    | some slot =>
        { engine with
          store := engine.store.coapSendTransaction interval slot }
    | none => engine
  else if status = statusManualResponse then
    { engine with
      store := engine.store.coapClearTransaction engine.transaction }
  else
    let store := engine.store.coapClearTransaction engine.transaction
    let text := engine.coapErrorMessage.toUTF8.toList
    let reply := (coapSetPayload config
      (coapInitMessage
        (if status = statusPingResponse then .rst else .ack)
        (if status = statusPingResponse then 0
          else if statusMemoryAllocationError ≤ status then
            statusInternalServerError
          else status)
        message.mid)
      (ByteMem.ofList text) text.length).1
    match coapSerializeMessage config reply with
    | .ok bytes =>
        { engine with
          store := store.coapSendMessage datagram.source bytes }
    | .error text =>
        { engine with
          store := store.coapSendMessage datagram.source []
          coapErrorMessage := text }

def isRequest (message : ReceivedPacket) : Bool :=
  1 ≤ message.code ∧ message.code ≤ 4

/-- `coap_receive` for a datagram; `interval` is the initial interval of the
retransmission timer if the response is confirmable. -/
def coapReceive (config : CoapConfig) (datagram : Datagram)
    (service : Option (ServiceCallback size)) (interval : UInt32)
    (engine : Engine size observers) : Engine size observers :=
  let (status, parsed) := coapParseMessage config datagram.data
    datagram.dataLen engine.coapErrorMessage
  let message := parsed.packet
  let engine := { engine with coapErrorMessage := parsed.coapErrorMessage }
  finish config datagram message interval
    (if status = .noError then
      if isRequest message then
        handleRequest config datagram service message engine
      else handleResponse datagram message engine
    else (engine, status.code))

/-- The loop of `coap_check_transactions` from a transaction on, with the
interval and what the callback does for each iteration. -/
def checkFrom : List (UInt32 × List (Operation size)) →
    Option (Fin size) → Store size observers → Store size observers
  | (interval, callback) :: rest, some slot, store =>
      let (next, store) := store.checkTransaction slot interval callback
      checkFrom rest next store
  | _, _, store => store

/-- `coap_check_transactions`. -/
def coapCheckTransactions
    (iterations : List (UInt32 × List (Operation size)))
    (engine : Engine size observers) : Engine size observers :=
  { engine with
    store := checkFrom iterations engine.store.transactions.list.head?
      engine.store }

end Engine

/-- What can happen at a node: a datagram, a timer that expires, the check of
the timers, an operation of an application. -/
inductive Input (size : Nat) where
  | receive (datagram : Datagram)
      (service : Option (ServiceCallback size)) (interval : UInt32)
  | expire (slot : Fin size)
  | check (iterations : List (UInt32 × List (Operation size)))
  | operate (operation : Operation size)

/-- A transaction that has not been used yet. -/
def Transaction.zero : Transaction where
  mid := 0
  retransTimer := { interval := 0, running := false }
  retransCounter := 0
  addr := Vector.replicate 16 0
  port := 0
  callback := none
  callbackData := 0
  packetLen := 0
  packet := fun _ => 0

/-- The static variables at the start; `current_mid` is random. -/
def Engine.initial (currentMid : UInt16) : Engine size observers where
  store :=
    { transactions :=
        { slots := fun _ => .zero, used := fun _ => false, list := [] }
      observers :=
        { slots := fun _ =>
            { endpoint := Transaction.zero.endpoint, lastMid := 0 }
          used := fun _ => false
          list := [] }
      trace := []
      sent := [] }
  transaction := none
  currentMid := currentMid
  coapErrorMessage := ""

def Engine.step (config : CoapConfig) (engine : Engine size observers) :
    Input size → Engine size observers
  | .receive datagram service interval =>
      engine.coapReceive config datagram service interval
  | .expire slot =>
      let transaction := engine.store.at_ slot
      { engine with
        store := engine.store.update slot
          { transaction with
            retransTimer := { transaction.retransTimer with
              running := false } } }
  | .check iterations => engine.coapCheckTransactions iterations
  | .operate operation =>
      { engine with store := engine.store.perform operation }

end Contiki.Coap
