import Mathlib.Data.List.Basic

/-!
# Stubborn and reliable unicast

`core/net/rime/stunicast.c` sends a packet until it is told to stop, and
`core/net/rime/runicast.c` stops it when an acknowledgement arrives or when
the transmissions are used up.
-/

namespace Contiki.Rime

/-- `PACKETBUF_ATTR_PACKET_TYPE_DATA` -/
def packetTypeData : Nat := 0

/-- `PACKETBUF_ATTR_PACKET_TYPE_ACK` -/
def packetTypeAck : Nat := 1

/-- `RUNICAST_PACKET_ID_BITS` -/
def runicastPacketIdBits : Nat := 2

/-- The packet buffer: its payload and the attributes that runicast uses. -/
structure Packet (Payload : Type) where
  packetType : Nat
  packetId : Nat
  payload : Payload
  deriving DecidableEq

/-- `struct stunicast_conn`. -/
structure StunicastConn (Address Payload : Type) where
  /-- The retransmission timer `t` is set. -/
  timer : Bool
  buf : Option (Packet Payload)
  receiver : Address
  deriving DecidableEq

/-- `struct runicast_conn`. -/
structure RunicastConn (Address Payload : Type) where
  c : StunicastConn Address Payload
  sndnxt : Nat
  isTx : Bool
  rxmit : Nat
  maxRxmit : Nat
  deriving DecidableEq

/-- What a connection does or sees: packets given to the layer below, sends
that it accepts, acknowledgements, reports of sent data packets, and its
calls of the callbacks of the application. -/
inductive Entry (Address Payload : Type) where
  | transmitted (receiver : Address) (packet : Packet Payload)
  | accepted (receiver : Address) (packetId : Nat)
  | acknowledged (sender : Address) (packetId : Nat)
  | reported
  | sent (receiver : Address) (retransmissions : Nat)
  | timedout (receiver : Address) (retransmissions : Nat)
  | timedoutReturned
  | recv (sender : Address) (packetId : Nat)
  deriving DecidableEq

/-- What remains of a function of the connection when a call that it makes
returns. -/
inductive Call where
  /-- `send` of stunicast has called `unicast_send`. -/
  | resend
  /-- `sent_by_stunicast` has called `timedout`. -/
  | timedout
  deriving DecidableEq

variable {Address Payload : Type}

namespace StunicastConn

/-- `stunicast_cancel` -/
def stunicastCancel (conn : StunicastConn Address Payload) :
    StunicastConn Address Payload :=
  { conn with timer := false, buf := none }

/-- `stunicast_send_stubborn` up to its call of `unicast_send`; there is
memory for the queue buffer or not. -/
def stunicastSendStubborn (conn : StunicastConn Address Payload)
    (receiver : Address) (packet : Packet Payload) (memory : Bool) :
    StunicastConn Address Payload × Bool :=
  if memory then
    ({ timer := true, buf := some packet, receiver }, true)
  else ({ conn with buf := none }, false)

end StunicastConn

namespace RunicastConn

/-- `runicast_open`; the application gives the memory of the connection, with
no buffer and no timer in it. -/
def runicastOpen (receiver : Address) : RunicastConn Address Payload :=
  { c := { timer := false, buf := none, receiver }
    sndnxt := 0, isTx := false, rxmit := 0, maxRxmit := 0 }

/-- `runicast_send` -/
def runicastSend (conn : RunicastConn Address Payload) (receiver : Address)
    (maxRetransmissions : Nat) (payload : Payload) (memory : Bool) :
    RunicastConn Address Payload × List (Entry Address Payload) :=
  if conn.isTx then (conn, [])
  else
    let packet :=
      { packetType := packetTypeData, packetId := conn.sndnxt, payload }
    let conn :=
      { conn with maxRxmit := maxRetransmissions % 256, rxmit := 0,
                  isTx := true }
    let (c, ret) := conn.c.stunicastSendStubborn receiver packet memory
    if ret then
      ({ conn with c },
        [.accepted receiver packet.packetId, .transmitted receiver packet])
    else ({ conn with c, isTx := false }, [])

/-- `c->sndnxt = (c->sndnxt + 1) % (1 << RUNICAST_PACKET_ID_BITS)` -/
def nextPacketId (conn : RunicastConn Address Payload) : Nat :=
  (conn.sndnxt + 1) % (1 <<< runicastPacketIdBits : Nat)

/-- `sent_by_stunicast` up to its call of `timedout`: whether it makes that
call, too. -/
def sentByStunicast (conn : RunicastConn Address Payload)
    (packetType : Nat) :
    RunicastConn Address Payload × List (Entry Address Payload) × Bool :=
  if packetType = packetTypeData then
    let conn := { conn with rxmit := (conn.rxmit + 1) % 256 }
    if conn.maxRxmit ≤ conn.rxmit then
      ({ conn with isTx := false, c := conn.c.stunicastCancel },
        [.reported, .timedout conn.c.receiver conn.rxmit], true)
    else (conn, [.reported], false)
  else (conn, [], false)

/-- `sent_by_stunicast` after its call of `timedout`. -/
def afterTimedout (conn : RunicastConn Address Payload) :
    RunicastConn Address Payload :=
  { conn with rxmit := 0, sndnxt := conn.nextPacketId }

/-- `recv_from_stunicast`; there is memory for the queue buffer that keeps
the packet while its acknowledgement is sent, or not. -/
def recvFromStunicast (conn : RunicastConn Address Payload)
    (sender : Address) (packet : Packet Payload) (empty : Payload)
    (memory : Bool) :
    RunicastConn Address Payload × List (Entry Address Payload) :=
  if packet.packetType = packetTypeAck then
    let entry := Entry.acknowledged sender packet.packetId
    if packet.packetId = conn.sndnxt then
      ({ conn with sndnxt := conn.nextPacketId, isTx := false,
                   c := conn.c.stunicastCancel },
        [entry, .sent conn.c.receiver conn.rxmit])
    else (conn, [entry])
  else if packet.packetType = packetTypeData then
    let ack : Packet Payload :=
      { packetType := packetTypeAck, packetId := packet.packetId,
        payload := empty }
    (conn,
      (if memory then [.transmitted sender ack] else []) ++
        [.recv sender packet.packetId])
  else (conn, [])

/-- `send` of stunicast up to its call of `unicast_send`, when the timer has
expired: whether it makes that call, too. -/
def send (conn : RunicastConn Address Payload) :
    RunicastConn Address Payload × List (Entry Address Payload) × Bool :=
  let conn := { conn with c := { conn.c with timer := false } }
  match conn.c.buf with
  | some packet => (conn, [.transmitted conn.c.receiver packet], true)
  | none => (conn, [], false)

/-- `send` of stunicast after its call of `unicast_send`. -/
def afterResend (conn : RunicastConn Address Payload) :
    RunicastConn Address Payload :=
  { conn with c := { conn.c with timer := true } }

end RunicastConn

/-- What can happen to a connection. -/
inductive Event (Address Payload : Type) where
  /-- The application calls `runicast_send`. -/
  | send (receiver : Address) (maxRetransmissions : Nat) (payload : Payload)
      (memory : Bool)
  /-- A frame arrives, from anyone. -/
  | frame (sender : Address) (packet : Packet Payload) (memory : Bool)
  /-- The layer below reports the end of a transmission of a packet. -/
  | packetSent (packetType : Nat)
  | timerExpired
  /-- The call made last returns. -/
  | callReturns
  deriving DecidableEq

/-- A connection in a run, with the calls that have not returned and all that
has happened. The layers below may report a transmission before
`unicast_send` returns, and the application may send in its callbacks. -/
structure Endpoint (Address Payload : Type) where
  conn : RunicastConn Address Payload
  calls : List Call
  history : List (Entry Address Payload)

namespace Endpoint

/-- A connection after `runicast_open`. -/
def opened (receiver : Address) : Endpoint Address Payload :=
  { conn := .runicastOpen receiver, calls := [], history := [] }

/-- One event; `empty` is the payload after `packetbuf_clear`. -/
def step (empty : Payload) (endpoint : Endpoint Address Payload) :
    Event Address Payload → Option (Endpoint Address Payload)
  | .send receiver maxRetransmissions payload memory =>
      let sent :=
        endpoint.conn.runicastSend receiver maxRetransmissions payload memory
      some
        { endpoint with
          conn := sent.1, history := endpoint.history ++ sent.2 }
  | .frame sender packet memory =>
      let received :=
        endpoint.conn.recvFromStunicast sender packet empty memory
      some
        { endpoint with
          conn := received.1, history := endpoint.history ++ received.2 }
  | .packetSent packetType =>
      let sent := endpoint.conn.sentByStunicast packetType
      some
        { conn := sent.1
          calls := if sent.2.2 then .timedout :: endpoint.calls
            else endpoint.calls
          history := endpoint.history ++ sent.2.1 }
  | .timerExpired =>
      if endpoint.conn.c.timer then
        let sent := endpoint.conn.send
        some
          { conn := sent.1
            calls := if sent.2.2 then .resend :: endpoint.calls
              else endpoint.calls
            history := endpoint.history ++ sent.2.1 }
      else none
  | .callReturns =>
      match endpoint.calls with
      | .resend :: calls =>
          some { endpoint with conn := endpoint.conn.afterResend, calls }
      | .timedout :: calls =>
          some { conn := endpoint.conn.afterTimedout, calls
                 history := endpoint.history ++ [.timedoutReturned] }
      | [] => none

end Endpoint

end Contiki.Rime
