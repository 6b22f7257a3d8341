import Contiki.Lib.Memb

/-!
# CSMA

`core/net/mac/csma.c` keeps a queue of packets for each neighbour until the
radio duty cycling layer has reported what became of them.
-/

namespace Contiki.Mac

open Contiki.Lib

/-- The configuration.  A neighbour can have a packet. -/
structure CsmaConfig where
  /-- `CSMA_MAX_NEIGHBOR_QUEUES` -/
  maxNeighborQueues : Nat
  /-- `MAX_QUEUED_PACKETS` -/
  maxQueuedPackets : Nat
  /-- `CSMA_MAX_PACKET_PER_NEIGHBOR` -/
  maxPacketPerNeighbor : Nat
  /-- `CSMA_MAX_BACKOFF_EXPONENT` -/
  maxBackoffExponent : Nat
  /-- `CSMA_MAX_MAC_TRANSMISSIONS` -/
  maxMacTransmissions : Nat
  /-- `default_timebase` -/
  defaultTimebase : Nat
  onePacket : 0 < maxPacketPerNeighbor

/-- The MAC return values. -/
inductive MacTx where
  | ok
  | collision
  | noack
  | deferred
  | err
  | errFatal
  deriving DecidableEq

/-- The attributes of the packet buffer that CSMA uses. -/
structure MacAttrs where
  macSeqno : UInt16
  maxMacTransmissions : UInt16
  /-- `PACKETBUF_ATTR_PACKET_TYPE` is `PACKETBUF_ATTR_PACKET_TYPE_ACK`. -/
  isAck : Bool
  deriving DecidableEq

/-- `struct qbuf_metadata`; a callback is a function with its pointer. -/
structure QbufMetadata (Callback : Type) where
  sent : Callback
  maxTransmissions : UInt8

/-- `struct rdc_buf_list` -/
structure RdcBufList (maxQueuedPackets : Nat) where
  buf : MacAttrs
  ptr : Option (Fin maxQueuedPackets)

/-- `struct neighbor_queue` -/
structure NeighborQueue (maxQueuedPackets : Nat) (Addr : Type) where
  addr : Addr
  transmitTimer : Option Nat
  transmissions : UInt8
  collisions : UInt8
  deferrals : UInt8
  queuedPacketList : List (Fin maxQueuedPackets)

variable {Addr Callback : Type}

/-- The static variables of CSMA, and the callbacks so far. -/
structure Csma (config : CsmaConfig) (Addr Callback : Type) where
  neighborMemb : Memb config.maxNeighborQueues
  packetMemb : Memb config.maxQueuedPackets
  metadataMemb : Memb config.maxQueuedPackets
  neighbors : Fin config.maxNeighborQueues →
    NeighborQueue config.maxQueuedPackets Addr
  packets : Fin config.maxQueuedPackets →
    RdcBufList config.maxQueuedPackets
  metadata : Fin config.maxQueuedPackets → QbufMetadata Callback
  neighborList : List (Fin config.maxNeighborQueues)
  /-- The sequence number, when it is initialized. -/
  seqno : Option UInt16
  /-- The calls of callbacks, with the status and the transmissions. -/
  called : List (Callback × MacTx × Nat)

namespace Csma

variable {config : CsmaConfig}

def queue (csma : Csma config Addr Callback)
    (n : Fin config.maxNeighborQueues) : List (Fin config.maxQueuedPackets) :=
  (csma.neighbors n).queuedPacketList

def setNeighbor (csma : Csma config Addr Callback)
    (n : Fin config.maxNeighborQueues)
    (neighbor : NeighborQueue config.maxQueuedPackets Addr) :
    Csma config Addr Callback :=
  { csma with neighbors := Function.update csma.neighbors n neighbor }

/-- `neighbor_queue_from_addr` -/
def neighborQueueFromAddr [DecidableEq Addr]
    (csma : Csma config Addr Callback) (addr : Addr) :
    Option (Fin config.maxNeighborQueues) :=
  csma.neighborList.find? fun n => (csma.neighbors n).addr = addr

/-- `mac_call_sent_callback` -/
def macCallSentCallback (csma : Csma config Addr Callback)
    (sent : Callback) (status : MacTx) (numTx : Nat) :
    Csma config Addr Callback :=
  { csma with called := csma.called ++ [(sent, status, numTx)] }

/-- `free_packet` for a packet that is not `NULL`. -/
def freePacket (csma : Csma config Addr Callback)
    (n : Fin config.maxNeighborQueues) (p : Fin config.maxQueuedPackets) :
    Csma config Addr Callback :=
  let csma := csma.setNeighbor n { csma.neighbors n with
    queuedPacketList := (csma.queue n).erase p }
  let csma := { csma with
    metadataMemb := csma.metadataMemb.membFree (csma.packets p).ptr
    packetMemb := csma.packetMemb.membFree (some p) }
  if csma.queue n ≠ [] then
    csma.setNeighbor n { csma.neighbors n with
      transmissions := 0
      collisions := 0
      deferrals := 0
      transmitTimer := some config.defaultTimebase }
  else
    let csma := csma.setNeighbor n
      { csma.neighbors n with transmitTimer := none }
    { csma with
      neighborList := csma.neighborList.erase n
      neighborMemb := csma.neighborMemb.membFree (some n) }

/-- The packet in the queue that a report is about. -/
def findPacket (csma : Csma config Addr Callback)
    (n : Fin config.maxNeighborQueues) (seqno : UInt16) :
    Option (Fin config.maxQueuedPackets) :=
  (csma.queue n).find? fun q => (csma.packets q).buf.macSeqno = seqno

/-- The counters of a neighbour after a report. -/
def count (neighbor : NeighborQueue config.maxQueuedPackets Addr)
    (status : MacTx) (numTransmissions : Nat) :
    NeighborQueue config.maxQueuedPackets Addr :=
  match status with
  | .ok | .noack =>
      { neighbor with
        transmissions := neighbor.transmissions +
          UInt8.ofNat numTransmissions }
  | .collision =>
      { neighbor with
        collisions := neighbor.collisions + UInt8.ofNat numTransmissions }
  | .deferred =>
      { neighbor with
        deferrals := neighbor.deferrals + UInt8.ofNat numTransmissions }
  | .err | .errFatal => neighbor

/-- The time until a packet is transmitted again. -/
def backoff (config : CsmaConfig) (numTx randomRand : Nat) : Nat :=
  let time := config.defaultTimebase
  let backoffTransmissions := 1 <<< (min numTx config.maxBackoffExponent)
  time + randomRand % (backoffTransmissions * time)

/-- `packet_sent` for the attributes in the packet buffer. -/
def packetSent (csma : Csma config Addr Callback)
    (n : Option (Fin config.maxNeighborQueues)) (status : MacTx)
    (numTransmissions : Nat) (attrs : MacAttrs) (randomRand : Nat) :
    Csma config Addr Callback :=
  match n with
  | none => csma
  | some n =>
      let csma := csma.setNeighbor n
        (count (csma.neighbors n) status numTransmissions)
      match csma.findPacket n attrs.macSeqno with
      | none => csma
      | some q =>
          match (csma.packets q).ptr with
          | none => csma
          | some metadata =>
              let sent := (csma.metadata metadata).sent
              let transmissions := (csma.neighbors n).transmissions
              if (status = .collision ∨ status = .noack) ∧ transmissions <
                  (csma.metadata metadata).maxTransmissions then
                let csma := csma.setNeighbor n { csma.neighbors n with
                  transmitTimer := some
                    (backoff config transmissions.toNat randomRand) }
                { csma with
                  packets := Function.update csma.packets q
                    { csma.packets q with buf := attrs } }
              else
                (csma.freePacket n q).macCallSentCallback sent status
                  transmissions.toNat

section SendPacket

variable [DecidableEq Addr]

/-- The sequence number of the next packet, and the one after it. -/
def nextSeqno (csma : Csma config Addr Callback) (randomRand : UInt16) :
    UInt16 × UInt16 :=
  let seqno := csma.seqno.getD randomRand
  let seqno := if seqno = 0 then seqno + 1 else seqno
  (seqno, seqno + 1)

/-- The neighbour queue for an address; there may be none. -/
def findNeighbor (csma : Csma config Addr Callback) (addr : Addr) :
    Option (Fin config.maxNeighborQueues) × Csma config Addr Callback :=
  match csma.neighborQueueFromAddr addr with
  | some n => (some n, csma)
  | none =>
      match csma.neighborMemb.membAlloc with
      | (none, neighborMemb) => (none, { csma with neighborMemb })
      | (some n, neighborMemb) =>
          let csma := { csma with neighborMemb }
          let csma := csma.setNeighbor n { csma.neighbors n with
            addr := addr
            transmissions := 0
            collisions := 0
            deferrals := 0
            queuedPacketList := [] }
          (some n, { csma with
            neighborList := csma.neighborList.erase n ++ [n] })

/-- The allocations for a packet, which are undone when one fails.  Whether
`queuebuf_new_from_packetbuf` fails is given. -/
def allocPacket (csma : Csma config Addr Callback) (attrs : MacAttrs)
    (hasQueuebuf : Bool) :
    Option (Fin config.maxQueuedPackets × Fin config.maxQueuedPackets) ×
      Csma config Addr Callback :=
  match csma.packetMemb.membAlloc with
  | (none, packetMemb) => (none, { csma with packetMemb })
  | (some q, packetMemb) =>
      let (ptr, metadataMemb) := csma.metadataMemb.membAlloc
      let csma := { csma with
        packetMemb
        metadataMemb
        packets := Function.update csma.packets q
          { csma.packets q with ptr } }
      match ptr, hasQueuebuf with
      | none, _ =>
          (none, { csma with
            packetMemb := csma.packetMemb.membFree (some q) })
      | some metadata, false =>
          (none, { csma with
            metadataMemb := csma.metadataMemb.membFree (some metadata)
            packetMemb := csma.packetMemb.membFree (some q) })
      | some metadata, true =>
          (some (q, metadata), { csma with
            packets := Function.update csma.packets q
              { csma.packets q with buf := attrs } })

/-- A packet is put into the queue of a neighbour; acknowledgements come
first. -/
def insertPacket (csma : Csma config Addr Callback)
    (n : Fin config.maxNeighborQueues)
    (q metadata : Fin config.maxQueuedPackets) (sent : Callback)
    (attrs : MacAttrs) : Csma config Addr Callback :=
  let maxTransmissions : UInt8 :=
    if attrs.maxMacTransmissions = 0 then
      UInt8.ofNat config.maxMacTransmissions
    else attrs.maxMacTransmissions.toUInt8
  let queue := (csma.queue n).erase q
  let csma := { csma with
    metadata := Function.update csma.metadata metadata
      { sent, maxTransmissions } }
  csma.setNeighbor n { csma.neighbors n with
    queuedPacketList := if attrs.isAck then q :: queue else queue ++ [q] }

/-- A packet that is the first one of its queue is sent as soon as
possible. -/
def startTimer (csma : Csma config Addr Callback)
    (n : Fin config.maxNeighborQueues) (q : Fin config.maxQueuedPackets) :
    Csma config Addr Callback :=
  if (csma.queue n).head? = some q then
    csma.setNeighbor n { csma.neighbors n with transmitTimer := some 0 }
  else csma

/-- A neighbour entry is removed if it is empty. -/
def removeEmpty (csma : Csma config Addr Callback)
    (n : Fin config.maxNeighborQueues) : Csma config Addr Callback :=
  if csma.queue n = [] then
    { csma with
      neighborList := csma.neighborList.erase n
      neighborMemb := csma.neighborMemb.membFree (some n) }
  else csma

/-- `send_packet` for a packet to an address with these attributes.
`random_rand` is used for the first packet. -/
def sendPacket (csma : Csma config Addr Callback) (sent : Callback)
    (addr : Addr) (attrs : MacAttrs) (randomRand : UInt16)
    (hasQueuebuf : Bool) : Csma config Addr Callback :=
  let seqno := csma.nextSeqno randomRand
  let csma := { csma with seqno := some seqno.2 }
  let attrs := { attrs with macSeqno := seqno.1 }
  match csma.findNeighbor addr with
  | (none, csma) => csma.macCallSentCallback sent .err 1
  | (some n, csma) =>
      if (csma.queue n).length < config.maxPacketPerNeighbor then
        match csma.allocPacket attrs hasQueuebuf with
        | (some (q, metadata), csma) =>
            (csma.insertPacket n q metadata sent attrs).startTimer n q
        | (none, csma) =>
            (csma.removeEmpty n).macCallSentCallback sent .err 1
      else csma.macCallSentCallback sent .err 1

end SendPacket

end Csma

end Contiki.Mac
