import Contiki.Rime.CollectNeighbor
import Contiki.Rime.Runicast

/-!
# Collect

`core/net/rime/collect.c` sends packets along a tree towards a sink.  The
packets wait in a queue, and the first one is sent until its parent has
acknowledged it.
-/

namespace Contiki.Rime

/-- The configuration of a node with a collect connection. -/
structure CollectConfig (Addr : Type) where
  linkaddrNull : Addr
  linkaddrNodeAddr : Addr
  /-- `MAX_COLLECT_NEIGHBORS` -/
  maxCollectNeighbors : Nat
  /-- `QUEUEBUF_NUM` -/
  queuebufNum : Nat
  /-- `MAX_MAC_REXMITS` -/
  maxMacRexmits : Nat
  /-- `MAX_ACK_MAC_REXMITS` -/
  maxAckMacRexmits : Nat
  /-- `MAX_HOPLIM` -/
  maxHoplim : Nat
  /-- `COLLECT_PACKET_ID_BITS` -/
  collectPacketIdBits : Nat

/-- `MAX_SENDING_QUEUE` -/
def CollectConfig.maxSendingQueue {Addr : Type}
    (config : CollectConfig Addr) : Nat :=
  3 * config.queuebufNum / 4

/-- `MIN_AVAILABLE_QUEUE_ENTRIES` -/
def minAvailableQueueEntries : Nat := 4

/-- `SIGNIFICANT_RTMETRIC_PARENT_CHANGE` -/
def significantRtmetricParentChange : Nat :=
  collectLinkEstimateUnit + collectLinkEstimateUnit / 2

/-- `MAX_REXMITS` -/
def maxRexmits : Nat := 31

/-- `KEEPALIVE_REXMITS` -/
def keepaliveRexmits : Nat := 8

/-- `PROACTIVE_PROBING_REXMITS` -/
def proactiveProbingRexmits : Nat := 15

/-- `NUM_RECENT_PACKETS` -/
def numRecentPackets : Nat := 16

/-- `sizeof(struct data_msg_hdr)` and `sizeof(struct ack_msg)` -/
def sizeofMsg : Nat := 4

/-- `ACK_FLAGS_CONGESTED` -/
def ackFlagsCongested : Nat := 0x80

/-- `ACK_FLAGS_DROPPED` -/
def ackFlagsDropped : Nat := 0x40

/-- `ACK_FLAGS_LIFETIME_EXCEEDED` -/
def ackFlagsLifetimeExceeded : Nat := 0x20

/-- `ACK_FLAGS_RTMETRIC_NEEDS_UPDATE` -/
def ackFlagsRtmetricNeedsUpdate : Nat := 0x10

/-- The packet buffer: attributes, addresses, and the fields of `struct
data_msg_hdr` or `struct ack_msg` at the front of its data. -/
structure CollectPacket (Addr : Type) where
  packetType : Nat
  packetId : Nat
  epacketId : Nat
  hops : Nat
  ttl : Nat
  maxRexmit : Nat
  maxMacTransmissions : Nat
  reliable : Bool
  sender : Addr
  esender : Addr
  receiver : Addr
  datalen : Nat
  flags : Nat
  rtmetric : Nat
  deriving DecidableEq

/-- `packetbuf_clear` -/
def CollectPacket.clear {Addr : Type} (config : CollectConfig Addr) :
    CollectPacket Addr where
  packetType := packetTypeData
  packetId := 0
  epacketId := 0
  hops := 0
  ttl := 0
  maxRexmit := 0
  maxMacTransmissions := 0
  reliable := false
  sender := config.linkaddrNull
  esender := config.linkaddrNull
  receiver := config.linkaddrNull
  datalen := 0
  flags := 0
  rtmetric := 0

/-- `struct packetqueue_item`; the packets of a queue are numbered. -/
structure QueueItem (Addr : Type) where
  number : Nat
  buf : CollectPacket Addr
  /-- `lifetimer` is set. -/
  lifetimer : Bool
  deriving DecidableEq

/-- A packet that has been given to the link layer, with the number of the
queued packet. -/
structure Transmission (Addr : Type) where
  number : Nat
  packet : CollectPacket Addr
  deriving DecidableEq

/-- The callbacks of `retransmission_timer`. -/
inductive RetransmissionCallback where
  | retransmit
  | retransmitNotSent
  deriving DecidableEq

/-- A collect connection of a node, with the packet buffer and the recent
packets of the node.  `counted` are the packets whose transmissions are counted
in `transmissions`, `sent` are all transmissions and `air` those that the link
layer has not reported. -/
structure Collect (Addr : Type) where
  retransmissionTimer : Option RetransmissionCallback
  sendQueue : List (QueueItem Addr)
  neighborList : CollectNeighborList Addr
  parent : Addr
  currentParent : Addr
  rtmetric : Nat
  seqno : Nat
  sending : Bool
  transmissions : Nat
  maxRexmits : Nat
  eseqno : Nat
  recentPackets : List (Option (Addr × Nat))
  recentPacketPtr : Nat
  packetbuf : CollectPacket Addr
  nextNumber : Nat
  counted : List Nat
  sent : List (Transmission Addr)
  air : List (Transmission Addr)
  deriving DecidableEq

namespace Collect

variable {Addr : Type} [DecidableEq Addr] (config : CollectConfig Addr)

/-! ## The routing metric -/

/-- `rtmetric_compute` -/
def rtmetricCompute (tc : Collect Addr) : Nat :=
  match tc.neighborList.find tc.parent with
  | none => rtmetricMax
  | some n => n.rtmetricLinkEstimate

/-- `update_parent` -/
def updateParent (tc : Collect Addr) : Collect Addr :=
  match tc.neighborList.best with
  | some best =>
      match tc.neighborList.find tc.parent with
      | none => { tc with parent := best.addr }
      | some current =>
          if best.rtmetricLinkEstimate + significantRtmetricParentChange <
              current.rtmetricLinkEstimate then
            { tc with parent := best.addr }
          else tc
  | none => { tc with parent := config.linkaddrNull }

/-! ## Sending -/

omit [DecidableEq Addr] in
/-- `send_packet`: the packet is given to the link layer. -/
def sendPacket (c : Collect Addr) (item : QueueItem Addr)
    (n : CollectNeighbor Addr) : Collect Addr :=
  let packet := { c.packetbuf with
    sender := config.linkaddrNodeAddr
    receiver := n.addr }
  let transmission : Transmission Addr := { number := item.number, packet }
  { c with
    retransmissionTimer := some .retransmitNotSent
    packetbuf := packet
    sent := c.sent ++ [transmission]
    air := c.air ++ [transmission] }

/-- `send_queued_packet` -/
def sendQueuedPacket (c : Collect Addr) : Collect Addr :=
  if c.sending then c
  else
    match c.sendQueue with
    | [] => c
    | item :: _ =>
        let c := { c with packetbuf := item.buf }
        match c.neighborList.find c.parent with
        | none => c
        | some n =>
            let c := { c with
              sending := true
              currentParent := c.parent
              transmissions := 0
              counted := []
              maxRexmits := c.packetbuf.maxRexmit % 256 }
            sendPacket config { c with
              packetbuf := { c.packetbuf with
                reliable := true
                maxMacTransmissions := min c.maxRexmits config.maxMacRexmits
                packetId := c.seqno
                flags := 0
                rtmetric := c.rtmetric } } item n

/-- `update_rtmetric` -/
def updateRtmetric (tc : Collect Addr) : Collect Addr :=
  if tc.rtmetric ≠ rtmetricSink then
    let oldRtmetric := tc.rtmetric
    let tc := tc.updateParent config
    let newRtmetric := tc.rtmetricCompute
    let newRtmetric :=
      if newRtmetric = rtmetricSink then rtmetricMax else newRtmetric
    let tc := { tc with rtmetric := newRtmetric }
    if oldRtmetric = rtmetricMax ∧ newRtmetric ≠ rtmetricMax then
      tc.sendQueuedPacket config
    else tc
  else tc

/-- `retransmit_current_packet` -/
def retransmitCurrentPacket (c : Collect Addr) : Collect Addr :=
  match c.sendQueue with
  | [] => c
  | item :: _ =>
      let c := c.updateRtmetric config
      let c := { c with packetbuf := item.buf }
      let c :=
        if c.currentParent ≠ c.parent then
          { c with
            currentParent := c.parent
            transmissions := 0
            counted := [] }
        else c
      match c.neighborList.find c.currentParent with
      | none => c
      | some n =>
          sendPacket config { c with
            sending := true
            packetbuf := { c.packetbuf with
              reliable := true
              maxMacTransmissions :=
                min (c.maxRexmits - c.transmissions) config.maxMacRexmits
              packetId := c.seqno
              flags := 0
              rtmetric := c.rtmetric } } item n

/-- `send_next_packet` -/
def sendNextPacket (tc : Collect Addr) : Collect Addr :=
  sendQueuedPacket config { tc with
    sendQueue := tc.sendQueue.tail
    seqno := (tc.seqno + 1) % (1 <<< config.collectPacketIdBits : Nat)
    retransmissionTimer := none
    sending := false
    transmissions := 0
    counted := [] }

/-- `packetqueue_enqueue_packetbuf` for a lifetime that is a multiple of
`rexmits`, and whether it succeeds.  `hasQueuebuf` tells whether
`queuebuf_new_from_packetbuf` does. -/
def packetqueueEnqueuePacketbuf (c : Collect Addr) (rexmits : Nat)
    (hasQueuebuf : Bool) : Collect Addr × Bool :=
  if c.sendQueue.length < config.maxSendingQueue ∧ hasQueuebuf then
    ({ c with
        sendQueue := c.sendQueue ++
          [{ number := c.nextNumber
             buf := c.packetbuf
             lifetimer := rexmits ≠ 0 }]
        nextNumber := c.nextNumber + 1 }, true)
  else (c, false)

/-- `enqueue_dummy_packet` -/
def enqueueDummyPacket (c : Collect Addr) (rexmits : Nat)
    (hasQueuebuf : Bool) : Collect Addr × Bool :=
  let c := { c with
    packetbuf := { CollectPacket.clear config with
      epacketId := (c.eseqno + 65535) % 65536
      esender := config.linkaddrNodeAddr
      hops := 1
      ttl := 1
      maxRexmit := rexmits
      datalen := sizeofMsg } }
  match c.neighborList.find c.parent with
  | some _ => c.packetqueueEnqueuePacketbuf config rexmits hasQueuebuf
  | none => (c, false)

/-! ## Acknowledgements -/

/-- The neighbour of an address is changed. -/
def modifyNeighbor (tc : Collect Addr) (addr : Addr)
    (change : CollectNeighbor Addr → CollectNeighbor Addr) : Collect Addr :=
  { tc with neighborList := tc.neighborList.modify addr change }

/-- The packet in the packet buffer acknowledges the current packet. -/
def isCurrentAck (tc : Collect Addr) : Prop :=
  tc.packetbuf.sender = tc.currentParent ∧
    tc.packetbuf.packetId = tc.seqno

instance (tc : Collect Addr) : Decidable tc.isCurrentAck :=
  inferInstanceAs (Decidable (_ ∧ _))

/-- `handle_ack` until it looks at the flags: the link estimate and the
metric of the parent are updated. -/
def handleAckMetric (tc : Collect Addr) (sender : Addr) (rtmetric : Nat) :
    Collect Addr :=
  let tc :=
    if tc.transmissions = 0 then
      { tc with
        transmissions := config.maxMacRexmits % 256
        counted := tc.counted ++
          tc.sendQueue.head?.toList.map QueueItem.number }
    else tc
  match tc.neighborList.find sender with
  | some _ =>
      ((tc.modifyNeighbor sender (.tx tc.transmissions)).modifyNeighbor
        sender (.updateRtmetric rtmetric)).updateRtmetric config
  | none => tc

/-- `handle_ack` -/
def handleAck (tc : Collect Addr) : Collect Addr :=
  if tc.isCurrentAck then
    let msg := tc.packetbuf
    let tc := tc.handleAckMetric config msg.sender msg.rtmetric
    let tc :=
      if msg.flags &&& ackFlagsCongested ≠ 0 then
        (tc.modifyNeighbor msg.sender
          (.tx (tc.maxRexmits * 2))).updateRtmetric config
      else tc
    if msg.flags &&& ackFlagsDropped = 0 then tc.sendNextPacket config
    else if msg.flags &&& ackFlagsLifetimeExceeded ≠ 0 then
      tc.sendNextPacket config
    else
      let tc := (tc.modifyNeighbor msg.sender
        (.tx tc.maxRexmits)).updateRtmetric config
      { tc with retransmissionTimer := some .retransmit }
  else tc

/-- `send_ack` -/
def sendAck (tc : Collect Addr) (receiver : Addr) (flags : Nat) :
    Collect Addr :=
  { tc with
    packetbuf := { CollectPacket.clear config with
      datalen := sizeofMsg
      rtmetric := tc.rtmetric
      flags := flags
      sender := config.linkaddrNodeAddr
      receiver := receiver
      packetType := packetTypeAck
      packetId := tc.packetbuf.packetId
      maxMacTransmissions := config.maxAckMacRexmits } }

/-! ## Packets -/

omit [DecidableEq Addr] in
/-- `add_packet_to_recent_packets` -/
def addPacketToRecentPackets (tc : Collect Addr) : Collect Addr :=
  if sizeofMsg < tc.packetbuf.datalen then
    { tc with
      recentPackets := tc.recentPackets.set tc.recentPacketPtr
        (some (tc.packetbuf.esender, tc.packetbuf.epacketId % 256))
      recentPacketPtr := (tc.recentPacketPtr + 1) % numRecentPackets }
  else tc

/-- The part of `node_packet_received` for data packets; the packet is in the
packet buffer, and `rtmetric` is that of its header. -/
def dataReceived (tc : Collect Addr) (rtmetric : Nat) (hasQueuebuf : Bool) :
    Collect Addr :=
  let packet := tc.packetbuf
  let ackFlags :=
    if config.maxSendingQueue / 2 ≤ tc.sendQueue.length then
      ackFlagsCongested
    else 0
  if some (packet.esender, packet.epacketId) ∈ tc.recentPackets then
    tc.sendAck config packet.sender ackFlags
  else if tc.rtmetric = rtmetricSink then
    let tc := tc.addPacketToRecentPackets
    { tc with packetbuf := packet }
  else if 1 < packet.ttl ∧ tc.rtmetric ≠ rtmetricMax then
    let ackFlags :=
      if rtmetric ≤ tc.rtmetric then ackFlags ||| ackFlagsRtmetricNeedsUpdate
      else ackFlags
    let tc := { tc with
      packetbuf := { packet with
        hops := (packet.hops + 1) % 65536
        ttl := packet.ttl - 1 } }
    let enqueued :=
      if tc.sendQueue.length + minAvailableQueueEntries ≤
          config.maxSendingQueue then
        tc.packetqueueEnqueuePacketbuf config packet.maxRexmit hasQueuebuf
      else (tc, false)
    if enqueued.2 then
      (enqueued.1.addPacketToRecentPackets.sendAck config packet.sender
        ackFlags).sendQueuedPacket config
    else
      enqueued.1.sendAck config packet.sender
        (ackFlags ||| ackFlagsDropped ||| ackFlagsCongested)
  else if packet.ttl ≤ 1 then
    tc.sendAck config packet.sender
      (ackFlags ||| ackFlagsDropped ||| ackFlagsLifetimeExceeded)
  else tc

/-- `node_packet_received`.  When `update_rtmetric` sends a packet, that one
is in the packet buffer afterwards. -/
def nodePacketReceived (tc : Collect Addr) (packet : CollectPacket Addr)
    (hasQueuebuf : Bool) : Collect Addr :=
  let tc := { tc with packetbuf := packet }
  let tc :=
    match tc.neighborList.find packet.sender with
    | some _ =>
        (tc.modifyNeighbor packet.sender
          (.updateRtmetric packet.rtmetric)).updateRtmetric config
    | none => tc
  if tc.packetbuf.packetType = packetTypeData then
    tc.dataReceived config packet.rtmetric hasQueuebuf
  else if tc.packetbuf.packetType = packetTypeAck then tc.handleAck config
  else tc

/-! ## Timers and reports -/

/-- `timedout` -/
def timedout (tc : Collect Addr) : Collect Addr :=
  let tc := { tc with sending := false }
  let tc := tc.modifyNeighbor tc.currentParent (.txFail tc.maxRexmits)
  (tc.updateRtmetric config).sendNextPacket config

omit [DecidableEq Addr] in
/-- The transmissions of a packet are counted. -/
def countTransmissions (tc : Collect Addr) (numbers : List Nat)
    (transmissions : Nat) : Collect Addr :=
  { tc with
    transmissions := (tc.transmissions + transmissions) % 256
    counted := tc.counted ++ numbers }

/-- `node_packet_sent` for a transmission. -/
def nodePacketSent (tc : Collect Addr) (transmission : Transmission Addr)
    (transmissions : Nat) : Collect Addr :=
  let tc := { tc with
    packetbuf := transmission.packet
    air := tc.air.erase transmission }
  if tc.packetbuf.packetType = packetTypeData then
    let tc := tc.countTransmissions [transmission.number] transmissions
    if tc.maxRexmits ≤ tc.transmissions then tc.timedout config
    else { tc with retransmissionTimer := some .retransmit }
  else tc

/-- `retransmit_callback` -/
def retransmitCallback (c : Collect Addr) : Collect Addr :=
  if c.maxRexmits ≤ c.transmissions then c.timedout config
  else retransmitCurrentPacket config { c with sending := false }

/-- `retransmit_not_sent_callback` -/
def retransmitNotSentCallback (c : Collect Addr) : Collect Addr :=
  (c.countTransmissions (c.sendQueue.head?.toList.map QueueItem.number)
    (config.maxMacRexmits + 1)).retransmitCallback config

def retransmissionTimerExpired (c : Collect Addr) : Collect Addr :=
  match c.retransmissionTimer with
  | none => c
  | some .retransmit =>
      retransmitCallback config { c with retransmissionTimer := none }
  | some .retransmitNotSent =>
      retransmitNotSentCallback config { c with retransmissionTimer := none }

omit [DecidableEq Addr] in
/-- `remove_queued_packet`, when the lifetime of a packet expires. -/
def removeQueuedPacket (c : Collect Addr) (number : Nat) : Collect Addr :=
  { c with
    sendQueue := c.sendQueue.filter fun item =>
      ¬ (item.number = number ∧ item.lifetimer) }

/-- `received_announcement` -/
def receivedAnnouncement (tc : Collect Addr) (sender : Addr) (value : Nat) :
    Collect Addr :=
  let tc :=
    match tc.neighborList.find sender with
    | none =>
        if value < tc.rtmetric then
          { tc with
            neighborList := tc.neighborList.add config.maxCollectNeighbors
              sender value }
        else tc
    | some _ => tc.modifyNeighbor sender (.updateRtmetric value)
  tc.updateRtmetric config

/-- `periodic` of the neighbour list. -/
def neighborPeriodic (tc : Collect Addr) : Collect Addr :=
  { tc with neighborList := tc.neighborList.periodic }

/-- `proactive_probing_callback` -/
def proactiveProbingCallback (c : Collect Addr) (hasQueuebuf : Bool) :
    Collect Addr :=
  if c.rtmetric ≠ rtmetricSink ∧ c.rtmetric ≠ rtmetricMax then
    match c.sendQueue with
    | _ :: _ => c
    | [] =>
        match List.find? (fun n : CollectNeighbor Addr =>
            n.rtmetric + collectLinkEstimateUnit < c.rtmetric ∧
              n.le.numEstimates = 0) c.neighborList with
        | none => c
        | some n =>
            let currentParent := c.parent
            let enqueued := enqueueDummyPacket config
              { c with parent := n.addr } proactiveProbingRexmits hasQueuebuf
            let c :=
              if enqueued.2 then enqueued.1.sendQueuedPacket config
              else enqueued.1
            { c with parent := currentParent }
  else c

/-- `send_keepalive` -/
def sendKeepalive (c : Collect Addr) (hasQueuebuf : Bool) : Collect Addr :=
  if c.sending = false ∧ c.sendQueue = [] then
    let enqueued := c.enqueueDummyPacket config keepaliveRexmits hasQueuebuf
    if enqueued.2 then enqueued.1.sendQueuedPacket config
    else enqueued.1
  else c

/-! ## The functions of the application -/

omit [DecidableEq Addr] in
/-- `collect_open`; `parent` and `current_parent` are the null address, as in
a static connection. -/
def collectOpen : Collect Addr where
  retransmissionTimer := none
  sendQueue := []
  neighborList := []
  parent := config.linkaddrNull
  currentParent := config.linkaddrNull
  rtmetric := rtmetricMax
  seqno := 10
  sending := false
  transmissions := 0
  maxRexmits := 0
  eseqno := 0
  recentPackets := List.replicate numRecentPackets none
  recentPacketPtr := 0
  packetbuf := .clear config
  nextNumber := 0
  counted := []
  sent := []
  air := []

/-- `collect_send` for the packet in the packet buffer. -/
def collectSend (tc : Collect Addr) (packet : CollectPacket Addr)
    (rexmits : Int) (hasQueuebuf : Bool) : Collect Addr :=
  let eseqno := (tc.eseqno + 1) % (1 <<< config.collectPacketIdBits : Nat)
  let packet := { packet with
    epacketId := tc.eseqno
    esender := config.linkaddrNodeAddr
    hops := 1
    ttl := config.maxHoplim
    maxRexmit :=
      if (Rime.maxRexmits : Int) < rexmits then Rime.maxRexmits
      else (rexmits % 65536).toNat }
  let tc := { tc with
    eseqno :=
      if eseqno = 0 then (1 <<< config.collectPacketIdBits : Nat) / 2
      else eseqno }
  if tc.rtmetric = rtmetricSink then
    { tc with packetbuf := { packet with hops := 0 } }
  else
    let tc := { tc with
      packetbuf := { packet with datalen := packet.datalen + sizeofMsg } }
    let enqueued :=
      tc.packetqueueEnqueuePacketbuf config packet.maxRexmit hasQueuebuf
    if enqueued.2 then enqueued.1.sendQueuedPacket config
    else enqueued.1

/-- `collect_set_sink` -/
def collectSetSink (tc : Collect Addr) (shouldBeSink : Bool) :
    Collect Addr :=
  let tc :=
    if shouldBeSink then
      { tc with
        rtmetric := rtmetricSink
        sendQueue := []
        retransmissionTimer := none }
    else { tc with rtmetric := rtmetricMax }
  tc.updateRtmetric config

/-- `collect_purge` -/
def collectPurge (tc : Collect Addr) : Collect Addr :=
  let tc := updateRtmetric config { tc with
    neighborList := []
    parent := config.linkaddrNull }
  { tc with parent := config.linkaddrNull }

/-! ## Steps -/

/-- What happens to a node.  An application sends packets of type data. -/
inductive Event (Addr : Type) where
  | send (packet : CollectPacket Addr)
      (isData : packet.packetType = packetTypeData) (rexmits : Int)
      (hasQueuebuf : Bool)
  | packetReceived (packet : CollectPacket Addr) (hasQueuebuf : Bool)
  | packetSent (transmission : Transmission Addr) (transmissions : Nat)
  | retransmissionTimer
  | lifetimer (number : Nat)
  | announcement (sender : Addr) (value : Nat)
  | periodic
  | proactiveProbing (hasQueuebuf : Bool)
  | keepalive (hasQueuebuf : Bool)
  | setSink (shouldBeSink : Bool)
  | purge

/-- The link layer reports only transmissions that it has not reported. -/
def step (tc : Collect Addr) : Event Addr → Collect Addr
  | .send packet _ rexmits hasQueuebuf =>
      tc.collectSend config packet rexmits hasQueuebuf
  | .packetReceived packet hasQueuebuf =>
      tc.nodePacketReceived config packet hasQueuebuf
  | .packetSent transmission transmissions =>
      if transmission ∈ tc.air then
        tc.nodePacketSent config transmission transmissions
      else tc
  | .retransmissionTimer => tc.retransmissionTimerExpired config
  | .lifetimer number => tc.removeQueuedPacket number
  | .announcement sender value => tc.receivedAnnouncement config sender value
  | .periodic => tc.neighborPeriodic
  | .proactiveProbing hasQueuebuf =>
      tc.proactiveProbingCallback config hasQueuebuf
  | .keepalive hasQueuebuf => tc.sendKeepalive config hasQueuebuf
  | .setSink shouldBeSink => tc.collectSetSink config shouldBeSink
  | .purge => tc.collectPurge config

end Collect

end Contiki.Rime
