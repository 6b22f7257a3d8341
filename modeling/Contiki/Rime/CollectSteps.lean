import Contiki.Rime.Collect

/-!
# What the functions of collect do

Sending changes neither the routing state nor the queue, and the queue holds
data packets only.
-/

namespace Contiki.Rime

namespace Collect

variable {Addr : Type} [DecidableEq Addr] (config : CollectConfig Addr)

/-! ## Sending -/

/-- The ways in which `send_queued_packet` ends: it sends nothing, or the
first packet of the queue. -/
inductive SendsQueued (c : Collect Addr) : Collect Addr → Prop where
  | nothing : SendsQueued c c
  | noParent (item : QueueItem Addr) (rest : List (QueueItem Addr))
      (isQueue : c.sendQueue = item :: rest) (idle : c.sending = false)
      (unknown : c.neighborList.find c.parent = none) :
      SendsQueued c { c with packetbuf := item.buf }
  | first (item : QueueItem Addr) (rest : List (QueueItem Addr))
      (isQueue : c.sendQueue = item :: rest) (idle : c.sending = false)
      (n : CollectNeighbor Addr)
      (isParent : c.neighborList.find c.parent = some n)
      (packet : CollectPacket Addr)
      (packetType : packet.packetType = item.buf.packetType)
      (packetId : packet.packetId = c.seqno)
      (receiver : packet.receiver = n.addr) :
      SendsQueued c { c with
        retransmissionTimer := some .retransmitNotSent
        sending := true
        currentParent := c.parent
        transmissions := 0
        counted := []
        maxRexmits := item.buf.maxRexmit % 256
        packetbuf := packet
        sent := c.sent ++ [{ number := item.number, packet }]
        air := c.air ++ [{ number := item.number, packet }] }

theorem sendQueuedPacket_cases (c : Collect Addr) :
    SendsQueued c (c.sendQueuedPacket config) := by
  unfold sendQueuedPacket
  split
  case isTrue => exact .nothing
  case isFalse idle =>
    have isIdle : c.sending = false := Bool.eq_false_iff.mpr idle
    split
    case h_1 => exact .nothing
    case h_2 item rest isQueue =>
      dsimp only
      split
      case h_1 unknown => exact .noParent item rest isQueue isIdle unknown
      case h_2 n isParent =>
        exact .first item rest isQueue isIdle n isParent _ rfl rfl rfl

/-- The routing state and the queue are the same. -/
structure SameState (before after : Collect Addr) : Prop where
  sendQueue : after.sendQueue = before.sendQueue
  neighborList : after.neighborList = before.neighborList
  parent : after.parent = before.parent
  rtmetric : after.rtmetric = before.rtmetric
  seqno : after.seqno = before.seqno
  nextNumber : after.nextNumber = before.nextNumber

theorem sendQueuedPacket_same (c : Collect Addr) :
    SameState c (c.sendQueuedPacket config) := by
  have cases_ := sendQueuedPacket_cases config c
  generalize c.sendQueuedPacket config = later at cases_
  cases cases_ <;> exact ⟨rfl, rfl, rfl, rfl, rfl, rfl⟩

/-- The packet buffer still has the packet, or it has a data packet. -/
def KeepsPacketbuf (before after : Collect Addr) : Prop :=
  after.packetbuf = before.packetbuf ∨
    after.packetbuf.packetType = packetTypeData

def DataQueue (c : Collect Addr) : Prop :=
  ∀ item ∈ c.sendQueue, item.buf.packetType = packetTypeData

variable {config}

theorem DataQueue.sendQueuedPacket {c : Collect Addr} (data : DataQueue c) :
    KeepsPacketbuf c (c.sendQueuedPacket config) := by
  have cases_ := sendQueuedPacket_cases config c
  generalize c.sendQueuedPacket config = later at cases_ ⊢
  cases cases_ with
  | nothing => exact Or.inl rfl
  | noParent item rest isQueue idle unknown =>
      apply Or.inr
      apply data
      rw [isQueue]
      exact List.mem_cons_self
  | first item rest isQueue idle n isParent packet packetType =>
      apply Or.inr
      have isData := data item (by rw [isQueue]; exact List.mem_cons_self)
      exact packetType.trans isData

variable (config)

/-- `update_rtmetric` before a packet is sent. -/
def routed (tc : Collect Addr) : Collect Addr :=
  let tc := tc.updateParent config
  { tc with
    rtmetric :=
      if tc.rtmetricCompute = rtmetricSink then rtmetricMax
      else tc.rtmetricCompute }

variable (tc : Collect Addr)

/-- `update_rtmetric` changes the routing state and then sends, or it does
nothing at a sink. -/
theorem updateRtmetric_cases :
    (tc.rtmetric = rtmetricSink ∧ tc.updateRtmetric config = tc) ∨
    (tc.rtmetric ≠ rtmetricSink ∧
      (tc.updateRtmetric config = tc.routed config ∨
        tc.updateRtmetric config =
          (tc.routed config).sendQueuedPacket config)) := by
  have unfolded : tc.updateRtmetric config =
      if tc.rtmetric ≠ rtmetricSink then
        if tc.rtmetric = rtmetricMax ∧
            (tc.routed config).rtmetric ≠ rtmetricMax then
          (tc.routed config).sendQueuedPacket config
        else tc.routed config
      else tc := rfl
  rw [unfolded]
  by_cases isSink : tc.rtmetric = rtmetricSink
  · exact Or.inl ⟨isSink, if_neg (not_not.mpr isSink)⟩
  · refine Or.inr ⟨isSink, ?_⟩
    rw [if_pos isSink]
    split
    case isTrue => exact Or.inr rfl
    case isFalse => exact Or.inl rfl

/-- `update_parent` changes the parent only. -/
theorem updateParent_eq :
    tc.updateParent config =
      { tc with parent := (tc.updateParent config).parent } := by
  unfold updateParent
  split
  · split
    · rfl
    · split <;> rfl
  · rfl

/-- Only the parent and the metric are changed before a packet is sent. -/
theorem routed_eq :
    tc.routed config = { tc with
      parent := (tc.updateParent config).parent
      rtmetric := (tc.routed config).rtmetric } := by
  have parent := updateParent_eq config tc
  unfold routed
  dsimp only
  rw [parent]

/-- `update_rtmetric` changes neither the queue nor the neighbours. -/
theorem updateRtmetric_same :
    (tc.updateRtmetric config).sendQueue = tc.sendQueue ∧
      (tc.updateRtmetric config).neighborList = tc.neighborList ∧
      (tc.updateRtmetric config).seqno = tc.seqno ∧
      (tc.updateRtmetric config).nextNumber = tc.nextNumber := by
  have isRouted := routed_eq config tc
  have sends := sendQueuedPacket_same config (tc.routed config)
  rcases updateRtmetric_cases config tc with ⟨_, same⟩ | ⟨_, same | same⟩
  · rw [same]
    exact ⟨rfl, rfl, rfl, rfl⟩
  · rw [same, isRouted]
    exact ⟨rfl, rfl, rfl, rfl⟩
  · rw [same, sends.sendQueue, sends.neighborList, sends.seqno,
      sends.nextNumber, isRouted]
    exact ⟨rfl, rfl, rfl, rfl⟩

variable {config}

theorem DataQueue.updateRtmetric {tc : Collect Addr} (data : DataQueue tc) :
    KeepsPacketbuf tc (tc.updateRtmetric config) := by
  have isRouted := routed_eq config tc
  have routedData : DataQueue (tc.routed config) := by
    rw [isRouted]
    exact data
  have packetbuf : (tc.routed config).packetbuf = tc.packetbuf := by
    rw [isRouted]
  rcases updateRtmetric_cases config tc with ⟨_, same⟩ | ⟨_, same | same⟩
  · rw [same]
    exact Or.inl rfl
  · rw [same]
    exact Or.inl packetbuf
  · rw [same]
    have keeps : KeepsPacketbuf (tc.routed config)
        ((tc.routed config).sendQueuedPacket config) :=
      routedData.sendQueuedPacket
    unfold KeepsPacketbuf at keeps ⊢
    rwa [packetbuf] at keeps

/-! ## Retransmissions -/

/-- The ways in which `retransmit_current_packet` ends after the update of the
metric: the counters are kept or reset, and the packet is sent if the parent
has a record. -/
inductive Retransmits (item : QueueItem Addr) (c : Collect Addr) :
    Collect Addr → Prop where
  | noParent (transmissions : Nat) (counted : List Nat)
      (subset : ∀ number ∈ counted, number ∈ c.counted)
      (unknown : c.neighborList.find c.parent = none) :
      Retransmits item c { c with
        currentParent := c.parent
        transmissions
        counted
        packetbuf := item.buf }
  | sent (transmissions : Nat) (counted : List Nat)
      (subset : ∀ number ∈ counted, number ∈ c.counted)
      (n : CollectNeighbor Addr)
      (isParent : c.neighborList.find c.parent = some n)
      (packet : CollectPacket Addr)
      (packetId : packet.packetId = c.seqno)
      (receiver : packet.receiver = n.addr) :
      Retransmits item c { c with
        retransmissionTimer := some .retransmitNotSent
        sending := true
        currentParent := c.parent
        transmissions
        counted
        packetbuf := packet
        sent := c.sent ++ [{ number := item.number, packet }]
        air := c.air ++ [{ number := item.number, packet }] }

variable (config)

/-- `retransmit_current_packet` after the update of the metric. -/
def retransmitItem (item : QueueItem Addr) (c : Collect Addr) :
    Collect Addr :=
  let c := { c with packetbuf := item.buf }
  let c :=
    if c.currentParent ≠ c.parent then
      { c with
        currentParent := c.parent
        transmissions := 0
        counted := [] }
    else c
  match c.neighborList.find c.currentParent with
  | none => c
  | some n =>
      sendPacket config { c with
        sending := true
        packetbuf := { c.packetbuf with
          reliable := true
          maxMacTransmissions :=
            min (c.maxRexmits - c.transmissions) config.maxMacRexmits
          packetId := c.seqno
          flags := 0
          rtmetric := c.rtmetric } } item n

theorem retransmitItem_cases (item : QueueItem Addr) (c : Collect Addr) :
    Retransmits item c (retransmitItem config item c) := by
  unfold retransmitItem
  dsimp only
  by_cases same : c.currentParent = c.parent
  · rw [if_neg (not_not.mpr same)]
    dsimp only
    rw [same]
    cases found : c.neighborList.find c.parent with
    | none =>
        exact .noParent c.transmissions c.counted (fun _ member => member)
          found
    | some n =>
        exact .sent c.transmissions c.counted (fun _ member => member) n
          found _ rfl rfl
  · rw [if_pos same]
    dsimp only
    cases found : c.neighborList.find c.parent with
    | none =>
        exact .noParent 0 [] (List.forall_mem_nil _) found
    | some n =>
        exact .sent 0 [] (List.forall_mem_nil _) n found _ rfl rfl

theorem retransmitCurrentPacket_eq {c : Collect Addr}
    {item : QueueItem Addr} {rest : List (QueueItem Addr)}
    (isQueue : c.sendQueue = item :: rest) :
    c.retransmitCurrentPacket config =
      retransmitItem config item (c.updateRtmetric config) := by
  unfold retransmitCurrentPacket
  rw [isQueue]
  rfl

/-! ## Queued packets -/

/-- A packet is sent after it has been queued. -/
def sendEnqueued (enqueued : Collect Addr × Bool) : Collect Addr :=
  if enqueued.2 then enqueued.1.sendQueuedPacket config else enqueued.1

/-- A packet that is sent is queued, unless the node is a sink. -/
theorem collectSend_cases (tc : Collect Addr) (packet : CollectPacket Addr)
    (rexmits : Int) (hasQueuebuf : Bool) :
    ∃ eseqno buf,
      (tc.collectSend config packet rexmits hasQueuebuf =
          { tc with eseqno, packetbuf := buf } ∨
        ∃ lifetime, tc.rtmetric ≠ rtmetricSink ∧
          tc.collectSend config packet rexmits hasQueuebuf =
          sendEnqueued config (packetqueueEnqueuePacketbuf config
            { tc with eseqno, packetbuf := buf } lifetime hasQueuebuf)) ∧
      buf.packetType = packet.packetType := by
  by_cases isSink : tc.rtmetric = rtmetricSink
  · exact ⟨_, _, Or.inl (if_pos isSink), rfl⟩
  · exact ⟨_, _, Or.inr ⟨_, isSink, if_neg isSink⟩, rfl⟩

/-- The routing state is the same. -/
structure SameRoute (before after : Collect Addr) : Prop where
  neighborList : after.neighborList = before.neighborList
  parent : after.parent = before.parent
  rtmetric : after.rtmetric = before.rtmetric

variable {config}

omit [DecidableEq Addr] in
theorem DataQueue.enqueue {tc : Collect Addr} (data : DataQueue tc)
    (isData : tc.packetbuf.packetType = packetTypeData) (rexmits : Nat)
    (hasQueuebuf : Bool) :
    DataQueue
      (tc.packetqueueEnqueuePacketbuf config rexmits hasQueuebuf).1 := by
  unfold packetqueueEnqueuePacketbuf
  split
  · exact List.forall_mem_append.mpr
      ⟨data, List.forall_mem_singleton.mpr isData⟩
  · exact data

omit [DecidableEq Addr] in
theorem enqueue_sameRoute (tc : Collect Addr) (rexmits : Nat)
    (hasQueuebuf : Bool) :
    SameRoute tc
      (tc.packetqueueEnqueuePacketbuf config rexmits hasQueuebuf).1 := by
  unfold packetqueueEnqueuePacketbuf
  split <;> exact ⟨rfl, rfl, rfl⟩

theorem enqueueDummyPacket_sameRoute (tc : Collect Addr) (rexmits : Nat)
    (hasQueuebuf : Bool) :
    SameRoute tc (tc.enqueueDummyPacket config rexmits hasQueuebuf).1 := by
  unfold enqueueDummyPacket
  dsimp only
  split
  · have same := @enqueue_sameRoute _ config { tc with
      packetbuf := { CollectPacket.clear config with
        epacketId := (tc.eseqno + 65535) % 65536
        esender := config.linkaddrNodeAddr
        hops := 1
        ttl := 1
        maxRexmit := rexmits
        datalen := sizeofMsg } } rexmits hasQueuebuf
    exact ⟨same.neighborList, same.parent, same.rtmetric⟩
  · exact ⟨rfl, rfl, rfl⟩

theorem DataQueue.enqueueDummyPacket {tc : Collect Addr}
    (data : DataQueue tc) (rexmits : Nat) (hasQueuebuf : Bool) :
    DataQueue (tc.enqueueDummyPacket config rexmits hasQueuebuf).1 := by
  unfold Collect.enqueueDummyPacket
  dsimp only
  split
  · apply DataQueue.enqueue
    · exact data
    · rfl
  · exact data

/-- A node with room for two neighbours and sixteen packets. -/
def smallConfig : CollectConfig Nat where
  linkaddrNull := 0
  linkaddrNodeAddr := 9
  maxCollectNeighbors := 2
  queuebufNum := 16
  maxMacRexmits := 2
  maxAckMacRexmits := 5
  maxHoplim := 15
  collectPacketIdBits := 8

end Collect

end Contiki.Rime
