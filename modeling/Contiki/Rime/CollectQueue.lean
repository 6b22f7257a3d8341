import Contiki.Rime.CollectSteps

/-!
# The send queue of collect

Only the packet at the head of the queue is transmitted.  While its lifetime
does not expire then, and the reports and acknowledgements that arrive are for
it, each packet leaves the queue for a reason of its own.
-/

namespace Contiki.Rime

namespace Collect

variable {Addr : Type} [DecidableEq Addr]

/-! ## The order of the queue -/

/-- The queued packet with this number has been transmitted. -/
def Transmitted (tc : Collect Addr) (number : Nat) : Prop :=
  ∃ transmission ∈ tc.sent, transmission.number = number

/-- The packet at the head of the queue has been transmitted. -/
def HeadTransmitted (tc : Collect Addr) : Prop :=
  ∃ item rest, tc.sendQueue = item :: rest ∧ tc.Transmitted item.number

/-- Packets have different numbers, and those behind the head have not been
transmitted. -/
structure Ordered (tc : Collect Addr) : Prop where
  numbers : (tc.sendQueue.map QueueItem.number).Nodup
  queued : ∀ item ∈ tc.sendQueue, item.number < tc.nextNumber
  sent : ∀ transmission ∈ tc.sent, transmission.number < tc.nextNumber
  waiting : ∀ item ∈ tc.sendQueue.tail, ¬ tc.Transmitted item.number
  air : ∀ transmission ∈ tc.air, transmission ∈ tc.sent
  data : DataQueue tc

variable (config : CollectConfig Addr)

/-- The counters are those of the packet, which has been sent to the current
parent. -/
structure Current (tc : Collect Addr) (item : QueueItem Addr) : Prop where
  maxRexmits : tc.maxRexmits = item.buf.maxRexmit % 256
  counted : ∀ number ∈ tc.counted, number = item.number
  reached : tc.currentParent = config.linkaddrNull ∨
    ∃ transmission ∈ tc.sent, transmission.number = item.number ∧
      transmission.packet.packetId = tc.seqno ∧
      transmission.packet.receiver = tc.currentParent
  atSink : tc.rtmetric = rtmetricSink →
    tc.currentParent = tc.parent ∨ tc.parent = config.linkaddrNull

/-- The state of the connection is about the packet at the head. -/
structure Disciplined (tc : Collect Addr) : Prop extends Ordered tc where
  head : ∀ item rest, tc.sendQueue = item :: rest →
    tc.Transmitted item.number → Current config tc item
  timer : tc.retransmissionTimer ≠ none → HeadTransmitted tc
  sending : tc.sending = true → tc.retransmissionTimer ≠ none

/-- Nothing that concerns the queue is different.  A sink has no parent but
the one it had or none. -/
structure Quiet (before after : Collect Addr) : Prop where
  sendQueue : after.sendQueue = before.sendQueue
  nextNumber : after.nextNumber = before.nextNumber
  seqno : after.seqno = before.seqno
  retransmissionTimer :
    after.retransmissionTimer = before.retransmissionTimer
  currentParent : after.currentParent = before.currentParent
  sending : after.sending = before.sending
  maxRexmits : after.maxRexmits = before.maxRexmits
  counted : after.counted = before.counted
  sent : after.sent = before.sent
  air : ∀ transmission ∈ after.air, transmission ∈ before.air
  atSink : after.rtmetric = rtmetricSink → before.rtmetric = rtmetricSink ∧
    (after.parent = before.parent ∨ after.parent = config.linkaddrNull)

omit [DecidableEq Addr] in
theorem quiet_with (tc : Collect Addr)
    {neighborList : CollectNeighborList Addr} {parent : Addr}
    {rtmetric transmissions eseqno recentPacketPtr : Nat}
    {recentPackets : List (Option (Addr × Nat))}
    {packetbuf : CollectPacket Addr}
    (atSink : rtmetric = rtmetricSink → tc.rtmetric = rtmetricSink ∧
      (parent = tc.parent ∨ parent = config.linkaddrNull)) :
    Quiet config tc { tc with
      neighborList, parent, rtmetric, transmissions, eseqno, recentPacketPtr
      recentPackets, packetbuf } :=
  ⟨rfl, rfl, rfl, rfl, rfl, rfl, rfl, rfl, rfl, fun _ member => member,
    atSink⟩

omit [DecidableEq Addr] in
theorem sameRoute_atSink (tc : Collect Addr)
    (isSink : tc.rtmetric = rtmetricSink) : tc.rtmetric = rtmetricSink ∧
      (tc.parent = tc.parent ∨ tc.parent = config.linkaddrNull) :=
  ⟨isSink, Or.inl rfl⟩

variable {config}

variable {before after : Collect Addr}

omit [DecidableEq Addr] in
theorem Transmitted.mono {number : Nat}
    (transmitted : before.Transmitted number)
    (sent : ∀ transmission ∈ before.sent, transmission ∈ after.sent) :
    after.Transmitted number := by
  rcases transmitted with ⟨transmission, member, same⟩
  exact ⟨transmission, sent transmission member, same⟩

omit [DecidableEq Addr] in
theorem HeadTransmitted.mono (transmitted : HeadTransmitted before)
    (sendQueue : after.sendQueue = before.sendQueue)
    (sent : ∀ transmission ∈ before.sent, transmission ∈ after.sent) :
    HeadTransmitted after := by
  rcases transmitted with ⟨item, rest, isQueue, head⟩
  exact ⟨item, rest, sendQueue.trans isQueue, head.mono sent⟩

omit [DecidableEq Addr] in
theorem Quiet.trans {first second third : Collect Addr}
    (one : Quiet config first second) (two : Quiet config second third) :
    Quiet config first third where
  sendQueue := two.sendQueue.trans one.sendQueue
  nextNumber := two.nextNumber.trans one.nextNumber
  seqno := two.seqno.trans one.seqno
  retransmissionTimer :=
    two.retransmissionTimer.trans one.retransmissionTimer
  currentParent := two.currentParent.trans one.currentParent
  sending := two.sending.trans one.sending
  maxRexmits := two.maxRexmits.trans one.maxRexmits
  counted := two.counted.trans one.counted
  sent := two.sent.trans one.sent
  air := fun transmission member =>
    one.air transmission (two.air transmission member)
  atSink := by
    intro isSink
    rcases two.atSink isSink with ⟨wasSink, parent⟩
    rcases one.atSink wasSink with ⟨first, earlier⟩
    refine ⟨first, ?_⟩
    rcases parent with same | isNull
    · rw [same]
      exact earlier
    · exact Or.inr isNull

omit [DecidableEq Addr] in
theorem Quiet.ordered {before after : Collect Addr}
    (quiet : Quiet config before after) (ordered : Ordered before) :
    Ordered after where
  numbers := by
    rw [quiet.sendQueue]
    exact ordered.numbers
  queued := by
    rw [quiet.sendQueue, quiet.nextNumber]
    exact ordered.queued
  sent := by
    rw [quiet.sent, quiet.nextNumber]
    exact ordered.sent
  waiting := by
    unfold Transmitted
    rw [quiet.sendQueue, quiet.sent]
    exact ordered.waiting
  air := by
    intro transmission member
    rw [quiet.sent]
    exact ordered.air transmission (quiet.air transmission member)
  data := by
    unfold DataQueue
    rw [quiet.sendQueue]
    exact ordered.data

omit [DecidableEq Addr] in
theorem Quiet.disciplined {before after : Collect Addr}
    (quiet : Quiet config before after)
    (disciplined : Disciplined config before) :
    Disciplined config after where
  toOrdered := quiet.ordered disciplined.toOrdered
  head := by
    intro item rest isQueue transmitted
    rw [quiet.sendQueue] at isQueue
    have current := disciplined.head item rest isQueue
      (transmitted.mono (quiet.sent ▸ fun _ member => member))
    refine ⟨?_, ?_, ?_, fun isSink => ?_⟩
    · rw [quiet.maxRexmits]
      exact current.maxRexmits
    · rw [quiet.counted]
      exact current.counted
    · rw [quiet.currentParent, quiet.sent, quiet.seqno]
      exact current.reached
    · rcases quiet.atSink isSink with ⟨wasSink, same | isNull⟩
      · rw [quiet.currentParent, same]
        exact current.atSink wasSink
      · exact Or.inr isNull
  timer := by
    rw [quiet.retransmissionTimer]
    intro isSet
    exact (disciplined.timer isSet).mono quiet.sendQueue
      (quiet.sent ▸ fun _ member => member)
  sending := by
    rw [quiet.sending, quiet.retransmissionTimer]
    exact disciplined.sending

/-! ## Sending -/

omit [DecidableEq Addr] in
theorem Ordered.transmit (ordered : Ordered before) {item : QueueItem Addr}
    {rest : List (QueueItem Addr)} (isQueue : before.sendQueue = item :: rest)
    (packet : CollectPacket Addr)
    (sendQueue : after.sendQueue = before.sendQueue)
    (nextNumber : after.nextNumber = before.nextNumber)
    (sent : after.sent =
      before.sent ++ [{ number := item.number, packet }])
    (air : after.air = before.air ++ [{ number := item.number, packet }]) :
    Ordered after where
  numbers := by
    rw [sendQueue]
    exact ordered.numbers
  queued := by
    rw [sendQueue, nextNumber]
    exact ordered.queued
  sent := by
    rw [sent, nextNumber]
    have first := ordered.queued item (isQueue ▸ List.mem_cons_self)
    exact List.forall_mem_append.mpr
      ⟨ordered.sent, List.forall_mem_singleton.mpr first⟩
  waiting := by
    intro other member transmitted
    rw [sendQueue] at member
    rcases transmitted with ⟨transmission, isSent, same⟩
    rw [sent] at isSent
    rcases List.mem_append.mp isSent with earlier | last
    · exact ordered.waiting other member ⟨transmission, earlier, same⟩
    · have isLast := List.mem_singleton.mp last
      have numbers := ordered.numbers
      rw [isQueue] at numbers member
      have different := (List.nodup_cons.mp numbers).1
      apply different
      rw [isLast] at same
      have sameNumber : item.number = other.number := same
      rw [sameNumber]
      exact List.mem_map_of_mem member
  air := by
    intro transmission member
    rw [air] at member
    rw [sent]
    rcases List.mem_append.mp member with earlier | last
    · exact List.mem_append_left _ (ordered.air transmission earlier)
    · exact List.mem_append_right _ last
  data := by
    unfold DataQueue
    rw [sendQueue]
    exact ordered.data

variable {tc : Collect Addr}

theorem Ordered.sendQueuedPacket (ordered : Ordered tc) :
    Ordered (tc.sendQueuedPacket config) := by
  have sends := sendQueuedPacket_cases config tc
  generalize tc.sendQueuedPacket config = later at sends ⊢
  cases sends with
  | nothing => exact ordered
  | noParent item rest isQueue idle unknown =>
      exact (quiet_with config tc (sameRoute_atSink config tc)).ordered
        ordered
  | first item rest isQueue idle n isParent packet =>
      exact ordered.transmit isQueue packet rfl rfl rfl rfl

theorem Disciplined.sendQueuedPacket (disciplined : Disciplined config tc) :
    Disciplined config (tc.sendQueuedPacket config) := by
  have ordered : Ordered (tc.sendQueuedPacket config) :=
    disciplined.toOrdered.sendQueuedPacket
  have sends := sendQueuedPacket_cases config tc
  generalize tc.sendQueuedPacket config = later at sends ordered ⊢
  cases sends with
  | nothing => exact disciplined
  | noParent item rest isQueue idle unknown =>
      exact (quiet_with config tc (sameRoute_atSink config tc)).disciplined
        disciplined
  | first item rest isQueue idle n isParent packet _ packetId receiver =>
      have address : n.addr = tc.parent := by
        have found := List.find?_some isParent
        exact of_decide_eq_true found
      have last := List.mem_append_right tc.sent
        (List.mem_singleton_self
          ({ number := item.number, packet } : Transmission Addr))
      refine { toOrdered := ordered, head := ?_, timer := ?_, sending := ?_ }
      · intro head others sameQueue _
        have isHead : head = item :=
          (List.cons.inj (sameQueue.symm.trans isQueue)).1
        subst isHead
        refine ⟨rfl, List.forall_mem_nil _, Or.inr ?_, fun _ => Or.inl rfl⟩
        exact ⟨_, last, rfl, packetId, receiver.trans address⟩
      · intro _
        exact ⟨item, rest, isQueue, _, last, rfl⟩
      · intro _
        exact Option.some_ne_none _

/-! ## Routing -/

theorem routed_quiet (tc : Collect Addr) :
    Quiet config tc (tc.routed config) := by
  have rtmetric : (tc.routed config).rtmetric ≠ rtmetricSink := by
    have computed : (tc.routed config).rtmetric =
        if (tc.updateParent config).rtmetricCompute = rtmetricSink then
          rtmetricMax
        else (tc.updateParent config).rtmetricCompute := rfl
    rw [computed]
    split
    case isTrue => decide
    case isFalse notZero => exact notZero
  rw [routed_eq config tc]
  exact quiet_with config tc fun isSink => absurd isSink rtmetric

theorem Ordered.updateRtmetric (ordered : Ordered tc) :
    Ordered (tc.updateRtmetric config) := by
  rcases updateRtmetric_cases config tc with
    ⟨_, same⟩ | ⟨_, same | same⟩
  · rw [same]
    exact ordered
  · rw [same]
    exact (routed_quiet tc).ordered ordered
  · rw [same]
    exact ((routed_quiet tc).ordered ordered).sendQueuedPacket

theorem Disciplined.updateRtmetric (disciplined : Disciplined config tc) :
    Disciplined config (tc.updateRtmetric config) := by
  rcases updateRtmetric_cases config tc with
    ⟨_, same⟩ | ⟨_, same | same⟩
  · rw [same]
    exact disciplined
  · rw [same]
    exact (routed_quiet tc).disciplined disciplined
  · rw [same]
    exact ((routed_quiet tc).disciplined disciplined).sendQueuedPacket

theorem sendQueuedPacket_sent (tc : Collect Addr) :
    ∀ transmission ∈ tc.sent,
      transmission ∈ (tc.sendQueuedPacket config).sent := by
  intro transmission member
  have sends := sendQueuedPacket_cases config tc
  generalize tc.sendQueuedPacket config = later at sends ⊢
  cases sends with
  | nothing => exact member
  | noParent => exact member
  | first => exact List.mem_append_left _ member

theorem updateRtmetric_sent (tc : Collect Addr) :
    ∀ transmission ∈ tc.sent,
      transmission ∈ (tc.updateRtmetric config).sent := by
  intro transmission member
  rcases updateRtmetric_cases config tc with
    ⟨_, same⟩ | ⟨_, same | same⟩
  · rw [same]
    exact member
  · rw [same, (routed_quiet tc).sent]
    exact member
  · rw [same]
    apply sendQueuedPacket_sent
    rw [(routed_quiet tc).sent]
    exact member

theorem modifyNeighbor_quiet (tc : Collect Addr) (addr : Addr)
    (change : CollectNeighbor Addr → CollectNeighbor Addr) :
    Quiet config tc (tc.modifyNeighbor addr change) :=
  quiet_with config tc (sameRoute_atSink config tc)

omit [DecidableEq Addr] in
/-- The best neighbour is one of the list, or the one from before. -/
theorem bestFrom_mem (neighbors : CollectNeighborList Addr) (rtmetric : Nat)
    (start : Option (CollectNeighbor Addr)) {best : CollectNeighbor Addr}
    (isBest : neighbors.bestFrom rtmetric start = some best) :
    start = some best ∨ best ∈ neighbors := by
  induction neighbors generalizing rtmetric start with
  | nil => exact Or.inl isBest
  | cons n rest inductionHypothesis =>
      unfold CollectNeighborList.bestFrom at isBest
      split at isBest
      · rcases inductionHypothesis _ _ isBest with same | member
        · have isFirst : n = best := Option.some.inj same
          exact Or.inr (isFirst ▸ List.mem_cons_self)
        · exact Or.inr (List.mem_cons_of_mem n member)
      · rcases inductionHypothesis _ _ isBest with same | member
        · exact Or.inl same
        · exact Or.inr (List.mem_cons_of_mem n member)

theorem updateParent_null
    (unknown : (tc.updateParent config).neighborList.find
      (tc.updateParent config).parent = none) :
    (tc.updateParent config).parent = config.linkaddrNull := by
  unfold updateParent at unknown ⊢
  cases isBest : tc.neighborList.best with
  | none => rfl
  | some best =>
      rw [isBest] at unknown
      dsimp only at unknown ⊢
      have member : best ∈ tc.neighborList :=
        (bestFrom_mem _ _ _ isBest).resolve_left (fun same => nomatch same)
      have known : tc.neighborList.find best.addr ≠ none := by
        intro notFound
        have absent := List.find?_eq_none.mp notFound best member
        exact absent (decide_eq_true rfl)
      cases found : tc.neighborList.find tc.parent with
      | none =>
          rw [found] at unknown
          exact absurd unknown known
      | some current =>
          rw [found] at unknown
          dsimp only at unknown ⊢
          split at unknown
          · exact absurd unknown known
          · exact absurd (found.symm.trans unknown) (Option.some_ne_none _)

/-- After an update only a sink has a parent without a record that is not the
null address. -/
theorem updateRtmetric_null
    (unknown : (tc.updateRtmetric config).neighborList.find
      (tc.updateRtmetric config).parent = none) :
    (tc.updateRtmetric config).rtmetric = rtmetricSink ∨
      (tc.updateRtmetric config).parent = config.linkaddrNull := by
  rcases updateRtmetric_cases config tc with
    ⟨isSink, same⟩ | ⟨notSink, same | same⟩
  · rw [same]
    exact Or.inl isSink
  · rw [same] at unknown ⊢
    exact Or.inr (updateParent_null unknown)
  · have sends := sendQueuedPacket_same config (tc.routed config)
    rw [same] at unknown ⊢
    rw [sends.neighborList, sends.parent] at unknown
    rw [sends.parent]
    exact Or.inr (updateParent_null unknown)

/-! ## The head of the queue -/

theorem Ordered.sendNextPacket (ordered : Ordered tc) :
    Disciplined config (tc.sendNextPacket config) := by
  apply Disciplined.sendQueuedPacket
  refine { numbers := ?_, queued := ?_, sent := ordered.sent,
           waiting := ?_, air := ordered.air, data := ?_, head := ?_,
           timer := ?_, sending := ?_ }
  · exact ordered.numbers.sublist ((List.tail_sublist _).map _)
  · exact fun item member =>
      ordered.queued item (List.mem_of_mem_tail member)
  · exact fun item member =>
      ordered.waiting item (List.mem_of_mem_tail member)
  · exact fun item member => ordered.data item (List.mem_of_mem_tail member)
  · intro item rest isQueue transmitted
    have isTail : tc.sendQueue.tail = item :: rest := isQueue
    have member : item ∈ tc.sendQueue.tail := isTail ▸ List.mem_cons_self
    exact absurd transmitted (ordered.waiting item member)
  · exact fun isSet => absurd rfl isSet
  · exact fun isSending => nomatch isSending

theorem sendNextPacket_queue (tc : Collect Addr) :
    (tc.sendNextPacket config).sendQueue = tc.sendQueue.tail :=
  (sendQueuedPacket_same config _).sendQueue

theorem Ordered.timedout (ordered : Ordered tc) :
    Disciplined config (tc.timedout config) := by
  apply Ordered.sendNextPacket
  apply Ordered.updateRtmetric
  exact ⟨ordered.numbers, ordered.queued, ordered.sent, ordered.waiting,
    ordered.air, ordered.data⟩

theorem timedout_queue (tc : Collect Addr) :
    (tc.timedout config).sendQueue = tc.sendQueue.tail := by
  unfold timedout
  rw [sendNextPacket_queue, (updateRtmetric_same config _).1]
  rfl

omit [DecidableEq Addr] in
theorem leaves_tail {before after : List (QueueItem Addr)}
    {item : QueueItem Addr} (member : item ∈ before) (absent : item ∉ after)
    (isTail : after = before.tail) : ∃ rest, before = item :: rest := by
  cases before with
  | nil => exact absurd member List.not_mem_nil
  | cons head rest =>
      rcases List.mem_cons.mp member with same | others
      · exact ⟨rest, by rw [same]⟩
      · exact absurd (isTail ▸ others) absent

theorem Disciplined.retransmitItem
    (disciplined : Disciplined config tc) {item : QueueItem Addr}
    {rest : List (QueueItem Addr)} (isQueue : tc.sendQueue = item :: rest)
    (transmitted : tc.Transmitted item.number)
    (isNull : tc.neighborList.find tc.parent = none →
      tc.rtmetric = rtmetricSink ∨ tc.parent = config.linkaddrNull) :
    Disciplined config (retransmitItem config item tc) := by
  have current := disciplined.head item rest isQueue transmitted
  have retransmits := retransmitItem_cases config item tc
  generalize Collect.retransmitItem config item tc = later at retransmits ⊢
  cases retransmits with
  | noParent transmissions counted subset unknown =>
      have ordered := disciplined.toOrdered
      refine { numbers := ordered.numbers, queued := ordered.queued,
               sent := ordered.sent, waiting := ordered.waiting,
               air := ordered.air, data := ordered.data, head := ?_,
               timer := disciplined.timer, sending := disciplined.sending }
      intro head others sameQueue _
      have isHead : head = item :=
        (List.cons.inj (sameQueue.symm.trans isQueue)).1
      subst isHead
      refine ⟨current.maxRexmits,
        fun number member => current.counted number (subset number member),
        ?_, fun _ => Or.inl rfl⟩
      rcases isNull unknown with isSink | parentNull
      · rcases current.atSink isSink with same | parentNull
        · have reached := current.reached
          rw [same] at reached
          exact reached
        · exact Or.inl parentNull
      · exact Or.inl parentNull
  | sent transmissions counted subset n isParent packet packetId receiver =>
      have address : n.addr = tc.parent := by
        have found := List.find?_some isParent
        exact of_decide_eq_true found
      have last := List.mem_append_right tc.sent
        (List.mem_singleton_self
          ({ number := item.number, packet } : Transmission Addr))
      have ordered : Ordered { tc with
          retransmissionTimer := some .retransmitNotSent
          sending := true
          currentParent := tc.parent
          transmissions
          counted
          packetbuf := packet
          sent := tc.sent ++ [{ number := item.number, packet }]
          air := tc.air ++ [{ number := item.number, packet }] } :=
        disciplined.toOrdered.transmit isQueue packet rfl rfl rfl rfl
      refine { toOrdered := ordered, head := ?_, timer := ?_, sending := ?_ }
      · intro head others sameQueue _
        have isHead : head = item :=
          (List.cons.inj (sameQueue.symm.trans isQueue)).1
        subst isHead
        exact ⟨current.maxRexmits,
          fun number member => current.counted number (subset number member),
          Or.inr ⟨_, last, rfl, packetId, receiver.trans address⟩,
          fun _ => Or.inl rfl⟩
      · intro _
        exact ⟨item, rest, isQueue, _, last, rfl⟩
      · intro _
        exact Option.some_ne_none _

theorem Disciplined.retransmitCurrentPacket
    (disciplined : Disciplined config tc) (transmitted : HeadTransmitted tc) :
    Disciplined config (tc.retransmitCurrentPacket config) := by
  rcases transmitted with ⟨item, rest, isQueue, isTransmitted⟩
  rw [retransmitCurrentPacket_eq config isQueue]
  exact disciplined.updateRtmetric.retransmitItem
    ((updateRtmetric_same config tc).1.trans isQueue)
    (isTransmitted.mono (updateRtmetric_sent tc)) updateRtmetric_null

theorem retransmitCurrentPacket_queue (tc : Collect Addr) :
    (tc.retransmitCurrentPacket config).sendQueue = tc.sendQueue := by
  cases isQueue : tc.sendQueue with
  | nil =>
      unfold retransmitCurrentPacket
      rw [isQueue]
      exact isQueue
  | cons item rest =>
      have updated : (tc.updateRtmetric config).sendQueue = item :: rest :=
        (updateRtmetric_same config tc).1.trans isQueue
      rw [retransmitCurrentPacket_eq config isQueue]
      have retransmits :=
        retransmitItem_cases config item (tc.updateRtmetric config)
      generalize retransmitItem config item (tc.updateRtmetric config) =
        later at retransmits ⊢
      cases retransmits <;> exact updated

/-! ## Functions that remove no packet -/

variable (config)

/-- The connection stays disciplined, and no packet leaves the queue. -/
structure Keeps (before after : Collect Addr) : Prop where
  disciplined : Disciplined config before → Disciplined config after
  queue : ∀ item ∈ before.sendQueue, item ∈ after.sendQueue

variable {config}

omit [DecidableEq Addr] in
theorem Keeps.refl (tc : Collect Addr) : Keeps config tc tc :=
  ⟨fun disciplined => disciplined, fun _ member => member⟩

omit [DecidableEq Addr] in
theorem Keeps.trans {first second third : Collect Addr}
    (one : Keeps config first second) (two : Keeps config second third) :
    Keeps config first third :=
  ⟨fun disciplined => two.disciplined (one.disciplined disciplined),
    fun item member => two.queue item (one.queue item member)⟩

omit [DecidableEq Addr] in
theorem Quiet.keeps {before after : Collect Addr}
    (quiet : Quiet config before after) : Keeps config before after :=
  ⟨quiet.disciplined, fun _ member => quiet.sendQueue ▸ member⟩

theorem sendQueuedPacket_keeps (tc : Collect Addr) :
    Keeps config tc (tc.sendQueuedPacket config) :=
  ⟨Disciplined.sendQueuedPacket, fun _ member =>
    (sendQueuedPacket_same config tc).sendQueue ▸ member⟩

theorem updateRtmetric_keeps (tc : Collect Addr) :
    Keeps config tc (tc.updateRtmetric config) :=
  ⟨Disciplined.updateRtmetric, fun _ member =>
    (updateRtmetric_same config tc).1 ▸ member⟩

omit [DecidableEq Addr] in
theorem packetbuf_quiet (tc : Collect Addr) (packet : CollectPacket Addr) :
    Quiet config tc { tc with packetbuf := packet } :=
  quiet_with config tc (sameRoute_atSink config tc)

omit [DecidableEq Addr] in
theorem addPacketToRecentPackets_quiet (tc : Collect Addr) :
    Quiet config tc tc.addPacketToRecentPackets := by
  unfold addPacketToRecentPackets
  split <;> exact quiet_with config tc (sameRoute_atSink config tc)

omit [DecidableEq Addr] in
theorem Disciplined.append {tc : Collect Addr}
    (disciplined : Disciplined config tc) {buf : CollectPacket Addr}
    (isData : buf.packetType = packetTypeData) (lifetimer : Bool) :
    Disciplined config { tc with
      sendQueue := tc.sendQueue ++ [{ number := tc.nextNumber, buf, lifetimer }]
      nextNumber := tc.nextNumber + 1 } := by
  have ordered := disciplined.toOrdered
  have notTransmitted : ¬ tc.Transmitted tc.nextNumber := by
    rintro ⟨transmission, member, same⟩
    exact absurd (ordered.sent transmission member) (same ▸ Nat.lt_irrefl _)
  refine { numbers := ?_, queued := ?_, sent := ?_, waiting := ?_,
           air := ordered.air, data := ?_, head := ?_, timer := ?_,
           sending := disciplined.sending }
  · rw [List.map_append]
    refine List.nodup_append.mpr
      ⟨ordered.numbers, List.pairwise_singleton _ _, ?_⟩
    intro number member last isLast same
    rcases List.mem_map.mp member with ⟨item, isItem, rfl⟩
    have isNext := List.mem_singleton.mp isLast
    have small := ordered.queued item isItem
    rw [same, isNext] at small
    exact Nat.lt_irrefl _ small
  · refine List.forall_mem_append.mpr ⟨fun item member => ?_,
      List.forall_mem_singleton.mpr (Nat.lt_succ_self _)⟩
    exact Nat.lt_succ_of_lt (ordered.queued item member)
  · exact fun transmission member =>
      Nat.lt_succ_of_lt (ordered.sent transmission member)
  · intro item member
    cases isQueue : tc.sendQueue with
    | nil =>
        dsimp only at member
        rw [isQueue] at member
        exact absurd member List.not_mem_nil
    | cons first rest =>
        dsimp only at member
        rw [isQueue] at member
        rcases List.mem_append.mp member with earlier | last
        · apply ordered.waiting
          rw [isQueue]
          exact earlier
        · rw [List.mem_singleton.mp last]
          exact notTransmitted
  · exact List.forall_mem_append.mpr
      ⟨ordered.data, List.forall_mem_singleton.mpr isData⟩
  · intro item rest isAppended transmitted
    cases isQueue : tc.sendQueue with
    | nil =>
        dsimp only at isAppended
        rw [isQueue] at isAppended
        have isLast := (List.cons.inj isAppended).1
        subst isLast
        exact absurd transmitted notTransmitted
    | cons first others =>
        dsimp only at isAppended
        rw [isQueue] at isAppended
        have isFirst := (List.cons.inj isAppended).1
        subst isFirst
        have current := disciplined.head first others isQueue transmitted
        exact ⟨current.maxRexmits, current.counted, current.reached,
          current.atSink⟩
  · intro isSet
    rcases disciplined.timer isSet with ⟨item, rest, isQueue, transmitted⟩
    refine ⟨item, rest ++ [{ number := tc.nextNumber, buf, lifetimer }], ?_,
      transmitted⟩
    dsimp only
    rw [isQueue]
    rfl

omit [DecidableEq Addr] in
theorem enqueue_keeps {tc : Collect Addr}
    (isData : tc.packetbuf.packetType = packetTypeData) (rexmits : Nat)
    (hasQueuebuf : Bool) :
    Keeps config tc
      (tc.packetqueueEnqueuePacketbuf config rexmits hasQueuebuf).1 := by
  unfold packetqueueEnqueuePacketbuf
  split
  · exact ⟨fun disciplined => disciplined.append isData _,
      fun _ member => List.mem_append_left _ member⟩
  · exact Keeps.refl tc

theorem sendEnqueued_keeps {tc : Collect Addr}
    {enqueued : Collect Addr × Bool} (keeps : Keeps config tc enqueued.1) :
    Keeps config tc (sendEnqueued config enqueued) := by
  unfold sendEnqueued
  split
  · exact keeps.trans (sendQueuedPacket_keeps _)
  · exact keeps

theorem collectSend_keeps (tc : Collect Addr) {packet : CollectPacket Addr}
    (isData : packet.packetType = packetTypeData) (rexmits : Int)
    (hasQueuebuf : Bool) :
    Keeps config tc (tc.collectSend config packet rexmits hasQueuebuf) := by
  rcases collectSend_cases config tc packet rexmits hasQueuebuf with
    ⟨eseqno, buf, same | ⟨lifetime, _, same⟩, packetType⟩
  · rw [same]
    exact (quiet_with config tc (sameRoute_atSink config tc)).keeps
  · rw [same]
    apply sendEnqueued_keeps
    have buffered : Quiet config tc { tc with eseqno, packetbuf := buf } :=
      quiet_with config tc (sameRoute_atSink config tc)
    exact buffered.keeps.trans
      (enqueue_keeps (packetType.trans isData) lifetime hasQueuebuf)

theorem enqueueDummyPacket_keeps (tc : Collect Addr) (rexmits : Nat)
    (hasQueuebuf : Bool) :
    Keeps config tc
      (tc.enqueueDummyPacket config rexmits hasQueuebuf).1 := by
  unfold enqueueDummyPacket
  dsimp only
  split
  · refine (packetbuf_quiet tc _).keeps.trans (enqueue_keeps ?_ _ _)
    rfl
  · exact (packetbuf_quiet tc _).keeps

theorem sendKeepalive_keeps (tc : Collect Addr) (hasQueuebuf : Bool) :
    Keeps config tc (tc.sendKeepalive config hasQueuebuf) := by
  unfold sendKeepalive
  split
  · exact sendEnqueued_keeps (enqueueDummyPacket_keeps tc _ hasQueuebuf)
  · exact Keeps.refl tc

theorem dataReceived_keeps {tc : Collect Addr}
    (isData : tc.packetbuf.packetType = packetTypeData) (rtmetric : Nat)
    (hasQueuebuf : Bool) :
    Keeps config tc (tc.dataReceived config rtmetric hasQueuebuf) := by
  have sendAck : ∀ {sending : Collect Addr} (receiver : Addr) (flags : Nat),
      Keeps config tc sending →
      Keeps config tc (sending.sendAck config receiver flags) :=
    fun _ _ keeps => keeps.trans (packetbuf_quiet _ _).keeps
  unfold dataReceived
  dsimp only
  split
  · exact sendAck _ _ (Keeps.refl tc)
  · split
    · exact (addPacketToRecentPackets_quiet tc).keeps.trans
        (packetbuf_quiet _ _).keeps
    · split
      · split
        · have enqueued : ∀ packet : CollectPacket Addr,
              packet.packetType = packetTypeData →
              Keeps config tc (packetqueueEnqueuePacketbuf config
                { tc with packetbuf := packet } tc.packetbuf.maxRexmit
                hasQueuebuf).1 :=
            fun _ isPacketData => (packetbuf_quiet tc _).keeps.trans
              (enqueue_keeps isPacketData _ _)
          split
          · refine Keeps.trans ?_ (sendQueuedPacket_keeps _)
            apply sendAck
            refine Keeps.trans ?_ (addPacketToRecentPackets_quiet _).keeps
            apply enqueued
            exact isData
          · apply sendAck
            apply enqueued
            exact isData
        · rw [if_neg Bool.false_ne_true]
          exact sendAck _ _ (packetbuf_quiet tc _).keeps
      · split
        · exact sendAck _ _ (Keeps.refl tc)
        · exact Keeps.refl tc

theorem receivedAnnouncement_keeps (tc : Collect Addr) (sender : Addr)
    (value : Nat) :
    Keeps config tc (tc.receivedAnnouncement config sender value) := by
  unfold receivedAnnouncement
  refine Keeps.trans ?_ (updateRtmetric_keeps _)
  split
  · split
    · exact (quiet_with config tc (sameRoute_atSink config tc)).keeps
    · exact Keeps.refl tc
  · exact (modifyNeighbor_quiet tc _ _).keeps

omit [DecidableEq Addr] in
theorem neighborPeriodic_keeps (tc : Collect Addr) :
    Keeps config tc tc.neighborPeriodic :=
  (quiet_with config tc (sameRoute_atSink config tc)).keeps

theorem proactiveProbingCallback_keeps (tc : Collect Addr)
    (hasQueuebuf : Bool) :
    Keeps config tc (tc.proactiveProbingCallback config hasQueuebuf) := by
  unfold proactiveProbingCallback
  split
  case isFalse => exact Keeps.refl tc
  case isTrue inTree =>
    have probing : ∀ parent : Addr,
        Quiet config tc { tc with parent } := fun parent =>
      quiet_with config tc fun isSink => absurd isSink inTree.1
    split
    case h_1 => exact Keeps.refl tc
    case h_2 =>
      split
      case h_1 => exact Keeps.refl tc
      case h_2 n found =>
        dsimp only
        have queued := (probing n.addr).keeps.trans
          (enqueueDummyPacket_keeps _ proactiveProbingRexmits hasQueuebuf)
        have rtmetric := (@enqueueDummyPacket_sameRoute _ _ config
          { tc with parent := n.addr } proactiveProbingRexmits
          hasQueuebuf).rtmetric
        generalize enqueueDummyPacket config { tc with parent := n.addr }
          proactiveProbingRexmits hasQueuebuf = enqueued at queued rtmetric ⊢
        split
        · have sent := sendQueuedPacket_same config enqueued.1
          refine (queued.trans (sendQueuedPacket_keeps _)).trans
            (Quiet.keeps (quiet_with config _ fun isSink => ?_))
          rw [sent.rtmetric, rtmetric] at isSink
          exact absurd isSink inTree.1
        · refine queued.trans
            (Quiet.keeps (quiet_with config _ fun isSink => ?_))
          rw [rtmetric] at isSink
          exact absurd isSink inTree.1

theorem collectPurge_keeps (tc : Collect Addr) :
    Keeps config tc (tc.collectPurge config) := by
  unfold collectPurge
  have purged : Quiet config tc { tc with
      neighborList := []
      parent := config.linkaddrNull } :=
    quiet_with config tc fun isSink => ⟨isSink, Or.inr rfl⟩
  exact (purged.keeps.trans (updateRtmetric_keeps _)).trans
    (quiet_with config _ fun isSink => ⟨isSink, Or.inr rfl⟩).keeps

end Collect

end Contiki.Rime
