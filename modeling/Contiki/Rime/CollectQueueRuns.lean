import Contiki.Rime.CollectQueue

/-!
# The send queue of collect over runs

What removes a packet from the queue, and the discipline of the queue in every
run.
-/

namespace Contiki.Rime

namespace Collect

variable {Addr : Type} [DecidableEq Addr] {config : CollectConfig Addr}

/-! ## Functions that remove a packet -/

theorem updateRtmetric_queue (tc : Collect Addr) :
    (tc.updateRtmetric config).sendQueue = tc.sendQueue :=
  (updateRtmetric_same config tc).1

omit [DecidableEq Addr] in
theorem Disciplined.count {tc : Collect Addr}
    (disciplined : Disciplined config tc) {numbers : List Nat}
    (isHead : ∀ item rest, tc.sendQueue = item :: rest →
      ∀ number ∈ numbers, number = item.number) (transmissions : Nat) :
    Disciplined config
      { tc with transmissions, counted := tc.counted ++ numbers } where
  numbers := disciplined.numbers
  queued := disciplined.queued
  sent := disciplined.sent
  waiting := disciplined.waiting
  air := disciplined.air
  data := disciplined.data
  head := by
    intro item rest isQueue transmitted
    have current := disciplined.head item rest isQueue transmitted
    exact ⟨current.maxRexmits, List.forall_mem_append.mpr
      ⟨current.counted, isHead item rest isQueue⟩, current.reached,
      current.atSink⟩
  timer := disciplined.timer
  sending := disciplined.sending

omit [DecidableEq Addr] in
theorem head_number {queue : List (QueueItem Addr)} {item : QueueItem Addr}
    {rest : List (QueueItem Addr)} (isQueue : queue = item :: rest) :
    ∀ number ∈ queue.head?.toList.map QueueItem.number,
      number = item.number := by
  rw [isQueue]
  exact List.forall_mem_singleton.mpr rfl

omit [DecidableEq Addr] in
theorem Disciplined.retry {tc : Collect Addr}
    (disciplined : Disciplined config tc)
    (transmitted : HeadTransmitted tc) :
    Disciplined config
      { tc with retransmissionTimer := some .retransmit } where
  numbers := disciplined.numbers
  queued := disciplined.queued
  sent := disciplined.sent
  waiting := disciplined.waiting
  air := disciplined.air
  data := disciplined.data
  head := by
    intro item rest isQueue isTransmitted
    have current := disciplined.head item rest isQueue isTransmitted
    exact ⟨current.maxRexmits, current.counted, current.reached,
      current.atSink⟩
  timer := fun _ => transmitted
  sending := fun _ => Option.some_ne_none _

variable (config)

/-- The connection stays disciplined with the same queue. -/
structure Stays (before after : Collect Addr) : Prop where
  disciplined : Disciplined config before → Disciplined config after
  sendQueue : after.sendQueue = before.sendQueue
  sent : ∀ transmission ∈ before.sent, transmission ∈ after.sent

variable {config}

omit [DecidableEq Addr] in
theorem Stays.trans {first second third : Collect Addr}
    (one : Stays config first second) (two : Stays config second third) :
    Stays config first third :=
  ⟨fun disciplined => two.disciplined (one.disciplined disciplined),
    two.sendQueue.trans one.sendQueue,
    fun transmission member =>
      two.sent transmission (one.sent transmission member)⟩

omit [DecidableEq Addr] in
theorem Quiet.stays {before after : Collect Addr}
    (quiet : Quiet config before after) : Stays config before after :=
  ⟨quiet.disciplined, quiet.sendQueue,
    fun _ member => quiet.sent ▸ member⟩

theorem modifyNeighbor_stays (tc : Collect Addr) (addr : Addr)
    (change : CollectNeighbor Addr → CollectNeighbor Addr) :
    Stays config tc ((tc.modifyNeighbor addr change).updateRtmetric config) :=
  (modifyNeighbor_quiet tc addr change).stays.trans
    ⟨Disciplined.updateRtmetric, updateRtmetric_queue _,
      updateRtmetric_sent _⟩

theorem handleAckMetric_stays (tc : Collect Addr) (sender : Addr)
    (rtmetric : Nat) :
    Stays config tc (tc.handleAckMetric config sender rtmetric) := by
  have counted : Stays config tc
      (if tc.transmissions = 0 then
        { tc with
          transmissions := config.maxMacRexmits % 256
          counted := tc.counted ++
            tc.sendQueue.head?.toList.map QueueItem.number }
      else tc) := by
    split
    · exact ⟨fun disciplined => disciplined.count
        (fun _ _ isQueue => head_number isQueue) _, rfl,
        fun _ member => member⟩
    · exact ⟨fun disciplined => disciplined, rfl, fun _ member => member⟩
  unfold handleAckMetric
  dsimp only
  generalize (if tc.transmissions = 0 then
    { tc with
      transmissions := config.maxMacRexmits % 256
      counted := tc.counted ++
        tc.sendQueue.head?.toList.map QueueItem.number }
    else tc) = updated at counted ⊢
  split
  · exact counted.trans
      ((modifyNeighbor_quiet _ _ _).stays.trans (modifyNeighbor_stays _ _ _))
  · exact counted

theorem handleAck_spec {tc : Collect Addr}
    (disciplined : Disciplined config tc)
    (transmitted : tc.isCurrentAck → HeadTransmitted tc) :
    Disciplined config (tc.handleAck config) ∧
      ((tc.handleAck config).sendQueue = tc.sendQueue ∨
        tc.isCurrentAck ∧
          (tc.handleAck config).sendQueue = tc.sendQueue.tail) := by
  unfold handleAck
  split
  case isFalse => exact ⟨disciplined, Or.inl rfl⟩
  case isTrue isAck =>
    dsimp only
    have metric : Stays config tc (tc.handleAckMetric config
        tc.packetbuf.sender tc.packetbuf.rtmetric) :=
      handleAckMetric_stays tc _ _
    generalize tc.handleAckMetric config tc.packetbuf.sender
      tc.packetbuf.rtmetric = updated at metric ⊢
    have congested : Stays config tc
        (if tc.packetbuf.flags &&& ackFlagsCongested ≠ 0 then
          (updated.modifyNeighbor tc.packetbuf.sender
            (.tx (updated.maxRexmits * 2))).updateRtmetric config
        else updated) := by
      split
      · exact metric.trans (modifyNeighbor_stays _ _ _)
      · exact metric
    generalize (if tc.packetbuf.flags &&& ackFlagsCongested ≠ 0 then
        (updated.modifyNeighbor tc.packetbuf.sender
          (.tx (updated.maxRexmits * 2))).updateRtmetric config
      else updated) = later at congested ⊢
    have next : Disciplined config (later.sendNextPacket config) ∧
        ((later.sendNextPacket config).sendQueue = tc.sendQueue ∨
          tc.isCurrentAck ∧
            (later.sendNextPacket config).sendQueue =
              tc.sendQueue.tail) := by
      refine ⟨(congested.disciplined disciplined).toOrdered.sendNextPacket,
        Or.inr ⟨isAck, ?_⟩⟩
      rw [sendNextPacket_queue, congested.sendQueue]
    split
    · exact next
    · split
      · exact next
      · have failed := congested.trans (@modifyNeighbor_stays _ _ config
          later tc.packetbuf.sender (.tx later.maxRexmits))
        refine ⟨(failed.disciplined disciplined).retry ?_,
          Or.inl failed.sendQueue⟩
        exact (transmitted isAck).mono failed.sendQueue failed.sent

/-- Why a packet leaves the queue when a packet is received. -/
def Acknowledged (tc : Collect Addr) (item : QueueItem Addr)
    (packet : CollectPacket Addr) : Prop :=
  packet.packetType = packetTypeAck ∧ ∃ transmission ∈ tc.sent,
    transmission.number = item.number ∧
      transmission.packet.packetId = packet.packetId ∧
      transmission.packet.receiver = packet.sender

variable (config)

/-- An acknowledgement of the current packet comes after that has been
transmitted, and has a sender. -/
def OrderlyReceived (tc : Collect Addr) (packet : CollectPacket Addr) :
    Prop :=
  packet.packetType = packetTypeAck → packet.packetId = tc.seqno →
    packet.sender = tc.currentParent →
      packet.sender ≠ config.linkaddrNull ∧ HeadTransmitted tc

variable {config}

variable {tc : Collect Addr}

/-- An update of the metric that does not send keeps the packet buffer. -/
theorem updateRtmetric_quiet (data : DataQueue tc) :
    (Quiet config tc (tc.updateRtmetric config) ∧
      (tc.updateRtmetric config).packetbuf = tc.packetbuf) ∨
    (tc.updateRtmetric config).packetbuf.packetType = packetTypeData := by
  have quiet := @routed_quiet _ _ config tc
  have packetbuf : (tc.routed config).packetbuf = tc.packetbuf := by
    rw [routed_eq config tc]
  rcases updateRtmetric_cases config tc with
    ⟨_, same⟩ | ⟨_, same | same⟩
  · rw [same]
    exact Or.inl ⟨quiet_with config tc (sameRoute_atSink config tc), rfl⟩
  · rw [same]
    exact Or.inl ⟨quiet, packetbuf⟩
  · rw [same]
    have routedData : DataQueue (tc.routed config) := by
      unfold DataQueue
      rw [quiet.sendQueue]
      exact data
    have sends := sendQueuedPacket_cases config (tc.routed config)
    have keeps : KeepsPacketbuf (tc.routed config)
        ((tc.routed config).sendQueuedPacket config) :=
      routedData.sendQueuedPacket
    generalize (tc.routed config).sendQueuedPacket config = later
      at sends keeps ⊢
    cases sends with
    | nothing => exact Or.inl ⟨quiet, packetbuf⟩
    | noParent item rest isQueue =>
        exact Or.inr (routedData item (isQueue ▸ List.mem_cons_self))
    | first item rest isQueue idle n isParent sent packetType =>
        exact Or.inr (packetType.trans
          (routedData item (isQueue ▸ List.mem_cons_self)))

omit [DecidableEq Addr] in
theorem Disciplined.acknowledged
    (disciplined : Disciplined config tc) {item : QueueItem Addr}
    {rest : List (QueueItem Addr)} (isQueue : tc.sendQueue = item :: rest)
    {packet : CollectPacket Addr} (isAck : packet.packetType = packetTypeAck)
    (packetId : packet.packetId = tc.seqno)
    (sender : packet.sender = tc.currentParent)
    (orderly : OrderlyReceived config tc packet) :
    Acknowledged tc item packet := by
  rcases orderly isAck packetId sender with ⟨notNull, transmitted⟩
  rcases transmitted with ⟨head, others, sameQueue, isTransmitted⟩
  have isHead : head = item :=
    (List.cons.inj (sameQueue.symm.trans isQueue)).1
  subst isHead
  have current := disciplined.head head rest isQueue isTransmitted
  have reached := current.reached.resolve_left (sender ▸ notNull)
  rcases reached with ⟨transmission, member, same, sameId, receiver⟩
  exact ⟨isAck, transmission, member, same, sameId.trans packetId.symm,
    receiver.trans sender.symm⟩

theorem nodePacketReceived_spec
    (disciplined : Disciplined config tc) {packet : CollectPacket Addr}
    (orderly : OrderlyReceived config tc packet) (hasQueuebuf : Bool) :
    Disciplined config (tc.nodePacketReceived config packet hasQueuebuf) ∧
      ∀ item ∈ tc.sendQueue,
        item ∉ (tc.nodePacketReceived config packet hasQueuebuf).sendQueue →
        Acknowledged tc item packet := by
  have buffered : Quiet config tc { tc with packetbuf := packet } :=
    packetbuf_quiet tc packet
  have handled : ∀ updated : Collect Addr, Stays config tc updated →
      (Quiet config tc updated ∧ updated.packetbuf = packet) ∨
        updated.packetbuf.packetType = packetTypeData →
      let later :=
        if updated.packetbuf.packetType = packetTypeData then
          updated.dataReceived config packet.rtmetric hasQueuebuf
        else if updated.packetbuf.packetType = packetTypeAck then
          updated.handleAck config
        else updated
      Disciplined config later ∧ ∀ item ∈ tc.sendQueue,
        item ∉ later.sendQueue → Acknowledged tc item packet := by
    intro updated stays isQuiet
    have updatedDisciplined := stays.disciplined disciplined
    dsimp only
    split
    case isTrue isData =>
      have keeps := @dataReceived_keeps _ _ config _ isData
        packet.rtmetric hasQueuebuf
      refine ⟨keeps.disciplined updatedDisciplined,
        fun item member absent => ?_⟩
      exact absurd (keeps.queue item (stays.sendQueue ▸ member)) absent
    case isFalse notData =>
      split
      case isFalse =>
        refine ⟨updatedDisciplined, fun item member absent => ?_⟩
        exact absurd (stays.sendQueue ▸ member) absent
      case isTrue isAck =>
        rcases isQuiet.resolve_right notData with ⟨quiet, packetbuf⟩
        rw [packetbuf] at isAck
        have current : updated.isCurrentAck →
            packet.sender = tc.currentParent ∧
              packet.packetId = tc.seqno := by
          intro isCurrent
          unfold isCurrentAck at isCurrent
          rw [packetbuf, quiet.currentParent, quiet.seqno] at isCurrent
          exact isCurrent
        have spec := handleAck_spec updatedDisciplined fun isCurrent =>
          (orderly isAck (current isCurrent).2 (current isCurrent).1).2.mono
            stays.sendQueue stays.sent
        refine ⟨spec.1, fun item member absent => ?_⟩
        rcases spec.2 with same | ⟨isCurrent, isTail⟩
        · rw [same, stays.sendQueue] at absent
          exact absurd member absent
        · rw [stays.sendQueue] at isTail
          rcases leaves_tail member absent isTail with ⟨rest, isQueue⟩
          exact disciplined.acknowledged isQueue isAck
            (current isCurrent).2 (current isCurrent).1 orderly
  unfold nodePacketReceived
  dsimp only
  cases found : tc.neighborList.find packet.sender with
  | none => exact handled _ buffered.stays (Or.inl ⟨buffered, rfl⟩)
  | some n =>
      dsimp only
      apply handled
      · exact buffered.stays.trans (modifyNeighbor_stays _ _ _)
      · have data : DataQueue ({ tc with packetbuf := packet }.modifyNeighbor
            packet.sender (.updateRtmetric packet.rtmetric)) :=
          disciplined.data
        rcases @updateRtmetric_quiet _ _ config _ data with
          ⟨quiet, packetbuf⟩ | isData
        · exact Or.inl ⟨(buffered.trans (modifyNeighbor_quiet _ _ _)).trans
            quiet, packetbuf⟩
        · exact Or.inr isData

/-- The packet has been transmitted as often as it may be, when only its own
transmissions are counted. -/
structure Exhausted (tc : Collect Addr) (item : QueueItem Addr)
    (count : Nat) : Prop where
  transmitted : tc.Transmitted item.number
  counted : ∀ number ∈ tc.counted, number = item.number
  maxRexmit : item.buf.maxRexmit % 256 ≤ count

omit [DecidableEq Addr] in
theorem Disciplined.exhausted
    (disciplined : Disciplined config tc) {item : QueueItem Addr}
    {rest : List (QueueItem Addr)} (isQueue : tc.sendQueue = item :: rest)
    (transmitted : tc.Transmitted item.number) {count : Nat}
    (limit : tc.maxRexmits ≤ count) : Exhausted tc item count := by
  have current := disciplined.head item rest isQueue transmitted
  exact ⟨transmitted, current.counted, current.maxRexmits ▸ limit⟩

/-- The link layer reports a transmission of the packet at the head. -/
def OrderlySent (tc : Collect Addr) (transmission : Transmission Addr) :
    Prop :=
  transmission ∈ tc.air →
    transmission.packet.packetType = packetTypeData →
      ∃ item rest, tc.sendQueue = item :: rest ∧
        item.number = transmission.number

theorem nodePacketSent_spec (disciplined : Disciplined config tc)
    {transmission : Transmission Addr} (inAir : transmission ∈ tc.air)
    (orderly : OrderlySent tc transmission) (transmissions : Nat) :
    Disciplined config
      (tc.nodePacketSent config transmission transmissions) ∧
      ∀ item ∈ tc.sendQueue, item ∉
        (tc.nodePacketSent config transmission transmissions).sendQueue →
        transmission.number = item.number ∧
          Exhausted tc item ((tc.transmissions + transmissions) % 256) := by
  have reported : Quiet config tc { tc with
      packetbuf := transmission.packet
      air := tc.air.erase transmission } :=
    ⟨rfl, rfl, rfl, rfl, rfl, rfl, rfl, rfl, rfl,
      fun _ member => List.mem_of_mem_erase member,
      sameRoute_atSink config tc⟩
  unfold nodePacketSent
  dsimp only
  split
  case isFalse =>
    refine ⟨reported.disciplined disciplined, fun item member absent => ?_⟩
    exact absurd member absent
  case isTrue isData =>
    rcases orderly inAir isData with ⟨head, rest, isQueue, isHead⟩
    have transmitted : tc.Transmitted head.number :=
      ⟨transmission, disciplined.air transmission inAir, isHead.symm⟩
    have counted : Disciplined config
        (countTransmissions { tc with
          packetbuf := transmission.packet
          air := tc.air.erase transmission }
          [transmission.number] transmissions) := by
      refine (reported.disciplined disciplined).count ?_ _
      intro item others sameQueue
      have sameHead : item = head :=
        (List.cons.inj (sameQueue.symm.trans isQueue)).1
      subst sameHead
      exact List.forall_mem_singleton.mpr isHead.symm
    split
    case isTrue limit =>
      refine ⟨counted.toOrdered.timedout, fun item member absent => ?_⟩
      rcases leaves_tail member absent (timedout_queue _) with
        ⟨others, sameQueue⟩
      have sameHead : item = head :=
        (List.cons.inj (sameQueue.symm.trans isQueue)).1
      subst sameHead
      exact ⟨isHead.symm,
        disciplined.exhausted isQueue transmitted limit⟩
    case isFalse =>
      refine ⟨counted.retry ⟨head, rest, isQueue, transmitted⟩,
        fun item member absent => ?_⟩
      exact absurd member absent

/-- The transmissions that are counted when the timer has expired. -/
def timerCount (config : CollectConfig Addr) (tc : Collect Addr) : Nat :=
  match tc.retransmissionTimer with
  | some .retransmitNotSent =>
      (tc.transmissions + (config.maxMacRexmits + 1)) % 256
  | _ => tc.transmissions

/-- The connection without a transmission and without a timer. -/
def idle (tc : Collect Addr) : Collect Addr :=
  { tc with retransmissionTimer := none, sending := false }

omit [DecidableEq Addr] in
theorem Disciplined.idle
    (disciplined : Disciplined config tc) : Disciplined config tc.idle where
  numbers := disciplined.numbers
  queued := disciplined.queued
  sent := disciplined.sent
  waiting := disciplined.waiting
  air := disciplined.air
  data := disciplined.data
  head := by
    intro item rest isQueue isTransmitted
    have current := disciplined.head item rest isQueue isTransmitted
    exact ⟨current.maxRexmits, current.counted, current.reached,
      current.atSink⟩
  timer := fun isSet => absurd rfl isSet
  sending := fun isSending => nomatch isSending

theorem retransmitCallback_spec (disciplined : Disciplined config tc)
    (transmitted : HeadTransmitted tc) :
    Disciplined config (retransmitCallback config
        { tc with retransmissionTimer := none }) ∧
      ∀ item ∈ tc.sendQueue, item ∉ (retransmitCallback config
          { tc with retransmissionTimer := none }).sendQueue →
        Exhausted tc item tc.transmissions := by
  unfold retransmitCallback
  dsimp only
  split
  case isTrue limit =>
    refine ⟨disciplined.idle.toOrdered.timedout, fun item member absent => ?_⟩
    rcases leaves_tail member absent (timedout_queue _) with
      ⟨others, sameQueue⟩
    rcases transmitted with ⟨head, rest, isQueue, isTransmitted⟩
    have sameHead : item = head :=
      (List.cons.inj (sameQueue.symm.trans isQueue)).1
    subst sameHead
    exact disciplined.exhausted isQueue isTransmitted limit
  case isFalse =>
    have isIdle : HeadTransmitted tc.idle := transmitted
    refine ⟨disciplined.idle.retransmitCurrentPacket isIdle,
      fun item member absent => ?_⟩
    rw [retransmitCurrentPacket_queue] at absent
    exact absurd member absent

theorem retransmissionTimerExpired_spec
    (disciplined : Disciplined config tc) :
    Disciplined config (tc.retransmissionTimerExpired config) ∧
      ∀ item ∈ tc.sendQueue,
        item ∉ (tc.retransmissionTimerExpired config).sendQueue →
        Exhausted tc item (timerCount config tc) := by
  unfold retransmissionTimerExpired timerCount
  cases isSet : tc.retransmissionTimer with
  | none =>
      exact ⟨disciplined, fun item member absent => absurd member absent⟩
  | some callback =>
      have transmitted := disciplined.timer (isSet ▸ Option.some_ne_none _)
      cases callback with
      | retransmit => exact retransmitCallback_spec disciplined transmitted
      | retransmitNotSent =>
          have counted := disciplined.count (fun _ _ isQueue =>
            head_number isQueue)
            ((tc.transmissions + (config.maxMacRexmits + 1)) % 256)
          have spec := retransmitCallback_spec counted transmitted
          refine ⟨spec.1, fun item member absent => ?_⟩
          have exhausted := spec.2 item member absent
          refine ⟨exhausted.transmitted, fun number isCounted => ?_,
            exhausted.maxRexmit⟩
          exact exhausted.counted number (List.mem_append_left _ isCounted)

/-! ## The lifetime of a packet and the sink -/

/-- The lifetime of a packet that has been transmitted does not expire. -/
def OrderlyLifetimer (tc : Collect Addr) (number : Nat) : Prop :=
  ∀ item ∈ tc.sendQueue, item.number = number → item.lifetimer = true →
    ¬ tc.Transmitted number

omit [DecidableEq Addr] in
theorem mem_removeQueuedPacket {number : Nat} {item : QueueItem Addr} :
    item ∈ (tc.removeQueuedPacket number).sendQueue ↔
      item ∈ tc.sendQueue ∧
        ¬ (item.number = number ∧ item.lifetimer = true) := by
  unfold removeQueuedPacket
  rw [List.mem_filter, decide_eq_true_iff]

omit [DecidableEq Addr] in
theorem tail_filter {queue : List (QueueItem Addr)}
    {keep : QueueItem Addr → Bool} {item : QueueItem Addr}
    (member : item ∈ (queue.filter keep).tail) : item ∈ queue.tail := by
  cases queue with
  | nil => exact member
  | cons head rest =>
      rw [List.filter_cons] at member
      split at member
      · exact List.mem_of_mem_filter member
      · exact List.mem_of_mem_filter (List.mem_of_mem_tail member)

omit [DecidableEq Addr] in
theorem head_filter {queue : List (QueueItem Addr)}
    {keep : QueueItem Addr → Bool} {item : QueueItem Addr}
    {rest : List (QueueItem Addr)}
    (isFilter : queue.filter keep = item :: rest) :
    (∃ others, queue = item :: others) ∨ item ∈ queue.tail := by
  cases queue with
  | nil => exact nomatch isFilter
  | cons head others =>
      rw [List.filter_cons] at isFilter
      split at isFilter
      · exact Or.inl ⟨others, by rw [(List.cons.inj isFilter).1]⟩
      · have member : item ∈ others.filter keep :=
          isFilter ▸ List.mem_cons_self
        exact Or.inr (List.mem_of_mem_filter member)

omit [DecidableEq Addr] in
theorem Disciplined.removeQueuedPacket
    (disciplined : Disciplined config tc) {number : Nat}
    (orderly : OrderlyLifetimer tc number) :
    Disciplined config (tc.removeQueuedPacket number) where
  numbers := disciplined.numbers.sublist (List.filter_sublist.map _)
  queued := fun item member =>
    disciplined.queued item (mem_removeQueuedPacket.mp member).1
  sent := disciplined.sent
  waiting := fun item member =>
    disciplined.waiting item (tail_filter member)
  air := disciplined.air
  data := fun item member =>
    disciplined.data item (mem_removeQueuedPacket.mp member).1
  head := by
    intro item rest isQueue transmitted
    rcases head_filter isQueue with ⟨others, wasQueue⟩ | behind
    · have current := disciplined.head item others wasQueue transmitted
      exact ⟨current.maxRexmits, current.counted, current.reached,
        current.atSink⟩
    · exact absurd transmitted (disciplined.waiting item behind)
  timer := by
    intro isSet
    rcases disciplined.timer isSet with ⟨item, rest, isQueue, transmitted⟩
    have member : item ∈ tc.sendQueue := isQueue ▸ List.mem_cons_self
    have kept : ¬ (item.number = number ∧ item.lifetimer = true) := by
      rintro ⟨same, lifetimer⟩
      exact orderly item member same lifetimer (same ▸ transmitted)
    refine ⟨item, rest.filter fun item =>
      ¬ (item.number = number ∧ item.lifetimer), ?_, transmitted⟩
    unfold Collect.removeQueuedPacket
    dsimp only
    rw [isQueue]
    exact List.filter_cons_of_pos (decide_eq_true kept)
  sending := disciplined.sending

/-- A node becomes a sink when there is nothing to send. -/
def OrderlySink (tc : Collect Addr) (shouldBeSink : Bool) : Prop :=
  shouldBeSink = true → tc.sending = false ∧ tc.sendQueue = []

theorem collectSetSink_keeps {shouldBeSink : Bool}
    (orderly : OrderlySink tc shouldBeSink) :
    Keeps config tc (tc.collectSetSink config shouldBeSink) := by
  unfold collectSetSink
  refine Keeps.trans ?_ (updateRtmetric_keeps _)
  cases shouldBeSink with
  | false =>
      rw [if_neg Bool.false_ne_true]
      have notSink : rtmetricMax ≠ rtmetricSink := by decide
      exact (quiet_with config tc fun isSink => absurd isSink notSink).keeps
  | true =>
      rw [if_pos rfl]
      rcases orderly rfl with ⟨notSending, isEmpty⟩
      constructor
      · intro disciplined
        refine { numbers := List.nodup_nil, queued := List.forall_mem_nil _,
                 sent := disciplined.sent, waiting := List.forall_mem_nil _,
                 air := disciplined.air, data := List.forall_mem_nil _,
                 head := ?_, timer := fun isSet => absurd rfl isSet,
                 sending := ?_ }
        · intro item rest isQueue
          exact nomatch isQueue
        · intro isSending
          exact absurd isSending (Bool.eq_false_iff.mp notSending)
      · intro item member
        rw [isEmpty] at member
        exact absurd member List.not_mem_nil

/-! ## Runs -/

variable (config)

/-- Why a packet leaves the queue: it has been acknowledged by the parent that
it was sent to, it has been transmitted too often, or its lifetime has
expired. -/
def Justified (tc : Collect Addr) (item : QueueItem Addr) :
    Event Addr → Prop
  | .packetReceived packet _ => Acknowledged tc item packet
  | .packetSent transmission transmissions =>
      transmission.number = item.number ∧
        Exhausted tc item ((tc.transmissions + transmissions) % 256)
  | .retransmissionTimer => Exhausted tc item (timerCount config tc)
  | .lifetimer number => item.number = number ∧ item.lifetimer = true
  | _ => False

/-- Acknowledgements and reports are for the packet at the head, the lifetime
of a transmitted packet does not expire, and a node with packets does not
become a sink. -/
def Orderly (tc : Collect Addr) : Event Addr → Prop
  | .packetReceived packet _ => OrderlyReceived config tc packet
  | .packetSent transmission _ => OrderlySent tc transmission
  | .lifetimer number => OrderlyLifetimer tc number
  | .setSink shouldBeSink => OrderlySink tc shouldBeSink
  | _ => True

omit [DecidableEq Addr] in
theorem Keeps.leaves {before after : Collect Addr}
    (keeps : Keeps config before after) {reason : QueueItem Addr → Prop} :
    ∀ item ∈ before.sendQueue, item ∉ after.sendQueue → reason item :=
  fun item member absent => absurd (keeps.queue item member) absent

theorem Disciplined.step {tc : Collect Addr}
    (disciplined : Disciplined config tc) {event : Event Addr}
    (orderly : Orderly config tc event) :
    Disciplined config (tc.step config event) ∧
      ∀ item ∈ tc.sendQueue, item ∉ (tc.step config event).sendQueue →
        Justified config tc item event := by
  cases event with
  | send packet isData rexmits hasQueuebuf =>
      have keeps := @collectSend_keeps _ _ config tc _ isData rexmits
        hasQueuebuf
      exact ⟨keeps.disciplined disciplined, keeps.leaves⟩
  | packetReceived packet hasQueuebuf =>
      exact nodePacketReceived_spec disciplined orderly hasQueuebuf
  | packetSent transmission transmissions =>
      unfold Collect.step
      dsimp only
      split
      case isTrue inAir =>
        exact nodePacketSent_spec disciplined inAir orderly transmissions
      case isFalse =>
        exact ⟨disciplined, fun item member absent => absurd member absent⟩
  | retransmissionTimer => exact retransmissionTimerExpired_spec disciplined
  | lifetimer number =>
      refine ⟨disciplined.removeQueuedPacket orderly,
        fun item member absent => ?_⟩
      by_contra kept
      exact absent (mem_removeQueuedPacket.mpr ⟨member, kept⟩)
  | announcement sender value =>
      have keeps := @receivedAnnouncement_keeps _ _ config tc sender
        value
      exact ⟨keeps.disciplined disciplined, keeps.leaves⟩
  | periodic =>
      have keeps := @neighborPeriodic_keeps _ config tc
      exact ⟨keeps.disciplined disciplined, keeps.leaves⟩
  | proactiveProbing hasQueuebuf =>
      have keeps := @proactiveProbingCallback_keeps _ _ config tc
        hasQueuebuf
      exact ⟨keeps.disciplined disciplined, keeps.leaves⟩
  | keepalive hasQueuebuf =>
      have keeps := @sendKeepalive_keeps _ _ config tc hasQueuebuf
      exact ⟨keeps.disciplined disciplined, keeps.leaves⟩
  | setSink shouldBeSink =>
      have keeps := @collectSetSink_keeps _ _ config _ _ orderly
      exact ⟨keeps.disciplined disciplined, keeps.leaves⟩
  | purge =>
      have keeps := @collectPurge_keeps _ _ config tc
      exact ⟨keeps.disciplined disciplined, keeps.leaves⟩

/-- Every step of a run is orderly. -/
def OrderlyRun (tc : Collect Addr) : List (Event Addr) → Prop
  | [] => True
  | event :: events =>
      Orderly config tc event ∧ OrderlyRun (tc.step config event) events

/-- A packet leaves the queue for a reason of its own, and a node that is
sending waits for the link layer or for its timer. -/
structure Discipline (tc : Collect Addr) (event : Event Addr) : Prop where
  leaves : ∀ item ∈ tc.sendQueue,
    item ∉ (tc.step config event).sendQueue →
      Justified config tc item event
  sending : (tc.step config event).sending = true →
    (tc.step config event).retransmissionTimer ≠ none ∨
      (tc.step config event).air ≠ []

/-- The discipline holds at every step of a run. -/
def DisciplineRun (tc : Collect Addr) : List (Event Addr) → Prop
  | [] => True
  | event :: events =>
      Discipline config tc event ∧
        DisciplineRun (tc.step config event) events

variable {config}

theorem Disciplined.disciplineRun {tc : Collect Addr}
    (disciplined : Disciplined config tc) {events : List (Event Addr)}
    (orderly : OrderlyRun config tc events) :
    DisciplineRun config tc events := by
  induction events generalizing tc with
  | nil => exact trivial
  | cons event events inductionHypothesis =>
      rcases orderly with ⟨first, others⟩
      rcases disciplined.step config first with ⟨later, leaves⟩
      exact ⟨⟨leaves, fun isSending => Or.inl (later.sending isSending)⟩,
        inductionHypothesis later others⟩

variable (config)

omit [DecidableEq Addr] in
theorem collectOpen_disciplined :
    Disciplined config (collectOpen config) where
  numbers := List.nodup_nil
  queued := List.forall_mem_nil _
  sent := List.forall_mem_nil _
  waiting := List.forall_mem_nil _
  air := List.forall_mem_nil _
  data := List.forall_mem_nil _
  head := fun _ _ isQueue => nomatch isQueue
  timer := fun isSet => absurd rfl isSet
  sending := fun isSending => nomatch isSending

def emptyPacket : CollectPacket Nat :=
  .clear smallConfig

/-- The transmission of the first packet of a run. -/
def firstTransmission : Transmission Nat where
  number := 0
  packet := { emptyPacket with
    packetId := 10
    hops := 1
    ttl := 15
    maxRexmit := 3
    maxMacTransmissions := 2
    reliable := true
    sender := 9
    esender := 9
    receiver := 1
    datalen := 4
    rtmetric := 138 }

/-- A packet that is sent three times. -/
def sendThrice : Event Nat :=
  .send emptyPacket rfl 3 true

/-- The first packet of a run in the queue. -/
def firstItem : QueueItem Nat where
  number := 0
  buf := { emptyPacket with
    hops := 1
    ttl := 15
    maxRexmit := 3
    esender := 9
    datalen := 4 }
  lifetimer := true

def firstAck : CollectPacket Nat :=
  { emptyPacket with
    packetType := packetTypeAck
    packetId := 10
    sender := 1
    receiver := 9
    datalen := 4
    rtmetric := 10 }

end Collect

end Contiki.Rime
