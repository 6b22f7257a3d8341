import Contiki.Rime.CollectSteps

/-!
# The gradient of collect

A link estimate stays between one transmission and 255.  While the received
metrics leave room for it and the record of the parent is not removed by its
age, the metric of a node is larger than that of its parent.
-/

namespace Contiki.Rime

/-! ## Link estimates -/

namespace CollectLinkEstimate

/-- The estimate is that of a new neighbour, or between one and 255
transmissions. -/
def InRange (le : CollectLinkEstimate) : Prop :=
  le.numEstimates = 0 ∨
    (collectLinkEstimateUnit ≤ le.etxAccumulator ∧
      le.etxAccumulator ≤ 255 * collectLinkEstimateUnit)

theorem new_inRange : InRange .new :=
  Or.inl rfl

theorem average_inRange {tx etxAccumulator : Nat} (positive : 0 < tx)
    (small : tx < 256) (lower : 8 ≤ etxAccumulator)
    (upper : etxAccumulator ≤ 2040) :
    8 ≤ (tx * 8 * 3 + etxAccumulator * 5) % 4294967296 / 8 ∧
      (tx * 8 * 3 + etxAccumulator * 5) % 4294967296 / 8 ≤ 2040 := by
  have noWrap : (tx * 8 * 3 + etxAccumulator * 5) % 4294967296 =
      tx * 8 * 3 + etxAccumulator * 5 := Nat.mod_eq_of_lt (by omega)
  rw [noWrap]
  omega

theorem InRange.updateTx {le : CollectLinkEstimate} (inRange : le.InRange)
    (tx : Nat) : (le.updateTx tx).InRange := by
  unfold CollectLinkEstimate.updateTx
  dsimp only
  split
  case isTrue => exact inRange
  case isFalse positive =>
    have small : tx % 256 < 256 := Nat.mod_lt tx (by decide)
    have accumulator : 8 ≤ (if le.numEstimates = 0 then tx % 256 * 8
          else le.etxAccumulator) ∧
        (if le.numEstimates = 0 then tx % 256 * 8
          else le.etxAccumulator) ≤ 2040 := by
      split
      case isTrue => omega
      case isFalse known =>
        exact inRange.resolve_left known
    exact Or.inr
      (average_inRange (by omega) small accumulator.1 accumulator.2)

theorem InRange.estimate_bounds {le : CollectLinkEstimate}
    (inRange : le.InRange) :
    collectLinkEstimateUnit ≤ le.estimate ∧
      le.estimate ≤ 255 * collectLinkEstimateUnit := by
  unfold CollectLinkEstimate.estimate
  split
  case isTrue => decide
  case isFalse known =>
    rcases inRange with fresh | ⟨lower, upper⟩
    · exact absurd fresh known
    · simp only [collectLinkEstimateUnit] at lower upper ⊢
      omega

end CollectLinkEstimate

/-! ## Neighbours -/

/-- The largest metric to which every link estimate can be added. -/
def largestMetric : Nat := 65535 - 255 * collectLinkEstimateUnit

namespace CollectNeighbor

variable {Addr : Type}

/-- The metric leaves room for the link estimate. -/
structure InRange (n : CollectNeighbor Addr) : Prop where
  rtmetric : n.rtmetric ≤ largestMetric
  le : n.le.InRange

namespace InRange

variable {n : CollectNeighbor Addr}

theorem sum (inRange : n.InRange) : n.rtmetric + n.le.estimate < 65536 := by
  have small := inRange.rtmetric
  have estimate := inRange.le.estimate_bounds
  simp only [largestMetric, collectLinkEstimateUnit] at small estimate
  omega

theorem rtmetricLinkEstimate (inRange : n.InRange) :
    n.rtmetric < n.rtmetricLinkEstimate := by
  have sum := inRange.sum
  have estimate := inRange.le.estimate_bounds.1
  unfold CollectNeighbor.rtmetricLinkEstimate
  rw [Nat.mod_eq_of_lt sum]
  simp only [collectLinkEstimateUnit] at estimate
  omega

theorem updateRtmetric (inRange : n.InRange) {rtmetric : Nat}
    (small : rtmetric ≤ largestMetric) :
    (n.updateRtmetric rtmetric).InRange :=
  ⟨small, inRange.le⟩

theorem tx (inRange : n.InRange) (numTx : Nat) : (n.tx numTx).InRange :=
  ⟨inRange.rtmetric, inRange.le.updateTx numTx⟩

theorem txFail (inRange : n.InRange) (numTx : Nat) :
    (n.txFail numTx).InRange :=
  ⟨inRange.rtmetric, inRange.le.updateTx _⟩

theorem refresh (inRange : n.InRange) :
    (CollectNeighborList.refresh n).InRange := by
  unfold CollectNeighborList.refresh
  split
  · exact ⟨inRange.rtmetric, CollectLinkEstimate.new_inRange⟩
  · exact inRange

end InRange

theorem fresh_inRange (addr : Addr) {rtmetric : Nat}
    (small : rtmetric ≤ largestMetric) : (fresh addr rtmetric).InRange :=
  ⟨small, CollectLinkEstimate.new_inRange⟩

end CollectNeighbor

/-! ## The list of the neighbours -/

namespace CollectNeighborList

variable {Addr : Type} [DecidableEq Addr]

def InRange (neighbors : CollectNeighborList Addr) : Prop :=
  ∀ n ∈ neighbors, CollectNeighbor.InRange n

variable (n : CollectNeighbor Addr) {neighbors : CollectNeighborList Addr}

theorem InRange.modify (inRange : neighbors.InRange) (addr : Addr)
    {change : CollectNeighbor Addr → CollectNeighbor Addr}
    (keeps : ∀ n, n.InRange → (change n).InRange) :
    (neighbors.modify addr change).InRange := by
  induction neighbors with
  | nil => exact inRange
  | cons n rest inductionHypothesis =>
      have first := inRange n List.mem_cons_self
      have others : InRange rest := fun other member =>
        inRange other (List.mem_cons_of_mem n member)
      unfold CollectNeighborList.modify
      split
      · exact List.forall_mem_cons.mpr ⟨keeps n first, others⟩
      · exact List.forall_mem_cons.mpr ⟨first, inductionHypothesis others⟩

theorem InRange.add
    (inRange : neighbors.InRange) (maxNeighbors : Nat) (addr : Addr)
    {nrtmetric : Nat} (small : nrtmetric ≤ largestMetric) :
    (neighbors.add maxNeighbors addr nrtmetric).InRange := by
  have fresh := CollectNeighbor.fresh_inRange addr small
  unfold CollectNeighborList.add
  dsimp only
  split
  · exact inRange.modify addr fun _ _ => fresh
  · split
    · exact List.forall_mem_append.mpr
        ⟨inRange, List.forall_mem_singleton.mpr fresh⟩
    · split
      · split
        · exact inRange.modify _ fun _ _ => fresh
        · exact inRange
      · exact inRange

omit [DecidableEq Addr] in
theorem InRange.periodicLoop {visited rest : CollectNeighborList Addr}
    (before : visited.InRange) (behind : rest.InRange) :
    (visited.periodicLoop rest).InRange := by
  fun_induction CollectNeighborList.periodicLoop visited rest with
  | case1 visited => exact before
  | case2 n fresh old => exact before
  | case3 n fresh old head tail inductionHypothesis =>
      have others := (List.forall_mem_cons.mp behind).2
      rcases List.forall_mem_cons.mp others with ⟨first, others⟩
      exact inductionHypothesis (List.forall_mem_singleton.mpr first) others
  | case4 n fresh old head tail rest inductionHypothesis =>
      have others := (List.forall_mem_cons.mp behind).2
      rcases List.forall_mem_cons.mp before with ⟨first, before⟩
      exact inductionHypothesis (List.forall_mem_singleton.mpr first)
        (List.forall_mem_append.mpr ⟨before, others⟩)
  | case5 visited n rest fresh young inductionHypothesis =>
      rcases List.forall_mem_cons.mp behind with ⟨first, others⟩
      exact inductionHypothesis
        (List.forall_mem_append.mpr
          ⟨before, List.forall_mem_singleton.mpr first.refresh⟩) others

omit [DecidableEq Addr] in
theorem InRange.periodic
    (inRange : neighbors.InRange) : neighbors.periodic.InRange := by
  apply InRange.periodicLoop (List.forall_mem_nil _)
  intro n member
  rcases List.mem_map.mp member with ⟨original, isMember, rfl⟩
  have originalInRange := inRange original isMember
  exact ⟨originalInRange.rtmetric, originalInRange.le⟩

/-! ## The record of a neighbour -/

theorem find_append (first second : CollectNeighborList Addr) (addr : Addr) :
    find (first ++ second) addr =
      (find first addr).or (find second addr) :=
  List.find?_append

theorem find_cons_of_ne {n : CollectNeighbor Addr} {addr : Addr}
    (different : n.addr ≠ addr) (rest : CollectNeighborList Addr) :
    find (n :: rest) addr = find rest addr :=
  List.find?_cons_of_neg (by simpa using different)

theorem find_cons_of_eq {n : CollectNeighbor Addr} {addr : Addr}
    (same : n.addr = addr) (rest : CollectNeighborList Addr) :
    find (n :: rest) addr = some n :=
  List.find?_cons_of_pos (by simpa using same)

omit [DecidableEq Addr] in
@[simp]
theorem refresh_addr : (refresh n).addr = n.addr := by
  unfold refresh
  split <;> rfl

omit [DecidableEq Addr] in
@[simp]
theorem refresh_age : (refresh n).age = n.age := by
  unfold refresh
  split <;> rfl

omit [DecidableEq Addr] in
@[simp]
theorem refresh_rtmetric : (refresh n).rtmetric = n.rtmetric := by
  unfold refresh
  split <;> rfl

/-- The list has a record for the address that is not too old, with this
metric. -/
def Keeps (neighbors : CollectNeighborList Addr) (addr : Addr)
    (rtmetric : Nat) : Prop :=
  ∃ n, neighbors.find addr = some n ∧ n.age ≠ maxAge ∧
    n.rtmetric = rtmetric

/-- A record that is too old is not the one that is kept. -/
theorem Keeps.remove {first rest : CollectNeighborList Addr}
    {n : CollectNeighbor Addr} {addr : Addr} {rtmetric : Nat}
    (keeps : Keeps (first ++ n :: rest) addr rtmetric)
    (old : n.age = maxAge) : Keeps (first ++ rest) addr rtmetric := by
  rcases keeps with ⟨kept, found, young, metric⟩
  refine ⟨kept, ?_, young, metric⟩
  rw [find_append] at found ⊢
  cases before : find first addr with
  | some other =>
      rw [before] at found
      exact found
  | none =>
      rw [before] at found
      by_cases same : n.addr = addr
      · rw [find_cons_of_eq same] at found
        have isKept : n = kept := Option.some.inj found
        exact absurd (isKept ▸ old) young
      · rwa [find_cons_of_ne same] at found

theorem Keeps.refresh {first rest : CollectNeighborList Addr}
    {n : CollectNeighbor Addr} {addr : Addr} {rtmetric : Nat}
    (keeps : Keeps (first ++ n :: rest) addr rtmetric) :
    Keeps ((first ++ [CollectNeighborList.refresh n]) ++ rest) addr
      rtmetric := by
  rcases keeps with ⟨kept, found, young, metric⟩
  unfold Keeps
  rw [List.append_assoc, List.singleton_append]
  rw [find_append] at found ⊢
  cases before : find first addr with
  | some other =>
      rw [before] at found
      exact ⟨kept, found, young, metric⟩
  | none =>
      rw [before] at found
      by_cases same : n.addr = addr
      · rw [find_cons_of_eq same] at found
        have isKept : n = kept := Option.some.inj found
        subst isKept
        refine ⟨CollectNeighborList.refresh n, ?_, ?_, ?_⟩
        · exact find_cons_of_eq (by rwa [refresh_addr]) rest
        · rwa [refresh_age]
        · rwa [refresh_rtmetric]
      · rw [find_cons_of_ne same] at found
        refine ⟨kept, ?_, young, metric⟩
        rw [Option.none_or, find_cons_of_ne (by rwa [refresh_addr])]
        exact found

theorem Keeps.periodicLoop {visited rest : CollectNeighborList Addr}
    {addr : Addr} {rtmetric : Nat}
    (keeps : Keeps (visited ++ rest) addr rtmetric) :
    Keeps (visited.periodicLoop rest) addr rtmetric := by
  fun_induction CollectNeighborList.periodicLoop visited rest with
  | case1 visited => rwa [List.append_nil] at keeps
  | case2 n fresh old =>
      exact keeps.remove ((refresh_age n).symm.trans old)
  | case3 n fresh old head tail inductionHypothesis =>
      have removed : Keeps ([] ++ head :: tail) addr rtmetric :=
        keeps.remove ((refresh_age n).symm.trans old)
      exact inductionHypothesis removed
  | case4 n fresh old head tail rest inductionHypothesis =>
      have removed : Keeps ((head :: tail) ++ rest) addr rtmetric :=
        keeps.remove ((refresh_age n).symm.trans old)
      exact inductionHypothesis removed
  | case5 visited n rest fresh young inductionHypothesis =>
      exact inductionHypothesis keeps.refresh

theorem find_periodic {addr : Addr}
    {n : CollectNeighbor Addr} (found : neighbors.find addr = some n)
    (young : (n.age + 1) % 65536 ≠ maxAge) :
    ∃ kept, neighbors.periodic.find addr = some kept ∧
      kept.rtmetric = n.rtmetric := by
  have keeps : Keeps ([] ++ neighbors.map fun n =>
      { n with
        age := (n.age + 1) % 65536
        leAge := (n.leAge + 1) % 65536 }) addr n.rtmetric := by
    refine ⟨{ n with
      age := (n.age + 1) % 65536
      leAge := (n.leAge + 1) % 65536 }, ?_, young, rfl⟩
    unfold find at found ⊢
    rw [List.nil_append, List.find?_map]
    exact congrArg _ found
  rcases keeps.periodicLoop with ⟨kept, isKept, _, metric⟩
  exact ⟨kept, isKept, metric⟩

end CollectNeighborList

/-! ## The metric of the node -/

namespace Collect

variable {Addr : Type} [DecidableEq Addr] {config : CollectConfig Addr}

/-- The neighbours are in range and the queue has data packets. -/
structure Ranged (tc : Collect Addr) : Prop where
  neighbors : tc.neighborList.InRange
  data : DataQueue tc

/-- The metric is the largest one, or larger than that of the parent. -/
def Descends (tc : Collect Addr) : Prop :=
  tc.rtmetric = rtmetricMax ∨
    ∃ n, tc.neighborList.find tc.parent = some n ∧ n.rtmetric < tc.rtmetric

/-- Also the metric has its place between those of the neighbours. -/
structure Graded (tc : Collect Addr) : Prop extends Ranged tc where
  descends : tc.rtmetric ≠ rtmetricSink → Descends tc

omit [DecidableEq Addr] in
theorem Ranged.congr {first second : Collect Addr} (ranged : Ranged first)
    (neighborList : second.neighborList = first.neighborList)
    (sendQueue : second.sendQueue = first.sendQueue) : Ranged second where
  neighbors := neighborList ▸ ranged.neighbors
  data := fun item member => ranged.data item (sendQueue ▸ member)

theorem Graded.congr {first second : Collect Addr} (graded : Graded first)
    (same : SameRoute first second) (data : DataQueue second) :
    Graded second where
  neighbors := same.neighborList ▸ graded.neighbors
  data := data
  descends := by
    unfold Descends
    rw [same.neighborList, same.parent, same.rtmetric]
    exact graded.descends

theorem SameState.graded {first second : Collect Addr}
    (same : SameState first second) (graded : Graded first) :
    Graded second :=
  graded.congr ⟨same.neighborList, same.parent, same.rtmetric⟩
    fun item member => graded.data item (same.sendQueue ▸ member)

variable {tc : Collect Addr}

theorem Graded.sendQueuedPacket (graded : Graded tc) :
    Graded (tc.sendQueuedPacket config) :=
  (sendQueuedPacket_same config tc).graded graded

theorem Ranged.routed (ranged : Ranged tc) : Graded (tc.routed config) := by
  have isRouted := routed_eq config tc
  have neighborList : (tc.routed config).neighborList = tc.neighborList := by
    rw [isRouted]
  have sendQueue : (tc.routed config).sendQueue = tc.sendQueue := by
    rw [isRouted]
  have routedRanged := ranged.congr neighborList sendQueue
  refine { toRanged := routedRanged, descends := fun _ => ?_ }
  have rtmetric : (tc.routed config).rtmetric =
      if (tc.routed config).rtmetricCompute = rtmetricSink then rtmetricMax
      else (tc.routed config).rtmetricCompute := rfl
  unfold Descends
  rw [rtmetric]
  unfold rtmetricCompute
  cases found : (tc.routed config).neighborList.find
      (tc.routed config).parent with
  | none => exact Or.inl rfl
  | some n =>
      have member : n ∈ (tc.routed config).neighborList :=
        List.mem_of_find?_eq_some found
      have larger :=
        (routedRanged.neighbors n member).rtmetricLinkEstimate
      have notSink : n.rtmetricLinkEstimate ≠ rtmetricSink :=
        Nat.ne_zero_of_lt larger
      dsimp only
      rw [if_neg notSink]
      exact Or.inr ⟨n, rfl, larger⟩

/-- `update_rtmetric` puts the metric between those of the neighbours. -/
theorem Ranged.updateRtmetric (ranged : Ranged tc) :
    Graded (tc.updateRtmetric config) := by
  rcases updateRtmetric_cases config tc with
    ⟨isSink, same⟩ | ⟨_, same | same⟩
  · rw [same]
    exact { toRanged := ranged, descends := fun notSink =>
      absurd isSink notSink }
  · rw [same]
    exact ranged.routed
  · rw [same]
    exact ranged.routed.sendQueuedPacket

/-! ## The functions of collect -/

theorem Ranged.modifyNeighbor (ranged : Ranged tc)
    (addr : Addr) {change : CollectNeighbor Addr → CollectNeighbor Addr}
    (keeps : ∀ n : CollectNeighbor Addr, n.InRange → (change n).InRange) :
    Ranged (tc.modifyNeighbor addr change) :=
  ⟨ranged.neighbors.modify addr keeps, ranged.data⟩

theorem Ranged.tx (ranged : Ranged tc) (addr : Addr)
    (numTx : Nat) : Ranged (tc.modifyNeighbor addr (.tx numTx)) :=
  ranged.modifyNeighbor addr fun _ inRange => inRange.tx numTx

theorem Graded.retransmitCurrentPacket
    (graded : Graded tc) : Graded (tc.retransmitCurrentPacket config) := by
  unfold Collect.retransmitCurrentPacket
  split
  case h_1 => exact graded
  case h_2 item rest isQueue =>
    have updated : Graded (tc.updateRtmetric config) :=
      graded.toRanged.updateRtmetric
    generalize tc.updateRtmetric config = tc at updated ⊢
    dsimp only
    split
    · split <;> exact updated.congr ⟨rfl, rfl, rfl⟩ updated.data
    · split <;> exact updated.congr ⟨rfl, rfl, rfl⟩ updated.data

theorem Graded.sendNextPacket (graded : Graded tc) :
    Graded (tc.sendNextPacket config) :=
  Graded.sendQueuedPacket (graded.congr ⟨rfl, rfl, rfl⟩
    fun item member => graded.data item (List.mem_of_mem_tail member))

theorem Graded.handleAckMetric (graded : Graded tc)
    (sender : Addr) {rtmetric : Nat} (small : rtmetric ≤ largestMetric) :
    Graded (tc.handleAckMetric config sender rtmetric) := by
  unfold Collect.handleAckMetric
  dsimp only
  generalize isCounted : (if tc.transmissions = 0 then _ else tc) = counted
  have countedGraded : Graded counted := by
    rw [← isCounted]
    split
    · exact graded.congr ⟨rfl, rfl, rfl⟩ graded.data
    · exact graded
  split
  · exact Ranged.updateRtmetric
      ((countedGraded.toRanged.tx sender _).modifyNeighbor sender
        fun _ inRange => inRange.updateRtmetric small)
  · exact countedGraded

theorem Graded.handleAck (graded : Graded tc)
    (small : tc.packetbuf.rtmetric ≤ largestMetric) :
    Graded (tc.handleAck config) := by
  unfold Collect.handleAck
  split
  case isFalse => exact graded
  case isTrue =>
    dsimp only
    have metric : Graded (tc.handleAckMetric config tc.packetbuf.sender
      tc.packetbuf.rtmetric) := graded.handleAckMetric _ small
    generalize tc.handleAckMetric config tc.packetbuf.sender
      tc.packetbuf.rtmetric = updated at metric ⊢
    generalize isCongested : (if tc.packetbuf.flags &&& ackFlagsCongested ≠ 0
      then _ else updated) = congested
    have congestedGraded : Graded congested := by
      rw [← isCongested]
      split
      · exact (metric.toRanged.tx _ _).updateRtmetric
      · exact metric
    split
    · exact congestedGraded.sendNextPacket
    · split
      · exact congestedGraded.sendNextPacket
      · have failed : Graded ((congested.modifyNeighbor tc.packetbuf.sender
            (.tx congested.maxRexmits)).updateRtmetric config) :=
          (congestedGraded.toRanged.tx _ _).updateRtmetric
        exact failed.congr ⟨rfl, rfl, rfl⟩ failed.data

omit [DecidableEq Addr] in
theorem addPacketToRecentPackets_same (tc : Collect Addr) :
    SameState tc tc.addPacketToRecentPackets := by
  unfold addPacketToRecentPackets
  split <;> exact ⟨rfl, rfl, rfl, rfl, rfl, rfl⟩

theorem Graded.enqueue (graded : Graded tc)
    (isData : tc.packetbuf.packetType = packetTypeData) (rexmits : Nat)
    (hasQueuebuf : Bool) :
    Graded
      (tc.packetqueueEnqueuePacketbuf config rexmits hasQueuebuf).1 := by
  have data : DataQueue
      (tc.packetqueueEnqueuePacketbuf config rexmits hasQueuebuf).1 :=
    graded.data.enqueue isData rexmits hasQueuebuf
  exact graded.congr (enqueue_sameRoute tc rexmits hasQueuebuf) data

theorem Graded.dataReceived (graded : Graded tc)
    (isData : tc.packetbuf.packetType = packetTypeData) (rtmetric : Nat)
    (hasQueuebuf : Bool) :
    Graded (tc.dataReceived config rtmetric hasQueuebuf) := by
  have sendAck : ∀ {sending : Collect Addr} (receiver : Addr) (flags : Nat),
      Graded sending → Graded (sending.sendAck config receiver flags) :=
    fun _ _ isGraded => isGraded.congr ⟨rfl, rfl, rfl⟩ isGraded.data
  unfold Collect.dataReceived
  dsimp only
  split
  · exact sendAck _ _ graded
  · split
    · have added := (addPacketToRecentPackets_same tc).graded graded
      exact added.congr ⟨rfl, rfl, rfl⟩ added.data
    · split
      · have forwarded : ∀ packet : CollectPacket Addr,
            Graded { tc with packetbuf := packet } :=
          fun _ => graded.congr ⟨rfl, rfl, rfl⟩ graded.data
        split
        · split
          · apply Graded.sendQueuedPacket
            apply sendAck
            apply (addPacketToRecentPackets_same _).graded
            apply (forwarded _).enqueue
            exact isData
          · apply sendAck
            apply (forwarded _).enqueue
            exact isData
        · rw [if_neg Bool.false_ne_true]
          exact sendAck _ _ (forwarded _)
      · split
        · exact sendAck _ _ graded
        · exact graded

theorem Graded.nodePacketReceived (graded : Graded tc)
    {packet : CollectPacket Addr} (small : packet.rtmetric ≤ largestMetric)
    (hasQueuebuf : Bool) :
    Graded (tc.nodePacketReceived config packet hasQueuebuf) := by
  have buffered : Graded { tc with packetbuf := packet } :=
    graded.congr ⟨rfl, rfl, rfl⟩ graded.data
  have handled : ∀ updated : Collect Addr, Graded updated →
      KeepsPacketbuf { tc with packetbuf := packet } updated →
      Graded (if updated.packetbuf.packetType = packetTypeData then
          updated.dataReceived config packet.rtmetric hasQueuebuf
        else if updated.packetbuf.packetType = packetTypeAck then
          updated.handleAck config
        else updated) := by
    intro updated updatedGraded keeps
    split
    case isTrue isData => exact updatedGraded.dataReceived isData _ _
    case isFalse notData =>
      split
      · apply updatedGraded.handleAck
        rw [keeps.resolve_right notData]
        exact small
      · exact updatedGraded
  unfold Collect.nodePacketReceived
  dsimp only
  cases found : tc.neighborList.find packet.sender with
  | none => exact handled _ buffered (Or.inl rfl)
  | some n =>
      have changed := buffered.toRanged.modifyNeighbor packet.sender
        fun _ inRange => inRange.updateRtmetric small
      exact handled _ changed.updateRtmetric changed.data.updateRtmetric

theorem Graded.timedout (graded : Graded tc) :
    Graded (tc.timedout config) := by
  have idle : Ranged { tc with sending := false } :=
    ⟨graded.neighbors, graded.data⟩
  have failed := idle.modifyNeighbor tc.currentParent
    fun _ inRange => inRange.txFail tc.maxRexmits
  exact failed.updateRtmetric.sendNextPacket

theorem Graded.nodePacketSent (graded : Graded tc)
    (transmission : Transmission Addr) (transmissions : Nat) :
    Graded (tc.nodePacketSent config transmission transmissions) := by
  unfold Collect.nodePacketSent
  dsimp only
  split
  · split
    · exact Graded.timedout (graded.congr ⟨rfl, rfl, rfl⟩ graded.data)
    · exact graded.congr ⟨rfl, rfl, rfl⟩ graded.data
  · exact graded.congr ⟨rfl, rfl, rfl⟩ graded.data

theorem Graded.retransmitCallback
    (graded : Graded tc) : Graded (tc.retransmitCallback config) := by
  unfold Collect.retransmitCallback
  split
  · exact graded.timedout
  · exact Graded.retransmitCurrentPacket
      (graded.congr ⟨rfl, rfl, rfl⟩ graded.data)

theorem Graded.retransmissionTimerExpired (graded : Graded tc) :
    Graded (tc.retransmissionTimerExpired config) := by
  unfold Collect.retransmissionTimerExpired
  split
  · exact graded
  · exact Graded.retransmitCallback (graded.congr ⟨rfl, rfl, rfl⟩ graded.data)
  · exact Graded.retransmitCallback (graded.congr ⟨rfl, rfl, rfl⟩ graded.data)

theorem Graded.receivedAnnouncement
    (graded : Graded tc) (sender : Addr) {value : Nat}
    (small : value ≤ largestMetric) :
    Graded (tc.receivedAnnouncement config sender value) := by
  unfold Collect.receivedAnnouncement
  apply Ranged.updateRtmetric
  split
  · split
    · exact ⟨graded.neighbors.add _ sender small, graded.data⟩
    · exact graded.toRanged
  · exact graded.toRanged.modifyNeighbor sender
      fun _ inRange => inRange.updateRtmetric small

/-- The record of the parent is not removed by its age, or nothing depends on
it. -/
def KeepsParent (tc : Collect Addr) : Prop :=
  tc.rtmetric = rtmetricSink ∨ tc.rtmetric = rtmetricMax ∨
    ∀ n, tc.neighborList.find tc.parent = some n →
      (n.age + 1) % 65536 ≠ maxAge

theorem Graded.neighborPeriodic (graded : Graded tc)
    (keeps : KeepsParent tc) : Graded tc.neighborPeriodic where
  neighbors := graded.neighbors.periodic
  data := graded.data
  descends := by
    intro notSink
    rcases graded.descends notSink with isMax | ⟨n, found, larger⟩
    · exact Or.inl isMax
    · rcases keeps with isSink | isMax | young
      · exact absurd isSink notSink
      · exact Or.inl isMax
      · rcases CollectNeighborList.find_periodic found (young n found) with
          ⟨kept, isKept, metric⟩
        exact Or.inr ⟨kept, isKept, lt_of_eq_of_lt metric larger⟩

theorem Graded.enqueueDummyPacket (graded : Graded tc)
    (rexmits : Nat) (hasQueuebuf : Bool) :
    Graded (tc.enqueueDummyPacket config rexmits hasQueuebuf).1 :=
  graded.congr (enqueueDummyPacket_sameRoute tc rexmits hasQueuebuf)
    (graded.data.enqueueDummyPacket rexmits hasQueuebuf)

/-- While a new neighbour is probed, it takes the place of the parent. -/
theorem Graded.proactiveProbingCallback
    (graded : Graded tc) (hasQueuebuf : Bool) :
    Graded (tc.proactiveProbingCallback config hasQueuebuf) := by
  unfold Collect.proactiveProbingCallback
  dsimp only
  split
  case isFalse => exact graded
  case isTrue =>
    split
    case h_1 => exact graded
    case h_2 =>
      split
      case h_1 => exact graded
      case h_2 n found =>
        have same := @enqueueDummyPacket_sameRoute _ _ config
          { tc with parent := n.addr } proactiveProbingRexmits hasQueuebuf
        have data := @DataQueue.enqueueDummyPacket _ _ config
          { tc with parent := n.addr } graded.data proactiveProbingRexmits
          hasQueuebuf
        split
        · have sent := sendQueuedPacket_same config
            (Collect.enqueueDummyPacket config { tc with parent := n.addr }
              proactiveProbingRexmits hasQueuebuf).1
          refine graded.congr ⟨?_, rfl, ?_⟩ ?_
          · exact sent.neighborList.trans same.neighborList
          · exact sent.rtmetric.trans same.rtmetric
          · intro item member
            exact data item (sent.sendQueue ▸ member)
        · exact graded.congr ⟨same.neighborList, rfl, same.rtmetric⟩ data

theorem Graded.sendKeepalive (graded : Graded tc) (hasQueuebuf : Bool) :
    Graded (tc.sendKeepalive config hasQueuebuf) := by
  unfold Collect.sendKeepalive
  dsimp only
  split
  · split
    · exact (graded.enqueueDummyPacket _ _).sendQueuedPacket
    · exact graded.enqueueDummyPacket _ _
  · exact graded

theorem Graded.collectSend (graded : Graded tc) {packet : CollectPacket Addr}
    (isData : packet.packetType = packetTypeData) (rexmits : Int)
    (hasQueuebuf : Bool) :
    Graded (tc.collectSend config packet rexmits hasQueuebuf) := by
  rcases collectSend_cases config tc packet rexmits hasQueuebuf with
    ⟨eseqno, buf, same | ⟨lifetime, _, same⟩, packetType⟩
  · rw [same]
    exact graded.congr ⟨rfl, rfl, rfl⟩ graded.data
  · rw [same]
    have buffered : Graded { tc with eseqno, packetbuf := buf } :=
      graded.congr ⟨rfl, rfl, rfl⟩ graded.data
    have enqueued := @Graded.enqueue _ _ config _ buffered
      (packetType.trans isData) lifetime hasQueuebuf
    unfold sendEnqueued
    split
    · exact enqueued.sendQueuedPacket
    · exact enqueued

theorem Graded.collectSetSink (graded : Graded tc) (shouldBeSink : Bool) :
    Graded (tc.collectSetSink config shouldBeSink) := by
  unfold Collect.collectSetSink
  apply Ranged.updateRtmetric
  split
  · exact ⟨graded.neighbors, List.forall_mem_nil _⟩
  · exact ⟨graded.neighbors, graded.data⟩

theorem Graded.collectPurge (graded : Graded tc) :
    Graded (tc.collectPurge config) := by
  have empty : Ranged { tc with
      neighborList := []
      parent := config.linkaddrNull } :=
    ⟨List.forall_mem_nil _, graded.data⟩
  have updated : Graded (Collect.updateRtmetric config { tc with
      neighborList := []
      parent := config.linkaddrNull }) := empty.updateRtmetric
  have neighborList := (updateRtmetric_same config { tc with
      neighborList := []
      parent := config.linkaddrNull }).2.1
  refine ⟨⟨updated.neighbors, updated.data⟩, fun notSink => Or.inl ?_⟩
  rcases updated.descends notSink with isMax | ⟨n, found, _⟩
  · exact isMax
  · rw [neighborList] at found
    exact nomatch found

/-! ## Runs -/

/-- The received metrics leave room for the link estimates, and a timeout does
not remove the record of the parent. -/
def Mild (tc : Collect Addr) : Event Addr → Prop
  | .packetReceived packet _ => packet.rtmetric ≤ largestMetric
  | .announcement _ value => value ≤ largestMetric
  | .periodic => KeepsParent tc
  | _ => True

theorem Graded.step (graded : Graded tc)
    {event : Event Addr} (mild : Mild tc event) :
    Graded (tc.step config event) := by
  cases event with
  | send packet isData rexmits hasQueuebuf =>
      exact graded.collectSend isData rexmits hasQueuebuf
  | packetReceived packet hasQueuebuf =>
      exact graded.nodePacketReceived mild hasQueuebuf
  | packetSent transmission transmissions =>
      unfold Collect.step
      dsimp only
      split
      · exact graded.nodePacketSent transmission transmissions
      · exact graded
  | retransmissionTimer => exact graded.retransmissionTimerExpired
  | lifetimer number =>
      exact graded.congr ⟨rfl, rfl, rfl⟩
        fun item member => graded.data item (List.mem_of_mem_filter member)
  | announcement sender value => exact graded.receivedAnnouncement sender mild
  | periodic => exact graded.neighborPeriodic mild
  | proactiveProbing hasQueuebuf =>
      exact graded.proactiveProbingCallback hasQueuebuf
  | keepalive hasQueuebuf => exact graded.sendKeepalive hasQueuebuf
  | setSink shouldBeSink => exact graded.collectSetSink shouldBeSink
  | purge => exact graded.collectPurge

variable (config)

/-- Every step of a run is mild. -/
def MildRun (tc : Collect Addr) : List (Event Addr) → Prop
  | [] => True
  | event :: events => Mild tc event ∧ MildRun (tc.step config event) events

/-- A node that is not a sink has a metric that is the largest one or larger
than that of its parent, and no sum of a metric and a link estimate is too
large for its type. -/
def Gradient (tc : Collect Addr) : Prop :=
  tc.rtmetric ≠ rtmetricSink →
    (tc.rtmetric = rtmetricMax ∨ ∃ n,
      tc.neighborList.find tc.parent = some n ∧ n.rtmetric < tc.rtmetric) ∧
    ∀ n ∈ tc.neighborList, n.rtmetric + n.le.estimate < 65536

/-- All states of a run have a gradient. -/
def GradientRun (tc : Collect Addr) : List (Event Addr) → Prop
  | [] => Gradient tc
  | event :: events =>
      Gradient tc ∧ GradientRun (tc.step config event) events

variable {config}

theorem Graded.gradient {tc : Collect Addr} (graded : Graded tc) :
    Gradient tc :=
  fun notSink => ⟨graded.descends notSink,
    fun n member => (graded.neighbors n member).sum⟩

theorem Graded.gradientRun {tc : Collect Addr} (graded : Graded tc)
    {events : List (Event Addr)} (mild : MildRun config tc events) :
    GradientRun config tc events := by
  induction events generalizing tc with
  | nil => exact graded.gradient
  | cons event events inductionHypothesis =>
      rcases mild with ⟨first, others⟩
      exact ⟨graded.gradient, inductionHypothesis (graded.step first) others⟩

variable (config)

theorem collectOpen_graded : Graded (collectOpen config) where
  neighbors := List.forall_mem_nil _
  data := List.forall_mem_nil _
  descends := fun _ => Or.inl rfl

/-- The gradient of a node over every run with mild steps. -/
theorem collect_gradientRun {events : List (Event Addr)}
    (mild : MildRun config (collectOpen config) events) :
    GradientRun config (collectOpen config) events :=
  (collectOpen_graded config).gradientRun mild

/-- A neighbour announces two metrics. -/
theorem twoAnnouncements_gradientRun :
    GradientRun smallConfig (collectOpen smallConfig)
      [.announcement 1 10, .announcement 1 20] := by
  have first : 10 ≤ largestMetric := by decide
  have second : 20 ≤ largestMetric := by decide
  exact collect_gradientRun smallConfig ⟨first, second, trivial⟩

/-- After the second announcement the metric of the neighbour and its link
estimate are 65628 together, and the metric of the node is 92. -/
theorem largeAnnouncement_not_gradientRun :
    ¬ ∀ events,
      GradientRun smallConfig (collectOpen smallConfig) events := by
  intro always
  have isGradient : Gradient
      (((collectOpen smallConfig).step smallConfig
        (.announcement 1 10)).step smallConfig (.announcement 1 65500)) :=
    (always [.announcement 1 10, .announcement 1 65500]).2.2
  have sums := (isGradient (by decide +kernel)).2
  have small := sums (.fresh 1 65500) (by decide +kernel)
  exact absurd small (by decide)

end Collect

end Contiki.Rime
