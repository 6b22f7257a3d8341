import Contiki.Lib.Bits
import Contiki.Mac.CsmaRuns

/-!
# Transmission attempts of CSMA

The counters of transmissions and of collisions belong to a neighbour queue
and not to a packet, and only the transmissions are compared with the limit of
a packet.  Beside the code, the attempts of each packet are counted.
-/

namespace Contiki.Mac

open Contiki.Lib

variable {config : CsmaConfig} {Addr Callback : Type}

/-- The attempts of an outcome that did not collide. -/
def MacTx.transmissions (status : MacTx) (numTransmissions : Nat) : Nat :=
  match status with
  | .ok | .noack => numTransmissions
  | _ => 0

/-- The attempts of an outcome that collided. -/
def MacTx.collisions (status : MacTx) (numTransmissions : Nat) : Nat :=
  match status with
  | .collision => numTransmissions
  | _ => 0

def MacTx.attempts (status : MacTx) (numTransmissions : Nat) : Nat :=
  status.transmissions numTransmissions + status.collisions numTransmissions

/-- What is known about a packet when an outcome is reported for it. -/
structure Outcome where
  maxTransmissions : Nat
  /-- The attempts so far, with those of this outcome. -/
  attempts : Nat
  last : Nat
  /-- The attempts so far that did not collide. -/
  transmissions : Nat
  /-- The count that the sent callback is called with. -/
  reported : Option Nat

/-- The attempts are bounded, and the callback is called with the attempts of
this packet that did not collide. -/
structure Outcome.Proper (outcome : Outcome) : Prop where
  bounded : outcome.attempts ≤ outcome.maxTransmissions + outcome.last
  own : ∀ count, outcome.reported = some count →
    count = outcome.transmissions

/-- CSMA with the attempts of each packet since `send_packet` accepted it. -/
structure Audit (config : CsmaConfig) (Addr Callback : Type) where
  csma : Csma config Addr Callback
  attempts : Fin config.maxQueuedPackets → Nat
  transmissions : Fin config.maxQueuedPackets → Nat
  outcomes : List Outcome

namespace Audit

def maxTransmissions (audit : Audit config Addr Callback)
    (q : Fin config.maxQueuedPackets) : Nat :=
  match audit.csma.metadataOf q with
  | some metadata => (audit.csma.metadata metadata).maxTransmissions.toNat
  | none => 0

/-- The attempts of an outcome are those of a packet. -/
def record (audit : Audit config Addr Callback)
    (q : Fin config.maxQueuedPackets) (status : MacTx)
    (numTransmissions : Nat) : Audit config Addr Callback :=
  { audit with
    attempts := Function.update audit.attempts q
      (audit.attempts q + status.attempts numTransmissions)
    transmissions := Function.update audit.transmissions q
      (audit.transmissions q + status.transmissions numTransmissions) }

/-- An outcome is reported for a packet of a neighbour. -/
def report (audit : Audit config Addr Callback)
    (n : Fin config.maxNeighborQueues) (status : MacTx)
    (numTransmissions : Nat) (attrs : MacAttrs) (randomRand : Nat) :
    Audit config Addr Callback :=
  let csma := audit.csma.packetSent (some n) status numTransmissions attrs
    randomRand
  match audit.csma.findPacket n attrs.macSeqno with
  | none => { audit with csma }
  | some q =>
      let recorded := audit.record q status numTransmissions
      { recorded with
        csma
        outcomes := audit.outcomes ++
          [{ maxTransmissions := audit.maxTransmissions q
             attempts := recorded.attempts q
             last := status.attempts numTransmissions
             transmissions := recorded.transmissions q
             reported := (csma.called[audit.csma.called.length]?).map
               fun call => call.2.2 }] }

/-- The numbers of the packets that are queued. -/
def ofQueued (audit : Audit config Addr Callback)
    (numbers : Fin config.maxQueuedPackets → Nat)
    (p : Fin config.maxQueuedPackets) : Nat :=
  if audit.csma.packetMemb p then numbers p else 0

variable [DecidableEq Addr]

/-- A step of CSMA; a packet that is accepted has not been tried. -/
def step (audit : Audit config Addr Callback) :
    Csma.Event config Addr Callback → Audit config Addr Callback
  | .send sent addr attrs randomRand hasQueuebuf =>
      { audit with
        csma := audit.csma.sendPacket sent addr attrs randomRand hasQueuebuf
        attempts := audit.ofQueued audit.attempts
        transmissions := audit.ofQueued audit.transmissions }
  | .report none status numTransmissions attrs randomRand =>
      { audit with
        csma := audit.csma.packetSent none status numTransmissions attrs
          randomRand }
  | .report (some n) status numTransmissions attrs randomRand =>
      audit.report n status numTransmissions attrs randomRand

def run (audit : Audit config Addr Callback)
    (events : List (Csma.Event config Addr Callback)) :
    Audit config Addr Callback :=
  events.foldl step audit

omit [DecidableEq Addr] in
def initial (config : CsmaConfig) (addr : Addr)
    (metadata : Fin config.maxQueuedPackets → QbufMetadata Callback) :
    Audit config Addr Callback where
  csma := Csma.initial config addr metadata
  attempts := fun _ => 0
  transmissions := fun _ => 0
  outcomes := []

theorem csma_run (audit : Audit config Addr Callback)
    (events : List (Csma.Event config Addr Callback)) :
    (audit.run events).csma = audit.csma.run events := by
  induction events generalizing audit with
  | nil =>
      rfl
  | cons event events inductionHypothesis =>
      have same : (audit.step event).csma = audit.csma.step event := by
        cases event with
        | send sent addr attrs randomRand hasQueuebuf =>
            rfl
        | report n status numTransmissions attrs randomRand =>
            cases n with
            | none =>
                rfl
            | some n =>
                change (audit.report n status numTransmissions attrs
                  randomRand).csma = _
                unfold report
                split
                · rfl
                · rfl
      have later := inductionHypothesis (audit.step event)
      rw [same] at later
      exact later

/-! ## Fair outcomes -/

/-- The attempts for a packet so far that collided. -/
def collisions (audit : Audit config Addr Callback)
    (q : Fin config.maxQueuedPackets) : Nat :=
  audit.attempts q - audit.transmissions q

/-- When an outcome is reported for a packet, no other packet of the
neighbour has been tried, at most one attempt for the packet collided or the
collisions leave room below its limit, and no counter overflows.  Attempts
that did not collide are not bounded. -/
structure FairOutcome (audit : Audit config Addr Callback)
    (n : Fin config.maxNeighborQueues) (q : Fin config.maxQueuedPackets)
    (status : MacTx) (numTransmissions : Nat) : Prop where
  others : ∀ other ∈ audit.csma.queue n, other ≠ q →
    audit.attempts other = 0
  room : audit.collisions q ≤ 1 ∨
    audit.transmissions q + audit.collisions q ≤ audit.maxTransmissions q
  transmissionsFit : (audit.csma.neighbors n).transmissions.toNat +
    status.transmissions numTransmissions < 256
  collisionsFit : (audit.csma.neighbors n).collisions.toNat +
    status.collisions numTransmissions < 256

instance (audit : Audit config Addr Callback)
    (n : Fin config.maxNeighborQueues) (q : Fin config.maxQueuedPackets)
    (status : MacTx) (numTransmissions : Nat) :
    Decidable (audit.FairOutcome n q status numTransmissions) :=
  decidable_of_iff ((∀ other ∈ audit.csma.queue n, other ≠ q →
      audit.attempts other = 0) ∧
    (audit.collisions q ≤ 1 ∨ audit.transmissions q + audit.collisions q ≤
      audit.maxTransmissions q) ∧
    (audit.csma.neighbors n).transmissions.toNat +
      status.transmissions numTransmissions < 256 ∧
    (audit.csma.neighbors n).collisions.toNat +
      status.collisions numTransmissions < 256)
    ⟨fun fair => ⟨fair.1, fair.2.1, fair.2.2.1, fair.2.2.2⟩,
      fun fair => ⟨fair.others, fair.room, fair.transmissionsFit,
        fair.collisionsFit⟩⟩

/-- The outcome for the packet that is found is fair; one that finds no packet
of a neighbour with packets is no attempt. -/
def FairFound (audit : Audit config Addr Callback)
    (n : Fin config.maxNeighborQueues) (status : MacTx)
    (numTransmissions : Nat) : Option (Fin config.maxQueuedPackets) → Prop
  | none =>
      status.attempts numTransmissions = 0 ∨ audit.csma.queue n = []
  | some q => audit.FairOutcome n q status numTransmissions

instance decidableFairFound (audit : Audit config Addr Callback)
    (n : Fin config.maxNeighborQueues) (status : MacTx)
    (numTransmissions : Nat) :
    ∀ found, Decidable (audit.FairFound n status numTransmissions found)
  | none => inferInstanceAs (Decidable (_ ∨ _))
  | some q => inferInstanceAs (Decidable (audit.FairOutcome n q _ _))

/-- The outcomes that are reported are fair. -/
def Fair (audit : Audit config Addr Callback) :
    Csma.Event config Addr Callback → Prop
  | .send _ _ _ _ _ => True
  | .report none _ _ _ _ => True
  | .report (some n) status numTransmissions attrs _ =>
      audit.FairFound n status numTransmissions
        (audit.csma.findPacket n attrs.macSeqno)

instance decidableFair (audit : Audit config Addr Callback) :
    ∀ event, Decidable (audit.Fair event)
  | .send _ _ _ _ _ => .isTrue trivial
  | .report none _ _ _ _ => .isTrue trivial
  | .report (some n) status numTransmissions attrs _ =>
      decidableFairFound audit n status numTransmissions
        (audit.csma.findPacket n attrs.macSeqno)

/-- Each step of a run is fair in the state before it. -/
def FairRun (audit : Audit config Addr Callback) :
    List (Csma.Event config Addr Callback) → Prop
  | [] => True
  | event :: events => audit.Fair event ∧ (audit.step event).FairRun events

instance decidableFairRun :
    ∀ (events : List (Csma.Event config Addr Callback))
      (audit : Audit config Addr Callback), Decidable (audit.FairRun events)
  | [], _ => .isTrue trivial
  | event :: events, audit =>
      have := decidableFairRun events (audit.step event)
      inferInstanceAs (Decidable (_ ∧ _))

end Audit

/-! ## The counters of a neighbour -/

namespace Csma

/-- The counters of a neighbour are the sums over its queue. -/
def Counted (csma : Csma config Addr Callback)
    (transmissions attempts : Fin config.maxQueuedPackets → Nat)
    (n : Fin config.maxNeighborQueues) : Prop :=
  (csma.neighbors n).transmissions.toNat =
    ((csma.queue n).map transmissions).sum ∧
  (csma.neighbors n).transmissions.toNat +
    (csma.neighbors n).collisions.toNat =
      ((csma.queue n).map attempts).sum

/-- The counters of all neighbours are the sums over their queues. -/
def AllCounted (csma : Csma config Addr Callback)
    (transmissions attempts : Fin config.maxQueuedPackets → Nat) : Prop :=
  ∀ n ∈ csma.neighborList, Counted csma transmissions attempts n

variable {csma later : Csma config Addr Callback}
  {transmissions attempts : Fin config.maxQueuedPackets → Nat}
  {n : Fin config.maxNeighborQueues}

theorem Counted.congr
    {transmissions' attempts' : Fin config.maxQueuedPackets → Nat}
    (counted : Counted csma transmissions attempts n)
    (same : later.neighbors n = csma.neighbors n)
    (sameTransmissions : ∀ p ∈ csma.queue n,
      transmissions' p = transmissions p)
    (sameAttempts : ∀ p ∈ csma.queue n, attempts' p = attempts p) :
    Counted later transmissions' attempts' n := by
  have queues : later.queue n = csma.queue n := by
    unfold queue
    rw [same]
  unfold Counted
  rw [same, queues, List.map_congr_left sameTransmissions,
    List.map_congr_left sameAttempts]
  exact counted

theorem AllCounted.congr
    (counted : AllCounted csma transmissions attempts)
    (neighbors : later.neighbors = csma.neighbors)
    (neighborList : later.neighborList ⊆ csma.neighborList) :
    AllCounted later transmissions attempts :=
  fun n listed => (counted n (neighborList listed)).congr
    (congrFun neighbors n) (fun _ _ => rfl) (fun _ _ => rfl)

/-! ### Sending -/

theorem AllCounted.findNeighbor [DecidableEq Addr]
    (counted : AllCounted csma transmissions attempts) (addr : Addr) :
    AllCounted (csma.findNeighbor addr).2 transmissions attempts := by
  unfold Csma.findNeighbor
  split
  case h_1 => exact counted
  case h_2 =>
    split
    case h_1 => exact counted
    case h_2 n neighborMemb _ =>
      intro other listed
      by_cases same : other = n
      case pos =>
        subst same
        unfold Counted queue setNeighbor
        simp
      case neg =>
        have wasListed : other ∈ csma.neighborList := by
          rcases List.mem_append.1 listed with old | new
          · exact List.mem_of_mem_erase old
          · exact absurd (List.mem_singleton.1 new) same
        exact (counted other wasListed).congr
          (Function.update_of_ne same _ _) (fun _ _ => rfl) (fun _ _ => rfl)

theorem findNeighbor_blocks [DecidableEq Addr]
    (csma : Csma config Addr Callback) (addr : Addr) :
    (csma.findNeighbor addr).2.packetMemb = csma.packetMemb ∧
      (csma.findNeighbor addr).2.metadataMemb = csma.metadataMemb ∧
      (csma.findNeighbor addr).2.packets = csma.packets ∧
      (csma.findNeighbor addr).2.metadata = csma.metadata := by
  unfold Csma.findNeighbor
  split
  case h_1 => exact ⟨rfl, rfl, rfl, rfl⟩
  case h_2 =>
    split
    case h_1 => exact ⟨rfl, rfl, rfl, rfl⟩
    case h_2 => exact ⟨rfl, rfl, rfl, rfl⟩

theorem allocPacket_fields (csma : Csma config Addr Callback)
    (attrs : MacAttrs) (hasQueuebuf : Bool) :
    (csma.allocPacket attrs hasQueuebuf).2.neighbors = csma.neighbors ∧
      (csma.allocPacket attrs hasQueuebuf).2.neighborList =
        csma.neighborList ∧
      ∀ q metadata, (csma.allocPacket attrs hasQueuebuf).1 =
        some (q, metadata) →
          csma.packetMemb q = false ∧ csma.metadataMemb metadata = false := by
  unfold Csma.allocPacket
  rcases csma.packetMemb.membAlloc_cases with ⟨q, unused, allocated⟩ | full
  · rw [allocated]
    rcases csma.metadataMemb.membAlloc_cases with
      ⟨block, unusedBlock, isBlock⟩ | fullBlocks
    · rw [isBlock]
      cases hasQueuebuf with
      | true =>
          refine ⟨rfl, rfl, ?_⟩
          rintro _ _ ⟨⟩
          exact ⟨unused, unusedBlock⟩
      | false => exact ⟨rfl, rfl, by rintro _ _ ⟨⟩⟩
    · rw [fullBlocks]
      exact ⟨rfl, rfl, by rintro _ _ ⟨⟩⟩
  · rw [full]
    exact ⟨rfl, rfl, by rintro _ _ ⟨⟩⟩

theorem allocPacket_blocks (csma : Csma config Addr Callback)
    (attrs : MacAttrs) (hasQueuebuf : Bool) :
    (csma.allocPacket attrs hasQueuebuf).2.metadata = csma.metadata ∧
      ∀ p, csma.packetMemb p = true →
        (csma.allocPacket attrs hasQueuebuf).2.metadataOf p =
          csma.metadataOf p := by
  unfold Csma.allocPacket
  rcases csma.packetMemb.membAlloc_cases with ⟨q, unused, allocated⟩ | full
  · have different : ∀ p, csma.packetMemb p = true → p ≠ q := by
      rintro p inUse rfl
      rw [unused] at inUse
      cases inUse
    rw [allocated]
    dsimp only
    split
    all_goals
      refine ⟨rfl, fun p inUse => ?_⟩
      simp [metadataOf, different p inUse]
  · rw [full]
    exact ⟨rfl, fun _ _ => rfl⟩

/-- A call of `send_packet` keeps the metadata of the queued packets. -/
theorem sendPacket_blocks [DecidableEq Addr]
    (csma : Csma config Addr Callback) (sent : Callback) (addr : Addr)
    (attrs : MacAttrs) (randomRand : UInt16) (hasQueuebuf : Bool)
    {p metadata : Fin config.maxQueuedPackets}
    (inUse : csma.packetMemb p = true)
    (blockInUse : csma.metadataMemb metadata = true) :
    let later := csma.sendPacket sent addr attrs randomRand hasQueuebuf
    later.metadataOf p = csma.metadataOf p ∧
      later.metadata metadata = csma.metadata metadata := by
  intro later
  unfold later Csma.sendPacket
  dsimp only
  have found := findNeighbor_blocks { csma with
    seqno := some (csma.nextSeqno randomRand).2 } addr
  split
  case h_1 neighbor isNeighbor =>
    rw [isNeighbor] at found
    exact ⟨congrArg (fun packets => (packets p).ptr) found.2.2.1,
      congrFun found.2.2.2 metadata⟩
  case h_2 n opened isNeighbor =>
    rw [isNeighbor] at found
    obtain ⟨samePackets, sameBlocks, packets, metadataSame⟩ := found
    have before : opened.metadataOf p = csma.metadataOf p :=
      congrArg (fun packets => (packets p).ptr) packets
    split
    case isTrue =>
      have blocks := allocPacket_blocks opened
        { attrs with macSeqno := (csma.nextSeqno randomRand).1 } hasQueuebuf
      have fields := allocPacket_fields opened
        { attrs with macSeqno := (csma.nextSeqno randomRand).1 } hasQueuebuf
      have kept := (blocks.2 p (by rw [samePackets]; exact inUse)).trans
        before
      have metadataKept := congrFun (blocks.1.trans metadataSame) metadata
      split
      case h_1 q block later isLater =>
        rw [isLater] at kept metadataKept fields
        have unused := (fields.2.2 q block rfl).2
        rw [sameBlocks] at unused
        have different : metadata ≠ block := by
          rintro rfl
          rw [blockInUse] at unused
          cases unused
        have inserted : ∀ csma : Csma config Addr Callback,
            (csma.startTimer n q).metadataOf p = csma.metadataOf p ∧
              (csma.startTimer n q).metadata = csma.metadata := by
          intro csma
          unfold Csma.startTimer
          split
          case isTrue => exact ⟨rfl, rfl⟩
          case isFalse => exact ⟨rfl, rfl⟩
        refine ⟨(inserted _).1.trans kept, ?_⟩
        rw [(inserted _).2]
        refine Eq.trans ?_ metadataKept
        exact Function.update_of_ne different _ _
      case h_2 later isLater =>
        rw [isLater] at kept metadataKept
        unfold Csma.removeEmpty
        split
        case isTrue => exact ⟨kept, metadataKept⟩
        case isFalse => exact ⟨kept, metadataKept⟩
    case isFalse =>
      exact ⟨before, congrFun metadataSame metadata⟩

variable {calls : List Callback} {numbers : Fin config.maxQueuedPackets → Nat}

theorem sum_insert {q : Fin config.maxQueuedPackets} (zero : numbers q = 0)
    (queue : List (Fin config.maxQueuedPackets)) (isAck : Bool) :
    ((if isAck then q :: queue.erase q else queue.erase q ++ [q]).map
      numbers).sum = (queue.map numbers).sum := by
  have erased : ((queue.erase q).map numbers).sum =
      (queue.map numbers).sum := by
    by_cases member : q ∈ queue
    case pos =>
      have perm := ((List.perm_cons_erase member).map numbers).sum_nat
      rw [List.map_cons, List.sum_cons, zero, Nat.zero_add] at perm
      exact perm.symm
    case neg =>
      rw [List.erase_of_not_mem member]
  split
  · rw [List.map_cons, List.sum_cons, zero, Nat.zero_add, erased]
  · rw [List.map_append, List.sum_append, List.map_singleton,
      List.sum_singleton, zero, Nat.add_zero, erased]

theorem AllCounted.insertPacket
    (counted : AllCounted csma transmissions attempts)
    {q : Fin config.maxQueuedPackets} (untried : attempts q = 0)
    (untransmitted : transmissions q = 0)
    (metadata : Fin config.maxQueuedPackets) (sent : Callback)
    (attrs : MacAttrs) :
    AllCounted (csma.insertPacket n q metadata sent attrs) transmissions
      attempts := by
  intro other listed
  have wasCounted := counted other listed
  by_cases same : other = n
  case pos =>
    subst same
    unfold Counted
    rw [queue_insertPacket, Function.update_self, sum_insert untransmitted,
      sum_insert untried]
    unfold Csma.insertPacket setNeighbor
    dsimp only
    rw [Function.update_self]
    exact wasCounted
  case neg =>
    exact wasCounted.congr (Function.update_of_ne same _ _)
      (fun _ _ => rfl) (fun _ _ => rfl)

theorem AllCounted.startTimer
    (counted : AllCounted csma transmissions attempts)
    (q : Fin config.maxQueuedPackets) :
    AllCounted (csma.startTimer n q) transmissions attempts := by
  unfold Csma.startTimer
  split
  case isTrue =>
    intro other listed
    have wasCounted := counted other listed
    by_cases same : other = n
    case pos =>
      subst same
      unfold Counted queue setNeighbor
      dsimp only
      rw [Function.update_self]
      exact wasCounted
    case neg =>
      exact wasCounted.congr (Function.update_of_ne same _ _)
        (fun _ _ => rfl) (fun _ _ => rfl)
  case isFalse => exact counted

theorem AllCounted.removeEmpty
    (counted : AllCounted csma transmissions attempts)
    (n : Fin config.maxNeighborQueues) :
    AllCounted (csma.removeEmpty n) transmissions attempts := by
  unfold Csma.removeEmpty
  split
  case isTrue => exact counted.congr rfl (List.erase_subset)
  case isFalse => exact counted

/-- A call of `send_packet` keeps the sums if blocks that are not in use count
nothing. -/
theorem AllCounted.sendPacket [DecidableEq Addr]
    (counted : AllCounted csma transmissions attempts)
    (unused : ∀ p, csma.packetMemb p = false →
      transmissions p = 0 ∧ attempts p = 0)
    (sent : Callback) (addr : Addr) (attrs : MacAttrs) (randomRand : UInt16)
    (hasQueuebuf : Bool) :
    AllCounted (csma.sendPacket sent addr attrs randomRand hasQueuebuf)
      transmissions attempts := by
  unfold Csma.sendPacket
  dsimp only
  have numbered : AllCounted { csma with
      seqno := some (csma.nextSeqno randomRand).2 } transmissions attempts :=
    counted.congr rfl (List.Subset.refl _)
  have found := numbered.findNeighbor addr
  have sameMemb := (findNeighbor_blocks { csma with
    seqno := some (csma.nextSeqno randomRand).2 } addr).1
  split
  case h_1 neighbor isNeighbor =>
    rw [isNeighbor] at found
    exact found.congr rfl (List.Subset.refl _)
  case h_2 n opened isNeighbor =>
    rw [isNeighbor] at found sameMemb
    split
    case isTrue =>
      have fields := allocPacket_fields opened
        { attrs with macSeqno := (csma.nextSeqno randomRand).1 } hasQueuebuf
      have allocated : AllCounted (opened.allocPacket
          { attrs with macSeqno := (csma.nextSeqno randomRand).1 }
          hasQueuebuf).2 transmissions attempts :=
        found.congr fields.1 (fun _ listed => fields.2.1 ▸ listed)
      split
      case h_1 q metadata later isLater =>
        rw [isLater] at allocated fields
        have isUnused := (fields.2.2 q metadata rfl).1
        rw [sameMemb] at isUnused
        have zero := unused q isUnused
        exact (allocated.insertPacket zero.2 zero.1 metadata sent
          _).startTimer q
      case h_2 later isLater =>
        rw [isLater] at allocated
        exact (allocated.removeEmpty n).congr rfl (List.Subset.refl _)
    case isFalse =>
      exact found.congr rfl (List.Subset.refl _)

/-! ### Reports -/

theorem sum_others {queue : List (Fin config.maxQueuedPackets)}
    (zero : ∀ p ∈ queue, numbers p = 0) : (queue.map numbers).sum = 0 := by
  induction queue with
  | nil =>
      rfl
  | cons p queue inductionHypothesis =>
      rw [List.map_cons, List.sum_cons, zero p List.mem_cons_self,
        inductionHypothesis fun other member =>
          zero other (List.mem_cons_of_mem p member)]

/-- If no other packet has been tried, the sum is that of one packet. -/
theorem sum_single {q : Fin config.maxQueuedPackets}
    {queue : List (Fin config.maxQueuedPackets)} (nodup : queue.Nodup)
    (member : q ∈ queue)
    (others : ∀ other ∈ queue, other ≠ q → numbers other = 0) :
    (queue.map numbers).sum = numbers q := by
  have perm := ((List.perm_cons_erase member).map numbers).sum_nat
  rw [perm, List.map_cons, List.sum_cons, sum_others, Nat.add_zero]
  intro other erased
  have inQueue := nodup.mem_erase_iff.1 erased
  exact others other inQueue.2 inQueue.1

theorem toNat_add_ofNat {counter : UInt8} {number : Nat}
    (fits : counter.toNat + number < 256) :
    (counter + UInt8.ofNat number).toNat = counter.toNat + number := by
  rw [UInt8.toNat_add, UInt8.toNat_ofNat']
  omega

/-- The counters of a neighbour after a report that does not overflow
them. -/
theorem toNat_count (neighbor : NeighborQueue config.maxQueuedPackets Addr)
    (status : MacTx) (numTransmissions : Nat)
    (transmissionsFit : neighbor.transmissions.toNat +
      status.transmissions numTransmissions < 256)
    (collisionsFit : neighbor.collisions.toNat +
      status.collisions numTransmissions < 256) :
    (count neighbor status numTransmissions).transmissions.toNat =
        neighbor.transmissions.toNat +
          status.transmissions numTransmissions ∧
      (count neighbor status numTransmissions).collisions.toNat =
        neighbor.collisions.toNat + status.collisions numTransmissions := by
  cases status with
  | ok => exact ⟨toNat_add_ofNat transmissionsFit, rfl⟩
  | noack => exact ⟨toNat_add_ofNat transmissionsFit, rfl⟩
  | collision => exact ⟨rfl, toNat_add_ofNat collisionsFit⟩
  | deferred => exact ⟨rfl, rfl⟩
  | err => exact ⟨rfl, rfl⟩
  | errFatal => exact ⟨rfl, rfl⟩

theorem neighbors_setNeighbor (csma : Csma config Addr Callback)
    (n : Fin config.maxNeighborQueues)
    (neighbor : NeighborQueue config.maxQueuedPackets Addr) :
    (csma.setNeighbor n neighbor).neighbors n = neighbor := by
  unfold setNeighbor
  dsimp only
  rw [Function.update_self]

theorem findPacket_count (csma : Csma config Addr Callback)
    (n : Fin config.maxNeighborQueues) (status : MacTx)
    (numTransmissions : Nat) (seqno : UInt16) :
    (csma.setNeighbor n (count (csma.neighbors n) status
      numTransmissions)).findPacket n seqno = csma.findPacket n seqno := by
  have queues := queue_setNeighbor csma n
    (queuedPacketList_count (csma.neighbors n) status numTransmissions)
  unfold findPacket
  rw [queues]
  rfl

theorem packetSent_of_none {status : MacTx} {numTransmissions : Nat}
    {attrs : MacAttrs} (randomRand : Nat)
    (missing : csma.findPacket n attrs.macSeqno = none) :
    csma.packetSent (some n) status numTransmissions attrs randomRand =
      csma.setNeighbor n
        (count (csma.neighbors n) status numTransmissions) := by
  unfold Csma.packetSent
  dsimp only
  rw [findPacket_count, missing]

/-- The packet is transmitted again, below its limit, or it is freed and its
callback is called. -/
theorem packetSent_of_some {status : MacTx} {numTransmissions : Nat}
    {attrs : MacAttrs} (randomRand : Nat)
    {q metadata : Fin config.maxQueuedPackets}
    (found : csma.findPacket n attrs.macSeqno = some q)
    (isMetadata : csma.metadataOf q = some metadata) :
    (∃ transmitTimer packets,
      (count (csma.neighbors n) status numTransmissions).transmissions <
        (csma.metadata metadata).maxTransmissions ∧
      (∀ p, (packets p).ptr = csma.metadataOf p) ∧
      csma.packetSent (some n) status numTransmissions attrs randomRand =
        { csma.setNeighbor n
          { count (csma.neighbors n) status numTransmissions with
            transmitTimer } with packets }) ∨
    csma.packetSent (some n) status numTransmissions attrs randomRand =
      ((csma.setNeighbor n
        (count (csma.neighbors n) status numTransmissions)).freePacket n
          q).macCallSentCallback (csma.metadata metadata).sent status
        (count (csma.neighbors n) status
          numTransmissions).transmissions.toNat := by
  have isPtr : (csma.packets q).ptr = some metadata := isMetadata
  unfold Csma.packetSent
  dsimp only
  rw [findPacket_count, found]
  dsimp only
  rw [show ((csma.setNeighbor n (count (csma.neighbors n) status
    numTransmissions)).packets q).ptr = some metadata from isPtr]
  dsimp only
  rw [neighbors_setNeighbor]
  split
  case isTrue again =>
    refine Or.inl ⟨some (backoff config (count (csma.neighbors n) status
      numTransmissions).transmissions.toNat randomRand),
      Function.update csma.packets q { csma.packets q with buf := attrs },
      again.2, fun p => congrFun (metadataOf_setAttrs csma q attrs) p, ?_⟩
    unfold setNeighbor
    dsimp only
    rw [Function.update_idem]
  case isFalse => exact Or.inr rfl

theorem freePacket_of_ne (csma : Csma config Addr Callback)
    {n other : Fin config.maxNeighborQueues} (different : other ≠ n)
    (p : Fin config.maxQueuedPackets) :
    (csma.freePacket n p).neighbors other = csma.neighbors other := by
  unfold freePacket
  dsimp only
  split
  · unfold setNeighbor
    dsimp only
    rw [Function.update_of_ne different, Function.update_of_ne different]
  · unfold setNeighbor
    dsimp only
    rw [Function.update_of_ne different, Function.update_of_ne different]

theorem freePacket_counters (csma : Csma config Addr Callback)
    {n : Fin config.maxNeighborQueues} {p : Fin config.maxQueuedPackets}
    (more : (csma.queue n).erase p ≠ []) :
    ((csma.freePacket n p).neighbors n).transmissions = 0 ∧
      ((csma.freePacket n p).neighbors n).collisions = 0 := by
  have queued : (csma.setNeighbor n { csma.neighbors n with
      queuedPacketList := (csma.queue n).erase p }).queue n =
        (csma.queue n).erase p :=
    congrArg NeighborQueue.queuedPacketList (neighbors_setNeighbor _ n _)
  unfold freePacket
  dsimp only
  split
  case isTrue =>
    rw [neighbors_setNeighbor]
    exact ⟨rfl, rfl⟩
  case isFalse empty =>
    exact absurd (queued.symm.trans (not_not.1 empty)) more

theorem Conserves.not_mem_queue
    (conserves : Conserves csma calls) {q : Fin config.maxQueuedPackets}
    (member : q ∈ csma.queue n) {other : Fin config.maxNeighborQueues}
    (different : other ≠ n) : q ∉ csma.queue other := by
  intro inOther
  have isListed := (conserves.listed.nonempty n).2 (List.ne_nil_of_mem member)
  have otherListed :=
    (conserves.listed.nonempty other).2 (List.ne_nil_of_mem inOther)
  have nodup := (queued_perm isListed).nodup_iff.1 conserves.accounts.nodup
  have disjoint := (List.nodup_append.1 nodup).2.2
  refine disjoint q member q (List.mem_flatMap.2 ⟨other, ?_, inOther⟩) rfl
  exact conserves.listed.nodup.mem_erase_iff.2 ⟨different, otherListed⟩

theorem Conserves.queue_nodup (conserves : Conserves csma calls)
    (isListed : n ∈ csma.neighborList) : (csma.queue n).Nodup := by
  have nodup := (queued_perm isListed).nodup_iff.1 conserves.accounts.nodup
  exact (List.nodup_append.1 nodup).1

theorem Conserves.of_mem_queue
    (conserves : Conserves csma calls) {q : Fin config.maxQueuedPackets}
    (member : q ∈ csma.queue n) :
    csma.packetMemb q = true ∧
      ∃ metadata, csma.metadataOf q = some metadata := by
  have isListed := (conserves.listed.nonempty n).2 (List.ne_nil_of_mem member)
  have queued : q ∈ csma.queued :=
    List.mem_flatMap.2 ⟨n, isListed, member⟩
  obtain ⟨metadata, isMetadata, _⟩ :=
    conserves.accounts.metadata_of_mem queued
  exact ⟨(conserves.accounts.packetMemb q).2 queued, metadata, isMetadata⟩

end Csma

/-! ## The attempts over runs -/

variable {audit : Audit config Addr Callback}

namespace Audit

/-- The counters are those of the packets, a packet that has been tried and is
still queued is below its limit, and the outcomes so far were proper. -/
structure Attributed (audit : Audit config Addr Callback) : Prop where
  conserves : ∃ calls, Csma.Conserves audit.csma calls
  le : ∀ p, audit.transmissions p ≤ audit.attempts p
  counted : audit.csma.AllCounted audit.transmissions audit.attempts
  limited : ∀ p, audit.csma.packetMemb p = true →
    audit.attempts p = 0 ∨
      audit.transmissions p < audit.maxTransmissions p
  proper : ∀ outcome ∈ audit.outcomes, outcome.Proper

theorem ofQueued_le (le : ∀ p, audit.transmissions p ≤ audit.attempts p)
    (p : Fin config.maxQueuedPackets) :
    audit.ofQueued audit.transmissions p ≤
      audit.ofQueued audit.attempts p := by
  unfold ofQueued
  split
  · exact le p
  · exact Nat.le_refl 0

theorem maxTransmissions_congr {before : Audit config Addr Callback}
    (after : Audit config Addr Callback) {p : Fin config.maxQueuedPackets}
    (sameOf : after.csma.metadataOf p = before.csma.metadataOf p)
    (same : ∀ metadata, before.csma.metadataOf p = some metadata →
      after.csma.metadata metadata = before.csma.metadata metadata) :
    after.maxTransmissions p = before.maxTransmissions p := by
  unfold maxTransmissions
  rw [sameOf]
  cases isMetadata : before.csma.metadataOf p with
  | none => rfl
  | some metadata =>
      dsimp only
      rw [same metadata isMetadata]

theorem Attributed.send_limited [DecidableEq Addr]
    {audit : Audit config Addr Callback} (attributed : Attributed audit)
    (sent : Callback) (addr : Addr) (attrs : MacAttrs) (randomRand : UInt16)
    (hasQueuebuf : Bool) (p : Fin config.maxQueuedPackets) :
    let later := audit.step (.send sent addr attrs randomRand hasQueuebuf)
    later.attempts p = 0 ∨
      later.transmissions p < later.maxTransmissions p := by
  intro later
  obtain ⟨calls, conserves⟩ := attributed.conserves
  change audit.ofQueued audit.attempts p = 0 ∨
    audit.ofQueued audit.transmissions p < _
  unfold ofQueued
  cases inUse : audit.csma.packetMemb p with
  | false =>
      exact Or.inl rfl
  | true =>
      obtain ⟨block, isBlock, blockInUse⟩ :=
        conserves.accounts.metadata_of_mem
          ((conserves.accounts.packetMemb p).1 inUse)
      have kept := audit.csma.sendPacket_blocks sent addr attrs randomRand
        hasQueuebuf inUse blockInUse
      have limit := maxTransmissions_congr later kept.1
        fun metadata isMetadata => by
          rw [← Option.some.inj (isBlock.symm.trans isMetadata)]
          exact kept.2
      rw [limit]
      exact attributed.limited p inUse

theorem Attributed.send [DecidableEq Addr]
    {audit : Audit config Addr Callback} (attributed : Attributed audit)
    (sent : Callback) (addr : Addr) (attrs : MacAttrs) (randomRand : UInt16)
    (hasQueuebuf : Bool) :
    Attributed (audit.step
      (.send sent addr attrs randomRand hasQueuebuf)) := by
  obtain ⟨calls, conserves⟩ := attributed.conserves
  have inUse (numbers : Fin config.maxQueuedPackets → Nat)
      (n : Fin config.maxNeighborQueues) :
      ∀ p ∈ audit.csma.queue n, audit.ofQueued numbers p = numbers p := by
    intro p member
    exact if_pos (conserves.of_mem_queue member).1
  have counted : audit.csma.AllCounted (audit.ofQueued audit.transmissions)
      (audit.ofQueued audit.attempts) :=
    fun n listed => (attributed.counted n listed).congr rfl
      (inUse audit.transmissions n) (inUse audit.attempts n)
  have unused (numbers : Fin config.maxQueuedPackets → Nat)
      (p : Fin config.maxQueuedPackets)
      (isUnused : audit.csma.packetMemb p = false) :
      audit.ofQueued numbers p = 0 := by
    unfold ofQueued
    rw [isUnused]
    rfl
  exact ⟨⟨_, conserves.sendPacket sent addr attrs randomRand hasQueuebuf⟩,
    ofQueued_le attributed.le,
    counted.sendPacket (fun p isUnused => ⟨unused _ p isUnused,
      unused _ p isUnused⟩) sent addr attrs randomRand hasQueuebuf,
    fun p _ => attributed.send_limited sent addr attrs randomRand hasQueuebuf
      p, attributed.proper⟩

/-- An outcome that finds no packet counts nothing for a neighbour with
packets. -/
theorem Attributed.report_none
    (attributed : Attributed audit) {n : Fin config.maxNeighborQueues}
    {status : MacTx} {numTransmissions : Nat} {attrs : MacAttrs}
    (randomRand : Nat)
    (missing : audit.csma.findPacket n attrs.macSeqno = none)
    (fair : status.attempts numTransmissions = 0 ∨ audit.csma.queue n = []) :
    Attributed
      (audit.report n status numTransmissions attrs randomRand) := by
  obtain ⟨calls, conserves⟩ := attributed.conserves
  have isReport : audit.report n status numTransmissions attrs randomRand =
      { audit with
        csma := audit.csma.setNeighbor n
          (Csma.count (audit.csma.neighbors n) status
            numTransmissions) } := by
    unfold report
    rw [missing, Csma.packetSent_of_none randomRand missing]
  rw [isReport]
  refine ⟨⟨calls, conserves.setNeighbor n
    (Csma.queuedPacketList_count _ _ _)⟩, attributed.le, ?_,
    attributed.limited, attributed.proper⟩
  intro other listed
  have wasCounted := attributed.counted other listed
  by_cases same : other = n
  case pos =>
    subst same
    have notAttempt : status.attempts numTransmissions = 0 :=
      fair.resolve_right ((conserves.listed.nonempty other).1 listed)
    unfold MacTx.attempts at notAttempt
    have small := (audit.csma.neighbors other).transmissions.toNat_lt
    have small' := (audit.csma.neighbors other).collisions.toNat_lt
    have counters := Csma.toNat_count (audit.csma.neighbors other) status
      numTransmissions (by omega) (by omega)
    unfold Csma.Counted
    rw [Csma.queue_setNeighbor audit.csma other
      (Csma.queuedPacketList_count _ _ _), Csma.neighbors_setNeighbor,
      counters.1, counters.2]
    unfold Csma.Counted at wasCounted
    dsimp only
    omega
  case neg =>
    exact wasCounted.congr (Function.update_of_ne same _ _)
      (fun _ _ => rfl) (fun _ _ => rfl)

theorem record_le (le : ∀ p, audit.transmissions p ≤ audit.attempts p)
    (q : Fin config.maxQueuedPackets) (status : MacTx)
    (numTransmissions : Nat) (p : Fin config.maxQueuedPackets) :
    (audit.record q status numTransmissions).transmissions p ≤
      (audit.record q status numTransmissions).attempts p := by
  have isAttempts : status.attempts numTransmissions =
      status.transmissions numTransmissions +
        status.collisions numTransmissions := rfl
  have := le q
  have := le p
  unfold record
  dsimp only
  rw [Function.update_apply, Function.update_apply]
  split
  · omega
  · omega

theorem record_self (audit : Audit config Addr Callback)
    (q : Fin config.maxQueuedPackets) (status : MacTx)
    (numTransmissions : Nat) :
    (audit.record q status numTransmissions).transmissions q =
        audit.transmissions q + status.transmissions numTransmissions ∧
      (audit.record q status numTransmissions).attempts q =
        audit.attempts q + status.attempts numTransmissions :=
  ⟨Function.update_self _ _ _, Function.update_self _ _ _⟩

theorem record_of_ne (audit : Audit config Addr Callback)
    {p q : Fin config.maxQueuedPackets} (different : p ≠ q)
    (status : MacTx) (numTransmissions : Nat) :
    (audit.record q status numTransmissions).transmissions p =
        audit.transmissions p ∧
      (audit.record q status numTransmissions).attempts p =
        audit.attempts p :=
  ⟨Function.update_of_ne different _ _, Function.update_of_ne different _ _⟩

section Reports

variable {audit : Audit config Addr Callback}
  {n : Fin config.maxNeighborQueues} {q : Fin config.maxQueuedPackets}
  {status : MacTx} {numTransmissions : Nat}

theorem FairOutcome.record_others
    (fair : audit.FairOutcome n q status numTransmissions)
    (le : ∀ p, audit.transmissions p ≤ audit.attempts p)
    {other : Fin config.maxQueuedPackets}
    (member : other ∈ audit.csma.queue n) (different : other ≠ q) :
    (audit.record q status numTransmissions).transmissions other = 0 ∧
      (audit.record q status numTransmissions).attempts other = 0 := by
  have same := audit.record_of_ne different status numTransmissions
  have := fair.others other member different
  have := le other
  omega

theorem Attributed.counters (attributed : Attributed audit)
    (member : q ∈ audit.csma.queue n)
    (fair : audit.FairOutcome n q status numTransmissions) :
    (Csma.count (audit.csma.neighbors n) status
        numTransmissions).transmissions.toNat =
      (audit.record q status numTransmissions).transmissions q ∧
    (Csma.count (audit.csma.neighbors n) status
        numTransmissions).transmissions.toNat +
      (Csma.count (audit.csma.neighbors n) status
        numTransmissions).collisions.toNat =
      (audit.record q status numTransmissions).attempts q := by
  obtain ⟨calls, conserves⟩ := attributed.conserves
  have isListed :=
    (conserves.listed.nonempty n).2 (List.ne_nil_of_mem member)
  have nodup := conserves.queue_nodup isListed
  have wasCounted := attributed.counted n isListed
  unfold Csma.Counted at wasCounted
  rw [Csma.sum_single nodup member fun other inQueue different => by
      have := fair.others other inQueue different
      have := attributed.le other
      omega,
    Csma.sum_single nodup member fair.others] at wasCounted
  have counters := Csma.toNat_count (audit.csma.neighbors n) status
    numTransmissions fair.transmissionsFit fair.collisionsFit
  have recorded := audit.record_self q status numTransmissions
  have isAttempts : status.attempts numTransmissions =
      status.transmissions numTransmissions +
        status.collisions numTransmissions := rfl
  omega

theorem Attributed.counted_other (attributed : Attributed audit)
    (member : q ∈ audit.csma.queue n) {later : Csma config Addr Callback}
    {other : Fin config.maxNeighborQueues} (different : other ≠ n)
    (same : later.neighbors other = audit.csma.neighbors other)
    (listed : other ∈ audit.csma.neighborList) :
    later.Counted (audit.record q status numTransmissions).transmissions
      (audit.record q status numTransmissions).attempts other := by
  obtain ⟨calls, conserves⟩ := attributed.conserves
  have elsewhere (p : Fin config.maxQueuedPackets)
      (inOther : p ∈ audit.csma.queue other) : p ≠ q := by
    rintro rfl
    exact conserves.not_mem_queue member different inOther
  exact (attributed.counted other listed).congr same
    (fun p inOther => (audit.record_of_ne (elsewhere p inOther) _ _).1)
    (fun p inOther => (audit.record_of_ne (elsewhere p inOther) _ _).2)

theorem Attributed.counted_again (attributed : Attributed audit)
    (member : q ∈ audit.csma.queue n)
    (fair : audit.FairOutcome n q status numTransmissions)
    (transmitTimer : Option Nat)
    (packets : Fin config.maxQueuedPackets →
      RdcBufList config.maxQueuedPackets) :
    Csma.AllCounted
      { audit.csma.setNeighbor n
        { Csma.count (audit.csma.neighbors n) status numTransmissions with
          transmitTimer } with packets }
      (audit.record q status numTransmissions).transmissions
      (audit.record q status numTransmissions).attempts := by
  intro other listed
  by_cases same : other = n
  case pos =>
    subst same
    obtain ⟨calls, conserves⟩ := attributed.conserves
    have nodup := conserves.queue_nodup listed
    have counters := attributed.counters member fair
    unfold Csma.Counted Csma.queue
    dsimp only
    rw [Csma.neighbors_setNeighbor]
    dsimp only
    rw [Csma.queuedPacketList_count]
    exact ⟨counters.1.trans (Csma.sum_single nodup member
        fun p inQueue different =>
          (fair.record_others attributed.le inQueue different).1).symm,
      counters.2.trans (Csma.sum_single nodup member
        fun p inQueue different =>
          (fair.record_others attributed.le inQueue different).2).symm⟩
  case neg =>
    exact attributed.counted_other member same
      (Function.update_of_ne same _ _) listed

theorem Attributed.counted_freed (attributed : Attributed audit)
    (member : q ∈ audit.csma.queue n)
    (fair : audit.FairOutcome n q status numTransmissions)
    {later : Csma config Addr Callback} {calls : List Callback}
    (conserved : later.Conserves calls)
    (freed : later.neighbors = ((audit.csma.setNeighbor n
      (Csma.count (audit.csma.neighbors n) status
        numTransmissions)).freePacket n q).neighbors)
    (neighborList : later.neighborList ⊆ audit.csma.neighborList) :
    later.AllCounted (audit.record q status numTransmissions).transmissions
      (audit.record q status numTransmissions).attempts := by
  intro other listed
  by_cases same : other = n
  case pos =>
    subst same
    have queues := congrFun (Csma.queue_freePacket (audit.csma.setNeighbor
      other (Csma.count (audit.csma.neighbors other) status
        numTransmissions)) other q) other
    rw [Csma.queue_setNeighbor audit.csma other
      (Csma.queuedPacketList_count _ _ _), Function.update_self] at queues
    have isQueue : later.queue other =
        (audit.csma.queue other).erase q := by
      rw [← queues]
      unfold Csma.queue
      rw [freed]
    have nonempty := (conserved.listed.nonempty other).1 listed
    rw [isQueue] at nonempty
    have nodup : (audit.csma.queue other).Nodup := by
      obtain ⟨_, conserves⟩ := attributed.conserves
      exact conserves.queue_nodup (neighborList listed)
    have counters := Csma.freePacket_counters (audit.csma.setNeighbor other
      (Csma.count (audit.csma.neighbors other) status numTransmissions))
      (n := other) (p := q) (by
        rw [Csma.queue_setNeighbor audit.csma other
          (Csma.queuedPacketList_count _ _ _)]
        exact nonempty)
    have others (p : Fin config.maxQueuedPackets)
        (erased : p ∈ (audit.csma.queue other).erase q) :=
      fair.record_others attributed.le (nodup.mem_erase_iff.1 erased).2
        (nodup.mem_erase_iff.1 erased).1
    unfold Csma.Counted
    rw [isQueue, Csma.sum_others fun p erased => (others p erased).1,
      Csma.sum_others fun p erased => (others p erased).2, freed, counters.1,
      counters.2]
    exact ⟨rfl, rfl⟩
  case neg =>
    refine attributed.counted_other member same ?_ (neighborList listed)
    rw [freed, Csma.freePacket_of_ne _ same]
    exact Function.update_of_ne same _ _

theorem Attributed.report_some (attributed : Attributed audit)
    {attrs : MacAttrs} (randomRand : Nat)
    (found : audit.csma.findPacket n attrs.macSeqno = some q)
    (fair : audit.FairOutcome n q status numTransmissions) :
    Attributed
      (audit.report n status numTransmissions attrs randomRand) := by
  obtain ⟨calls, conserves⟩ := attributed.conserves
  have member : q ∈ audit.csma.queue n := List.mem_of_find?_eq_some found
  obtain ⟨metadata, isMetadata⟩ := (conserves.of_mem_queue member).2
  have counters := attributed.counters member fair
  have recorded := audit.record_self q status numTransmissions
  have kept := conserves.packetSent (some n) status numTransmissions attrs
    randomRand
  have limit : audit.maxTransmissions q =
      (audit.csma.metadata metadata).maxTransmissions.toNat := by
    unfold maxTransmissions
    rw [isMetadata]
  -- The test of the code bounds the attempts that did not collide.
  have bounded : (audit.record q status numTransmissions).attempts q ≤
      audit.maxTransmissions q + status.attempts numTransmissions := by
    have tested := attributed.limited q (conserves.of_mem_queue member).1
    have room := fair.room
    have le := attributed.le q
    unfold collisions at room
    omega
  have others (p : Fin config.maxQueuedPackets) (different : p ≠ q)
      (inUse : audit.csma.packetMemb p = true) :
      (audit.record q status numTransmissions).attempts p = 0 ∨
        (audit.record q status numTransmissions).transmissions p <
          audit.maxTransmissions p := by
    have same := audit.record_of_ne different status numTransmissions
    rw [same.1, same.2]
    exact attributed.limited p inUse
  unfold report
  rw [found]
  rcases Csma.packetSent_of_some randomRand found isMetadata with
    ⟨transmitTimer, packets, below, ptr, again⟩ | done
  · rw [again] at kept ⊢
    refine ⟨⟨calls, kept⟩, record_le attributed.le q status _,
      attributed.counted_again member fair transmitTimer packets,
      fun p inUse => ?_, ?_⟩
    · have tested : (audit.record q status numTransmissions).attempts p = 0 ∨
          (audit.record q status numTransmissions).transmissions p <
            audit.maxTransmissions p := by
        by_cases same : p = q
        · rw [same, limit, ← counters.1]
          exact Or.inr (UInt8.lt_iff_toNat_lt.1 below)
        · exact others p same inUse
      refine tested.imp_right fun less => less.trans_eq (Eq.symm ?_)
      exact maxTransmissions_congr _ (ptr p) fun _ _ => rfl
    intro outcome isOutcome
    rcases List.mem_append.1 isOutcome with old | new
    · exact attributed.proper outcome old
    · rw [List.mem_singleton.1 new]
      refine ⟨bounded, fun count reported => ?_⟩
      have notCalled :
          audit.csma.called[audit.csma.called.length]? = none :=
        List.getElem?_eq_none (Nat.le_refl _)
      change Option.map _ (audit.csma.called[_]?) = some count at reported
      rw [notCalled] at reported
      exact absurd reported (by rintro ⟨⟩)
  · rw [done] at kept ⊢
    have isSublist : (Csma.freePacket (audit.csma.setNeighbor n
        (Csma.count (audit.csma.neighbors n) status numTransmissions)) n
          q).neighborList ⊆ audit.csma.neighborList := by
      have neighbors := Csma.freePacket_neighbors (audit.csma.setNeighbor n
        (Csma.count (audit.csma.neighbors n) status numTransmissions)) n q
      split at neighbors
      · rw [neighbors.1]
        exact List.erase_subset
      · rw [neighbors.1]
        exact List.Subset.refl _
    have called := (Csma.freePacket_fields (audit.csma.setNeighbor n
      (Csma.count (audit.csma.neighbors n) status numTransmissions)) n
        q).2.2.2.2
    refine ⟨⟨calls, kept⟩, record_le attributed.le q status _,
      attributed.counted_freed member fair kept rfl isSublist,
      fun p inUse => ?_, ?_⟩
    · have freed := Csma.freePacket_fields (audit.csma.setNeighbor n
        (Csma.count (audit.csma.neighbors n) status numTransmissions)) n q
      change (Csma.freePacket _ n q).packetMemb p = true at inUse
      rw [freed.1, Function.update_apply] at inUse
      split at inUse
      · cases inUse
      · next different =>
          refine (others p different inUse).imp_right fun less =>
            less.trans_eq (Eq.symm ?_)
          exact maxTransmissions_congr _
            (congrArg (fun packets => (packets p).ptr) freed.2.2.1)
            fun block _ => congrFun freed.2.2.2.1 block
    intro outcome isOutcome
    rcases List.mem_append.1 isOutcome with old | new
    · exact attributed.proper outcome old
    · rw [List.mem_singleton.1 new]
      refine ⟨bounded, fun count reported => ?_⟩
      unfold Csma.macCallSentCallback at reported
      dsimp only at reported
      rw [called] at reported
      change Option.map _ ((audit.csma.called ++ [_])[_]?) = some count
        at reported
      rw [List.getElem?_concat_length, Option.map_some] at reported
      rw [← Option.some.inj reported]
      exact counters.1

end Reports

section Runs

variable [DecidableEq Addr]

theorem Attributed.step {audit : Audit config Addr Callback}
    (attributed : Attributed audit) (event : Csma.Event config Addr Callback)
    (fair : audit.Fair event) : Attributed (audit.step event) := by
  cases event with
  | send sent addr attrs randomRand hasQueuebuf =>
      exact attributed.send sent addr attrs randomRand hasQueuebuf
  | report n status numTransmissions attrs randomRand =>
      cases n with
      | none =>
          exact attributed
      | some n =>
          change audit.FairFound n status numTransmissions
            (audit.csma.findPacket n attrs.macSeqno) at fair
          cases isFound : audit.csma.findPacket n attrs.macSeqno with
          | none =>
              rw [isFound] at fair
              exact attributed.report_none randomRand isFound fair
          | some q =>
              rw [isFound] at fair
              exact attributed.report_some randomRand isFound fair

theorem Attributed.run {audit : Audit config Addr Callback}
    (attributed : Attributed audit)
    (events : List (Csma.Event config Addr Callback))
    (fair : audit.FairRun events) : Attributed (audit.run events) := by
  induction events generalizing audit with
  | nil =>
      exact attributed
  | cons event events inductionHypothesis =>
      exact inductionHypothesis (attributed.step event fair.1) fair.2

omit [DecidableEq Addr] in
theorem initial_attributed (config : CsmaConfig) (addr : Addr)
    (metadata : Fin config.maxQueuedPackets → QbufMetadata Callback) :
    Attributed (initial config addr metadata) where
  conserves := ⟨[], Csma.initial_conserves config addr metadata⟩
  le := fun _ => Nat.le_refl 0
  counted := fun _ listed => absurd listed List.not_mem_nil
  limited := fun _ _ => Or.inl rfl
  proper := fun _ isOutcome => absurd isOutcome List.not_mem_nil

/-- In every run of CSMA whose outcomes are fair, the attempts made for a
packet are bounded by its limit and the last outcome, and its callback is
called with its own attempts. -/
theorem outcomes_proper (config : CsmaConfig) (addr : Addr)
    (metadata : Fin config.maxQueuedPackets → QbufMetadata Callback)
    (events : List (Csma.Event config Addr Callback))
    (fair : (initial config addr metadata).FairRun events) :
    let audit := (initial config addr metadata).run events
    audit.csma = (Csma.initial config addr metadata).run events ∧
      ∀ outcome ∈ audit.outcomes, outcome.Proper :=
  ⟨csma_run _ events,
    ((initial_attributed config addr metadata).run events fair).proper⟩

end Runs

/-! ## An acknowledgement in front of a packet -/

def smallConfig : CsmaConfig where
  maxNeighborQueues := 1
  maxQueuedPackets := 2
  maxPacketPerNeighbor := 2
  maxBackoffExponent := 3
  maxMacTransmissions := 3
  defaultTimebase := 16
  onePacket := Nat.succ_pos 1

/-- The audit of a node with a neighbour. -/
def smallAudit : Audit smallConfig Nat Nat :=
  initial smallConfig 0 fun _ => ⟨0, 0⟩

/-- An outcome for the packet with a sequence number. -/
def outcomeOf (status : MacTx) (seqno : UInt16) :
    Csma.Event smallConfig Nat Nat :=
  .report (some ⟨0, Nat.succ_pos 0⟩) status 1
    { macSeqno := seqno, maxMacTransmissions := 0, isAck := false } 0

def packet (isAck : Bool) : Csma.Event smallConfig Nat Nat :=
  .send 1 7 { macSeqno := 0, maxMacTransmissions := 0, isAck } 10 true

/-- The limit holds for a packet that is acknowledged at the second
attempt. -/
theorem secondAttempt_proper :
    (smallAudit.run [packet false, outcomeOf .noack 10,
      outcomeOf .ok 10]).outcomes.length = 2 ∧
    ∀ outcome ∈ (smallAudit.run
      [packet false, outcomeOf .noack 10, outcomeOf .ok 10]).outcomes,
      outcome.Proper :=
  ⟨by decide +kernel, (outcomes_proper smallConfig 0 (fun _ => ⟨0, 0⟩)
    [packet false, outcomeOf .noack 10, outcomeOf .ok 10]
    (by decide +kernel)).2⟩

/-- The callback of an acknowledgement in front of a packet that has been
tried is called with two attempts, of which one is its own. -/
theorem otherAttempt_reported :
    ¬ ∀ (config : CsmaConfig) (addr : Nat)
      (metadata : Fin config.maxQueuedPackets → QbufMetadata Nat)
      (events : List (Csma.Event config Nat Nat)),
      ∀ outcome ∈ ((initial config addr metadata).run events).outcomes,
        outcome.Proper := by
  intro all
  have outcomes : (smallAudit.run [packet false, outcomeOf .noack 10,
      packet true, outcomeOf .ok 11]).outcomes =
        [⟨3, 1, 1, 1, none⟩, ⟨3, 1, 1, 1, some 2⟩] := by
    rfl
  have proper := all smallConfig 0 (fun _ => ⟨0, 0⟩)
    [packet false, outcomeOf .noack 10, packet true, outcomeOf .ok 11]
    ⟨3, 1, 1, 1, some 2⟩ (by
      change _ ∈ (smallAudit.run _).outcomes
      rw [outcomes]
      exact List.mem_cons_of_mem _ List.mem_cons_self)
  exact absurd (proper.own 2 rfl) (by decide)

end Audit

end Contiki.Mac
