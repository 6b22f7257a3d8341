import Contiki.Mac.Csma
import Mathlib.Algebra.GroupWithZero.Nat

/-!
# CSMA over runs

Over every sequence of sends and reports, each packet that CSMA has accepted
is in one neighbour queue until its callback is called, and the blocks in use
are those of the queued packets.
-/

namespace Contiki.Mac

open Contiki.Lib

variable {config : CsmaConfig} {Addr Callback : Type}

variable {csma : Csma config Addr Callback} {n : Fin config.maxNeighborQueues}
  {calls : List Callback}

namespace Csma

def queued (csma : Csma config Addr Callback) :
    List (Fin config.maxQueuedPackets) :=
  csma.neighborList.flatMap csma.queue

def metadataOf (csma : Csma config Addr Callback)
    (p : Fin config.maxQueuedPackets) :
    Option (Fin config.maxQueuedPackets) :=
  (csma.packets p).ptr

def callbackOf (csma : Csma config Addr Callback)
    (p : Fin config.maxQueuedPackets) : Option Callback :=
  (csma.metadataOf p).map fun metadata => (csma.metadata metadata).sent

/-! ## Queues -/

/-- A neighbour is listed exactly when its entry is allocated and when its
queue is not empty. -/
structure Listed (csma : Csma config Addr Callback) : Prop where
  nodup : csma.neighborList.Nodup
  neighborMemb : ∀ n, csma.neighborMemb n = true ↔ n ∈ csma.neighborList
  nonempty : ∀ n, n ∈ csma.neighborList ↔ csma.queue n ≠ []

/-- The queued packets are those of one neighbour and those of the others. -/
theorem queued_perm (listed : n ∈ csma.neighborList) :
    csma.queued.Perm
      (csma.queue n ++ (csma.neighborList.erase n).flatMap csma.queue) :=
  (List.perm_cons_erase listed).flatMap_right csma.queue

theorem others_congr {first second : Csma config Addr Callback}
    {n : Fin config.maxNeighborQueues} (nodup : first.neighborList.Nodup)
    (others : ∀ other, other ≠ n → second.queue other = first.queue other) :
    (first.neighborList.erase n).flatMap second.queue =
      (first.neighborList.erase n).flatMap first.queue := by
  apply List.flatMap_congr
  intro other member
  exact others other (nodup.mem_erase_iff.mp member).1

/-! ## Blocks -/

/-- The packets with their metadata blocks are the allocated ones, and each
call has been answered or is that of one of the packets. -/
structure Accounts (csma : Csma config Addr Callback)
    (packets : List (Fin config.maxQueuedPackets)) (calls : List Callback) :
    Prop where
  nodup : packets.Nodup
  packetMemb : ∀ p, csma.packetMemb p = true ↔ p ∈ packets
  metadataNodup : (packets.map csma.metadataOf).Nodup
  hasMetadata : none ∉ packets.map csma.metadataOf
  metadataMemb : ∀ metadata, csma.metadataMemb metadata = true ↔
    some metadata ∈ packets.map csma.metadataOf
  calls : (calls.map some).Perm
    (csma.called.map (fun call => some call.1) ++
      packets.map csma.callbackOf)

theorem Accounts.perm {csma : Csma config Addr Callback}
    {packets others : List (Fin config.maxQueuedPackets)}
    {calls : List Callback} (accounts : Accounts csma packets calls)
    (perm : packets.Perm others) : Accounts csma others calls where
  nodup := perm.nodup_iff.mp accounts.nodup
  packetMemb := fun p =>
    (accounts.packetMemb p).trans perm.mem_iff
  metadataNodup := (perm.map _).nodup_iff.mp accounts.metadataNodup
  hasMetadata := fun member => accounts.hasMetadata
    ((perm.map _).mem_iff.mpr member)
  metadataMemb := fun metadata =>
    (accounts.metadataMemb metadata).trans (perm.map _).mem_iff
  calls := accounts.calls.trans
    (List.Perm.append_left _ (perm.map _))

theorem Accounts.metadata_of_mem
    {packets : List (Fin config.maxQueuedPackets)} {calls : List Callback}
    (accounts : Accounts csma packets calls)
    {p : Fin config.maxQueuedPackets} (member : p ∈ packets) :
    ∃ metadata, csma.metadataOf p = some metadata ∧
      csma.metadataMemb metadata = true := by
  obtain ⟨metadata, isMetadata⟩ := Option.ne_none_iff_exists'.mp fun none =>
    accounts.hasMetadata (List.mem_map.mpr ⟨p, member, none⟩)
  exact ⟨metadata, isMetadata, (accounts.metadataMemb metadata).mpr
    (List.mem_map.mpr ⟨p, member, isMetadata⟩)⟩

theorem Accounts.congr {csma later : Csma config Addr Callback}
    {packets : List (Fin config.maxQueuedPackets)} {calls : List Callback}
    (accounts : Accounts csma packets calls)
    (packetMemb : later.packetMemb = csma.packetMemb)
    (metadataMemb : later.metadataMemb = csma.metadataMemb)
    (metadataOf : ∀ p ∈ packets, later.metadataOf p = csma.metadataOf p)
    (metadata : later.metadata = csma.metadata)
    (called : later.called = csma.called) :
    Accounts later packets calls := by
  have blocks : packets.map later.metadataOf = packets.map csma.metadataOf :=
    List.map_congr_left metadataOf
  have callbacks : packets.map later.callbackOf =
      packets.map csma.callbackOf := by
    apply List.map_congr_left
    intro p member
    rw [callbackOf, metadataOf p member, metadata, callbackOf]
  constructor
  case nodup => exact accounts.nodup
  case packetMemb =>
    rw [packetMemb]
    exact accounts.packetMemb
  case metadataNodup =>
    rw [blocks]
    exact accounts.metadataNodup
  case hasMetadata =>
    rw [blocks]
    exact accounts.hasMetadata
  case metadataMemb =>
    rw [blocks, metadataMemb]
    exact accounts.metadataMemb
  case calls =>
    rw [callbacks, called]
    exact accounts.calls

theorem Accounts.answer
    {packets : List (Fin config.maxQueuedPackets)} {calls : List Callback}
    (accounts : Accounts csma packets calls) (sent : Callback)
    (status : MacTx) (numTx : Nat) :
    Accounts (csma.macCallSentCallback sent status numTx) packets
      (calls ++ [sent]) where
  nodup := accounts.nodup
  packetMemb := accounts.packetMemb
  metadataNodup := accounts.metadataNodup
  hasMetadata := accounts.hasMetadata
  metadataMemb := accounts.metadataMemb
  calls := by
    have both := accounts.calls.append_right [some sent]
    rw [List.append_assoc] at both
    rw [List.map_append]
    refine both.trans ?_
    change List.Perm _ ((csma.called ++ [(sent, status, numTx)]).map _ ++
      packets.map csma.callbackOf)
    rw [List.map_append, List.append_assoc]
    exact List.Perm.append_left _ List.perm_append_comm

theorem Accounts.free {csma later : Csma config Addr Callback}
    {p metadata : Fin config.maxQueuedPackets}
    {rest : List (Fin config.maxQueuedPackets)} {calls : List Callback}
    (accounts : Accounts csma (p :: rest) calls)
    (isMetadata : csma.metadataOf p = some metadata)
    (packetMemb : later.packetMemb =
      Function.update csma.packetMemb p false)
    (metadataMemb : later.metadataMemb =
      Function.update csma.metadataMemb metadata false)
    (packets : later.packets = csma.packets)
    (metadataSame : later.metadata = csma.metadata) {status : MacTx}
    {numTx : Nat}
    (called : later.called =
      csma.called ++ [((csma.metadata metadata).sent, status, numTx)]) :
    Accounts later rest calls := by
  have blocks : later.metadataOf = csma.metadataOf := by
    funext other
    rw [metadataOf, packets, metadataOf]
  have callbacks : later.callbackOf = csma.callbackOf := by
    funext other
    rw [callbackOf, blocks, metadataSame, callbackOf]
  have nodup := List.nodup_cons.mp accounts.nodup
  have metadataNodup := accounts.metadataNodup
  rw [List.map_cons, isMetadata, List.nodup_cons] at metadataNodup
  constructor
  case nodup => exact nodup.2
  case packetMemb =>
    intro other
    rw [packetMemb, Function.update_apply]
    split
    case isTrue same =>
      rw [same]
      exact iff_of_false Bool.false_ne_true nodup.1
    case isFalse different =>
      rw [accounts.packetMemb, List.mem_cons]
      exact or_iff_right different
  case metadataNodup =>
    rw [blocks]
    exact metadataNodup.2
  case hasMetadata =>
    rw [blocks]
    intro member
    exact accounts.hasMetadata (List.mem_cons_of_mem _ member)
  case metadataMemb =>
    intro other
    rw [metadataMemb, Function.update_apply, blocks]
    split
    case isTrue same =>
      rw [same]
      exact iff_of_false Bool.false_ne_true metadataNodup.1
    case isFalse different =>
      rw [accounts.metadataMemb, List.map_cons, isMetadata, List.mem_cons]
      exact or_iff_right fun same => different (Option.some.inj same)
  case calls =>
    have isCallback : csma.callbackOf p =
        some (csma.metadata metadata).sent := by
      rw [callbackOf, isMetadata]
      rfl
    have perm := accounts.calls
    rw [List.map_cons, isCallback] at perm
    rw [called, callbacks, List.map_append, List.append_assoc]
    exact perm

theorem Accounts.add {csma later : Csma config Addr Callback}
    {q metadata : Fin config.maxQueuedPackets}
    {packets : List (Fin config.maxQueuedPackets)} {calls : List Callback}
    (accounts : Accounts csma packets calls)
    (unusedPacket : csma.packetMemb q = false)
    (unusedMetadata : csma.metadataMemb metadata = false)
    (packetMemb : later.packetMemb = Function.update csma.packetMemb q true)
    (metadataMemb : later.metadataMemb =
      Function.update csma.metadataMemb metadata true)
    (isMetadata : later.metadataOf q = some metadata)
    (metadataOf : ∀ p, p ≠ q → later.metadataOf p = csma.metadataOf p)
    (metadataSame : ∀ other, other ≠ metadata →
      later.metadata other = csma.metadata other)
    (called : later.called = csma.called) :
    Accounts later (q :: packets)
      (calls ++ [(later.metadata metadata).sent]) := by
  have notQueued : q ∉ packets := by
    rw [← accounts.packetMemb, unusedPacket]
    exact Bool.false_ne_true
  have notBlock : some metadata ∉ packets.map csma.metadataOf := by
    rw [← accounts.metadataMemb, unusedMetadata]
    exact Bool.false_ne_true
  have others : ∀ p ∈ packets, later.metadataOf p = csma.metadataOf p := by
    intro p member
    apply metadataOf
    rintro rfl
    exact notQueued member
  have blocks : packets.map later.metadataOf = packets.map csma.metadataOf :=
    List.map_congr_left others
  have callbacks : packets.map later.callbackOf =
      packets.map csma.callbackOf := by
    apply List.map_congr_left
    intro p member
    rw [callbackOf, others p member, callbackOf]
    cases isBlock : csma.metadataOf p with
    | none => rfl
    | some block =>
        have different : block ≠ metadata := by
          rintro rfl
          exact notBlock (List.mem_map.mpr ⟨p, member, isBlock⟩)
        rw [Option.map_some, metadataSame block different, Option.map_some]
  constructor
  case nodup => exact List.nodup_cons.mpr ⟨notQueued, accounts.nodup⟩
  case packetMemb =>
    intro other
    rw [packetMemb, Function.update_apply, List.mem_cons]
    split
    case isTrue same => exact iff_of_true rfl (Or.inl same)
    case isFalse different =>
      rw [accounts.packetMemb]
      exact (or_iff_right different).symm
  case metadataNodup =>
    rw [List.map_cons, isMetadata, blocks, List.nodup_cons]
    exact ⟨notBlock, accounts.metadataNodup⟩
  case hasMetadata =>
    rw [List.map_cons, isMetadata, blocks, List.mem_cons]
    rintro (same | member)
    · cases same
    · exact accounts.hasMetadata member
  case metadataMemb =>
    intro other
    rw [metadataMemb, Function.update_apply, List.map_cons, isMetadata,
      blocks, List.mem_cons]
    split
    case isTrue same => exact iff_of_true rfl (Or.inl (congrArg some same))
    case isFalse different =>
      rw [accounts.metadataMemb]
      exact (or_iff_right fun same =>
        different (Option.some.inj same)).symm
  case calls =>
    have isCallback : later.callbackOf q =
        some (later.metadata metadata).sent := by
      rw [callbackOf, isMetadata]
      rfl
    have all : (q :: packets).map later.callbackOf =
        some (later.metadata metadata).sent ::
          packets.map csma.callbackOf := by
      rw [List.map_cons, isCallback, callbacks]
    rw [List.map_append, all, called]
    have both := accounts.calls.append_right
      [some (later.metadata metadata).sent]
    rw [List.append_assoc] at both
    exact both.trans (List.Perm.append_left _ List.perm_append_comm)

/-! ## Freeing a packet -/

/-- The queues and the blocks account for all calls. -/
structure Conserves (csma : Csma config Addr Callback)
    (calls : List Callback) : Prop where
  listed : Listed csma
  accounts : Accounts csma csma.queued calls

theorem queue_freePacket (csma : Csma config Addr Callback)
    (n : Fin config.maxNeighborQueues) (p : Fin config.maxQueuedPackets) :
    (csma.freePacket n p).queue =
      Function.update csma.queue n ((csma.queue n).erase p) := by
  funext other
  unfold freePacket
  dsimp only
  by_cases same : other = n
  case pos =>
    subst same
    rw [Function.update_self]
    split <;> simp [queue, setNeighbor]
  case neg =>
    rw [Function.update_of_ne same]
    split <;> simp [queue, setNeighbor, same]

theorem freePacket_fields (csma : Csma config Addr Callback)
    (n : Fin config.maxNeighborQueues) (p : Fin config.maxQueuedPackets) :
    (csma.freePacket n p).packetMemb =
        Function.update csma.packetMemb p false ∧
      (csma.freePacket n p).metadataMemb =
        csma.metadataMemb.membFree (csma.metadataOf p) ∧
      (csma.freePacket n p).packets = csma.packets ∧
      (csma.freePacket n p).metadata = csma.metadata ∧
      (csma.freePacket n p).called = csma.called := by
  unfold freePacket
  dsimp only
  split <;> exact ⟨rfl, rfl, rfl, rfl, rfl⟩

theorem freePacket_neighbors (csma : Csma config Addr Callback)
    (n : Fin config.maxNeighborQueues) (p : Fin config.maxQueuedPackets) :
    if (csma.queue n).erase p = [] then
      (csma.freePacket n p).neighborList = csma.neighborList.erase n ∧
      (csma.freePacket n p).neighborMemb =
        Function.update csma.neighborMemb n false
    else
      (csma.freePacket n p).neighborList = csma.neighborList ∧
      (csma.freePacket n p).neighborMemb = csma.neighborMemb := by
  have queued := congrFun (queue_freePacket csma n p) n
  rw [Function.update_self] at queued
  unfold freePacket
  dsimp only
  simp only [queue, setNeighbor, Function.update_self]
  split
  case isTrue empty => simp [empty, Memb.membFree]
  case isFalse => simp

theorem Listed.freePacket
    (listed : Listed csma) {n : Fin config.maxNeighborQueues}
    {p : Fin config.maxQueuedPackets} (member : p ∈ csma.queue n) :
    Listed (csma.freePacket n p) ∧
      csma.queued.Perm (p :: (csma.freePacket n p).queued) := by
  have isListed : n ∈ csma.neighborList :=
    (listed.nonempty n).mpr (List.ne_nil_of_mem member)
  have queues := queue_freePacket csma n p
  have neighbors := freePacket_neighbors csma n p
  have others : ∀ other, other ≠ n →
      (csma.freePacket n p).queue other = csma.queue other := by
    intro other different
    rw [queues, Function.update_of_ne different]
  have rest := @others_congr config Addr Callback csma
    (csma.freePacket n p) n listed.nodup others
  have perm : csma.queued.Perm (p :: ((csma.queue n).erase p ++
      (csma.neighborList.erase n).flatMap csma.queue)) :=
    (queued_perm isListed).trans
      (List.Perm.append_right _ (List.perm_cons_erase member))
  by_cases empty : (csma.queue n).erase p = []
  case pos =>
    rw [if_pos empty] at neighbors
    constructor
    · constructor
      case nodup =>
        rw [neighbors.1]
        exact listed.nodup.erase n
      case neighborMemb =>
        intro other
        rw [neighbors.1, neighbors.2, Function.update_apply,
          listed.nodup.mem_erase_iff]
        split
        case isTrue same => simp [same]
        case isFalse different => simp [different, listed.neighborMemb]
      case nonempty =>
        intro other
        rw [neighbors.1, listed.nodup.mem_erase_iff, queues,
          Function.update_apply]
        split
        case isTrue same => simp [same, empty]
        case isFalse different => simp [different, listed.nonempty]
    · unfold queued at perm ⊢
      rw [neighbors.1, rest]
      rwa [empty, List.nil_append] at perm
  case neg =>
    rw [if_neg empty] at neighbors
    constructor
    · constructor
      case nodup =>
        rw [neighbors.1]
        exact listed.nodup
      case neighborMemb =>
        rw [neighbors.1, neighbors.2]
        exact listed.neighborMemb
      case nonempty =>
        intro other
        rw [neighbors.1, queues, Function.update_apply]
        split
        case isTrue same =>
          rw [same]
          exact iff_of_true isListed empty
        case isFalse => exact listed.nonempty other
    · have stillListed : n ∈ (csma.freePacket n p).neighborList := by
        rw [neighbors.1]
        exact isListed
      refine perm.trans (List.Perm.cons p ?_)
      refine List.Perm.trans ?_ (queued_perm stillListed).symm
      rw [neighbors.1, rest, queues, Function.update_self]

theorem Conserves.freePacket (conserves : Conserves csma calls)
    {n : Fin config.maxNeighborQueues} {p metadata :
      Fin config.maxQueuedPackets} (member : p ∈ csma.queue n)
    (isMetadata : csma.metadataOf p = some metadata) (status : MacTx)
    (numTx : Nat) :
    Conserves ((csma.freePacket n p).macCallSentCallback
      (csma.metadata metadata).sent status numTx) calls := by
  have freed := conserves.listed.freePacket member
  have fields := freePacket_fields csma n p
  have metadataMemb := fields.2.1
  rw [isMetadata] at metadataMemb
  refine ⟨⟨freed.1.nodup, freed.1.neighborMemb, freed.1.nonempty⟩, ?_⟩
  exact @Accounts.free config Addr Callback csma
    ((csma.freePacket n p).macCallSentCallback (csma.metadata metadata).sent
      status numTx) p metadata _ calls (conserves.accounts.perm freed.2)
    isMetadata fields.1 metadataMemb fields.2.2.1 fields.2.2.2.1 status numTx
    (congrArg (· ++ _) fields.2.2.2.2)

/-! ## Reports -/

theorem Conserves.congr {csma later : Csma config Addr Callback}
    {calls : List Callback} (conserves : Conserves csma calls)
    (neighborList : later.neighborList = csma.neighborList)
    (neighborMemb : later.neighborMemb = csma.neighborMemb)
    (queues : later.queue = csma.queue)
    (packetMemb : later.packetMemb = csma.packetMemb)
    (metadataMemb : later.metadataMemb = csma.metadataMemb)
    (metadataOf : later.metadataOf = csma.metadataOf)
    (metadata : later.metadata = csma.metadata)
    (called : later.called = csma.called) : Conserves later calls := by
  have queued : later.queued = csma.queued := by
    unfold queued
    rw [neighborList, queues]
  constructor
  case listed =>
    constructor
    case nodup =>
      rw [neighborList]
      exact conserves.listed.nodup
    case neighborMemb =>
      rw [neighborList, neighborMemb]
      exact conserves.listed.neighborMemb
    case nonempty =>
      rw [neighborList, queues]
      exact conserves.listed.nonempty
  case accounts =>
    rw [queued]
    exact conserves.accounts.congr packetMemb metadataMemb
      (fun p _ => congrFun metadataOf p) metadata called

theorem queue_setNeighbor (csma : Csma config Addr Callback)
    (n : Fin config.maxNeighborQueues)
    {neighbor : NeighborQueue config.maxQueuedPackets Addr}
    (same : neighbor.queuedPacketList = csma.queue n) :
    (csma.setNeighbor n neighbor).queue = csma.queue := by
  funext other
  unfold queue setNeighbor
  dsimp only
  rw [Function.update_apply]
  split
  case isTrue isSame =>
    rw [same, isSame]
    rfl
  case isFalse => rfl

theorem Conserves.setNeighbor (conserves : Conserves csma calls)
    (n : Fin config.maxNeighborQueues)
    {neighbor : NeighborQueue config.maxQueuedPackets Addr}
    (same : neighbor.queuedPacketList = csma.queue n) :
    Conserves (csma.setNeighbor n neighbor) calls :=
  conserves.congr rfl rfl (queue_setNeighbor csma n same) rfl rfl rfl rfl rfl

theorem metadataOf_setAttrs (csma : Csma config Addr Callback)
    (q : Fin config.maxQueuedPackets) (attrs : MacAttrs) :
    metadataOf { csma with
        packets := Function.update csma.packets q
          { csma.packets q with buf := attrs } } = csma.metadataOf := by
  funext other
  unfold metadataOf
  dsimp only
  rw [Function.update_apply]
  split
  case isTrue same => rw [same]
  case isFalse => rfl

theorem Conserves.setAttrs (conserves : Conserves csma calls)
    (q : Fin config.maxQueuedPackets) (attrs : MacAttrs) :
    Conserves { csma with
      packets := Function.update csma.packets q
        { csma.packets q with buf := attrs } } calls :=
  conserves.congr rfl rfl rfl rfl rfl (metadataOf_setAttrs csma q attrs) rfl
    rfl

theorem queuedPacketList_count
    (neighbor : NeighborQueue config.maxQueuedPackets Addr) (status : MacTx)
    (numTransmissions : Nat) :
    (count neighbor status numTransmissions).queuedPacketList =
      neighbor.queuedPacketList := by
  cases status <;> rfl

theorem Conserves.packetSent (conserves : Conserves csma calls)
    (n : Option (Fin config.maxNeighborQueues)) (status : MacTx)
    (numTransmissions : Nat) (attrs : MacAttrs) (randomRand : Nat) :
    Conserves (csma.packetSent n status numTransmissions attrs randomRand)
      calls := by
  unfold Csma.packetSent
  cases n with
  | none => exact conserves
  | some n =>
      dsimp only
      have counted := conserves.setNeighbor n
        (queuedPacketList_count (csma.neighbors n) status numTransmissions)
      generalize csma.setNeighbor n (count (csma.neighbors n) status
        numTransmissions) = csma at counted
      split
      case h_1 => exact counted
      case h_2 q isPacket =>
        have member := List.mem_of_find?_eq_some isPacket
        split
        case h_1 => exact counted
        case h_2 metadata isMetadata =>
          split
          case isTrue =>
            refine Conserves.setAttrs ?_ q attrs
            exact counted.setNeighbor n rfl
          case isFalse =>
            exact counted.freePacket member isMetadata status _

/-- What a report about a queued packet does: the packet stays and waits for
its timer, or it leaves its queue and its callback is called with the
outcome. -/
def Settles (csma later : Csma config Addr Callback)
    (n : Fin config.maxNeighborQueues) (q : Fin config.maxQueuedPackets)
    (status : MacTx) (numTransmissions : Nat) : Prop :=
  let transmissions :=
    (count (csma.neighbors n) status numTransmissions).transmissions
  ∃ metadata, csma.metadataOf q = some metadata ∧
    if (status = .collision ∨ status = .noack) ∧
        transmissions < (csma.metadata metadata).maxTransmissions then
      later.queued = csma.queued ∧ later.called = csma.called ∧
        (later.neighbors n).transmitTimer.isSome
    else
      csma.queued.Perm (q :: later.queued) ∧
        later.called = csma.called ++
          [((csma.metadata metadata).sent, status, transmissions.toNat)]

theorem Conserves.settles (conserves : Conserves csma calls)
    {n : Fin config.maxNeighborQueues} {q : Fin config.maxQueuedPackets}
    {attrs : MacAttrs} (found : csma.findPacket n attrs.macSeqno = some q)
    (status : MacTx) (numTransmissions randomRand : Nat) :
    csma.Settles (csma.packetSent (some n) status numTransmissions attrs
      randomRand) n q status numTransmissions := by
  have member : q ∈ csma.queue n := List.mem_of_find?_eq_some found
  have isListed : n ∈ csma.neighborList :=
    (conserves.listed.nonempty n).mpr (List.ne_nil_of_mem member)
  have isQueued : q ∈ csma.queued :=
    List.mem_flatMap.mpr ⟨n, isListed, member⟩
  obtain ⟨metadata, isMetadata, _⟩ :=
    conserves.accounts.metadata_of_mem isQueued
  refine ⟨metadata, isMetadata, ?_⟩
  have queues := queue_setNeighbor csma n
    (queuedPacketList_count (csma.neighbors n) status numTransmissions)
  have listed := (conserves.setNeighbor n (queuedPacketList_count
    (csma.neighbors n) status numTransmissions)).listed
  have here : (csma.setNeighbor n (count (csma.neighbors n) status
      numTransmissions)).neighbors n =
        count (csma.neighbors n) status numTransmissions :=
    Function.update_self _ _ _
  have queued : (csma.setNeighbor n (count (csma.neighbors n) status
      numTransmissions)).queued = csma.queued :=
    congrArg csma.neighborList.flatMap queues
  have metadataSame : (csma.setNeighbor n (count (csma.neighbors n) status
      numTransmissions)).metadata = csma.metadata := rfl
  have called : (csma.setNeighbor n (count (csma.neighbors n) status
      numTransmissions)).called = csma.called := rfl
  have stillFound : (csma.setNeighbor n (count (csma.neighbors n) status
      numTransmissions)).findPacket n attrs.macSeqno = some q := by
    unfold findPacket
    rw [queues]
    exact found
  have ptr : ((csma.setNeighbor n (count (csma.neighbors n) status
      numTransmissions)).packets q).ptr = some metadata := isMetadata
  unfold Csma.packetSent
  dsimp only
  generalize csma.setNeighbor n (count (csma.neighbors n) status
    numTransmissions) = counted at *
  rw [stillFound]
  dsimp only
  rw [ptr]
  dsimp only
  rw [here, metadataSame]
  by_cases again : (status = .collision ∨ status = .noack) ∧
      (count (csma.neighbors n) status numTransmissions).transmissions <
        (csma.metadata metadata).maxTransmissions
  case pos =>
    simp only [if_pos again]
    refine ⟨Eq.trans (congrArg counted.neighborList.flatMap ?_) queued,
      called, ?_⟩
    · exact queue_setNeighbor counted n (by rw [← here]; rfl)
    · simp [Csma.setNeighbor]
  case neg =>
    simp only [if_neg again]
    rw [← queues] at member
    have freed := (listed.freePacket member).2
    rw [queued] at freed
    refine ⟨freed, ?_⟩
    rw [← called]
    exact congrArg (· ++ _) (freePacket_fields counted n q).2.2.2.2

/-! ## Sends -/

/-- A neighbour queue to which a packet may be added: it is listed even if it
is empty. -/
structure Opened (csma : Csma config Addr Callback)
    (n : Fin config.maxNeighborQueues) (calls : List Callback) : Prop where
  nodup : csma.neighborList.Nodup
  neighborMemb : ∀ n, csma.neighborMemb n = true ↔ n ∈ csma.neighborList
  isListed : n ∈ csma.neighborList
  nonempty : ∀ other, other ≠ n →
    (other ∈ csma.neighborList ↔ csma.queue other ≠ [])
  accounts : Accounts csma csma.queued calls

theorem Conserves.opened (conserves : Conserves csma calls)
    {n : Fin config.maxNeighborQueues} (isListed : n ∈ csma.neighborList) :
    Opened csma n calls :=
  ⟨conserves.listed.nodup, conserves.listed.neighborMemb, isListed,
    fun other _ => conserves.listed.nonempty other, conserves.accounts⟩

theorem Opened.conserves
    (opened : Opened csma n calls) (more : csma.queue n ≠ []) :
    Conserves csma calls := by
  refine ⟨⟨opened.nodup, opened.neighborMemb, ?_⟩, opened.accounts⟩
  intro other
  by_cases same : other = n
  case pos =>
    rw [same]
    exact iff_of_true opened.isListed more
  case neg => exact opened.nonempty other same

theorem Opened.removeEmpty
    (opened : Opened csma n calls) : Conserves (csma.removeEmpty n) calls := by
  unfold Csma.removeEmpty
  by_cases empty : csma.queue n = []
  case neg =>
    rw [if_neg empty]
    exact opened.conserves empty
  case pos =>
    rw [if_pos empty]
    have perm := queued_perm opened.isListed
    rw [empty, List.nil_append] at perm
    constructor
    case listed =>
      constructor
      case nodup => exact opened.nodup.erase n
      case neighborMemb =>
        intro other
        change Function.update csma.neighborMemb n false other = true ↔
          other ∈ csma.neighborList.erase n
        rw [Function.update_apply, opened.nodup.mem_erase_iff]
        split
        case isTrue same => simp [same]
        case isFalse different => simp [different, opened.neighborMemb]
      case nonempty =>
        intro other
        change other ∈ csma.neighborList.erase n ↔ csma.queue other ≠ []
        rw [opened.nodup.mem_erase_iff]
        by_cases same : other = n
        case pos => simp [same, empty]
        case neg => simp [same, opened.nonempty other same]
    case accounts =>
      exact (opened.accounts.perm perm).congr rfl rfl (fun _ _ => rfl) rfl
        rfl

section Sends

variable [DecidableEq Addr]

/-- The neighbour of an address is found or listed, or nothing is changed. -/
theorem Conserves.findNeighbor {csma : Csma config Addr Callback}
    {calls : List Callback} (conserves : Conserves csma calls)
    (addr : Addr) :
    (∃ n later, csma.findNeighbor addr = (some n, later) ∧
      Opened later n calls) ∨
    csma.findNeighbor addr = (none, csma) := by
  unfold Csma.findNeighbor
  split
  case h_1 n isNeighbor =>
    exact Or.inl ⟨n, csma, rfl,
      conserves.opened (List.mem_of_find?_eq_some isNeighbor)⟩
  case h_2 =>
    rcases csma.neighborMemb.membAlloc_cases with
      ⟨n, unused, allocated⟩ | full
    · rw [allocated]
      refine Or.inl ⟨n, _, rfl, ?_⟩
      have notListed : n ∉ csma.neighborList := by
        rw [← conserves.listed.neighborMemb, unused]
        exact Bool.false_ne_true
      have isEmpty : csma.queue n = [] := by
        by_contra more
        exact notListed ((conserves.listed.nonempty n).mpr more)
      have queues : (csma.setNeighbor n { csma.neighbors n with
          addr := addr
          transmissions := 0
          collisions := 0
          deferrals := 0
          queuedPacketList := [] }).queue = csma.queue :=
        queue_setNeighbor csma n isEmpty.symm
      have list : csma.neighborList.erase n ++ [n] =
          csma.neighborList ++ [n] := by
        rw [List.erase_of_not_mem notListed]
      constructor
      case nodup =>
        change (csma.neighborList.erase n ++ [n]).Nodup
        rw [list]
        exact conserves.listed.nodup.append (List.nodup_singleton n)
          (List.disjoint_singleton.mpr notListed)
      case neighborMemb =>
        intro other
        change Function.update csma.neighborMemb n true other = true ↔
          other ∈ csma.neighborList.erase n ++ [n]
        rw [list, Function.update_apply, List.mem_append,
          List.mem_singleton]
        split
        case isTrue same => simp [same]
        case isFalse different =>
          simp [different, conserves.listed.neighborMemb]
      case isListed => exact List.mem_append_right _ List.mem_cons_self
      case nonempty =>
        intro other different
        change other ∈ csma.neighborList.erase n ++ [n] ↔
          (csma.setNeighbor n _).queue other ≠ []
        rw [list, queues, List.mem_append, List.mem_singleton,
          conserves.listed.nonempty]
        exact or_iff_left different
      case accounts =>
        have queued : List.flatMap (csma.setNeighbor n
            { csma.neighbors n with
              addr := addr
              transmissions := 0
              collisions := 0
              deferrals := 0
              queuedPacketList := [] }).queue
            (csma.neighborList.erase n ++ [n]) = csma.queued := by
          rw [list, queues, List.flatMap_append, List.flatMap_singleton,
            isEmpty, List.append_nil]
          rfl
        change Accounts _ (List.flatMap (csma.setNeighbor n _).queue
          (csma.neighborList.erase n ++ [n])) calls
        rw [queued]
        exact conserves.accounts.congr rfl rfl (fun _ _ => rfl) rfl rfl
    · rw [full]
      exact Or.inr rfl

omit [DecidableEq Addr] in
theorem Opened.allocPacket {csma : Csma config Addr Callback}
    {n : Fin config.maxNeighborQueues} {calls : List Callback}
    (opened : Opened csma n calls) (attrs : MacAttrs) (hasQueuebuf : Bool) :
    (∃ later, csma.allocPacket attrs hasQueuebuf = (none, later) ∧
      Opened later n calls) ∨
    ∃ q metadata later,
      csma.allocPacket attrs hasQueuebuf = (some (q, metadata), later) ∧
      csma.packetMemb q = false ∧ csma.metadataMemb metadata = false ∧
      later = { csma with
        packetMemb := Function.update csma.packetMemb q true
        metadataMemb := Function.update csma.metadataMemb metadata true
        packets := later.packets } ∧
      later.metadataOf q = some metadata ∧
      ∀ p, p ≠ q → later.metadataOf p = csma.metadataOf p := by
  unfold Csma.allocPacket
  rcases csma.packetMemb.membAlloc_cases with ⟨q, unused, allocated⟩ | full
  · rw [allocated]
    dsimp only
    have notQueued : q ∉ csma.queued := by
      rw [← opened.accounts.packetMemb, unused]
      exact Bool.false_ne_true
    have others : ∀ (ptr : Option (Fin config.maxQueuedPackets)),
        ∀ p ∈ csma.queued, (Function.update csma.packets q
          { csma.packets q with ptr := ptr } p).ptr =
            csma.metadataOf p := by
      intro ptr p member
      have different : p ≠ q := by
        rintro rfl
        exact notQueued member
      rw [Function.update_of_ne different]
      rfl
    have undone : Function.update (Function.update csma.packetMemb q true) q
        false = csma.packetMemb := by
      rw [Function.update_idem, ← unused, Function.update_eq_self]
    rcases csma.metadataMemb.membAlloc_cases with
      ⟨metadata, unusedMetadata, isMetadata⟩ | fullMetadata
    · rw [isMetadata]
      dsimp only
      cases hasQueuebuf with
      | true =>
          refine Or.inr ⟨q, metadata, _, rfl, unused, unusedMetadata, rfl, ?_,
            ?_⟩
          · simp [metadataOf]
          · intro p different
            simp [metadataOf, different]
      | false =>
          have undoneMetadata : Function.update (Function.update
              csma.metadataMemb metadata true) metadata false =
                csma.metadataMemb := by
            rw [Function.update_idem, ← unusedMetadata,
              Function.update_eq_self]
          refine Or.inl ⟨_, rfl, opened.nodup, opened.neighborMemb,
            opened.isListed, opened.nonempty, ?_⟩
          exact opened.accounts.congr undone undoneMetadata
            (others (some metadata)) rfl rfl
    · rw [fullMetadata]
      dsimp only
      refine Or.inl ⟨_, rfl, opened.nodup, opened.neighborMemb,
        opened.isListed, opened.nonempty, ?_⟩
      exact opened.accounts.congr undone rfl (others none) rfl rfl
  · rw [full]
    exact Or.inl ⟨_, rfl, opened⟩

omit [DecidableEq Addr] in
theorem Conserves.startTimer {csma : Csma config Addr Callback}
    {calls : List Callback} (conserves : Conserves csma calls)
    (n : Fin config.maxNeighborQueues) (q : Fin config.maxQueuedPackets) :
    Conserves (csma.startTimer n q) calls := by
  unfold Csma.startTimer
  split
  case isTrue => exact conserves.setNeighbor n rfl
  case isFalse => exact conserves

omit [DecidableEq Addr] in
theorem queue_insertPacket (csma : Csma config Addr Callback)
    (n : Fin config.maxNeighborQueues)
    (q metadata : Fin config.maxQueuedPackets) (sent : Callback)
    (attrs : MacAttrs) :
    (csma.insertPacket n q metadata sent attrs).queue =
      Function.update csma.queue n
        (if attrs.isAck then q :: (csma.queue n).erase q
          else (csma.queue n).erase q ++ [q]) := by
  funext other
  by_cases same : other = n
  case pos =>
    rw [same, Function.update_self]
    simp [insertPacket, queue, setNeighbor]
  case neg =>
    rw [Function.update_of_ne same]
    simp [insertPacket, queue, setNeighbor, same]

omit [DecidableEq Addr] in
theorem Opened.insertPacket {csma allocated : Csma config Addr Callback}
    {n : Fin config.maxNeighborQueues} {calls : List Callback}
    (opened : Opened csma n calls) {q metadata : Fin config.maxQueuedPackets}
    (unusedPacket : csma.packetMemb q = false)
    (unusedMetadata : csma.metadataMemb metadata = false)
    (isAllocated : allocated = { csma with
      packetMemb := Function.update csma.packetMemb q true
      metadataMemb := Function.update csma.metadataMemb metadata true
      packets := allocated.packets })
    (isMetadata : allocated.metadataOf q = some metadata)
    (others : ∀ p, p ≠ q → allocated.metadataOf p = csma.metadataOf p)
    (sent : Callback) (attrs : MacAttrs) :
    Conserves (allocated.insertPacket n q metadata sent attrs)
      (calls ++ [sent]) := by
  have queues := queue_insertPacket allocated n q metadata sent attrs
  have neighborList : (allocated.insertPacket n q metadata sent
      attrs).neighborList = allocated.neighborList := rfl
  have neighborMemb : (allocated.insertPacket n q metadata sent
      attrs).neighborMemb = allocated.neighborMemb := rfl
  have packetMemb : (allocated.insertPacket n q metadata sent
      attrs).packetMemb = allocated.packetMemb := rfl
  have metadataMemb : (allocated.insertPacket n q metadata sent
      attrs).metadataMemb = allocated.metadataMemb := rfl
  have packets : (allocated.insertPacket n q metadata sent
      attrs).packets = allocated.packets := rfl
  have called : (allocated.insertPacket n q metadata sent
      attrs).called = allocated.called := rfl
  have isSent : ((allocated.insertPacket n q metadata sent
      attrs).metadata metadata).sent = sent := by
    simp [Csma.insertPacket, setNeighbor]
  have metadataSame : ∀ other, other ≠ metadata →
      (allocated.insertPacket n q metadata sent attrs).metadata other =
        allocated.metadata other := by
    intro other different
    simp [Csma.insertPacket, setNeighbor, different]
  generalize allocated.insertPacket n q metadata sent attrs = later at *
  have sameQueues : allocated.queue = csma.queue := by
    rw [isAllocated]
    rfl
  have sameList : later.neighborList = csma.neighborList := by
    rw [neighborList, isAllocated]
  have notQueued : q ∉ csma.queued := by
    rw [← opened.accounts.packetMemb, unusedPacket]
    exact Bool.false_ne_true
  have notInQueue : q ∉ csma.queue n := fun member =>
    notQueued ((queued_perm opened.isListed).mem_iff.mpr
      (List.mem_append_left _ member))
  rw [sameQueues, List.erase_of_not_mem notInQueue] at queues
  have more : (later.queue n).Perm (q :: csma.queue n) := by
    rw [queues, Function.update_self]
    split
    case isTrue => exact List.Perm.refl _
    case isFalse => exact List.perm_append_comm
  have otherQueues : ∀ other, other ≠ n →
      later.queue other = csma.queue other := by
    intro other different
    rw [queues, Function.update_of_ne different]
  have stillListed : n ∈ later.neighborList := by
    rw [sameList]
    exact opened.isListed
  constructor
  case listed =>
    constructor
    case nodup =>
      rw [sameList]
      exact opened.nodup
    case neighborMemb =>
      intro other
      rw [sameList, neighborMemb, isAllocated]
      exact opened.neighborMemb other
    case nonempty =>
      intro other
      by_cases same : other = n
      case pos =>
        rw [same]
        refine iff_of_true stillListed ?_
        apply List.ne_nil_of_mem
        exact more.mem_iff.mpr List.mem_cons_self
      case neg =>
        rw [sameList, otherQueues other same]
        exact opened.nonempty other same
  case accounts =>
    have perm : (q :: csma.queued).Perm later.queued := by
      refine List.Perm.trans ?_ (queued_perm stillListed).symm
      rw [sameList, others_congr opened.nodup otherQueues]
      refine ((queued_perm opened.isListed).cons q).trans ?_
      exact List.Perm.append_right _ more.symm
    have metadataOfSame : later.metadataOf = allocated.metadataOf := by
      funext p
      rw [metadataOf, packets, metadataOf]
    have added : Accounts later (q :: csma.queued)
        (calls ++ [(later.metadata metadata).sent]) := by
      apply opened.accounts.add unusedPacket unusedMetadata
      · rw [packetMemb, isAllocated]
      · rw [metadataMemb, isAllocated]
      · rw [metadataOfSame]
        exact isMetadata
      · intro p different
        rw [metadataOfSame]
        exact others p different
      · intro other different
        rw [metadataSame other different, isAllocated]
      · rw [called, isAllocated]
    rw [isSent] at added
    exact added.perm perm

/-- A call of `send_packet` is answered, or its packet is queued. -/
theorem Conserves.sendPacket {csma : Csma config Addr Callback}
    {calls : List Callback} (conserves : Conserves csma calls)
    (sent : Callback) (addr : Addr) (attrs : MacAttrs) (randomRand : UInt16)
    (hasQueuebuf : Bool) :
    Conserves (csma.sendPacket sent addr attrs randomRand hasQueuebuf)
      (calls ++ [sent]) := by
  have answered : ∀ {later : Csma config Addr Callback},
      Conserves later calls → Conserves
        (later.macCallSentCallback sent .err 1) (calls ++ [sent]) :=
    fun {later} ok => ⟨⟨ok.listed.nodup, ok.listed.neighborMemb,
      ok.listed.nonempty⟩, ok.accounts.answer sent .err 1⟩
  unfold Csma.sendPacket
  dsimp only
  have numbered : Conserves { csma with
      seqno := some (csma.nextSeqno randomRand).2 } calls :=
    conserves.congr rfl rfl rfl rfl rfl rfl rfl rfl
  rcases numbered.findNeighbor addr with ⟨n, found, isFound, opened⟩ | none
  · rw [isFound]
    dsimp only
    by_cases room : (found.queue n).length < config.maxPacketPerNeighbor
    case neg =>
      rw [if_neg room]
      apply answered
      apply opened.conserves
      intro empty
      rw [empty] at room
      exact room config.onePacket
    case pos =>
      rw [if_pos room]
      rcases opened.allocPacket
        { attrs with macSeqno := (csma.nextSeqno randomRand).1 } hasQueuebuf
          with ⟨later, isLater, kept⟩ |
            ⟨q, metadata, later, isLater, unusedPacket, unusedMetadata,
              isAllocated, isMetadata, others⟩
      · rw [isLater]
        exact answered kept.removeEmpty
      · rw [isLater]
        exact (opened.insertPacket unusedPacket unusedMetadata isAllocated
          isMetadata others sent _).startTimer n q
  · rw [none]
    exact answered numbered

end Sends

/-! ## Runs -/

/-- A packet is sent, or the radio duty cycling layer reports about a packet
that was given to it for a neighbour entry. -/
inductive Event (config : CsmaConfig) (Addr Callback : Type) where
  | send (sent : Callback) (addr : Addr) (attrs : MacAttrs)
      (randomRand : UInt16) (hasQueuebuf : Bool)
  | report (n : Option (Fin config.maxNeighborQueues)) (status : MacTx)
      (numTransmissions : Nat) (attrs : MacAttrs) (randomRand : Nat)

/-- The callback of a call of `send_packet`. -/
def Event.call? : Event config Addr Callback → Option Callback
  | .send sent _ _ _ _ => some sent
  | .report _ _ _ _ _ => none

variable [DecidableEq Addr]

def step (csma : Csma config Addr Callback) :
    Event config Addr Callback → Csma config Addr Callback
  | .send sent addr attrs randomRand hasQueuebuf =>
      csma.sendPacket sent addr attrs randomRand hasQueuebuf
  | .report n status numTransmissions attrs randomRand =>
      csma.packetSent n status numTransmissions attrs randomRand

def run (csma : Csma config Addr Callback)
    (events : List (Event config Addr Callback)) :
    Csma config Addr Callback :=
  events.foldl step csma

theorem Conserves.run {csma : Csma config Addr Callback}
    {calls : List Callback} (conserves : Conserves csma calls)
    (events : List (Event config Addr Callback)) :
    Conserves (csma.run events) (calls ++ events.filterMap Event.call?) := by
  induction events generalizing csma calls with
  | nil =>
      rw [List.filterMap_nil, List.append_nil]
      exact conserves
  | cons event rest inductionHypothesis =>
      cases event with
      | send sent addr attrs randomRand hasQueuebuf =>
          have later := inductionHypothesis (conserves.sendPacket sent addr
            attrs randomRand hasQueuebuf)
          rw [List.append_assoc] at later
          exact later
      | report n status numTransmissions attrs randomRand =>
          exact inductionHypothesis (conserves.packetSent n status
            numTransmissions attrs randomRand)

omit [DecidableEq Addr] in
theorem exists_map_some {Block : Type} {options : List (Option Block)}
    (all : none ∉ options) :
    ∃ blocks : List Block, options = blocks.map some := by
  induction options with
  | nil => exact ⟨[], rfl⟩
  | cons option rest inductionHypothesis =>
      rw [List.mem_cons, not_or] at all
      rcases inductionHypothesis all.2 with ⟨blocks, isBlocks⟩
      rcases Option.ne_none_iff_exists'.mp (Ne.symm all.1) with
        ⟨block, isBlock⟩
      exact ⟨block :: blocks, by rw [isBlock, isBlocks, List.map_cons]⟩

omit [DecidableEq Addr] in
/-- `init`: no block is in use. -/
def initial (config : CsmaConfig) (addr : Addr)
    (metadata : Fin config.maxQueuedPackets → QbufMetadata Callback) :
    Csma config Addr Callback where
  neighborMemb := fun _ => false
  packetMemb := fun _ => false
  metadataMemb := fun _ => false
  neighbors := fun _ =>
    { addr := addr
      transmitTimer := none
      transmissions := 0
      collisions := 0
      deferrals := 0
      queuedPacketList := [] }
  packets := fun _ =>
    { buf := { macSeqno := 0, maxMacTransmissions := 0, isAck := false }
      ptr := none }
  metadata := metadata
  neighborList := []
  seqno := none
  called := []

omit [DecidableEq Addr] in
theorem initial_conserves (config : CsmaConfig) (addr : Addr)
    (metadata : Fin config.maxQueuedPackets → QbufMetadata Callback) :
    Conserves (initial config addr metadata) [] where
  listed := ⟨List.nodup_nil, by simp [initial], by simp [initial, queue]⟩
  accounts :=
    ⟨List.nodup_nil, by simp [initial, queued], List.nodup_nil,
      by simp [initial, queued], by simp [initial, queued],
      List.Perm.refl _⟩

/-- Over every sequence of sends and reports, each call of `send_packet` has
been answered once or its packet is in one queue, the blocks in use are those
of the queued packets, and a neighbour is listed exactly when its queue is not
empty.  A report about a queued packet that is not sent again answers its
call. -/
theorem csma_conserves (config : CsmaConfig) (addr : Addr)
    (metadata : Fin config.maxQueuedPackets → QbufMetadata Callback)
    (events : List (Event config Addr Callback)) :
    let csma := (initial config addr metadata).run events
    ((events.filterMap Event.call?).map some).Perm
        (csma.called.map (fun call => some call.1) ++
          csma.queued.map csma.callbackOf) ∧
      csma.queued.Nodup ∧
      (∀ p, csma.packetMemb p = true ↔ p ∈ csma.queued) ∧
      csma.packetMemb.allocated.length =
        (csma.neighborList.map fun n => (csma.queue n).length).sum ∧
      csma.metadataMemb.allocated.length =
        (csma.neighborList.map fun n => (csma.queue n).length).sum ∧
      csma.neighborList.Nodup ∧
      (∀ n, n ∈ csma.neighborList ↔ csma.queue n ≠ []) ∧
      ∀ n q status numTransmissions attrs randomRand,
        csma.findPacket n attrs.macSeqno = some q →
          csma.Settles (csma.packetSent (some n) status numTransmissions
            attrs randomRand) n q status numTransmissions := by
  intro csma
  have conserves : Conserves csma (events.filterMap Event.call?) :=
    (initial_conserves config addr metadata).run events
  have accounts := conserves.accounts
  have total : csma.queued.length =
      (csma.neighborList.map fun n => (csma.queue n).length).sum :=
    List.length_flatMap
  have packets : csma.packetMemb.allocated.length = csma.queued.length :=
    (Memb.allocated_perm accounts.nodup accounts.packetMemb).length_eq
  have blocks : csma.metadataMemb.allocated.length = csma.queued.length := by
    rcases exists_map_some accounts.hasMetadata with ⟨blocks, isBlocks⟩
    have nodup : blocks.Nodup := by
      have metadataNodup := accounts.metadataNodup
      rw [isBlocks] at metadataNodup
      exact metadataNodup.of_map _
    have mem_iff : ∀ block, csma.metadataMemb block = true ↔
        block ∈ blocks := by
      intro block
      rw [accounts.metadataMemb, isBlocks]
      simp
    have length := congrArg List.length isBlocks
    rw [List.length_map, List.length_map] at length
    rw [(Memb.allocated_perm nodup mem_iff).length_eq, length]
  exact ⟨accounts.calls, accounts.nodup, accounts.packetMemb,
    packets.trans total, blocks.trans total, conserves.listed.nodup,
    conserves.listed.nonempty, fun _ _ status numTransmissions _ randomRand
      found => conserves.settles found status numTransmissions randomRand⟩

end Csma

end Contiki.Mac
