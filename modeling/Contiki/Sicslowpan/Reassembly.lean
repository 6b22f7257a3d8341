import Mathlib.Data.List.Forall2
import Contiki.Sicslowpan.IphcStages
import Contiki.Sicslowpan.Output

/-!
# Reassembly

What `input` does with a fragment of the packet that is being reassembled,
and with a list of fragments that make up the rest of the packet.
-/

namespace Contiki.Sicslowpan

open Contiki.Lib

variable {node : Node} {state : State} {received : Received}

/-! ## Fragment headers -/

theorem get16_of_holds {memory : ByteMem} {index value : Nat}
    (bound : value < 65536) (holds : memory.Holds index (set16 value)) :
    get16 memory index = value := by
  simp only [set16, holds_cons] at holds
  obtain ⟨high, low, _⟩ := holds
  rw [get16_eq, high, low, UInt8.toNat_ofNat', UInt8.toNat_ofNat',
    Nat.shiftRight_eq_div_pow]
  omega

theorem dispatch_size {dispatch size : Nat} (aligned : dispatch % 8 = 0)
    (byte : dispatch < 256) (bound : size < 2048) :
    dispatch <<< 8 ||| size < 65536 ∧
      (dispatch <<< 8 ||| size) &&& 0x07ff = size ∧
      ((dispatch <<< 8 ||| size) &&& 0xf800) >>> 8 = dispatch := by
  have split : dispatch <<< 8 ||| size = dispatch * 256 + size := by
    have shifted : dispatch <<< 8 = (dispatch / 8) <<< 11 := by
      rw [Nat.shiftLeft_eq, Nat.shiftLeft_eq]
      omega
    rw [shifted, ← Nat.shiftLeft_add_eq_or_of_lt bound, Nat.shiftLeft_eq]
    omega
  have small : dispatch * 256 + size < 2 ^ 16 := by omega
  have low := low_mask_and (dispatch * 256 + size) 11
  have high := high_mask_and 11 small (by decide)
  rw [Nat.and_comm] at high
  rw [split]
  refine ⟨small, ?_, ?_⟩
  · exact low.trans (by omega)
  · rw [show (0xf800 : Nat) = (2 ^ (16 - 11) - 1) <<< 11 by decide, high,
      Nat.shiftRight_eq_div_pow]
    omega

/-- The fragmentation header of a further fragment. -/
def fragnHeader (size : Nat) (tag : UInt16) (offset : UInt8) :
    FragHeader where
  fragSize := size
  fragOffset := offset.toNat
  fragTag := tag.toNat
  packetbufHdrLen := fragnHdrLen
  isFragment := true
  firstFragment := false

/-- The fragmentation header of a first fragment. -/
def frag1Header (size : Nat) (tag : UInt16) : FragHeader where
  fragSize := size
  fragOffset := 0
  fragTag := tag.toNat
  packetbufHdrLen := frag1HdrLen
  isFragment := true
  firstFragment := true

theorem fragHeader_fragn {packetbuf : ByteMem} {size : Nat}
    {offset : UInt8} {tag : UInt16} {payload : List UInt8}
    (bound : size < 2048)
    (holds : packetbuf.Holds 0 (fragn size tag offset.toNat payload)) :
    fragHeader packetbuf = fragnHeader size tag offset ∧
      packetbuf.Holds fragnHdrLen payload := by
  obtain ⟨fits, low, high⟩ := dispatch_size
    (show dispatchFragn % 8 = 0 by decide) (by decide) bound
  simp only [fragn, ByteMem.holds_append, List.length_append] at holds
  obtain ⟨⟨⟨sizeHolds, tagHolds⟩, offsetHolds⟩, payloadHolds⟩ := holds
  have size_eq := get16_of_holds fits sizeHolds
  have tag_eq : get16 packetbuf 2 = tag.toNat :=
    get16_of_holds tag.toNat_lt tagHolds
  have offset_eq : packetbuf 4 = offset :=
    (holds_cons.mp offsetHolds).1.trans (UInt8.ofNat_toNat)
  refine ⟨?_, payloadHolds⟩
  simp only [fragHeader, size_eq, low, high, tag_eq, offset_eq]
  rw [if_neg (by decide), if_pos trivial]
  rfl

theorem fragHeader_frag1 {packetbuf : ByteMem} {size : Nat}
    {tag : UInt16} {header payload : List UInt8} (bound : size < 2048)
    (holds : packetbuf.Holds 0 (frag1 size tag header payload)) :
    fragHeader packetbuf = frag1Header size tag ∧
      packetbuf.Holds frag1HdrLen (header ++ payload) := by
  obtain ⟨fits, low, high⟩ := dispatch_size
    (show dispatchFrag1 % 8 = 0 by decide) (by decide) bound
  rw [frag1, List.append_assoc, ByteMem.holds_append,
    ByteMem.holds_append] at holds
  obtain ⟨⟨sizeHolds, tagHolds⟩, restHolds⟩ := holds
  have size_eq := get16_of_holds fits sizeHolds
  have tag_eq : get16 packetbuf 2 = tag.toNat :=
    get16_of_holds tag.toNat_lt tagHolds
  refine ⟨?_, restHolds⟩
  simp only [fragHeader, size_eq, low, high, tag_eq]
  rw [if_pos trivial]
  rfl

/-! ## One fragment -/

/-- A node reassembles a packet, of which `processed` bytes have arrived. -/
structure Reassembling (node : Node) (state : State) (sender : LinkAddr)
    (tag : UInt16) (size processed : Nat) : Prop where
  len : state.sicslowpanLen = size
  arrived : state.processedIpInLen = processed
  started : 0 < processed
  tag : state.reassTag = tag.toNat
  sender : state.fragSender = sender
  fits : size ≤ node.uipBufsize

/-- The offset, in units of eight bytes, and the payload of a fragment. -/
structure Fragment where
  offset : UInt8
  payload : List UInt8

/-- The first byte position of a fragment. -/
def Fragment.position (fragment : Fragment) : Nat :=
  fragment.offset.toNat <<< 3

/-- Store a fragment in the reassembly buffer. -/
def Fragment.store (fragment : Fragment) (buf : ByteMem) : ByteMem :=
  buf.write fragment.position fragment.payload

/-- A frame carries a further fragment of a packet. -/
structure Carries (received : Received) (sender : LinkAddr)
    (tag : UInt16) (size : Nat) (fragment : Fragment) : Prop where
  sender : received.sender = sender
  holds : received.packetbuf.Holds 0
    (fragn size tag fragment.offset.toNat fragment.payload)
  datalen : received.datalen = fragnHdrLen + fragment.payload.length

/-- The reassembly has not timed out when a frame arrives. -/
def InTime (state : State) (received : Received) : Prop :=
  state.reassTimer.expired received.clockTime = false

variable {sender : LinkAddr} {tag : UInt16}

/-- A fragment of the packet that is being reassembled is stored, and
completes the packet exactly when its payload is all that is missing. -/
theorem input_fragment {size processed : Nat} {fragment : Fragment}
    (reassembling : Reassembling node state sender tag size processed)
    (inTime : InTime state received)
    (carries : Carries received sender tag size fragment)
    (inside : fragment.position + fragment.payload.length ≤ size)
    (missing : processed + fragment.payload.length ≤ size) :
    input node received state =
      if processed + fragment.payload.length = size then
        ({ state with
            sicslowpanBuf := fragment.store state.sicslowpanBuf
            sicslowpanLen := 0
            processedIpInLen := 0 },
          some ((fragment.store state.sicslowpanBuf).read 0 size))
      else
        ({ state with
            sicslowpanBuf := fragment.store state.sicslowpanBuf
            processedIpInLen := processed + fragment.payload.length },
          none) := by
  have bound : size < 2048 :=
    Nat.lt_of_le_of_lt reassembling.fits node.uipBufsize_lt
  obtain ⟨len, arrived, started, sameTag, sameSender, fits⟩ := reassembling
  obtain ⟨header, payload⟩ := fragHeader_fragn bound carries.holds
  have datalen := carries.datalen
  have unexpired : cancelExpired received state = state := by
    rw [cancelExpired, inTime]
    rfl
  have last : lastFragment (fragnHeader size tag fragment.offset) received
      state = decide (processed + fragment.payload.length = size) := by
    simp only [lastFragment, fragnHeader, arrived, datalen]
    rw [decide_eq_decide]
    simp
    omega
  have kept : prioritizeNewPackets (fragnHeader size tag fragment.offset)
      received state = state := by
    simp [prioritizeNewPackets, fragnHeader]
  have admitted : accept node (fragnHeader size tag fragment.offset)
      received state = some state := by
    have positive : size ≠ 0 := by omega
    simp [accept, fragnHeader, arrived, started, len, sameTag, sameSender,
      carries.sender, positive]
  have headers : uncompressHeaders node
      (fragnHeader size tag fragment.offset) received
      state.sicslowpanBuf =
      some { buf := state.sicslowpanBuf, packetbufHdrLen := fragnHdrLen,
             uncompHdrLen := 0 } := rfl
  have copied : copyPayload node (fragnHeader size tag fragment.offset)
      received { buf := state.sicslowpanBuf,
                 packetbufHdrLen := fragnHdrLen, uncompHdrLen := 0 } =
      some (fragment.store state.sicslowpanBuf) := by
    have room : ¬ 0 + fragment.offset.toNat <<< 3 +
        fragment.payload.length > node.sizeofBuf := by
      simp only [Fragment.position] at inside
      simp only [Node.sizeofBuf]
      omega
    simp only [copyPayload, fragnHeader, datalen,
      Nat.add_sub_cancel_left]
    rw [if_neg (by omega), if_neg room, payload, Nat.zero_add]
    rfl
  simp only [input, process, header, unexpired, last, kept, admitted,
    headers, copied]
  have nonempty : size > 0 := by omega
  have small : (state.processedIpInLen + 0 + fragment.payload.length) %
      65536 = processed + fragment.payload.length := by omega
  simp only [complete, fragnHeader, datalen, Nat.add_sub_cancel_left,
    if_pos nonempty, decide_eq_true_eq, Bool.false_eq_true, if_false,
    small, len]
  by_cases whole : processed + fragment.payload.length = size
  · simp only [if_pos whole, or_true, if_true, State.cancel]
  · have pending : ¬ (processed + fragment.payload.length = 0 ∨
        processed + fragment.payload.length = size) := by omega
    simp only [if_neg whole, if_neg pending]

/-! ## The first fragment -/

/-- The state against which a frame is checked. -/
def ready (received : Received) (state : State) : State :=
  prioritizeNewPackets (fragHeader received.packetbuf) received
    (cancelExpired received state)

theorem ready_buf (received : Received) (state : State) :
    (ready received state).sicslowpanBuf = state.sicslowpanBuf := by
  have kept : (cancelExpired received state).sicslowpanBuf =
      state.sicslowpanBuf := by
    unfold cancelExpired
    split <;> rfl
  unfold ready prioritizeNewPackets
  split
  · exact kept
  · split
    · exact kept
    · exact kept

theorem ready_idle (received : Received)
    (idle : state.processedIpInLen = 0) :
    (ready received state).processedIpInLen = 0 := by
  have none : (cancelExpired received state).processedIpInLen = 0 := by
    unfold cancelExpired
    split
    · rfl
    · exact idle
  unfold ready prioritizeNewPackets
  split
  · rfl
  · split
    · rfl
    · exact none

/-- The state after a first fragment with these headers. -/
def afterFirst (node : Node) (received : Received) (tag : UInt16)
    (size : Nat) (headers : Uncompressed) : State where
  sicslowpanBuf := headers.buf.write headers.uncompHdrLen
    (received.packetbuf.read headers.packetbufHdrLen
      (received.datalen - headers.packetbufHdrLen))
  sicslowpanLen := size
  processedIpInLen := headers.uncompHdrLen +
    (received.datalen - headers.packetbufHdrLen)
  reassTag := tag.toNat
  fragSender := received.sender
  reassTimer :=
    { start := received.clockTime
      interval := node.reassMaxage }

variable {size : Nat}

theorem input_first {headers : Uncompressed}
    (idle : (ready received state).processedIpInLen = 0)
    (header : fragHeader received.packetbuf = frag1Header size tag)
    (fits : size ≤ node.uipBufsize)
    (decoded : uncompressHeaders node (frag1Header size tag) received
      state.sicslowpanBuf = some headers)
    (within : headers.packetbufHdrLen ≤ received.datalen) :
    let payloadLen := received.datalen - headers.packetbufHdrLen
    let processed := headers.uncompHdrLen + payloadLen
    0 < processed → processed < size →
    input node received state =
      (afterFirst node received tag size headers, none) := by
  intro payloadLen processed started incomplete
  have bound := Nat.lt_of_le_of_lt fits node.uipBufsize_lt
  have sameBuf := ready_buf received state
  unfold ready at idle sameBuf
  rw [header] at idle sameBuf
  generalize kept : prioritizeNewPackets (frag1Header size tag) received
    (cancelExpired received state) = other at idle sameBuf
  have last : lastFragment (frag1Header size tag) received
      (cancelExpired received state) = false := by
    simp [lastFragment, frag1Header]
  have admitted : accept node (frag1Header size tag) received other =
      some { other with
        sicslowpanLen := size
        reassTag := tag.toNat
        fragSender := received.sender
        reassTimer :=
          { start := received.clockTime
            interval := node.reassMaxage } } := by
    have positive : 0 < size := by omega
    simp [accept, frag1Header, idle, positive, fits]
  have copied : copyPayload node (frag1Header size tag) received headers =
      some (headers.buf.write headers.uncompHdrLen
        (received.packetbuf.read headers.packetbufHdrLen payloadLen)) := by
    have room : ¬ headers.uncompHdrLen + 0 <<< 3 + payloadLen >
        node.sizeofBuf := by
      simp only [Node.sizeofBuf]
      omega
    unfold copyPayload
    exact (if_neg (Nat.not_lt.mpr within)).trans (if_neg room)
  rw [← sameBuf] at decoded
  simp only [input, process, header, kept, last, admitted, decoded, copied]
  have small : (0 + headers.uncompHdrLen + payloadLen) % 65536 =
      processed := by omega
  have pending : ¬ (processed = 0 ∨ processed = size) := by omega
  have positive : size > 0 := by omega
  simp only [complete, frag1Header, idle, if_pos positive, if_true,
    Bool.false_eq_true, if_false]
  change (if (0 + headers.uncompHdrLen + payloadLen) % 65536 = 0 ∨
    (0 + headers.uncompHdrLen + payloadLen) % 65536 = size then _
    else _) = _
  rw [small, if_neg pending]
  rfl

theorem reassembling_afterFirst
    {headers : Uncompressed} (fits : size ≤ node.uipBufsize)
    (started : 0 < headers.uncompHdrLen +
      (received.datalen - headers.packetbufHdrLen)) :
    Reassembling node (afterFirst node received tag size headers)
      received.sender tag size (headers.uncompHdrLen +
        (received.datalen - headers.packetbufHdrLen)) :=
  ⟨rfl, rfl, started, rfl, rfl, fits⟩

/-! ## The rest of a packet -/

/-- Fragments inside a packet that have as many bytes as are missing. -/
structure Missing (fragments : List Fragment) (size processed : Nat) :
    Prop where
  nonempty : ∀ fragment ∈ fragments, 0 < fragment.payload.length
  inside : ∀ fragment ∈ fragments,
    fragment.position + fragment.payload.length ≤ size
  total : processed +
    (fragments.map fun fragment => fragment.payload.length).sum = size

/-- Frames carry fragments, one each, before the reassembly times out. -/
def Deliver (state : State) (sender : LinkAddr) (tag : UInt16)
    (size : Nat) : List Received → List Fragment → Prop :=
  List.Forall₂ fun received fragment =>
    InTime state received ∧ Carries received sender tag size fragment

/-- A packet that is handed over after the last of `count` frames. -/
def afterLast (count : Nat) (packet : List UInt8) :
    List (Option (List UInt8)) :=
  List.replicate (count - 1) none ++ [some packet]

variable {fragments : List Fragment} {frames : List Received}

/-- The missing fragments complete the packet, and the last one of them
hands it over. -/
theorem inputAll_missing {state : State} {processed : Nat}
    (reassembling : Reassembling node state sender tag size processed)
    (missing : Missing fragments size processed)
    (incomplete : processed < size)
    (deliver : Deliver state sender tag size frames fragments) :
    let buf := fragments.foldl (fun buf fragment => fragment.store buf)
      state.sicslowpanBuf
    inputAll node frames state =
      ({ state with
          sicslowpanBuf := buf
          sicslowpanLen := 0
          processedIpInLen := 0 },
        afterLast frames.length (buf.read 0 size)) := by
  induction fragments generalizing frames state processed with
  | nil =>
      have total := missing.total
      simp at total
      omega
  | cons fragment rest inductionHypothesis =>
      obtain ⟨nonempty, inside, total⟩ := missing
      simp only [List.map_cons, List.sum_cons] at total
      obtain _ | @⟨received, _, frames, _, ⟨inTime, carries⟩, later⟩ :=
        deliver
      have step := input_fragment reassembling inTime carries
        (inside fragment (.head _)) (by omega)
      cases rest with
      | nil =>
          cases later
          simp at total
          rw [if_pos total] at step
          simp only [inputAll, step]
          rfl
      | cons second rest =>
          have positive := nonempty second (.tail _ (.head _))
          have remaining : Missing (second :: rest) size
              (processed + fragment.payload.length) :=
            { nonempty := fun other member =>
                nonempty other (.tail _ member)
              inside := fun other member => inside other (.tail _ member)
              total := by rw [← total, Nat.add_assoc] }
          have partial' : processed + fragment.payload.length < size := by
            rw [← total]
            simp
            omega
          rw [if_neg (by omega)] at step
          have ongoing : Reassembling node
              { state with
                sicslowpanBuf := fragment.store state.sicslowpanBuf
                processedIpInLen := processed + fragment.payload.length }
              sender tag size (processed + fragment.payload.length) :=
            { reassembling with
              arrived := rfl
              started := Nat.lt_of_lt_of_le reassembling.started
                (Nat.le_add_right _ _) }
          have continued :=
            inductionHypothesis ongoing remaining partial' later
          have count : frames.length = rest.length + 1 := later.length_eq
          simp only [inputAll, step, continued]
          rw [List.length_cons, count]
          rfl

/-! ## A packet that is not completed -/

/-- The frames carry the fragments, one each, at any time. -/
def CarriesAll (sender : LinkAddr) (tag : UInt16) (size : Nat) :
    List Received → List Fragment → Prop :=
  List.Forall₂ fun received fragment =>
    Carries received sender tag size fragment

theorem input_fragment_idle {fragment : Fragment} (positive : 0 < size)
    (fits : size ≤ node.uipBufsize)
    (idle : state.processedIpInLen = 0 ∨
      state.reassTimer.expired received.clockTime = true)
    (carries : Carries received sender tag size fragment) :
    (input node received state).2 = none ∧
      (input node received state).1.processedIpInLen = 0 := by
  have bound := Nat.lt_of_le_of_lt fits node.uipBufsize_lt
  have header := (fragHeader_fragn bound carries.holds).1
  have ready : (cancelExpired received state).processedIpInLen = 0 := by
    unfold cancelExpired
    split
    · rfl
    · next running => exact idle.resolve_right running
  generalize cancelled : cancelExpired received state = other at ready
  have kept : prioritizeNewPackets (fragnHeader size tag fragment.offset)
      received other = other := by
    simp [prioritizeNewPackets, fragnHeader]
  have dropped : accept node (fragnHeader size tag fragment.offset)
      received other = none := by
    simp [accept, fragnHeader, ready, positive, fits]
  simp only [input, header, cancelled, kept, dropped]
  exact ⟨trivial, ready⟩

theorem inputAll_idle {state : State}
    (positive : 0 < size) (fits : size ≤ node.uipBufsize)
    (idle : state.processedIpInLen = 0)
    (carries : CarriesAll sender tag size frames fragments) :
    (inputAll node frames state).2 =
      List.replicate frames.length none := by
  induction carries generalizing state with
  | nil =>
      rfl
  | cons head _ inductionHypothesis =>
      obtain ⟨dropped, stillIdle⟩ :=
        input_fragment_idle positive fits (.inl idle) head
      simp only [inputAll, dropped, inductionHypothesis stillIdle]
      rfl

/-- Where bytes stay missing or the reassembly times out, nothing is handed
over. -/
theorem inputAll_incomplete {state : State} {processed : Nat}
    (reassembling : Reassembling node state sender tag size processed)
    (nonempty : ∀ fragment ∈ fragments, 0 < fragment.payload.length)
    (inside : ∀ fragment ∈ fragments,
      fragment.position + fragment.payload.length ≤ size)
    (total : processed +
      (fragments.map fun fragment => fragment.payload.length).sum ≤ size)
    (carries : CarriesAll sender tag size frames fragments)
    (incomplete : processed +
        (fragments.map fun fragment => fragment.payload.length).sum <
          size ∨
      ∃ received ∈ frames,
        state.reassTimer.expired received.clockTime = true) :
    (inputAll node frames state).2 =
      List.replicate frames.length none := by
  induction carries generalizing state processed with
  | nil =>
      rfl
  | @cons received fragment frames fragments head tail
      inductionHypothesis =>
      simp only [List.map_cons, List.sum_cons] at total incomplete
      have started := reassembling.started
      have positive : 0 < size := by omega
      by_cases late : state.reassTimer.expired received.clockTime = true
      · obtain ⟨dropped, idle⟩ := input_fragment_idle positive
          reassembling.fits (.inr late) head
        simp only [inputAll, dropped, inputAll_idle positive
          reassembling.fits idle tail]
        rfl
      · rw [Bool.not_eq_true] at late
        have step := input_fragment reassembling late head
          (inside fragment (.head _)) (by omega)
        have pending :
            processed + fragment.payload.length ≠ size := by
          rcases incomplete with short | ⟨other, member, expired⟩
          · omega
          · rcases List.mem_cons.mp member with rfl | member
            · exact absurd expired (by simp [late])
            · cases tail with
              | nil =>
                  exact absurd member (by simp)
              | @cons _ second _ _ _ _ =>
                  have more := nonempty second (.tail _ (.head _))
                  simp only [List.map_cons, List.sum_cons] at total
                  omega
        rw [if_neg pending] at step
        have ongoing : Reassembling node
            { state with
              sicslowpanBuf := fragment.store state.sicslowpanBuf
              processedIpInLen := processed + fragment.payload.length }
            sender tag size (processed + fragment.payload.length) :=
          { reassembling with
            arrived := rfl
            started := Nat.lt_of_lt_of_le started
              (Nat.le_add_right _ _) }
        have later := inductionHypothesis ongoing
          (fun other member => nonempty other (.tail _ member))
          (fun other member => inside other (.tail _ member))
          (by omega)
          (by
            rcases incomplete with short | ⟨other, member, expired⟩
            · exact .inl (by omega)
            · rcases List.mem_cons.mp member with rfl | member
              · exact absurd expired (by simp [late])
              · exact .inr ⟨other, member, expired⟩)
        simp only [inputAll, step, later]
        rfl

/-! ## Every order -/

/-- Two fragments have no byte position in common. -/
def Fragment.Disjoint (first second : Fragment) : Prop :=
  first.position + first.payload.length ≤ second.position ∨
    second.position + second.payload.length ≤ first.position

theorem Fragment.store_comm {first second : Fragment} (buf : ByteMem)
    (disjoint : first.Disjoint second) :
    second.store (first.store buf) = first.store (second.store buf) := by
  exact ByteMem.write_comm disjoint

theorem foldl_store_perm {first second : List Fragment} (buf : ByteMem)
    (perm : first.Perm second)
    (disjoint : first.Pairwise Fragment.Disjoint) :
    first.foldl (fun buf fragment => fragment.store buf) buf =
      second.foldl (fun buf fragment => fragment.store buf) buf := by
  have commute : first.Pairwise fun left right => ∀ buf,
      right.store (left.store buf) = left.store (right.store buf) :=
    disjoint.imp fun apart buf => Fragment.store_comm buf apart
  exact perm.foldl_eq' (commute.forall_of_forall_of_flip
    (fun _ _ _ => rfl)
    (commute.imp fun same buf => (same buf).symm)) buf

theorem Missing.perm {first second : List Fragment} {size processed : Nat}
    (missing : Missing first size processed) (perm : first.Perm second) :
    Missing second size processed where
  nonempty := fun fragment member =>
    missing.nonempty fragment (perm.mem_iff.mpr member)
  inside := fun fragment member =>
    missing.inside fragment (perm.mem_iff.mpr member)
  total := by
    rw [← missing.total]
    congr 1
    exact (perm.map _).symm.sum_nat

/-- Fragments that follow one another from a position up to the end of the
packet. -/
inductive Tiles (size : Nat) : Nat → List Fragment → Prop
  | nil : Tiles size size []
  | cons {start : Nat} {fragment : Fragment} {rest : List Fragment} :
      fragment.position = start → 0 < fragment.payload.length →
      Tiles size (start + fragment.payload.length) rest →
      Tiles size start (fragment :: rest)

theorem Tiles.spec {size start : Nat} {fragments : List Fragment}
    (tiles : Tiles size start fragments) :
    Missing fragments size start ∧
      fragments.Pairwise Fragment.Disjoint ∧
      ∀ fragment ∈ fragments, start ≤ fragment.position := by
  induction tiles with
  | nil =>
      exact ⟨⟨by simp, by simp, by simp⟩, .nil, by simp⟩
  | @cons start fragment rest position nonempty tail
      inductionHypothesis =>
      subst position
      obtain ⟨missing, disjoint, behind⟩ := inductionHypothesis
      refine ⟨⟨?_, ?_, ?_⟩, .cons ?_ disjoint, ?_⟩
      · intro other member
        rcases List.mem_cons.mp member with rfl | member
        · exact nonempty
        · exact missing.nonempty other member
      · intro other member
        rcases List.mem_cons.mp member with rfl | member
        · rw [← missing.total]
          exact Nat.le_add_right _ _
        · exact missing.inside other member
      · rw [← missing.total, List.map_cons, List.sum_cons]
        omega
      · intro other member
        exact .inl (behind other member)
      · intro other member
        rcases List.mem_cons.mp member with rfl | member
        · exact Nat.le_refl _
        · exact Nat.le_trans (Nat.le_add_right _ _) (behind other member)

theorem Tiles.incomplete {size start : Nat} {fragments : List Fragment}
    (tiles : Tiles size start fragments) (remaining : fragments ≠ []) :
    start < size := by
  have total := tiles.spec.1.total
  cases tiles with
  | nil =>
      exact absurd rfl remaining
  | cons _ nonempty tail =>
      simp only [List.map_cons, List.sum_cons] at total
      omega

/-- A first fragment that meets no packet in reassembly, fits, and has
headers that are decoded and something to store; the further fragments follow
one another from the end of what it stores up to the size of the packet. -/
structure FragmentedPacket (node : Node) (state : State) (first : Received)
    (tag : UInt16) (size : Nat) (headers : Uncompressed)
    (fragments : List Fragment) : Prop where
  idle : (ready first state).processedIpInLen = 0
  header : fragHeader first.packetbuf = frag1Header size tag
  fits : size ≤ node.uipBufsize
  decoded : uncompressHeaders node (frag1Header size tag) first
    state.sicslowpanBuf = some headers
  within : headers.packetbufHdrLen ≤ first.datalen
  started : 0 <
    headers.uncompHdrLen + (first.datalen - headers.packetbufHdrLen)
  tiles : Tiles size
    (headers.uncompHdrLen + (first.datalen - headers.packetbufHdrLen))
    fragments
  remaining : fragments ≠ []

/-- After the first fragment of a packet, its remaining fragments complete
the same packet in every order, with the last one that arrives. -/
theorem inputAll_reordered {first : Received} {tag : UInt16} {size : Nat}
    {headers : Uncompressed} {fragments order : List Fragment}
    {frames : List Received}
    (fragmented : FragmentedPacket node state first tag size headers
      fragments)
    (perm : order.Perm fragments)
    (deliver : Deliver (afterFirst node first tag size headers) first.sender
      tag size frames order) :
    (inputAll node (first :: frames) state).2 =
      none :: afterLast frames.length
        ((fragments.foldl (fun buf fragment => fragment.store buf)
          (afterFirst node first tag size headers).sicslowpanBuf).read 0
            size) := by
  obtain ⟨idle, header, fits, decoded, within, started, tiles, remaining⟩ :=
    fragmented
  obtain ⟨missing, disjoint, _⟩ := tiles.spec
  have incomplete := tiles.incomplete remaining
  have step := input_first idle header fits decoded within started incomplete
  have completed := inputAll_missing (reassembling_afterFirst fits started)
    (missing.perm perm.symm) incomplete deliver
  simp only [inputAll, step, completed]
  rw [foldl_store_perm _ perm.symm disjoint]

/-- A node with a reassembly timeout of eight seconds of 128 ticks. -/
def sampleNode : Node where
  contexts := []
  uipBufsize := 1280
  uipBufsize_lt := by decide
  reassMaxage := 1024

def idleState : State where
  sicslowpanBuf := fun _ => 0
  sicslowpanLen := 0
  processedIpInLen := 0
  reassTag := 0
  fragSender := Vector.replicate 8 0
  reassTimer := { start := 0, interval := 0 }

/-- A frame from the sample sender at a time. -/
def sampleFrame (bytes : List UInt8) (clockTime : UInt32) : Received where
  packetbuf := ByteMem.ofList bytes
  datalen := bytes.length
  sender := Vector.replicate 8 1
  receiver := Vector.replicate 8 2
  clockTime := clockTime

/-- The first fragment of a packet of 56 bytes, with the uncompressed IPv6
header. -/
def sampleHead : Received :=
  sampleFrame (frag1 56 7 (dispatchIpv6 :: List.replicate 40 0x60) []) 100

def sampleHeaders : Uncompressed where
  buf := ByteMem.write (fun _ => 0) 0 (sampleHead.packetbuf.read 5 40)
  packetbufHdrLen := 45
  uncompHdrLen := 40

def sampleFragments : List Fragment :=
  [⟨5, List.replicate 8 1⟩, ⟨6, List.replicate 8 2⟩]

theorem samplePacket_fragmented :
    FragmentedPacket sampleNode idleState sampleHead 7 56 sampleHeaders
      sampleFragments where
  idle := by decide
  header := rfl
  fits := by decide
  decoded := rfl
  within := by decide
  started := by decide
  tiles := .cons rfl (by decide) (.cons rfl (by decide) .nil)
  remaining := by decide

theorem sampleFragments_reordered :
    (inputAll sampleNode
        [sampleHead, sampleFrame (fragn 56 7 6 (List.replicate 8 2)) 200,
          sampleFrame (fragn 56 7 5 (List.replicate 8 1)) 300]
        idleState).2 =
      [none, none, some (List.replicate 40 0x60 ++ List.replicate 8 1 ++
        List.replicate 8 2)] :=
  inputAll_reordered samplePacket_fragmented (.swap _ _ [])
    (.cons ⟨rfl, by decide, by decide, by decide⟩
      (.cons ⟨rfl, by decide, by decide, by decide⟩ .nil))

/-- A remaining fragment that arrives after the timeout is dropped, and the
packet is never handed over. -/
theorem sampleFragments_late :
    FragmentedPacket sampleNode idleState sampleHead 7 56 sampleHeaders
        sampleFragments ∧
      List.Forall₂ (fun received fragment => Carries received
          (Vector.replicate 8 1) 7 56 fragment)
        [sampleFrame (fragn 56 7 5 (List.replicate 8 1)) 200,
          sampleFrame (fragn 56 7 6 (List.replicate 8 2)) 5000]
        sampleFragments ∧
      (inputAll sampleNode
        [sampleHead, sampleFrame (fragn 56 7 5 (List.replicate 8 1)) 200,
          sampleFrame (fragn 56 7 6 (List.replicate 8 2)) 5000]
        idleState).2 = [none, none, none] :=
  ⟨samplePacket_fragmented,
    .cons ⟨by decide, by decide, by decide⟩
      (.cons ⟨by decide, by decide, by decide⟩ .nil),
    by decide⟩

end Contiki.Sicslowpan
