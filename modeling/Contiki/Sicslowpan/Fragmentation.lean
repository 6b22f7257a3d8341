import Contiki.Sicslowpan.IphcRoundTrip
import Contiki.Sicslowpan.Reassembly

/-!
# Fragmentation round trip

The frames of a packet that `output` fragments, received in order by a node
that reassembles nothing.
-/

namespace Contiki.Sicslowpan

open Contiki.Lib

variable {link : Link} {node : Node} {packet : ByteMem}
  {source dest : LinkAddr} {tag : UInt16} {uipLen : Nat}

/-! ## The frames that are sent -/

/-- Fragments with the bytes of a packet. -/
def FromPacket (packet : ByteMem) (fragments : List Fragment) : Prop :=
  ∀ fragment ∈ fragments, fragment.payload =
    packet.read fragment.position fragment.payload.length

def fragmentFrames (uipLen : Nat) (tag : UInt16)
    (fragments : List Fragment) : List (List UInt8) :=
  fragments.map fun fragment =>
    fragn uipLen tag fragment.offset.toNat fragment.payload

theorem sendFragment_accepted {index : Nat} {frame : List UInt8}
    {next : Option Sent} {sent : Sent}
    (result : sendFragment link index frame next = some sent)
    (accepted : sent.accepted = true) :
    ∃ rest, next = some rest ∧ rest.accepted = true ∧
      sent.frames = frame :: rest.frames := by
  unfold sendFragment at result
  split at result
  · cases result
    exact absurd accepted (by decide)
  · split at result
    · cases result
      exact absurd accepted Bool.false_ne_true
    · obtain ⟨rest, found, same⟩ := Option.map_eq_some_iff.mp result
      subst same
      exact ⟨rest, found, accepted, rfl⟩

theorem sendFragments_stuck {fuel index processed : Nat} {sent : Sent}
    (remaining : processed < uipLen)
    (result : sendFragments link packet uipLen tag 0 fuel index processed =
      some sent) :
    sent.accepted = false := by
  by_contra refused
  rw [Bool.not_eq_false] at refused
  induction fuel generalizing index sent with
  | zero =>
      exact absurd result (by simp [sendFragments])
  | succ fuel inductionHypothesis =>
      rw [sendFragments, if_pos remaining] at result
      obtain ⟨rest, found, accepted, _⟩ :=
        sendFragment_accepted result refused
      exact inductionHypothesis found accepted

theorem position_of_aligned {position : Nat} (aligned : position % 8 = 0)
    (bound : position < 2048) :
    (UInt8.ofNat (position >>> 3)).toNat = position >>> 3 ∧
      (UInt8.ofNat (position >>> 3)).toNat <<< 3 = position := by
  have offset : (UInt8.ofNat (position >>> 3)).toNat =
      position >>> 3 := by
    rw [UInt8.toNat_ofNat']
    omega
  refine ⟨offset, ?_⟩
  rw [offset]
  omega

theorem sendFragments_tiles {payloadLen fuel index processed : Nat}
    {sent : Sent} (bound : uipLen < 2048) (aligned : payloadLen % 8 = 0)
    (start : processed = uipLen ∨
      processed < uipLen ∧ processed % 8 = 0)
    (result : sendFragments link packet uipLen tag payloadLen fuel index
      processed = some sent)
    (accepted : sent.accepted = true) :
    ∃ fragments, Tiles uipLen processed fragments ∧
      FromPacket packet fragments ∧
      sent.frames = fragmentFrames uipLen tag fragments := by
  induction fuel generalizing index processed sent with
  | zero =>
      exact absurd result (by simp [sendFragments])
  | succ fuel inductionHypothesis =>
      rw [sendFragments] at result
      rcases start with done | ⟨remaining, multiple⟩
      · rw [if_neg (by omega)] at result
        cases result
        subst done
        exact ⟨[], .nil, by simp [FromPacket], rfl⟩
      · rw [if_pos remaining] at result
        obtain ⟨rest, found, restAccepted, frames⟩ :=
          sendFragment_accepted result accepted
        have positive : payloadLen ≠ 0 := by
          intro zero
          subst zero
          rw [if_neg (Nat.not_lt_zero _)] at found
          have refused := sendFragments_stuck remaining found
          exact absurd restAccepted (by simp [refused])
        have step : (if uipLen - processed < payloadLen then
            uipLen - processed else payloadLen) =
            min (uipLen - processed) payloadLen := by
          rw [Nat.min_def]
          split <;> split <;> omega
        rw [step] at found frames
        have next := inductionHypothesis (by omega) found restAccepted
        obtain ⟨fragments, tiles, fromPacket, restFrames⟩ := next
        obtain ⟨offset, position⟩ :=
          position_of_aligned multiple (Nat.lt_trans remaining bound)
        refine ⟨⟨UInt8.ofNat (processed >>> 3), packet.read processed
          (min (uipLen - processed) payloadLen)⟩ :: fragments,
          .cons position ?_ ?_, ?_, ?_⟩
        · rw [ByteMem.length_read]
          omega
        · rw [ByteMem.length_read]
          exact tiles
        · intro fragment member
          rcases List.mem_cons.mp member with rfl | member
          · rw [ByteMem.length_read, Fragment.position, position]
          · exact fromPacket fragment member
        · rw [frames, restFrames]
          simp only [fragmentFrames, List.map_cons, offset]

theorem fragmentPayload_spec (maxPayload : Int) (hdrLen : Nat) :
    fragmentPayload maxPayload hdrLen ≤ maxPayload - hdrLen ∧
      (fragmentPayload maxPayload hdrLen).toNat % 8 = 0 := by
  rw [fragmentPayload]
  omega

theorem headerLen_eq (packet : ByteMem) :
    headerLen packet = 40 ∨ headerLen packet = 48 := by
  unfold headerLen
  split
  · exact .inr rfl
  · exact .inl rfl

theorem compressHdr_uncompHdrLen (link : Link)
    (contexts : List AddrContext) (source dest : LinkAddr)
    (packet : ByteMem) (uipLen : Nat) :
    let compressed := compressHdr link contexts source dest packet uipLen
    compressed.uncompHdrLen = 40 ∨ compressed.uncompHdrLen = 48 := by
  unfold compressHdr
  split
  · exact headerLen_eq packet
  · exact .inl rfl

theorem compressHdr_header_length (link : Link)
    (contexts : List AddrContext) (source dest : LinkAddr)
    (packet : ByteMem) (uipLen : Nat) :
    0 < (compressHdr link contexts source dest packet
      uipLen).header.length := by
  unfold compressHdr
  split
  · rw [header_length, sourceOffset]
    omega
  · exact Nat.succ_pos _

/-- An accepted packet that needs fragments is sent as a first fragment with
the headers and fragments that tile the rest. -/
theorem output_fragments {contexts : List AddrContext} {sent : Sent}
    (bound : uipLen < 2048)
    (result : output link contexts source dest packet uipLen tag =
      some sent)
    (accepted : sent.accepted = true)
    (fragmented : needsFragments link
      (compressHdr link contexts source dest packet uipLen) uipLen = true) :
    let compressed := compressHdr link contexts source dest packet uipLen
    ∃ first fragments,
      first + compressed.uncompHdrLen < uipLen ∧
      Tiles uipLen (first + compressed.uncompHdrLen) fragments ∧
      FromPacket packet fragments ∧
      sent.frames = frag1 uipLen tag compressed.header
          (packet.read compressed.uncompHdrLen first) ::
        fragmentFrames uipLen tag fragments := by
  intro compressed
  have headers : compressed.uncompHdrLen = 40 ∨
      compressed.uncompHdrLen = 48 :=
    compressHdr_uncompHdrLen link contexts source dest packet uipLen
  simp only [output, if_pos fragmented] at result
  change sendFragmented link packet compressed uipLen tag = _ at result
  change needsFragments link compressed uipLen = true at fragmented
  clear_value compressed
  unfold sendFragmented at result
  dsimp only at result
  split at result
  · cases result
    exact absurd accepted Bool.false_ne_true
  · split at result
    · exact absurd result (by simp)
    · next lengths =>
        obtain ⟨rest, found, restAccepted, frames⟩ :=
          sendFragment_accepted result accepted
        have firstPayload := fragmentPayload_spec link.maxPayload
          (compressed.header.length + frag1HdrLen)
        have restPayload :=
          fragmentPayload_spec link.maxPayload fragnHdrLen
        have tooLarge : (uipLen : Int) - compressed.uncompHdrLen >
            link.maxPayload - compressed.header.length := by
          simpa [needsFragments] using fragmented
        have short : (fragmentPayload link.maxPayload
            (compressed.header.length + frag1HdrLen)).toNat +
            compressed.uncompHdrLen < uipLen := by
          simp only [frag1HdrLen] at firstPayload lengths ⊢
          omega
        obtain ⟨fragments, tiles, fromPacket, restFrames⟩ :=
          sendFragments_tiles bound restPayload.2
            (.inr ⟨short, by omega⟩) found restAccepted
        refine ⟨_, fragments, short, tiles, fromPacket, ?_⟩
        rw [frames, restFrames]

/-! ## The frames that are received -/

/-- A frame arrives as it was sent. -/
structure Fed (source dest : LinkAddr) (received : Received)
    (frame : List UInt8) : Prop where
  holds : received.packetbuf.Holds 0 frame
  datalen : received.datalen = frame.length
  sender : received.sender = source
  receiver : received.receiver = dest

/-- The frames arrive in the order in which they were sent. -/
def Feed (source dest : LinkAddr) :
    List Received → List (List UInt8) → Prop :=
  List.Forall₂ (Fed source dest)

/-- The frames behind the first one arrive before the reassembly that the
first one started times out. -/
def Timely (node : Node) : List Received → Prop
  | [] => True
  | first :: rest => ∀ later ∈ rest,
      Timer.expired
        { start := first.clockTime, interval := node.reassMaxage }
        later.clockTime = false

instance (node : Node) : DecidablePred (Timely node)
  | [] => .isTrue trivial
  | first :: rest => inferInstanceAs (Decidable (∀ later ∈ rest,
      Timer.expired
        { start := first.clockTime, interval := node.reassMaxage }
        later.clockTime = false))

theorem carriesAll_of_feed {received : List Received}
    {fragments : List Fragment}
    (feed : Feed source dest received
      (fragmentFrames uipLen tag fragments)) :
    CarriesAll source tag uipLen received fragments := by
  rw [Feed, fragmentFrames, List.forall₂_map_right_iff] at feed
  refine feed.imp fun received fragment fed =>
    ⟨fed.sender, fed.holds, ?_⟩
  rw [fed.datalen]
  simp [fragn, set16, fragnHdrLen]
  omega

theorem foldl_store_packet {start : Nat} {fragments : List Fragment}
    (tiles : Tiles uipLen start fragments)
    (fromPacket : FromPacket packet fragments) (buf : ByteMem)
    (address : Nat) :
    fragments.foldl (fun buf fragment => fragment.store buf) buf address =
      if start ≤ address ∧ address < uipLen then packet address
      else buf address := by
  induction tiles generalizing buf with
  | nil =>
      rw [if_neg (by omega)]
      rfl
  | @cons start fragment rest position nonempty tail
      inductionHypothesis =>
      subst position
      have inside := (tail.spec.1).total
      rw [List.foldl_cons, inductionHypothesis fun other member =>
        fromPacket other (.tail _ member), Fragment.store,
        fromPacket fragment (.head _), ByteMem.write_read_apply,
        ByteMem.length_read]
      rw [← ite_or]
      exact if_congr (by omega) rfl rfl

variable {count : Nat}

theorem afterLast_succ (packet : List UInt8) (positive : 0 < count) :
    none :: afterLast count packet = afterLast (count + 1) packet := by
  obtain ⟨pred, rfl⟩ := Nat.exists_eq_succ_of_ne_zero
    (Nat.ne_of_gt positive)
  rfl

theorem afterLast_injective {first second : List UInt8}
    (same : afterLast count first = afterLast count second) :
    first = second := by
  have last := List.append_inj_right' same rfl
  simpa using last

theorem afterLast_ne_replicate (packet : List UInt8) :
    List.replicate count none ≠ afterLast count packet := by
  intro same
  have member : some packet ∈ List.replicate count none := by
    rw [same]
    simp [afterLast]
  exact absurd (List.eq_of_mem_replicate member) (by simp)

variable {state : State}

theorem deliver_of_inTime {received : List Received}
    {fragments : List Fragment}
    (carries : CarriesAll source tag uipLen received fragments)
    (inTime : ∀ later ∈ received, InTime state later) :
    Deliver state source tag uipLen received fragments := by
  induction carries with
  | nil =>
      exact .nil
  | cons head _ inductionHypothesis =>
      exact .cons ⟨inTime _ (.head _), head⟩
        (inductionHypothesis fun later member =>
          inTime later (.tail _ member))

/-- A first fragment whose headers have the lengths that were sent, and the
fragments behind it: the packet is completed exactly if they are timely. -/
theorem inputAll_fed {first : Received}
    {rest : List Received} {compressed : Compressed} {payloadLen : Nat}
    {fragments : List Fragment} {headers : Uncompressed}
    (idle : state.processedIpInLen = 0) (fits : uipLen ≤ node.uipBufsize)
    (fedFirst : Fed source dest first (frag1 uipLen tag compressed.header
      (packet.read compressed.uncompHdrLen payloadLen)))
    (feed : Feed source dest rest (fragmentFrames uipLen tag fragments))
    (short : payloadLen + compressed.uncompHdrLen < uipLen)
    (tiles : Tiles uipLen (payloadLen + compressed.uncompHdrLen) fragments)
    (decoded : uncompressHeaders node (frag1Header uipLen tag) first
      state.sicslowpanBuf = some headers)
    (hdrLen : headers.packetbufHdrLen =
      frag1HdrLen + compressed.header.length)
    (uncompLen : headers.uncompHdrLen = compressed.uncompHdrLen)
    (positive : 0 < compressed.uncompHdrLen) :
    let assembled := fragments.foldl
      (fun buf fragment => fragment.store buf)
      (headers.buf.write compressed.uncompHdrLen
        (packet.read compressed.uncompHdrLen payloadLen))
    (Timely node (first :: rest) →
      (inputAll node (first :: rest) state).2 =
        afterLast (first :: rest).length (assembled.read 0 uipLen)) ∧
    (¬ Timely node (first :: rest) →
      (inputAll node (first :: rest) state).2 =
        List.replicate (first :: rest).length none) := by
  have bound := Nat.lt_of_le_of_lt fits node.uipBufsize_lt
  obtain ⟨header, holds⟩ := fragHeader_frag1 bound fedFirst.holds
  have datalen : first.datalen - headers.packetbufHdrLen = payloadLen := by
    rw [fedFirst.datalen, hdrLen]
    simp [frag1, set16, frag1HdrLen]
    omega
  have payload : first.packetbuf.read headers.packetbufHdrLen payloadLen =
      packet.read compressed.uncompHdrLen payloadLen := by
    have behind := (ByteMem.holds_append.mp holds).2
    rw [hdrLen]
    simpa [ByteMem.Holds] using behind
  have within : headers.packetbufHdrLen ≤ first.datalen := by
    rw [hdrLen, fedFirst.datalen]
    simp [frag1, set16, frag1HdrLen]
    omega
  have step := input_first (ready_idle first idle) header fits decoded within
  simp only [datalen, afterFirst, payload, uncompLen] at step
  replace step := step (by omega) (by omega)
  rw [Nat.add_comm] at tiles short
  have reassembling : Reassembling node (input node first state).1 source
      tag uipLen (compressed.uncompHdrLen + payloadLen) := by
    rw [step]
    exact ⟨rfl, rfl, by omega, rfl, fedFirst.sender, fits⟩
  have carries := carriesAll_of_feed feed
  have missing := tiles.spec.1
  have remaining : 0 < rest.length := by
    rw [carries.length_eq]
    cases tiles with
    | nil =>
        exact absurd short (Nat.lt_irrefl _)
    | cons _ _ _ =>
        exact Nat.succ_pos _
  intro assembled
  constructor
  · intro timely
    have inTime : ∀ later ∈ rest, InTime (input node first state).1
        later := by
      rw [step]
      exact timely
    have completed := inputAll_missing reassembling missing short
      (deliver_of_inTime carries inTime)
    simp only [inputAll, completed]
    rw [step, List.length_cons, ← afterLast_succ _ remaining]
  · intro late
    have expired : ∃ later ∈ rest, (input node first
        state).1.reassTimer.expired later.clockTime = true := by
      rw [step]
      simpa [Timely] using late
    have dropped := inputAll_incomplete reassembling missing.nonempty
      missing.inside (Nat.le_of_eq missing.total) carries (.inr expired)
    simp only [inputAll, dropped]
    rw [step]
    rfl

theorem inputAll_headerless {first : Received}
    {rest : List Received} {compressed : Compressed} {payloadLen : Nat}
    {fragments : List Fragment} {headers : Uncompressed}
    (idle : state.processedIpInLen = 0) (fits : uipLen ≤ node.uipBufsize)
    (fedFirst : Fed source dest first (frag1 uipLen tag compressed.header
      (packet.read compressed.uncompHdrLen payloadLen)))
    (feed : Feed source dest rest (fragmentFrames uipLen tag fragments))
    (tiles : Tiles uipLen (payloadLen + compressed.uncompHdrLen) fragments)
    (decoded : uncompressHeaders node (frag1Header uipLen tag) first
      state.sicslowpanBuf = some headers)
    (hdrLen : headers.packetbufHdrLen = frag1HdrLen)
    (uncompLen : headers.uncompHdrLen = 0)
    (nonempty : 0 < compressed.header.length)
    (shorter : compressed.header.length < compressed.uncompHdrLen) :
    (inputAll node (first :: rest) state).2 =
      List.replicate (first :: rest).length none := by
  have bound := Nat.lt_of_le_of_lt fits node.uipBufsize_lt
  obtain ⟨header, _⟩ := fragHeader_frag1 bound fedFirst.holds
  have missing := tiles.spec.1
  have total := missing.total
  have datalen : first.datalen =
      frag1HdrLen + (compressed.header.length + payloadLen) := by
    rw [fedFirst.datalen]
    simp [frag1, set16, frag1HdrLen]
    omega
  have step := input_first (ready_idle first idle) header fits decoded
    (by rw [hdrLen, datalen]; exact Nat.le_add_right _ _)
  simp only [afterFirst, hdrLen, uncompLen, datalen, Nat.zero_add,
    Nat.add_sub_cancel_left] at step
  replace step := step (by omega) (by omega)
  have reassembling : Reassembling node (input node first state).1 source
      tag uipLen (compressed.header.length + payloadLen) := by
    rw [step]
    exact ⟨rfl, rfl, by omega, rfl, fedFirst.sender, fits⟩
  have dropped := inputAll_incomplete reassembling missing.nonempty
    missing.inside (by omega) (carriesAll_of_feed feed) (.inl (by omega))
  simp only [inputAll, dropped]
  rw [step]
  rfl

/-! ## The headers of the first fragment -/

/-- The headers of a packet survive compression: the length fields are not
sent. -/
def HeadersSurvive (link : Link) (node : Node) (packet : ByteMem)
    (uipLen : Nat) : Prop :=
  uipLen < link.compressionThreshold ∨
    ConsistentPacket packet uipLen ∧
      AddressesRecovered node.contexts packet

/-- The length fields that are restored agree with the length of the
datagram. -/
theorem uncompressLengths_fields (buf : ByteMem)
    {datalen hdrLen uncompLen : Nat} (minimum : uipIphLen ≤ uipLen)
    (bound : uipLen < 2048) :
    let restored := uncompressLengths datalen hdrLen uncompLen uipLen buf
    get16 restored 4 = uipLen - uipIphLen ∧
      (restored 6 = uipProtoUdp →
        get16 restored 44 = uipLen - uipIphLen) := by
  have positive : uipIphLen = 40 := rfl
  have value : ((if uipLen = 0 then
      (datalen : Int) - hdrLen + uncompLen - uipIphLen
      else (uipLen : Int) - uipIphLen) % 65536).toNat =
        uipLen - uipIphLen := by
    rw [if_neg (by omega)]
    omega
  have small : uipLen - uipIphLen < 65536 := by omega
  simp only [uncompressLengths, value]
  have written : (buf.write 4 (set16 (uipLen - uipIphLen))).read 4 2 =
      set16 (uipLen - uipIphLen) :=
    ByteMem.read_write_self _ _ _
  rw [written]
  split
  · refine ⟨get16_of_holds small ?_, fun _ => get16_of_holds small ?_⟩
    · have apart : 4 + (set16 (uipLen - uipIphLen)).length ≤ 44 :=
        show 4 + 2 ≤ 44 by decide
      rw [ByteMem.Holds, ByteMem.read_write_disjoint (.inl apart)]
      exact written
    · exact ByteMem.read_write_self _ _ _
  · next other =>
      exact ⟨get16_of_holds small written, fun udp => absurd udp other⟩

variable {received : Received} {buf : ByteMem}

theorem consistent_of_restored
    {datalen hdrLen uncompLen : Nat} (version : packet 0 >>> 4 = 6)
    (headers : headerLen packet ≤ uipLen) (bound : uipLen < 2048)
    (same : ∀ address < headerLen packet,
      uncompressLengths datalen hdrLen uncompLen uipLen buf address =
        packet address) : ConsistentPacket packet uipLen := by
  have minimum : uipIphLen ≤ headerLen packet := Nat.le_add_right _ _
  have positive : uipIphLen = 40 := rfl
  obtain ⟨ipLen, udpLen⟩ :=
    @uncompressLengths_fields uipLen buf datalen hdrLen uncompLen
      (minimum.trans headers) bound
  refine ⟨version, headers, ?_, fun udp => ?_⟩
  · rw [← ipLen]
    unfold get16
    rw [same 4 (by omega), same 5 (by omega)]
  · have longer : headerLen packet = 48 := by
      rw [headerLen, if_pos udp]
      rfl
    rw [← udpLen ((same 6 (by omega)).trans udp)]
    unfold get16
    rw [same 44 (by omega), same 45 (by omega)]

theorem uncompressHeaders_hc06
    (has : HasHeader node.contexts received.sender received.receiver packet
      received.packetbuf frag1HdrLen) :
    uncompressHeaders node (frag1Header uipLen tag) received buf =
      some (uncompressHdrHc06 node.contexts received.sender
        received.receiver received.packetbuf received.datalen frag1HdrLen
        uipLen buf) := by
  have first : ¬ (frag1Header uipLen tag).packetbufHdrLen =
      fragnHdrLen :=
    show ¬ frag1HdrLen = fragnHdrLen by decide
  have dispatch : received.packetbuf
      (frag1Header uipLen tag).packetbufHdrLen &&& 0xe0 =
      dispatchIphc := by
    have byte : received.packetbuf frag1HdrLen = sentIphc0 packet :=
      has.stages.1.1
    change received.packetbuf frag1HdrLen &&& 0xe0 = dispatchIphc
    rw [byte]
    exact (sentIphc0_bits packet).2.2.2
  rw [uncompressHeaders, if_neg first, if_pos dispatch]
  rfl

theorem uncompressHeaders_ipv6 (holds : received.packetbuf.Holds frag1HdrLen
      (compressHdrIpv6 packet).header) :
    uncompressHeaders node (frag1Header uipLen tag) received buf =
      some { buf := buf.write 0 (packet.read 0 uipIphLen)
             packetbufHdrLen := frag1HdrLen + ipv6HdrLen + uipIphLen
             uncompHdrLen := uipIphLen } := by
  obtain ⟨byte, header⟩ := holds_cons.mp holds
  rw [ByteMem.Holds, ByteMem.length_read] at header
  have first : ¬ (frag1Header uipLen tag).packetbufHdrLen =
      fragnHdrLen :=
    show ¬ frag1HdrLen = fragnHdrLen by decide
  have notIphc : ¬ received.packetbuf
      (frag1Header uipLen tag).packetbufHdrLen &&& 0xe0 =
      dispatchIphc := by
    change ¬ received.packetbuf frag1HdrLen &&& 0xe0 = dispatchIphc
    rw [byte]
    decide
  have dispatch : received.packetbuf
      (frag1Header uipLen tag).packetbufHdrLen = dispatchIpv6 := byte
  rw [uncompressHeaders, if_neg first, if_neg notIphc, if_pos dispatch,
    ← header]
  rfl

theorem uncompressHeaders_survive
    {payload : List UInt8} (buf : ByteMem) (bound : uipLen < 2048)
    (survive : HeadersSurvive link node packet uipLen)
    (fed : Fed source dest received (frag1 uipLen tag
      (compressHdr link node.contexts source dest packet uipLen).header
      payload)) :
    let compressed :=
      compressHdr link node.contexts source dest packet uipLen
    ∃ headers,
      uncompressHeaders node (frag1Header uipLen tag) received buf =
        some headers ∧
      headers.packetbufHdrLen = frag1HdrLen + compressed.header.length ∧
      headers.uncompHdrLen = compressed.uncompHdrLen ∧
      ∀ address, headers.buf address =
        if address < compressed.uncompHdrLen then packet address
        else buf address := by
  intro compressed
  obtain ⟨_, holds⟩ := fragHeader_frag1 bound fed.holds
  have headerHolds := (ByteMem.holds_append.mp holds).1
  by_cases large : uipLen ≥ link.compressionThreshold
  · have hc06 : compressed =
        compressHdrHc06 node.contexts source dest packet := if_pos large
    obtain ⟨consistent, recovered⟩ :=
      survive.resolve_left (Nat.not_lt.mpr large)
    change received.packetbuf.Holds _ compressed.header at headerHolds
    rw [hc06] at headerHolds ⊢
    rw [← fed.sender, ← fed.receiver] at headerHolds ⊢
    exact ⟨_, uncompressHeaders_hc06 headerHolds,
      uncompressHdrHc06_restored buf consistent headerHolds (.inl rfl)
        recovered⟩
  · have ipv6 : compressed = compressHdrIpv6 packet := if_neg large
    change received.packetbuf.Holds _ compressed.header at headerHolds
    rw [ipv6] at headerHolds ⊢
    refine ⟨_, uncompressHeaders_ipv6 headerHolds, ?_, rfl,
      fun address => ?_⟩
    · simp [compressHdrIpv6, ipv6HdrLen]
      omega
    · change buf.write 0 (packet.read 0 uipIphLen) address = _
      rw [ByteMem.write_read_apply]
      exact if_congr (by simp [compressHdrIpv6]) rfl rfl

/-- Headers that do not survive have no length at the receiver, or are not
all restored. -/
theorem uncompressHeaders_lost {payload : List UInt8} (buf : ByteMem)
    (version : packet 0 >>> 4 = 6) (bound : uipLen < 2048)
    (long : (compressHdr link node.contexts source dest packet
      uipLen).uncompHdrLen ≤ uipLen)
    (lost : ¬ HeadersSurvive link node packet uipLen)
    (fed : Fed source dest received (frag1 uipLen tag
      (compressHdr link node.contexts source dest packet uipLen).header
      payload)) :
    let compressed :=
      compressHdr link node.contexts source dest packet uipLen
    ∃ headers,
      uncompressHeaders node (frag1Header uipLen tag) received buf =
        some headers ∧
      (headers.packetbufHdrLen = frag1HdrLen ∧ headers.uncompHdrLen = 0 ∧
          compressed.header.length < compressed.uncompHdrLen ∨
        headers.packetbufHdrLen = frag1HdrLen + compressed.header.length ∧
          headers.uncompHdrLen = compressed.uncompHdrLen ∧
          ¬ ∀ address < compressed.uncompHdrLen,
            headers.buf address = packet address) := by
  intro compressed
  obtain ⟨large, lost⟩ := not_or.mp lost
  obtain ⟨_, holds⟩ := fragHeader_frag1 bound fed.holds
  have headerHolds := (ByteMem.holds_append.mp holds).1
  have hc06 : compressed =
      compressHdrHc06 node.contexts source dest packet :=
    if_pos (Nat.not_lt.mp large)
  change received.packetbuf.Holds _ compressed.header at headerHolds
  change compressed.uncompHdrLen ≤ uipLen at long
  rw [hc06] at headerHolds long ⊢
  rw [← fed.sender, ← fed.receiver] at headerHolds long ⊢
  refine ⟨_, uncompressHeaders_hc06 headerHolds, ?_⟩
  have minimum : uipIphLen ≤ headerLen packet := Nat.le_add_right _ _
  have positive : uipIphLen = 40 := rfl
  by_cases recovered : AddressesRecovered node.contexts packet
  · -- the lengths of the datagram take the place of the length fields
    rw [uncompressHdrHc06_recovered buf version headerHolds recovered]
    obtain ⟨hdrLen, uncompLen⟩ := uncompressTail_lengths headerHolds
      (((copyFields packet buf).write 8 (packet.read 8 16)).write 24
        (packet.read 24 16))
    refine .inr ⟨hdrLen, uncompLen, fun same => lost ⟨?_, recovered⟩⟩
    exact consistent_of_restored version long bound same
  · have shorter := header_length_lt received.sender received.receiver
      recovered
    rcases uncompressHdrHc06_lost buf version headerHolds recovered with
      ⟨hdrLen, none⟩ | ⟨hdrLen, uncompLen, differs⟩
    · exact .inl ⟨hdrLen, none, shorter⟩
    · refine .inr ⟨hdrLen, uncompLen, fun same => differs ?_⟩
      refine ByteMem.read_congr fun address lower upper => ?_
      exact same address (show address < headerLen packet by omega)

/-! ## Round trip -/

/-- The frames of an accepted packet that is fragmented hand over the packet
after the last one, and nothing before, exactly when its headers survive and
the frames arrive in time. -/
theorem inputAll_output_iff {state : State} {received : List Received}
    {sent : Sent} (version : packet 0 >>> 4 = 6)
    (fits : uipLen ≤ node.uipBufsize)
    (result : output link node.contexts source dest packet uipLen tag =
      some sent)
    (accepted : sent.accepted = true)
    (fragmented : needsFragments link (compressHdr link node.contexts
      source dest packet uipLen) uipLen = true)
    (idle : state.processedIpInLen = 0)
    (feed : Feed source dest received sent.frames) :
    (inputAll node received state).2 =
        afterLast received.length (packet.read 0 uipLen) ↔
      HeadersSurvive link node packet uipLen ∧ Timely node received := by
  have bound := Nat.lt_of_le_of_lt fits node.uipBufsize_lt
  obtain ⟨payloadLen, fragments, short, tiles, fromPacket, frames⟩ :=
    output_fragments bound result accepted fragmented
  rw [frames] at feed
  obtain _ | @⟨first, _, rest, _, fedFirst, fedRest⟩ := feed
  have headerLens :=
    compressHdr_uncompHdrLen link node.contexts source dest packet uipLen
  have nonempty := compressHdr_header_length link node.contexts source
    dest packet uipLen
  by_cases survive : HeadersSurvive link node packet uipLen
  · obtain ⟨headers, decoded, hdrLen, uncompLen, copied⟩ :=
      uncompressHeaders_survive state.sicslowpanBuf bound survive fedFirst
    obtain ⟨completed, dropped⟩ := inputAll_fed idle fits fedFirst fedRest
      short tiles decoded hdrLen uncompLen (by omega)
    constructor
    · intro delivered
      refine ⟨survive, ?_⟩
      by_contra late
      exact afterLast_ne_replicate _ ((dropped late).symm.trans delivered)
    · rintro ⟨_, timely⟩
      rw [completed timely]
      congr 1
      apply ByteMem.read_congr
      intro address _ upper
      rw [foldl_store_packet tiles fromPacket,
        ByteMem.write_read_apply, copied, ← ite_or, ← ite_or]
      exact if_pos (by omega)
  · obtain ⟨headers, decoded, ⟨hdrLen, none, shorter⟩ |
        ⟨hdrLen, uncompLen, differs⟩⟩ :=
      uncompressHeaders_lost state.sicslowpanBuf version bound (by omega)
        survive fedFirst
    · have dropped := inputAll_headerless idle fits fedFirst fedRest tiles
        decoded hdrLen none nonempty shorter
      exact ⟨fun delivered => absurd (dropped.symm.trans delivered)
          (afterLast_ne_replicate _),
        fun both => absurd both.1 survive⟩
    · obtain ⟨completed, dropped⟩ := inputAll_fed idle fits fedFirst
        fedRest short tiles decoded hdrLen uncompLen (by omega)
      refine ⟨fun delivered => absurd ?_ differs,
        fun both => absurd both.1 survive⟩
      by_cases timely : Timely node (first :: rest)
      · rw [completed timely] at delivered
        have same := afterLast_injective delivered
        intro address upper
        have byte := ByteMem.apply_of_read_eq same (Nat.zero_le _)
          (show address < 0 + uipLen by omega)
        rw [foldl_store_packet tiles fromPacket, if_neg (by omega),
          ByteMem.write_read_apply, if_neg (by omega)] at byte
        exact byte
      · exact absurd ((dropped timely).symm.trans delivered)
          (afterLast_ne_replicate _)

/-- A link with room for 104 bytes in a frame, on which every transmission
succeeds. -/
def sampleLink : Link where
  macMaxPayload := 125
  framerLength := 21
  llsecOverhead := 0
  queuebufNumfree := 8
  compressionThreshold := 0
  allocated := fun _ => true
  transmitted := fun _ => true

/-- A UDP packet of 200 bytes from aaaa::1 to fe80::ff:fe00:102. -/
def largeUdpPacket : ByteMem :=
  ByteMem.ofList
    [0x60, 0, 0, 0, 0, 160, 17, 64,
      0xaa, 0xaa, 0, 0, 0, 0, 0, 0, 0, 0, 0, 0, 0, 0, 0, 1,
      0xfe, 0x80, 0, 0, 0, 0, 0, 0, 0, 0, 0, 0xff, 0xfe, 0, 1, 2,
      0xf0, 0xb1, 0xf0, 0xb2, 0, 160, 0x12, 0x34]

/-- What `output` makes of a packet of 200 bytes. -/
def sampleSent (contexts : List AddrContext) (packet : ByteMem) : Sent :=
  (output sampleLink contexts (Vector.replicate 8 1)
    (Vector.replicate 8 2) packet 200 7).getD
      { frames := [], accepted := false }

/-- The frames, received one tick after the other. -/
def sampleReceived (frames : List (List UInt8)) : List Received :=
  frames.zipIdx.map fun frame =>
    sampleFrame frame.1 (UInt32.ofNat frame.2)

theorem sampleReceived_feed (frames : List (List UInt8)) :
    Feed (Vector.replicate 8 1) (Vector.replicate 8 2)
      (sampleReceived frames) frames := by
  rw [Feed, sampleReceived, List.forall₂_map_left_iff]
  generalize 0 = start
  induction frames generalizing start with
  | nil =>
      exact .nil
  | cons frame frames inductionHypothesis =>
      exact .cons ⟨ByteMem.read_ofList frame, rfl, rfl, rfl⟩
        (inductionHypothesis (start + 1))

theorem largeUdpPacket_delivered :
    (inputAll { sampleNode with contexts := [sampleContext] }
        (sampleReceived
          (sampleSent [sampleContext] largeUdpPacket).frames)
        idleState).2 =
      [none, some (largeUdpPacket.read 0 200)] := by
  have consistent : ConsistentPacket largeUdpPacket 200 :=
    ⟨by decide, by decide, by decide, by decide⟩
  have fits : 200 ≤ ({ sampleNode with contexts := [sampleContext] } :
      Node).uipBufsize := by
    decide
  have result : output sampleLink [sampleContext] (Vector.replicate 8 1)
      (Vector.replicate 8 2) largeUdpPacket 200 7 =
      some (sampleSent [sampleContext] largeUdpPacket) := rfl
  have recovered : AddressesRecovered [sampleContext] largeUdpPacket :=
    ⟨.inr ⟨sampleContext, rfl, by decide⟩, .inr trivial⟩
  exact (inputAll_output_iff (by decide) fits result rfl (by decide) rfl
    (sampleReceived_feed _)).mpr ⟨.inr ⟨consistent, recovered⟩, by decide⟩

/-- A link-local packet of 200 bytes whose source prefix is compressed
because of the destination prefix. -/
def largeLinkLocalPacket : ByteMem :=
  ByteMem.ofList
    [0x60, 0, 0, 0, 0, 160, 59, 64,
      0xfe, 0x80, 0, 0, 0, 0, 0, 1, 0, 0, 0, 0xff, 0xfe, 0, 7, 8,
      0xfe, 0x80, 0, 0, 0, 0, 0, 0, 0, 0, 0, 0xff, 0xfe, 0, 1, 2]

/-- The packet is accepted and fragmented, but the receiver hands over a
packet with another source address. -/
theorem largeLinkLocalPacket_not_delivered :
    ConsistentPacket largeLinkLocalPacket 200 ∧
      output sampleLink [] (Vector.replicate 8 1) (Vector.replicate 8 2)
          largeLinkLocalPacket 200 7 =
        some (sampleSent [] largeLinkLocalPacket) ∧
      (sampleSent [] largeLinkLocalPacket).accepted = true ∧
      (sampleSent [] largeLinkLocalPacket).frames.length = 2 ∧
      (inputAll sampleNode
          (sampleReceived (sampleSent [] largeLinkLocalPacket).frames)
          idleState).2 ≠
        [none, some (largeLinkLocalPacket.read 0 200)] := by
  refine ⟨⟨by decide, by decide, by decide, by decide⟩, rfl, by decide,
    by decide, ?_⟩
  decide

end Contiki.Sicslowpan
