import Contiki.Sicslowpan.IphcStages

/-!
# Header compression round trip

`uncompress_hdr_hc06` applied to what `compress_hdr_hc06` produced.  The
stages meet at the two encoding bytes, the byte with the context numbers and
the position of the inline bytes; the decompressed header is the original one
exactly when both address stages restore their address.
-/

namespace Contiki.Sicslowpan

open Contiki.Lib

variable {contexts : List AddrContext} {sender receiver : LinkAddr}
  {packet frame buf : ByteMem}

/-! ## Encoding bytes -/

/-- The first encoding byte of a packet. -/
def sentIphc0 (packet : ByteMem) : UInt8 :=
  dispatchIphc ||| (compressTrafficFlow packet).flags |||
    (compressNextHeader packet).flags ||| (compressHopLimit packet).flags

private theorem iphc0_bits :
    ∀ trafficFlow ∈ ([0x18, 0x10, 0x08, 0] : List UInt8),
    ∀ nextHeader ∈ ([4, 0] : List UInt8),
    ∀ hopLimit ∈ ([1, 2, 3, 0] : List UInt8),
      let iphc0 := dispatchIphc ||| trafficFlow ||| nextHeader ||| hopLimit
      iphc0 &&& (Iphc.flC ||| Iphc.tcC) = trafficFlow ∧
        iphc0 &&& Iphc.nhC = nextHeader ∧ iphc0 &&& 0x03 = hopLimit ∧
        iphc0 &&& 0xe0 = dispatchIphc := by
  decide

private theorem trafficFlow_flags_mem (packet : ByteMem) :
    (compressTrafficFlow packet).flags ∈
      ([0x18, 0x10, 0x08, 0] : List UInt8) := by
  unfold compressTrafficFlow
  simp only
  split
  · split
    · exact .head _
    · exact .tail _ (.head _)
  · split
    · exact .tail _ (.tail _ (.head _))
    · exact .tail _ (.tail _ (.tail _ (.head _)))

private theorem nextHeader_flags_mem (packet : ByteMem) :
    (compressNextHeader packet).flags ∈ ([4, 0] : List UInt8) := by
  unfold compressNextHeader
  split
  · exact .head _
  · exact .tail _ (.head _)

private theorem hopLimit_flags_mem (packet : ByteMem) :
    (compressHopLimit packet).flags ∈ ([1, 2, 3, 0] : List UInt8) := by
  unfold compressHopLimit
  split
  · exact .head _
  · split
    · exact .tail _ (.head _)
    · split
      · exact .tail _ (.tail _ (.head _))
      · exact .tail _ (.tail _ (.tail _ (.head _)))

theorem sentIphc0_bits (packet : ByteMem) :
    sentIphc0 packet &&& (Iphc.flC ||| Iphc.tcC) =
        (compressTrafficFlow packet).flags ∧
      sentIphc0 packet &&& Iphc.nhC = (compressNextHeader packet).flags ∧
      sentIphc0 packet &&& 0x03 = (compressHopLimit packet).flags ∧
      sentIphc0 packet &&& 0xe0 = dispatchIphc :=
  iphc0_bits _ (trafficFlow_flags_mem packet) _
    (nextHeader_flags_mem packet) _ (hopLimit_flags_mem packet)

/-- Whether the byte with the context numbers is sent. -/
def sendsNumbers (contexts : List AddrContext) (packet : ByteMem) :
    Bool :=
  (addrContextLookupByPrefix contexts (destipaddr packet)).isSome ∨
    (addrContextLookupByPrefix contexts (srcipaddr packet)).isSome

/-- The second encoding byte of a packet. -/
def sentIphc1 (contexts : List AddrContext)
    (uipLladdr linkDestaddr : LinkAddr) (packet : ByteMem) : UInt8 :=
  (if sendsNumbers contexts packet then Iphc.cid else 0) |||
    (compressSource contexts uipLladdr packet).encoded.flags |||
    (compressDestination contexts linkDestaddr packet).encoded.flags

private def sourceFlags : List UInt8 :=
  [0x40, 0xD0, 0xE0, 0xF0, 0x10, 0x20, 0x30, 0]

private def destinationFlags : List UInt8 :=
  [0x0B, 0x0A, 0x09, 0x08, 0x05, 0x06, 0x07, 1, 2, 3, 0]

private theorem iphc1_bits :
    ∀ source ∈ sourceFlags, ∀ destination ∈ destinationFlags,
    ∀ cid ∈ ([Iphc.cid, 0] : List UInt8),
      (source &&& Iphc.cid ≠ 0 → cid = Iphc.cid) →
      let iphc1 := cid ||| source ||| destination
      iphc1 &&& 0x70 = source &&& 0x70 ∧ iphc1 &&& 0x0F = destination ∧
        iphc1 &&& Iphc.cid = cid := by
  decide

private theorem source_flags_mem (contexts : List AddrContext)
    (uipLladdr : LinkAddr) (packet : ByteMem) :
    (compressSource contexts uipLladdr packet).encoded.flags ∈
        sourceFlags ∧
      ((compressSource contexts uipLladdr packet).encoded.flags &&&
          Iphc.cid ≠ 0 →
        sendsNumbers contexts packet = true) := by
  have listed : ∀ mode ∈ ([1, 2, 3] : List UInt8),
      Iphc.cid ||| Iphc.sac ||| mode <<< Iphc.samBit ∈ sourceFlags ∧
        mode <<< Iphc.samBit ∈ sourceFlags ∧
        mode <<< Iphc.samBit &&& Iphc.cid = 0 := by
    decide
  have full : (0 : UInt8) ∈ sourceFlags := by decide
  obtain ⟨stateful, stateless, noCid⟩ :=
    listed _ (iidMode_mem (srcipaddr packet) uipLladdr)
  unfold compressSource
  dsimp only
  split
  · exact ⟨.head _, fun cid => absurd rfl cid⟩
  · split
    · next context found =>
        simp only [compressAddr64_flags]
        exact ⟨stateful, fun _ => by simp [sendsNumbers, found]⟩
    · split
      · simp only [compressAddr64_flags]
        exact ⟨stateless, fun cid => absurd noCid cid⟩
      · exact ⟨full, fun cid => absurd UInt8.zero_and cid⟩

private theorem destination_flags_mem (contexts : List AddrContext)
    (linkDestaddr : LinkAddr) (packet : ByteMem) :
    (compressDestination contexts linkDestaddr packet).encoded.flags ∈
      destinationFlags := by
  have listed : ∀ mode ∈ ([1, 2, 3] : List UInt8),
      Iphc.dac ||| mode <<< Iphc.damBit ∈ destinationFlags ∧
        mode <<< Iphc.damBit ∈ destinationFlags := by
    decide
  have multicast : ∀ flags ∈ ([0x0B, 0x0A, 0x09, 0x08] : List UInt8),
      flags ∈ destinationFlags := by
    decide
  have full : (0 : UInt8) ∈ destinationFlags := by decide
  obtain ⟨stateful, stateless⟩ :=
    listed _ (iidMode_mem (destipaddr packet) linkDestaddr)
  unfold compressDestination
  dsimp only
  split
  · exact multicast _ (compressMulticast_flags_mem (destipaddr packet))
  · split
    · simp only [compressAddr64_flags]
      exact stateful
    · split
      · simp only [compressAddr64_flags]
        exact stateless
      · exact full

theorem sentIphc1_bits (contexts : List AddrContext)
    (uipLladdr linkDestaddr : LinkAddr) (packet : ByteMem) :
    let iphc1 := sentIphc1 contexts uipLladdr linkDestaddr packet
    iphc1 &&& 0x70 = (compressSource contexts uipLladdr
        packet).encoded.flags &&& 0x70 ∧
      iphc1 &&& 0x0F = (compressDestination contexts linkDestaddr
        packet).encoded.flags ∧
      (iphc1 &&& Iphc.cid ≠ 0 ↔ sendsNumbers contexts packet = true) := by
  obtain ⟨member, numbered⟩ := source_flags_mem contexts uipLladdr packet
  have destination := destination_flags_mem contexts linkDestaddr packet
  have bits := iphc1_bits _ member _ destination
    (if sendsNumbers contexts packet then Iphc.cid else 0)
    (by split <;> decide) (fun cid => by rw [if_pos (numbered cid)])
  refine ⟨bits.1, bits.2.1, ?_⟩
  rw [sentIphc1, bits.2.2]
  cases sendsNumbers contexts packet <;> decide

def sentNumbers (contexts : List AddrContext) (packet : ByteMem) :
    UInt8 :=
  let number := fun ipaddr =>
    ((addrContextLookupByPrefix contexts ipaddr).map
      AddrContext.number).getD 0
  (if isAddrUnspecified (srcipaddr packet) then 0
    else number (srcipaddr packet)) <<< 4 |||
  (if isAddrMcast (destipaddr packet) then 0
    else number (destipaddr packet))

theorem header_eq (contexts : List AddrContext)
    (uipLladdr linkDestaddr : LinkAddr) (packet : ByteMem) :
    (compressHdrHc06 contexts uipLladdr linkDestaddr packet).header =
      [sentIphc0 packet,
        sentIphc1 contexts uipLladdr linkDestaddr packet] ++
      (if sendsNumbers contexts packet then [sentNumbers contexts packet]
        else []) ++
      (compressTrafficFlow packet).inline ++
      (compressNextHeader packet).inline ++
      (compressHopLimit packet).inline ++
      (compressSource contexts uipLladdr packet).encoded.inline ++
      (compressDestination contexts linkDestaddr packet).encoded.inline ++
      (if packet 6 = uipProtoUdp then compressUdp packet else []) := by
  have source : ((compressSource contexts uipLladdr packet).context.map
      AddrContext.number).getD 0 =
      if isAddrUnspecified (srcipaddr packet) then 0
      else ((addrContextLookupByPrefix contexts
        (srcipaddr packet)).map AddrContext.number).getD 0 := by
    unfold compressSource
    dsimp only
    split
    · rfl
    · split
      · next found => rw [found]
      · next found =>
          rw [found]
          split <;> rfl
  have destination :
      ((compressDestination contexts linkDestaddr packet).context.map
      AddrContext.number).getD 0 =
      if isAddrMcast (destipaddr packet) then 0
      else ((addrContextLookupByPrefix contexts
        (destipaddr packet)).map AddrContext.number).getD 0 := by
    unfold compressDestination
    dsimp only
    split
    · rfl
    · split
      · next found => rw [found]
      · next found =>
          rw [found]
          split <;> rfl
  unfold compressHdrHc06
  simp only [source, destination]
  rfl

theorem sentNumbers_of_none
    (none : sendsNumbers contexts packet = false) :
    sentNumbers contexts packet = 0 := by
  simp only [sendsNumbers, decide_eq_false_iff_not, not_or,
    Bool.not_eq_true, Option.isSome_eq_false_iff,
    Option.isNone_iff_eq_none] at none
  simp [sentNumbers, none.1, none.2]

/-! ## The frame with a compressed header -/

/-- The offset of the inline source address in the header of a packet. -/
def sourceOffset (contexts : List AddrContext) (packet : ByteMem) : Nat :=
  2 + (if sendsNumbers contexts packet then 1 else 0) +
    (compressTrafficFlow packet).inline.length +
    (compressNextHeader packet).inline.length +
    (compressHopLimit packet).inline.length

/-- A frame has the compressed header of a packet at an offset. -/
def HasHeader (contexts : List AddrContext) (sender receiver : LinkAddr)
    (packet frame : ByteMem) (base : Nat) : Prop :=
  frame.Holds base
    (compressHdrHc06 contexts sender receiver packet).header

/-- The frame holds the parts of the header where the decoder looks for
them. -/
theorem HasHeader.stages {base : Nat}
    (has : HasHeader contexts sender receiver packet frame base) :
    let source := (compressSource contexts sender packet).encoded.inline
    let destination :=
      (compressDestination contexts receiver packet).encoded.inline
    let ptr := base + 2 + if sendsNumbers contexts packet then 1 else 0
    let address := base + sourceOffset contexts packet
    (frame base = sentIphc0 packet ∧
      frame (base + 1) = sentIphc1 contexts sender receiver packet ∧
      (sendsNumbers contexts packet = true →
        frame (base + 2) = sentNumbers contexts packet)) ∧
    (frame.Holds ptr (compressTrafficFlow packet).inline ∧
      frame.Holds (ptr + (compressTrafficFlow packet).inline.length)
        (compressNextHeader packet).inline ∧
      frame.Holds (ptr + (compressTrafficFlow packet).inline.length +
          (compressNextHeader packet).inline.length)
        (compressHopLimit packet).inline) ∧
    frame.Holds address source ∧
    frame.Holds (address + source.length) destination ∧
    frame.Holds (address + source.length + destination.length)
      (if packet 6 = uipProtoUdp then compressUdp packet else []) := by
  have numbersLength : (if sendsNumbers contexts packet then
      [sentNumbers contexts packet] else []).length =
      if sendsNumbers contexts packet then 1 else 0 := by
    split <;> rfl
  rw [HasHeader, header_eq] at has
  simp only [ByteMem.holds_append, List.length_append, numbersLength,
    List.length_cons, List.length_nil, Nat.zero_add, Nat.reduceAdd]
    at has
  obtain ⟨⟨⟨⟨⟨⟨⟨encoding, numbers⟩, trafficFlow⟩, nextHeader⟩, hopLimit⟩,
    source⟩, destination⟩, udp⟩ := has
  simp only [holds_cons] at encoding
  simp only [sourceOffset, Nat.add_assoc] at *
  refine ⟨⟨encoding.1, encoding.2.1, fun sends => ?_⟩,
    ⟨trafficFlow, nextHeader, hopLimit⟩, source, destination, udp⟩
  rw [if_pos sends] at numbers
  exact (holds_cons.mp numbers).1

/-- The header fields in front of the addresses, copied into a buffer. -/
def copyFields (packet buf : ByteMem) : ByteMem :=
  ((buf.write 0 (packet.read 0 4)).write 6
    (if packet 6 = uipProtoUdp then [] else packet.read 6 1)).write 7
      (packet.read 7 1)

theorem uncompressFields_header (buf : ByteMem) {base : Nat}
    (version : packet 0 >>> 4 = 6)
    (has : HasHeader contexts sender receiver packet frame base) :
    uncompressFields (sentIphc0 packet) frame
        (base + 2 + if sendsNumbers contexts packet then 1 else 0) buf =
      { buf := copyFields packet buf
        ptr := base + sourceOffset contexts packet } := by
  obtain ⟨_, ⟨trafficFlow, nextHeader, hopLimit⟩, _⟩ := has.stages
  obtain ⟨flowBits, nextBits, hopBits, _⟩ := sentIphc0_bits packet
  rw [← ByteMem.holds_shift] at trafficFlow nextHeader hopLimit
  simp only [uncompressFields,
    uncompressTrafficFlow_compressed version flowBits trafficFlow,
    uncompressNextHeader_compressed nextBits nextHeader,
    uncompressHopLimit_compressed hopBits hopLimit]
  simp only [sourceOffset, Nat.add_assoc]
  rfl

theorem uncompressHdrHc06_header {base datalen ipLen : Nat}
    (version : packet 0 >>> 4 = 6)
    (has : HasHeader contexts sender receiver packet frame base) :
    let iphc1 := sentIphc1 contexts sender receiver packet
    let numbers := sentNumbers contexts packet
    let ptr := base + sourceOffset contexts packet
    uncompressHdrHc06 contexts sender receiver frame datalen base ipLen
        buf =
      match uncompressSource contexts sender iphc1 numbers
          (frame.shift ptr) with
      | none =>
          { buf := copyFields packet buf
            packetbufHdrLen := base
            uncompHdrLen := 0 }
      | some source =>
          match uncompressDestination contexts receiver iphc1 numbers
              (frame.shift (ptr + source.consumed)) with
          | none =>
              { buf := (copyFields packet buf).write 8 source.bytes
                packetbufHdrLen := base
                uncompHdrLen := 0 }
          | some destination =>
              uncompressTail (sentIphc0 packet) frame datalen
                (ptr + source.consumed + destination.consumed) ipLen
                (((copyFields packet buf).write 8 source.bytes).write 24
                  destination.bytes) := by
  obtain ⟨⟨iphc0, iphc1, numbered⟩, _⟩ := has.stages
  obtain ⟨_, _, cid⟩ := sentIphc1_bits contexts sender receiver packet
  have numbers : contextNumbers (sentIphc1 contexts sender receiver packet)
      (frame.shift base) = sentNumbers contexts packet := by
    simp only [contextNumbers, cid, ByteMem.shift_apply]
    cases sends : sendsNumbers contexts packet with
    | false =>
        rw [sentNumbers_of_none sends]
        rfl
    | true =>
        rw [numbered sends]
        rfl
  have fields := uncompressFields_header buf version has
  generalize decoded : uncompressHdrHc06 contexts sender receiver frame
    datalen base ipLen buf = result
  simp only [uncompressHdrHc06, ByteMem.shift_apply, Nat.add_zero, iphc0,
    iphc1, numbers, cid, fields] at decoded
  exact decoded.symm

/-! ## The headers that are restored -/

/-- The length of the headers that are compressed. -/
def headerLen (packet : ByteMem) : Nat :=
  uipIphLen + if packet 6 = uipProtoUdp then uipUdphLen else 0

/-- A packet of version 6 whose length fields agree with its length. -/
structure ConsistentPacket (packet : ByteMem) (len : Nat) : Prop where
  version : packet 0 >>> 4 = 6
  headers : headerLen packet ≤ len
  ipLen : get16 packet 4 = len - uipIphLen
  udpLen : packet 6 = uipProtoUdp → get16 packet 44 = len - uipIphLen

theorem uncompressTail_address {iphc0 : UInt8}
    {datalen ptr ipLen address : Nat} (lower : 8 ≤ address)
    (upper : address < 40) :
    (uncompressTail iphc0 frame datalen ptr ipLen buf).buf address =
      buf address := by
  have udp : ∀ inline : ByteMem,
      (uncompressUdp inline buf).1 address = buf address := by
    intro inline
    have fields : ((buf.write 6 [uipProtoUdp]).write 40
        (uncompressPorts inline).bytes) address = buf address := by
      rw [ByteMem.write_of_lt upper, ByteMem.write_of_ge]
      exact Nat.le_trans (by decide) lower
    unfold uncompressUdp
    split
    · dsimp only
      split
      · exact (ByteMem.write_of_lt (by omega)).trans fields
      · exact fields
    · rfl
  have lengths : ∀ (len hdr : Nat) (memory : ByteMem),
      uncompressLengths datalen len hdr ipLen memory address =
        memory address := by
    intro len hdr memory
    have field : ∀ value,
        memory.write 4 (set16 value) address = memory address :=
      fun value => ByteMem.write_of_ge
        (Nat.le_trans (by simp [set16]) lower)
    unfold uncompressLengths
    generalize Int.toNat _ = value
    split
    · exact (ByteMem.write_of_lt (by omega)).trans (field _)
    · exact field _
  refine (lengths _ _ _).trans ?_
  split
  · exact udp _
  · rfl

theorem read_addresses (memory : ByteMem) :
    memory.read 8 32 =
      (srcipaddr memory).read 0 16 ++ (destipaddr memory).read 0 16 := by
  rw [srcipaddr, destipaddr, ByteMem.read_shift, ByteMem.read_shift]
  exact ByteMem.read_add memory 8 16 16

theorem uncompressTail_read_addresses {iphc0 : UInt8}
    {datalen ptr ipLen : Nat} {source destination : List UInt8}
    (same : (uncompressTail iphc0 frame datalen ptr ipLen
      ((buf.write 8 source).write 24 destination)).buf.read 8 32 =
        packet.read 8 32) :
    (source.length = 16 → source = (srcipaddr packet).read 0 16) ∧
      (destination.length = 16 →
        destination = (destipaddr packet).read 0 16) := by
  have kept : ((buf.write 8 source).write 24 destination).read 8 32 =
      packet.read 8 32 := by
    rw [← same]
    apply ByteMem.read_congr
    intro address lower upper
    exact (uncompressTail_address lower upper).symm
  rw [read_addresses packet,
    ByteMem.read_add _ 8 16 16] at kept
  obtain ⟨first, second⟩ := List.append_inj kept (by simp)
  constructor
  · intro length
    rw [← first, ByteMem.read_write_disjoint (by omega),
      ByteMem.read_write_of_length length]
  · intro length
    rw [← second, ByteMem.read_write_of_length length]

/-- The length stage, for a buffer with the next header of the packet. -/
theorem uncompressLengths_restored {datalen hdrLen ipLen len : Nat}
    (consistent : ConsistentPacket packet len)
    (size : ipLen = len ∨
      ipLen = 0 ∧ datalen = hdrLen + (len - headerLen packet))
    (proto : buf 6 = packet 6) :
    uncompressLengths datalen hdrLen (headerLen packet) ipLen buf =
      if packet 6 = uipProtoUdp then
        (buf.write 4 (packet.read 4 2)).write 44 (packet.read 44 2)
      else buf.write 4 (packet.read 4 2) := by
  have headers := consistent.headers
  have small := get16_lt packet 4
  rw [consistent.ipLen] at small
  have minimum : uipIphLen ≤ headerLen packet := Nat.le_add_right _ _
  have positive : uipIphLen = 40 := rfl
  have value : ((if ipLen = 0 then
      (datalen : Int) - hdrLen + headerLen packet - uipIphLen
      else (ipLen : Int) - uipIphLen) % 65536).toNat = get16 packet 4 := by
    rw [consistent.ipLen]
    rcases size with same | ⟨zero, same⟩
    · rw [if_neg (by omega), same]
      omega
    · rw [if_pos zero, same]
      omega
  have kept : buf.write 4 (packet.read 4 2) 6 = packet 6 := by
    rw [ByteMem.write_read_apply, if_neg (by omega), proto]
  simp only [uncompressLengths, value, set16_get16, kept]
  split
  · next udp =>
      have lengths : packet.read 44 2 = packet.read 4 2 := by
        rw [← set16_get16, ← set16_get16, consistent.udpLen udp,
          consistent.ipLen]
      have written : (buf.write 4 (packet.read 4 2)).read 4 2 =
          packet.read 4 2 := by
        simpa using ByteMem.read_write_self buf 4 (packet.read 4 2)
      rw [written, lengths]
  · rfl

theorem header_length (contexts : List AddrContext)
    (sender receiver : LinkAddr) (packet : ByteMem) :
    (compressHdrHc06 contexts sender receiver packet).header.length =
      sourceOffset contexts packet +
      (compressSource contexts sender packet).encoded.inline.length +
      (compressDestination contexts receiver
        packet).encoded.inline.length +
      (if packet 6 = uipProtoUdp then compressUdp packet
        else []).length := by
  have numbersLength : (if sendsNumbers contexts packet then
      [sentNumbers contexts packet] else []).length =
      if sendsNumbers contexts packet then 1 else 0 := by
    split <;> rfl
  rw [header_eq]
  simp only [List.length_append, numbersLength, sourceOffset,
    List.length_cons, List.length_nil]

theorem sentIphc0_nhC (packet : ByteMem) :
    sentIphc0 packet &&& Iphc.nhC ≠ 0 ↔ packet 6 = uipProtoUdp := by
  rw [(sentIphc0_bits packet).2.1, compressNextHeader]
  split
  · next udp => exact ⟨fun _ => udp, fun _ => by decide⟩
  · next other => exact ⟨fun flag => absurd rfl flag,
      fun udp => absurd udp other⟩

theorem uncompressTail_udp (buf : ByteMem)
    {datalen ptr ipLen len : Nat}
    (consistent : ConsistentPacket packet len)
    (udp : packet 6 = uipProtoUdp)
    (holds : frame.Holds ptr (compressUdp packet))
    (size : ipLen = len ∨ ipLen = 0 ∧ datalen =
      ptr + (compressUdp packet).length + (len - headerLen packet)) :
    uncompressTail (sentIphc0 packet) frame datalen ptr ipLen buf =
      { buf := ((((buf.write 6 (packet.read 6 1)).write 40
          (packet.read 40 4)).write 46 (packet.read 46 2)).write 4
          (packet.read 4 2)).write 44 (packet.read 44 2)
        packetbufHdrLen := ptr + (compressUdp packet).length
        uncompHdrLen := headerLen packet } := by
  have flag := (sentIphc0_nhC packet).mpr udp
  have hdrLen : uipIphLen + uipUdphLen = headerLen packet := by
    rw [headerLen, if_pos udp]
  have number : [uipProtoUdp] = packet.read 6 1 := by
    rw [← udp]
    rfl
  have decoded := uncompressUdp_compressed buf
    (ByteMem.holds_shift.mpr holds)
  have proto : ((buf.write 6 (packet.read 6 1)).write 40
      (packet.read 40 4)).write 46 (packet.read 46 2) 6 = packet 6 := by
    simp [ByteMem.write_read_apply]
  simp only [uncompressTail, if_pos flag, decoded, number, hdrLen,
    uncompressLengths_restored consistent size proto, if_pos udp]

theorem uncompressTail_other (frame : ByteMem)
    {datalen ptr ipLen len : Nat}
    (consistent : ConsistentPacket packet len)
    (other : packet 6 ≠ uipProtoUdp) (proto : buf 6 = packet 6)
    (size : ipLen = len ∨
      ipLen = 0 ∧ datalen = ptr + (len - headerLen packet)) :
    uncompressTail (sentIphc0 packet) frame datalen ptr ipLen buf =
      { buf := buf.write 4 (packet.read 4 2)
        packetbufHdrLen := ptr
        uncompHdrLen := headerLen packet } := by
  have flag := fun set => other ((sentIphc0_nhC packet).mp set)
  have hdrLen : uipIphLen = headerLen packet := by
    rw [headerLen, if_neg other, Nat.add_zero]
  simp only [uncompressTail, if_neg flag, Nat.add_zero, hdrLen,
    uncompressLengths_restored consistent size proto, if_neg other]

theorem uncompressTail_lengths {base datalen ipLen : Nat}
    (has : HasHeader contexts sender receiver packet frame base)
    (buf : ByteMem) :
    let ptr := base + sourceOffset contexts packet +
      (compressSource contexts sender packet).encoded.inline.length +
      (compressDestination contexts receiver packet).encoded.inline.length
    let result := uncompressTail (sentIphc0 packet) frame datalen ptr ipLen
      buf
    result.packetbufHdrLen = base + (compressHdrHc06 contexts sender
        receiver packet).header.length ∧
      result.uncompHdrLen = headerLen packet := by
  obtain ⟨_, _, _, _, udpHolds⟩ := has.stages
  intro ptr
  have length := header_length contexts sender receiver packet
  by_cases udp : packet 6 = uipProtoUdp
  · rw [if_pos udp] at length udpHolds
    have flag := (sentIphc0_nhC packet).mpr udp
    have decoded : uncompressUdp (frame.shift ptr) buf = _ :=
      uncompressUdp_compressed buf (ByteMem.holds_shift.mpr udpHolds)
    simp only [uncompressTail, if_pos flag, decoded, headerLen,
      if_pos udp, length, and_true]
    omega
  · rw [if_neg udp] at length
    have flag := fun set => udp ((sentIphc0_nhC packet).mp set)
    simp only [uncompressTail, if_neg flag, headerLen, if_neg udp, length,
      and_true]
    rw [List.length_nil]
    omega

theorem uncompressTail_restored {base datalen ipLen len : Nat}
    (consistent : ConsistentPacket packet len)
    (has : HasHeader contexts sender receiver packet frame base)
    (size : ipLen = len ∨ ipLen = 0 ∧ datalen = base +
      (compressHdrHc06 contexts sender receiver packet).header.length +
      (len - headerLen packet)) :
    let ptr := base + sourceOffset contexts packet +
      (compressSource contexts sender packet).encoded.inline.length +
      (compressDestination contexts receiver packet).encoded.inline.length
    let result := uncompressTail (sentIphc0 packet) frame datalen ptr ipLen
      (((copyFields packet buf).write 8 (packet.read 8 16)).write 24
        (packet.read 24 16))
    ∀ address, result.buf address =
      if address < headerLen packet then packet address
      else buf address := by
  obtain ⟨_, _, _, _, udpHolds⟩ := has.stages
  intro ptr result address
  have length := header_length contexts sender receiver packet
  by_cases udp : packet 6 = uipProtoUdp
  · rw [if_pos udp] at length udpHolds
    have total : base + (compressHdrHc06 contexts sender receiver
        packet).header.length = ptr + (compressUdp packet).length := by
      omega
    rw [total] at size
    have written : result = _ :=
      uncompressTail_udp _ consistent udp udpHolds size
    rw [written]
    simp only [headerLen, copyFields, if_pos udp, uipIphLen, uipUdphLen,
      ByteMem.write_nil, ByteMem.write_read_apply]
    simp only [← ite_or]
    exact if_congr (by omega) rfl rfl
  · rw [if_neg udp, List.length_nil] at length
    have total : base + (compressHdrHc06 contexts sender receiver
        packet).header.length = ptr := by
      omega
    have proto : ((copyFields packet buf).write 8
        (packet.read 8 16)).write 24 (packet.read 24 16) 6 =
        packet 6 := by
      simp [copyFields, udp, ByteMem.write_read_apply]
    rw [total] at size
    have written : result = _ :=
      uncompressTail_other frame consistent udp proto size
    rw [written]
    simp only [headerLen, copyFields, if_neg udp, uipIphLen,
      ByteMem.write_read_apply]
    simp only [← ite_or]
    exact if_congr (by omega) rfl rfl

/-- The decoder restores both addresses of a packet. -/
def AddressesRecovered (contexts : List AddrContext)
    (packet : ByteMem) : Prop :=
  SourceRecovered contexts packet (sentNumbers contexts packet) ∧
    DestinationRecovered contexts packet (sentNumbers contexts packet)

theorem uncompressHdrHc06_recovered (buf : ByteMem)
    {base datalen ipLen : Nat} (version : packet 0 >>> 4 = 6)
    (has : HasHeader contexts sender receiver packet frame base)
    (recovered : AddressesRecovered contexts packet) :
    uncompressHdrHc06 contexts sender receiver frame datalen base ipLen
        buf =
      uncompressTail (sentIphc0 packet) frame datalen
        (base + sourceOffset contexts packet +
          (compressSource contexts sender packet).encoded.inline.length +
          (compressDestination contexts receiver
            packet).encoded.inline.length) ipLen
        (((copyFields packet buf).write 8 (packet.read 8 16)).write 24
          (packet.read 24 16)) := by
  obtain ⟨_, _, source, destination, _⟩ := has.stages
  obtain ⟨sourceBits, destinationBits, _⟩ :=
    sentIphc1_bits contexts sender receiver packet
  have decodedSource := (uncompressSource_compressed _ sourceBits
    (ByteMem.holds_shift.mpr source)).1 recovered.1
  have decodedDestination := (uncompressDestination_compressed _
    destinationBits (ByteMem.holds_shift.mpr destination)).1 recovered.2
  rw [uncompressHdrHc06_header version has]
  simp only [decodedSource, decodedDestination]

/-- Decompression overwrites the headers with those of the packet and leaves
the rest of the buffer. -/
theorem uncompressHdrHc06_restored (buf : ByteMem)
    {base datalen ipLen len : Nat}
    (consistent : ConsistentPacket packet len)
    (has : HasHeader contexts sender receiver packet frame base)
    (size : ipLen = len ∨ ipLen = 0 ∧ datalen = base +
      (compressHdrHc06 contexts sender receiver packet).header.length +
      (len - headerLen packet))
    (recovered : AddressesRecovered contexts packet) :
    let result := uncompressHdrHc06 contexts sender receiver frame datalen
      base ipLen buf
    result.packetbufHdrLen = base +
        (compressHdrHc06 contexts sender receiver packet).header.length ∧
      result.uncompHdrLen = headerLen packet ∧
      ∀ address, result.buf address =
        if address < headerLen packet then packet address
        else buf address := by
  rw [uncompressHdrHc06_recovered buf consistent.version has recovered]
  obtain ⟨hdrLen, uncompLen⟩ := uncompressTail_lengths has
    (((copyFields packet buf).write 8 (packet.read 8 16)).write 24
      (packet.read 24 16))
  exact ⟨hdrLen, uncompLen,
    uncompressTail_restored consistent has size⟩

/-- Where an address is not restored, decompression gives no header or one
with other addresses. -/
theorem uncompressHdrHc06_lost (buf : ByteMem) {base datalen ipLen : Nat}
    (version : packet 0 >>> 4 = 6)
    (has : HasHeader contexts sender receiver packet frame base)
    (lost : ¬ AddressesRecovered contexts packet) :
    let result := uncompressHdrHc06 contexts sender receiver frame datalen
      base ipLen buf
    result.packetbufHdrLen = base ∧ result.uncompHdrLen = 0 ∨
      result.packetbufHdrLen = base + (compressHdrHc06 contexts sender
          receiver packet).header.length ∧
        result.uncompHdrLen = headerLen packet ∧
        result.buf.read 8 32 ≠ packet.read 8 32 := by
  obtain ⟨_, _, source, destination, _⟩ := has.stages
  obtain ⟨sourceBits, destinationBits, _⟩ :=
    sentIphc1_bits contexts sender receiver packet
  have sourceStage := uncompressSource_compressed
    (sentNumbers contexts packet) sourceBits
    (ByteMem.holds_shift.mpr source)
  have destinationStage := uncompressDestination_compressed
    (sentNumbers contexts packet) destinationBits
    (ByteMem.holds_shift.mpr destination)
  rw [uncompressHdrHc06_header version has]
  dsimp only
  split
  · exact .inl ⟨rfl, rfl⟩
  · next decoded found =>
      have consumed : decoded.consumed = (compressSource contexts sender
          packet).encoded.inline.length := by
        by_cases recovered : SourceRecovered contexts packet
            (sentNumbers contexts packet)
        · rw [sourceStage.1 recovered, Option.some.injEq] at found
          rw [← found]
        · exact (sourceStage.2 recovered _ found).2.2
      rw [consumed]
      split
      · exact .inl ⟨rfl, rfl⟩
      · next decoded' found' =>
          have consumed' : decoded'.consumed = (compressDestination
              contexts receiver packet).encoded.inline.length := by
            by_cases recovered : DestinationRecovered contexts packet
                (sentNumbers contexts packet)
            · rw [destinationStage.1 recovered, Option.some.injEq]
                at found'
              rw [← found']
            · exact (destinationStage.2 recovered _ found').2.2
          rw [consumed']
          obtain ⟨hdrLen, uncompLen⟩ := uncompressTail_lengths has
            (((copyFields packet buf).write 8 decoded.bytes).write 24
              decoded'.bytes)
          refine .inr ⟨hdrLen, uncompLen, fun same => lost ?_⟩
          obtain ⟨sourceSame, destinationSame⟩ :=
            uncompressTail_read_addresses same
          constructor
          · by_contra missed
            obtain ⟨length, differs, _⟩ := sourceStage.2 missed _ found
            exact differs (sourceSame length)
          · by_contra missed
            obtain ⟨length, differs, _⟩ :=
              destinationStage.2 missed _ found'
            exact differs (destinationSame length)

theorem length_compressAddr64 (bitpos : UInt8) (ipaddr : ByteMem)
    (lladdr : LinkAddr) :
    (compressAddr64 bitpos ipaddr lladdr).inline.length ≤ 8 := by
  unfold compressAddr64
  split
  · exact Nat.zero_le _
  · split <;> simp

theorem length_compressSource (contexts : List AddrContext)
    (sender : LinkAddr) (packet : ByteMem) :
    let length :=
      (compressSource contexts sender packet).encoded.inline.length
    length ≤ 16 ∧ ∀ numbers,
      ¬ SourceRecovered contexts packet numbers → length ≤ 8 := by
  have short := length_compressAddr64 Iphc.samBit (srcipaddr packet) sender
  unfold compressSource
  dsimp only
  split
  · exact ⟨Nat.zero_le _, fun _ _ => Nat.zero_le _⟩
  · next specified =>
      split
      · exact ⟨Nat.le_trans short (by decide), fun _ _ => short⟩
      · next found =>
          split
          · exact ⟨Nat.le_trans short (by decide), fun _ _ => short⟩
          · next guard =>
              refine ⟨by simp, fun numbers lost => absurd ?_ lost⟩
              rw [SourceRecovered, found]
              refine .inr fun linkLocal tail => absurd ?_ guard
              exact ⟨linkLocal, (prefixTailZero_iff _).mp tail⟩

theorem length_compressDestination (contexts : List AddrContext)
    (receiver : LinkAddr) (packet : ByteMem) :
    let length :=
      (compressDestination contexts receiver packet).encoded.inline.length
    length ≤ 16 ∧ ∀ numbers,
      ¬ DestinationRecovered contexts packet numbers → length ≤ 8 := by
  have short :=
    length_compressAddr64 Iphc.damBit (destipaddr packet) receiver
  unfold compressDestination
  dsimp only
  split
  · next mcast =>
      refine ⟨?_, fun numbers lost => absurd (.inl mcast) lost⟩
      split
      · exact Nat.le_trans (Nat.le_refl 1) (by decide)
      · split
        · simp
        · split <;> simp
  · split
    · exact ⟨Nat.le_trans short (by decide), fun _ _ => short⟩
    · next found =>
        have recovered : ∀ numbers,
            DestinationRecovered contexts packet numbers := by
          intro numbers
          rw [DestinationRecovered, found]
          exact .inr trivial
        split
        · exact ⟨Nat.le_trans short (by decide), fun _ _ => short⟩
        · exact ⟨by simp, fun numbers lost =>
            absurd (recovered numbers) lost⟩

theorem length_compressUdp (packet : ByteMem) :
    (compressUdp packet).length ≤ 7 := by
  have ports : (compressPorts packet).length ≤ 5 := by
    unfold compressPorts
    dsimp only
    split
    · simp
    · split
      · simp
      · split <;> simp
  rw [compressUdp, List.length_append, ByteMem.length_read]
  omega

/-- A header that is not restored is shorter than the headers it stands
for. -/
theorem header_length_lt (sender receiver : LinkAddr)
    (lost : ¬ AddressesRecovered contexts packet) :
    (compressHdrHc06 contexts sender receiver packet).header.length <
      headerLen packet := by
  obtain ⟨source, sourceShort⟩ :=
    length_compressSource contexts sender packet
  obtain ⟨destination, destinationShort⟩ :=
    length_compressDestination contexts receiver packet
  have addresses :
      (compressSource contexts sender packet).encoded.inline.length +
        (compressDestination contexts receiver
          packet).encoded.inline.length ≤ 24 := by
    rcases not_and_or.mp lost with missed | missed
    · have short := sourceShort _ missed
      omega
    · have short := destinationShort _ missed
      omega
  have trafficFlow : (compressTrafficFlow packet).inline.length ≤ 4 := by
    unfold compressTrafficFlow
    dsimp only
    split
    · split <;> simp
    · split <;> simp
  have nextHeader : (compressNextHeader packet).inline.length ≤ 1 := by
    unfold compressNextHeader
    split <;> simp
  have hopLimit : (compressHopLimit packet).inline.length ≤ 1 := by
    unfold compressHopLimit
    split
    · simp
    · split
      · simp
      · split <;> simp
  have numbers :
      (if sendsNumbers contexts packet then 1 else 0) ≤ 1 := by
    split <;> decide
  have udp := length_compressUdp packet
  rw [header_length, sourceOffset, headerLen, uipIphLen, uipUdphLen]
  by_cases isUdp : packet 6 = uipProtoUdp
  · rw [if_pos isUdp, if_pos isUdp]
    omega
  · rw [if_neg isUdp, if_neg isUdp, List.length_nil]
    omega

/-- The headers of a packet come back from the frame that carries them
compressed, followed by the payload, whatever the buffer held before. -/
def HeaderRestored (contexts : List AddrContext)
    (sender receiver : LinkAddr) (packet : ByteMem) (len : Nat) : Prop :=
  ∀ frame buf : ByteMem,
    let compressed := compressHdrHc06 contexts sender receiver packet
    let payload := packet.read compressed.uncompHdrLen
      (len - compressed.uncompHdrLen)
    frame.Holds 0 (compressed.header ++ payload) →
      let result := uncompressHdrHc06 contexts sender receiver frame
        (compressed.header ++ payload).length 0 0 buf
      result.buf.read 0 result.uncompHdrLen =
        packet.read 0 compressed.uncompHdrLen

/-- The headers of a consistent packet come back exactly when its prefixes
lead back to themselves through their context numbers and a link-local source
that is compressed has a zero rest of its prefix. -/
theorem headerRestored_iff {len : Nat}
    (consistent : ConsistentPacket packet len) :
    HeaderRestored contexts sender receiver packet len ↔
      AddressesRecovered contexts packet := by
  have minimum : 40 ≤ headerLen packet := Nat.le_add_right _ _
  constructor
  · intro restored
    by_contra lost
    have holds := ByteMem.read_ofList
      ((compressHdrHc06 contexts sender receiver packet).header ++
        packet.read (headerLen packet) (len - headerLen packet))
    have same := restored _ (fun _ => 0) holds
    dsimp only at same
    have length := congrArg List.length same
    rw [ByteMem.length_read, ByteMem.length_read] at length
    change _ = headerLen packet at length
    rcases uncompressHdrHc06_lost (fun _ => 0) consistent.version
        (ByteMem.holds_append.mp holds).1 lost with
      ⟨_, none⟩ | ⟨_, _, differs⟩
    · exact absurd (none.symm.trans length) (by omega)
    · apply differs
      rw [length] at same
      change _ = packet.read 0 (headerLen packet) at same
      apply ByteMem.read_congr
      intro address _ upper
      exact ByteMem.apply_of_read_eq same (by omega) (by omega)
  · intro recovered frame buf compressed payload holds
    have has := (ByteMem.holds_append.mp holds).1
    have total : (compressed.header ++ payload).length =
        0 + compressed.header.length + (len - headerLen packet) := by
      rw [List.length_append, ByteMem.length_read, Nat.zero_add]
      rfl
    obtain ⟨_, length, copied⟩ := uncompressHdrHc06_restored buf
      consistent has (.inr ⟨rfl, total⟩) recovered
    intro result
    change result.buf.read 0 result.uncompHdrLen =
      packet.read 0 (headerLen packet)
    rw [length]
    apply ByteMem.read_congr
    intro address _ upper
    rw [copied, if_pos (by omega)]

/-- A packet from fe80:0:0:1::ff:fe00:708 to fe80::ff:fe00:102 without a
payload. -/
def linkLocalPacket : ByteMem :=
  ByteMem.ofList
    [0x60, 0, 0, 0, 0, 0, 59, 64,
      0xfe, 0x80, 0, 0, 0, 0, 0, 1, 0, 0, 0, 0xff, 0xfe, 0, 7, 8,
      0xfe, 0x80, 0, 0, 0, 0, 0, 0, 0, 0, 0, 0xff, 0xfe, 0, 1, 2]

/-- The last six bytes of the prefix are compared in the destination address
instead of the source address, and the 1 is lost. -/
theorem linkLocalPacket_not_restored :
    ConsistentPacket linkLocalPacket 40 ∧
      ¬ HeaderRestored [] (Vector.replicate 8 0) (Vector.replicate 8 0)
        linkLocalPacket 40 := by
  refine ⟨⟨by decide, by decide, by decide, by decide⟩,
    fun restored => ?_⟩
  have same := restored
    (ByteMem.ofList [0x7a, 0x22, 59, 7, 8, 1, 2]) (fun _ => 0) (by decide)
  revert same
  decide

def sampleContext : AddrContext where
  used := 1
  number := 1
  prefixBytes := #v[0xaa, 0xaa, 0, 0, 0, 0, 0, 0]

/-- A UDP packet from aaaa::1 to fe80::ff:fe00:102 without a payload. -/
def udpPacket : ByteMem :=
  ByteMem.ofList
    [0x60, 0, 0, 0, 0, 8, 17, 64,
      0xaa, 0xaa, 0, 0, 0, 0, 0, 0, 0, 0, 0, 0, 0, 0, 0, 1,
      0xfe, 0x80, 0, 0, 0, 0, 0, 0, 0, 0, 0, 0xff, 0xfe, 0, 1, 2,
      0xf0, 0xb1, 0xf0, 0xb2, 0, 8, 0x12, 0x34]

theorem udpPacket_restored :
    HeaderRestored [sampleContext] (Vector.replicate 8 0)
      (Vector.replicate 8 0) udpPacket 48 := by
  have consistent : ConsistentPacket udpPacket 48 :=
    ⟨by decide, by decide, by decide, by decide⟩
  have recovered : AddressesRecovered [sampleContext] udpPacket :=
    ⟨.inr ⟨sampleContext, rfl, by decide⟩, .inr trivial⟩
  exact (headerRestored_iff consistent).mpr recovered

end Contiki.Sicslowpan
