import Contiki.Sicslowpan.Coverage

/-!
# Residue in the packet buffers

Two nodes that differ only in what earlier packets left in their buffers
receive the same frames.  Where every header is complete and every fragment
is proper, they hand over the same packets.
-/

namespace Contiki.Sicslowpan

open Contiki.Lib

variable {node : Node} {state : State} {received : Received}

/-! ## Complete headers -/

/-- The inline bytes before the addresses: traffic class and flow label, next
header, hop limit. -/
def fieldsLen (iphc0 : UInt8) : Nat :=
  (if iphc0 &&& Iphc.flC = 0 then
      if iphc0 &&& Iphc.tcC = 0 then 4 else 3
    else if iphc0 &&& Iphc.tcC = 0 then 1 else 0) +
  (if iphc0 &&& Iphc.nhC = 0 then 1 else 0) +
  (if iphc0 &&& 0x03 = Iphc.ttlI then 1 else 0)

/-- The inline bytes of an address in a mode of `unc_llconf`, `unc_ctxconf`
or `unc_mxconf`. -/
def addrLen (lengths : List Nat) (mode : UInt8) : Nat :=
  lengths.getD mode.toNat 0

def samMode (iphc1 : UInt8) : UInt8 :=
  (iphc1 &&& Iphc.sam11) >>> Iphc.samBit &&& 0x03

def damMode (iphc1 : UInt8) : UInt8 :=
  (iphc1 &&& Iphc.dam11) >>> Iphc.damBit &&& 0x03

def sourceLen (iphc1 : UInt8) : Nat :=
  if iphc1 &&& Iphc.sac ≠ 0 then addrLen [0, 8, 2, 0] (samMode iphc1)
  else addrLen [16, 8, 2, 0] (samMode iphc1)

def destinationLen (iphc1 : UInt8) : Nat :=
  if iphc1 &&& Iphc.m ≠ 0 then addrLen [16, 6, 4, 1] (damMode iphc1)
  else if iphc1 &&& Iphc.dac ≠ 0 then
    addrLen [0, 8, 2, 0] (damMode iphc1)
  else addrLen [16, 8, 2, 0] (damMode iphc1)

/-- The length of a compressed UDP header with an inline checksum. -/
def udpLen (nhc : UInt8) : Nat :=
  [5, 4, 4, 2].getD (nhc &&& 0x03).toNat 0 + 2

/-- Where the next header starts in a frame with a compressed header at
`base`. -/
def nextHeaderAt (frame : ByteMem) (base : Nat) : Nat :=
  base + 2 + (if frame (base + 1) &&& Iphc.cid ≠ 0 then 1 else 0) +
    fieldsLen (frame base) + sourceLen (frame (base + 1)) +
    destinationLen (frame (base + 1))

/-- The context of the source address is there if it is used. -/
def SourceKnown (contexts : List AddrContext) (frame : ByteMem)
    (base : Nat) : Prop :=
  frame (base + 1) &&& Iphc.sac ≠ 0 → samMode (frame (base + 1)) ≠ 0 →
    (addrContextLookupByNumber contexts
      (contextNumbers (frame (base + 1)) (frame.shift base) >>>
        4)).isSome = true

/-- The destination address is not compressed with a multicast context, and
its unicast context is there if it is used. -/
def DestinationKnown (contexts : List AddrContext) (frame : ByteMem)
    (base : Nat) : Prop :=
  frame (base + 1) &&& Iphc.dac ≠ 0 →
    frame (base + 1) &&& Iphc.m = 0 ∧
      (addrContextLookupByNumber contexts
        (contextNumbers (frame (base + 1)) (frame.shift base) &&&
          0x0f)).isSome = true

/-- A compressed next header is a UDP header. -/
def NextHeaderKnown (frame : ByteMem) (base : Nat) : Prop :=
  frame base &&& Iphc.nhC ≠ 0 →
    frame (nextHeaderAt frame base) &&& NhcUdp.mask = NhcUdp.id

/-- The compressed header at `base` says all about the headers of its packet,
and is inside the frame. -/
structure CompleteIphc (contexts : List AddrContext) (frame : ByteMem)
    (base datalen : Nat) : Prop where
  source : SourceKnown contexts frame base
  destination : DestinationKnown contexts frame base
  nextHeader : NextHeaderKnown frame base
  checksum : frame base &&& Iphc.nhC ≠ 0 →
    frame (nextHeaderAt frame base) &&& NhcUdp.checksumC = 0
  inside : nextHeaderAt frame base +
      (if frame base &&& Iphc.nhC ≠ 0 then
        udpLen (frame (nextHeaderAt frame base))
      else 0) ≤ datalen

/-! ## The stages read the inline bytes only -/

private theorem mode_mem (value : UInt8) :
    value &&& 0x03 ∈ ([0, 1, 2, 3] : List UInt8) := by
  have masked : (value &&& 0x03).toNat = value.toNat % 4 := by
    rw [UInt8.toNat_and]
    exact low_mask_and _ 2
  have all : ∀ mode < 4, UInt8.ofNat mode ∈ ([0, 1, 2, 3] : List UInt8) := by
    decide
  rw [byte_eq_ofNat masked]
  exact all _ (Nat.mod_lt _ (by decide))

/-- What a stage decodes has the length `size`, uses `len` inline bytes and
depends on no others. -/
def Reads (size len : Nat) (decode : ByteMem → Decoded) : Prop :=
  ∀ inline, (decode inline).bytes.length = size ∧
    (decode inline).consumed = len ∧
    ∀ other : ByteMem, (∀ index < len, other index = inline index) →
      decode other = decode inline

variable {run : Run} (iphc0 : UInt8)

theorem uncompressTrafficFlow_reads :
    Reads 4
      (if iphc0 &&& Iphc.flC = 0 then
        if iphc0 &&& Iphc.tcC = 0 then 4 else 3
      else if iphc0 &&& Iphc.tcC = 0 then 1 else 0)
      (uncompressTrafficFlow iphc0) := by
  intro inline
  unfold uncompressTrafficFlow
  by_cases flow : iphc0 &&& Iphc.flC = 0
  · by_cases class' : iphc0 &&& Iphc.tcC = 0
    · simp only [if_pos flow, if_pos class']
      refine ⟨rfl, trivial, fun other agree => ?_⟩
      rw [agree 0 (by omega), agree 1 (by omega), agree 2 (by omega),
        agree 3 (by omega)]
    · simp only [if_pos flow, if_neg class']
      refine ⟨rfl, trivial, fun other agree => ?_⟩
      rw [agree 0 (by omega), agree 1 (by omega), agree 2 (by omega)]
  · by_cases class' : iphc0 &&& Iphc.tcC = 0
    · simp only [if_neg flow, if_pos class']
      refine ⟨rfl, trivial, fun other agree => ?_⟩
      rw [agree 0 (by omega)]
    · simp only [if_neg flow, if_neg class']
      exact ⟨rfl, trivial, fun _ _ => trivial⟩

theorem uncompressNextHeader_reads :
    Reads (if iphc0 &&& Iphc.nhC = 0 then 1 else 0)
      (if iphc0 &&& Iphc.nhC = 0 then 1 else 0)
      (uncompressNextHeader iphc0) := by
  intro inline
  unfold uncompressNextHeader
  by_cases nextHeader : iphc0 &&& Iphc.nhC = 0
  · simp only [if_pos nextHeader]
    refine ⟨rfl, trivial, fun other agree => ?_⟩
    rw [agree 0 (by omega)]
  · simp only [if_neg nextHeader]
    exact ⟨rfl, trivial, fun _ _ => trivial⟩

theorem uncompressHopLimit_reads :
    Reads 1 (if iphc0 &&& 0x03 = Iphc.ttlI then 1 else 0)
      (uncompressHopLimit iphc0) := by
  intro inline
  unfold uncompressHopLimit
  by_cases carried : iphc0 &&& 0x03 = Iphc.ttlI
  · simp only [if_pos carried, if_neg (not_not.mpr carried)]
    refine ⟨rfl, trivial, fun other agree => ?_⟩
    rw [agree 0 (by omega)]
  · simp only [if_neg carried, if_pos carried]
    exact ⟨rfl, trivial, fun _ _ => trivial⟩

/-- A mode of `uncompress_addr` with fitting prefix and inline bytes. -/
theorem uncompressAddr_reads (prefixBytes : List UInt8) (conf : UInt8)
    {prefcount postcount : Nat} (lladdr : LinkAddr)
    (pref : (if (conf >>> 4).toNat = 15 then 16
      else (conf >>> 4).toNat) = prefcount)
    (post : (if (conf &&& 0x0f).toNat = 15 then 16
      else (conf &&& 0x0f).toNat) = postcount)
    (long : prefcount ≤ prefixBytes.length)
    (fits : prefcount + postcount ≤ 16) :
    Reads 16 postcount (uncompressAddr prefixBytes conf lladdr) := by
  intro inline
  unfold uncompressAddr
  simp only [pref, post]
  by_cases carried : postcount > 0
  · simp only [if_pos carried]
    refine ⟨?_, trivial, fun other agree => ?_⟩
    · split <;> simp <;> omega
    · have same : other.read 0 postcount = inline.read 0 postcount :=
        ByteMem.read_congr fun index _ bound => agree index (by omega)
      rw [same]
  · simp only [if_neg carried]
    refine ⟨?_, by omega, fun _ _ => trivial⟩
    split
    · simp [setAddrIid]
      omega
    · simp
      omega

private theorem linkLocal_reads (lladdr : LinkAddr) :
    ∀ mode ∈ ([0, 1, 2, 3] : List UInt8),
      Reads 16 (addrLen [16, 8, 2, 0] mode)
        (uncompressAddr llprefix (uncLlconf.getD mode.toNat 0)
          lladdr) := by
  intro mode listed
  simp only [List.mem_cons, List.not_mem_nil, or_false] at listed
  rcases listed with rfl | rfl | rfl | rfl <;>
    exact uncompressAddr_reads _ _ lladdr rfl rfl (by decide) (by decide)

private theorem context_reads (context : AddrContext)
    (lladdr : LinkAddr) :
    ∀ mode ∈ ([0, 1, 2, 3] : List UInt8),
      Reads 16 (addrLen [0, 8, 2, 0] mode)
        (uncompressAddr context.prefixBytes.toList
          (uncCtxconf.getD mode.toNat 0) lladdr) := by
  intro mode listed
  simp only [List.mem_cons, List.not_mem_nil, or_false] at listed
  rcases listed with rfl | rfl | rfl | rfl <;>
    exact uncompressAddr_reads _ _ lladdr rfl rfl
      (by rw [Vector.length_toList]; decide) (by decide)

variable {contexts : List AddrContext}

theorem uncompressSource_reads (sender : LinkAddr) {iphc1 numbers : UInt8}
    (known : iphc1 &&& Iphc.sac ≠ 0 → samMode iphc1 ≠ 0 →
      (addrContextLookupByNumber contexts (numbers >>> 4)).isSome =
        true) :
    ∃ decode, Reads 16 (sourceLen iphc1) decode ∧ ∀ inline,
      uncompressSource contexts sender iphc1 numbers inline =
        some (decode inline) := by
  have listed : samMode iphc1 ∈ ([0, 1, 2, 3] : List UInt8) := mode_mem _
  unfold uncompressSource sourceLen
  simp only [← samMode.eq_1]
  by_cases sac : iphc1 &&& Iphc.sac ≠ 0
  · simp only [if_pos sac]
    by_cases mode : samMode iphc1 ≠ 0
    · obtain ⟨context, found⟩ := Option.isSome_iff_exists.mp
        (known sac mode)
      simp only [if_pos mode, found]
      exact ⟨_, context_reads context sender _ listed, fun _ => rfl⟩
    · simp only [not_not.mp mode]
      exact ⟨_, uncompressAddr_reads _ _ sender rfl rfl (by decide)
        (by decide), fun _ => rfl⟩
  · simp only [if_neg sac]
    exact ⟨_, linkLocal_reads sender _ listed, fun _ => rfl⟩

private theorem multicast_reads (receiver : LinkAddr) :
    ∀ mode ∈ ([0, 1, 2, 3] : List UInt8),
      Reads 16 (addrLen [16, 6, 4, 1] mode)
        (uncompressMulticast receiver mode) := by
  intro mode listed
  have prefixed : ∀ {conf : UInt8} {postcount : Nat},
      (∀ prefixByte, Reads 16 postcount
        (uncompressAddr [0xff, prefixByte] conf receiver)) →
      Reads 16 (postcount + 1) fun inline =>
        let rest := uncompressAddr [0xff, inline 0] conf receiver
          (inline.shift 1)
        { rest with consumed := rest.consumed + 1 } := by
    intro conf postcount reads inline
    obtain ⟨length, consumed, same⟩ :=
      reads (inline 0) (inline.shift 1)
    refine ⟨length, congrArg (· + 1) consumed, fun other agree => ?_⟩
    dsimp only
    rw [agree 0 (by omega), same (other.shift 1) fun index bound => by
      rw [ByteMem.shift_apply, ByteMem.shift_apply]
      exact agree (1 + index) (by omega)]
  have full := uncompressAddr_reads [0xff, 0x02] 0x0f receiver rfl rfl
    (by decide) (by decide)
  have five := prefixed fun prefixByte => uncompressAddr_reads
    [0xff, prefixByte] 0x25 receiver rfl rfl (Nat.le_refl 2) (by decide)
  have three := prefixed fun prefixByte => uncompressAddr_reads
    [0xff, prefixByte] 0x23 receiver rfl rfl (Nat.le_refl 2) (by decide)
  have one := uncompressAddr_reads [0xff, 0x02] 0x21 receiver rfl rfl
    (by decide) (by decide)
  simp only [List.mem_cons, List.not_mem_nil, or_false] at listed
  rcases listed with rfl | rfl | rfl | rfl
  · exact full
  · exact five
  · exact three
  · exact one

theorem uncompressDestination_reads
    (receiver : LinkAddr) {iphc1 numbers : UInt8}
    (known : iphc1 &&& Iphc.dac ≠ 0 → iphc1 &&& Iphc.m = 0 ∧
      (addrContextLookupByNumber contexts (numbers &&& 0x0f)).isSome =
        true) :
    ∃ decode, Reads 16 (destinationLen iphc1) decode ∧ ∀ inline,
      uncompressDestination contexts receiver iphc1 numbers inline =
        some (decode inline) := by
  have listed : damMode iphc1 ∈ ([0, 1, 2, 3] : List UInt8) := mode_mem _
  unfold uncompressDestination destinationLen
  simp only [← damMode.eq_1]
  by_cases dac : iphc1 &&& Iphc.dac ≠ 0
  · obtain ⟨unicast, isSome⟩ := known dac
    obtain ⟨context, found⟩ := Option.isSome_iff_exists.mp isSome
    simp only [if_neg (not_not.mpr unicast), if_pos dac, found]
    exact ⟨_, context_reads context receiver _ listed, fun _ => rfl⟩
  · by_cases mcast : iphc1 &&& Iphc.m ≠ 0
    · simp only [if_pos mcast, if_neg dac]
      refine ⟨_, multicast_reads receiver _ listed, fun inline => ?_⟩
      unfold uncompressMulticast
      split <;> rfl
    · simp only [if_neg mcast, if_neg dac]
      exact ⟨_, linkLocal_reads receiver _ listed, fun _ => rfl⟩

private theorem nhc_mem {nhc : UInt8}
    (udp : nhc &&& NhcUdp.mask = NhcUdp.id)
    (checksum : nhc &&& NhcUdp.checksumC = 0) :
    nhc ∈ ([0xF0, 0xF1, 0xF2, 0xF3] : List UInt8) := by
  have maskValue := congrArg UInt8.toNat udp
  have checksumValue := congrArg UInt8.toNat checksum
  rw [UInt8.toNat_and] at maskValue checksumValue
  have value := Nat.and_or_distrib_left nhc.toNat 0xF8 0x04
  have masked : nhc.toNat &&& 0xF8 = 0xF0 := maskValue
  have zero : nhc.toNat &&& 0x04 = 0 := checksumValue
  rw [masked, zero, Nat.and_comm] at value
  have high : nhc.toNat / 2 ^ 2 * 2 ^ 2 = 240 :=
    (high_mask_and 2 nhc.toNat_lt (by decide)).symm.trans value
  have all : ∀ low < 4, UInt8.ofNat (240 + low) ∈
      ([0xF0, 0xF1, 0xF2, 0xF3] : List UInt8) := by
    decide
  have shape : nhc.toNat = 240 + nhc.toNat % 4 := by omega
  rw [byte_eq_ofNat shape]
  exact all _ (Nat.mod_lt _ (by decide))

/-- The port stage, by the first byte of the compressed UDP header. -/
def portsStage (nhc : UInt8) (inline : ByteMem) : Decoded :=
  if nhc &&& NhcUdp.csP11 = NhcUdp.csP00 then
    { bytes := inline.read 1 4, consumed := 5 }
  else if nhc &&& NhcUdp.csP11 = NhcUdp.csP01 then
    { bytes := inline.read 1 2 ++
        set16 (udp8BitPortMin + (inline 3).toNat)
      consumed := 4 }
  else if nhc &&& NhcUdp.csP11 = NhcUdp.csP10 then
    { bytes := set16 (udp8BitPortMin + (inline 1).toNat) ++
        inline.read 2 2
      consumed := 4 }
  else
    { bytes := set16 (udp4BitPortMin + (inline 1 >>> 4).toNat) ++
        set16 (udp4BitPortMin + (inline 1 &&& 0x0F).toNat)
      consumed := 2 }

theorem portsStage_reads : ∀ nhc ∈ ([0xF0, 0xF1, 0xF2, 0xF3] : List UInt8),
    Reads 4 (udpLen nhc - 2) (portsStage nhc) := by
  intro nhc listed inline
  have same : ∀ {other : ByteMem} {offset count : Nat},
      (∀ index < udpLen nhc - 2, other index = inline index) →
      offset + count ≤ udpLen nhc - 2 →
      other.read offset count = inline.read offset count :=
    fun agree fits => ByteMem.read_congr fun index _ bound =>
      agree index (by omega)
  simp only [List.mem_cons, List.not_mem_nil, or_false] at listed
  unfold portsStage
  rcases listed with rfl | rfl | rfl | rfl
  · rw [if_pos (by decide)]
    refine ⟨by simp, rfl, fun other agree => ?_⟩
    rw [if_pos (by decide), same agree (by decide)]
  · rw [if_neg (by decide), if_pos (by decide)]
    refine ⟨by simp [set16], rfl, fun other agree => ?_⟩
    rw [if_neg (by decide), if_pos (by decide), same agree (by decide),
      agree 3 (by decide)]
  · rw [if_neg (by decide), if_neg (by decide), if_pos (by decide)]
    refine ⟨by simp [set16], rfl, fun other agree => ?_⟩
    rw [if_neg (by decide), if_neg (by decide), if_pos (by decide),
      same agree (by decide), agree 1 (by decide)]
  · rw [if_neg (by decide), if_neg (by decide), if_neg (by decide)]
    refine ⟨by simp [set16], rfl, fun other agree => ?_⟩
    rw [if_neg (by decide), if_neg (by decide), if_neg (by decide),
      agree 1 (by decide)]

theorem uncompressUdp_complete (inline : ByteMem)
    (udp : inline 0 &&& NhcUdp.mask = NhcUdp.id)
    (checksum : inline 0 &&& NhcUdp.checksumC = 0) :
    ∃ ports chksum : List UInt8, ports.length = 4 ∧ chksum.length = 2 ∧
      ∀ other : ByteMem,
        (∀ index < udpLen (inline 0), other index = inline index) →
        ∀ buf, uncompressUdp other buf =
          (((buf.write 6 [uipProtoUdp]).write 40 ports).write 46 chksum,
            udpLen (inline 0), uipUdphLen) := by
  obtain ⟨length, consumed, same⟩ := portsStage_reads (inline 0)
    (nhc_mem udp checksum) inline
  refine ⟨_, inline.read (udpLen (inline 0) - 2) 2, length,
    ByteMem.length_read _ _ _, fun other agree buf => ?_⟩
  have long : udpLen (inline 0) - 2 + 2 = udpLen (inline 0) := rfl
  have first : other 0 = inline 0 := agree 0 (Nat.succ_pos _)
  have ports : uncompressPorts other = portsStage (inline 0) inline := by
    rw [← same other fun index bound => agree index (by omega), ← first]
    rfl
  have inlined : other.read (udpLen (inline 0) - 2) 2 =
      inline.read (udpLen (inline 0) - 2) 2 :=
    ByteMem.read_congr fun index _ bound => agree index (by omega)
  unfold uncompressUdp
  simp only [first, if_pos udp, if_pos checksum, ports, consumed, inlined,
    long]

/-! ## Complete headers leave no residue -/

/-- Two frames agree at `len` bytes from `start` on. -/
theorem shift_agree {frame other : ByteMem} {datalen start len : Nat}
    (agree : ∀ index < datalen, other index = frame index)
    (inside : start + len ≤ datalen) :
    ∀ index < len, other.shift start index = frame.shift start index :=
  fun index bound => agree (start + index) (by omega)

theorem uncompressFields_complete (frame : ByteMem) (ptr : Nat) :
    ∃ flow next hop : List UInt8, flow.length = 4 ∧
      next.length = (if iphc0 &&& Iphc.nhC = 0 then 1 else 0) ∧
      hop.length = 1 ∧
      ∀ (other : ByteMem) (datalen : Nat),
        (∀ index < datalen, other index = frame index) →
        ptr + fieldsLen iphc0 ≤ datalen → ∀ buf,
        uncompressFields iphc0 other ptr buf =
          { buf := ((buf.write 0 flow).write 6 next).write 7 hop
            ptr := ptr + fieldsLen iphc0 } := by
  obtain ⟨flowLength, flowConsumed, flowSame⟩ :=
    uncompressTrafficFlow_reads iphc0 (frame.shift ptr)
  obtain ⟨nextLength, nextConsumed, nextSame⟩ :=
    uncompressNextHeader_reads iphc0 (frame.shift (ptr +
      (uncompressTrafficFlow iphc0 (frame.shift ptr)).consumed))
  obtain ⟨hopLength, hopConsumed, hopSame⟩ :=
    uncompressHopLimit_reads iphc0 (frame.shift (ptr +
      (uncompressTrafficFlow iphc0 (frame.shift ptr)).consumed +
      (uncompressNextHeader iphc0 (frame.shift (ptr +
        (uncompressTrafficFlow iphc0
          (frame.shift ptr)).consumed))).consumed))
  refine ⟨_, _, _, flowLength, nextLength, hopLength,
    fun other datalen agree inside buf => ?_⟩
  rw [fieldsLen] at inside
  unfold uncompressFields
  dsimp only
  rw [flowSame _ (shift_agree agree (by omega)),
    nextSame _ (shift_agree agree (by omega)),
    hopSame _ (shift_agree agree (by omega)), hopConsumed, nextConsumed,
    flowConsumed]
  simp only [fieldsLen, Nat.add_assoc]

theorem uncompressHdrHc06_stages
    (sender receiver : LinkAddr) {frame : ByteMem} {base datalen : Nat}
    (complete : CompleteIphc contexts frame base datalen) (ipLen : Nat) :
    ∃ flow next hop source destination : List UInt8, flow.length = 4 ∧
      next.length = (if frame base &&& Iphc.nhC = 0 then 1 else 0) ∧
      hop.length = 1 ∧ source.length = 16 ∧ destination.length = 16 ∧
      ∀ other : ByteMem,
        (∀ index < datalen, other index = frame index) → ∀ buf,
        uncompressHdrHc06 contexts sender receiver other datalen base
            ipLen buf =
          uncompressTail (frame base) other datalen
            (nextHeaderAt frame base) ipLen
            (((((buf.write 0 flow).write 6 next).write 7 hop).write 8
              source).write 24 destination) := by
  have inside := complete.inside
  simp only [nextHeaderAt] at inside
  obtain ⟨flow, next, hop, flowLength, nextLength, hopLength, fields⟩ :=
    uncompressFields_complete (frame base) frame
      (base + 2 + if frame (base + 1) &&& Iphc.cid ≠ 0 then 1 else 0)
  obtain ⟨decodeSource, sourceReads, source⟩ :=
    uncompressSource_reads sender complete.source
  obtain ⟨decodeDestination, destinationReads, destination⟩ :=
    uncompressDestination_reads receiver complete.destination
  have sourceSpec := sourceReads (frame.shift (base + 2 +
    (if frame (base + 1) &&& Iphc.cid ≠ 0 then 1 else 0) +
    fieldsLen (frame base)))
  have destinationSpec := destinationReads (frame.shift (base + 2 +
    (if frame (base + 1) &&& Iphc.cid ≠ 0 then 1 else 0) +
    fieldsLen (frame base) + sourceLen (frame (base + 1))))
  refine ⟨flow, next, hop, _, _, flowLength, nextLength, hopLength,
    sourceSpec.1, destinationSpec.1, fun other agree buf => ?_⟩
  have first : other.shift base 0 = frame base :=
    agree base (by omega)
  have second : other.shift base 1 = frame (base + 1) :=
    agree (base + 1) (by omega)
  have numbers : contextNumbers (frame (base + 1)) (other.shift base) =
      contextNumbers (frame (base + 1)) (frame.shift base) := by
    unfold contextNumbers
    split
    · next cid =>
        rw [if_pos cid] at inside
        exact agree (base + 2) (by omega)
    · rfl
  unfold uncompressHdrHc06
  simp only [first, second, numbers,
    fields other datalen agree (by omega), source, destination]
  rw [sourceSpec.2.2 _ (shift_agree agree (by omega)), sourceSpec.2.1,
    destinationSpec.2.2 _ (shift_agree agree (by omega)),
    destinationSpec.2.1]
  rfl

theorem length_set16 (value : Nat) : (set16 value).length = 2 := rfl

theorem uncompressLengths_fills {store : ByteMem → ByteMem}
    {positions : Nat → Prop} (fills : ByteMem.Fills store positions)
    (proto : positions 6)
    (datalen packetbufHdrLen uncompHdrLen ipLen : Nat) :
    ByteMem.Fills
      (fun buf => uncompressLengths datalen packetbufHdrLen uncompHdrLen
        ipLen (store buf))
      fun position => positions position ∨
        (4 ≤ position ∧ position < 6) ∨
        (store (fun _ => 0) 6 = uipProtoUdp ∧
          44 ≤ position ∧ position < 46) := by
  unfold uncompressLengths
  generalize (if ipLen = 0 then (datalen : Int) - packetbufHdrLen +
    uncompHdrLen - uipIphLen else (ipLen : Int) - uipIphLen) = len
  have written := fills.write 4 (set16 (len % 65536).toNat)
  have same : ∀ buf, (store buf).write 4 (set16 (len % 65536).toNat) 6 =
      store (fun _ => 0) 6 := fun buf =>
    (ByteMem.write_outside (by rw [length_set16]; omega)).trans
      (fills _ _ _ (.inl proto))
  have inlined : ∀ buf,
      ((store buf).write 4 (set16 (len % 65536).toNat)).read 4 2 =
        set16 (len % 65536).toNat :=
    fun buf => ByteMem.read_write_of_length rfl
  simp only [same, inlined]
  by_cases udp : store (fun _ => 0) 6 = uipProtoUdp
  · simp only [if_pos udp]
    refine (written.write 44 _).mono fun position listed => ?_
    simpa [length_set16, udp, or_assoc] using listed
  · simp only [if_neg udp]
    refine written.mono fun position listed => ?_
    simpa [length_set16, udp] using listed

theorem uncompressHdrHc06_complete
    (sender receiver : LinkAddr) {frame : ByteMem} {base datalen : Nat}
    (complete : CompleteIphc contexts frame base datalen) (ipLen : Nat) :
    ∃ (store : ByteMem → ByteMem) (hdrLen uncompHdrLen : Nat),
      ByteMem.Fills store (fun position => position < uncompHdrLen) ∧
      ∀ other : ByteMem,
        (∀ index < datalen, other index = frame index) → ∀ buf,
        uncompressHdrHc06 contexts sender receiver other datalen base
            ipLen buf =
          { buf := store buf
            packetbufHdrLen := hdrLen
            uncompHdrLen := uncompHdrLen } := by
  obtain ⟨flow, next, hop, source, destination, flowLength, nextLength,
    hopLength, sourceLength, destinationLength, stages⟩ :=
    uncompressHdrHc06_stages sender receiver complete ipLen
  have inside := complete.inside
  have addresses := ((((ByteMem.fills_id.write 0 flow).write 6 next).write
    7 hop).write 8 source).write 24 destination
  rw [flowLength, nextLength, hopLength, sourceLength, destinationLength]
    at addresses
  by_cases nhC : frame base &&& Iphc.nhC ≠ 0
  · rw [if_pos nhC] at inside
    obtain ⟨ports, chksum, portsLength, chksumLength, udp⟩ :=
      uncompressUdp_complete (frame.shift (nextHeaderAt frame base))
        (complete.nextHeader nhC) (complete.checksum nhC)
    have headers := ((addresses.write 6 [uipProtoUdp]).write 40
      ports).write 46 chksum
    rw [portsLength, chksumLength] at headers
    have fills := uncompressLengths_fills headers
      (.inl (.inl (.inr ⟨Nat.le_refl 6, Nat.lt_succ_self 6⟩))) datalen
      (nextHeaderAt frame base +
        udpLen (frame (nextHeaderAt frame base)))
      (uipIphLen + uipUdphLen) ipLen
    refine ⟨_, nextHeaderAt frame base +
      udpLen (frame (nextHeaderAt frame base)), uipIphLen + uipUdphLen,
      fills.mono fun position below => ?_, fun other agree buf => ?_⟩
    · have proto : ∀ memory : ByteMem, (((memory.write 6
          [uipProtoUdp]).write 40 ports).write 46 chksum) 6 =
          uipProtoUdp := by
        intro memory
        rw [ByteMem.write_of_lt (by decide),
          ByteMem.write_of_lt (by decide)]
        exact ByteMem.write_inside 0
          (show 0 < [uipProtoUdp].length by decide)
      simp only [proto, true_and, List.length_singleton, uipIphLen,
        uipUdphLen] at below ⊢
      omega
    · rw [stages other agree, uncompressTail]
      simp only [if_pos nhC, udp _ (shift_agree agree inside)]
      rfl
  · rw [if_neg nhC] at inside
    rw [if_pos (not_not.mp nhC)] at addresses
    have fills := uncompressLengths_fills addresses
      (.inl (.inl (.inl (.inr ⟨Nat.le_refl 6, Nat.lt_succ_self 6⟩))))
      datalen (nextHeaderAt frame base + 0) (uipIphLen + 0) ipLen
    refine ⟨_, nextHeaderAt frame base + 0, uipIphLen + 0,
      fills.mono fun position below => ?_, fun other agree buf => ?_⟩
    · simp only [uipIphLen] at below
      omega
    · rw [stages other agree, uncompressTail]
      simp only [if_neg nhC]

/-! ## Two nodes that receive the same frames -/

/-- Two frames with the same bytes that arrive in the same way.  Behind the
frame the packet buffers may differ. -/
structure SameFrame (received other : Received) : Prop where
  datalen : other.datalen = received.datalen
  sender : other.sender = received.sender
  receiver : other.receiver = received.receiver
  clockTime : other.clockTime = received.clockTime
  bytes : ∀ index < received.datalen,
    other.packetbuf index = received.packetbuf index

/-- The fragmentation header is inside the frame. -/
def Framed (received : Received) : Prop :=
  0 < received.datalen ∧
    (fragHeader received.packetbuf).packetbufHdrLen ≤ received.datalen

/-- The headers in a whole packet or first fragment are complete, or the
dispatch is unknown. -/
def Decodes (node : Node) (received : Received) : Prop :=
  let base := (fragHeader received.packetbuf).packetbufHdrLen
  base ≠ fragnHdrLen →
    base < received.datalen ∧
      (received.packetbuf base &&& 0xe0 = dispatchIphc →
        CompleteIphc node.contexts received.packetbuf base
          received.datalen) ∧
      (received.packetbuf base = dispatchIpv6 →
        base + ipv6HdrLen + uipIphLen ≤ received.datalen)

def State.withBuf (state : State) (buf : ByteMem) : State :=
  { state with sicslowpanBuf := buf }

private theorem dispatch_of_first (packetbuf : ByteMem) :
    (get16 packetbuf 0 &&& 0xf800) >>> 8 =
      (packetbuf 0).toNat / 8 * 8 := by
  have high := (packetbuf 0).toNat_lt
  have low := (packetbuf 1).toNat_lt
  have masked : get16 packetbuf 0 &&& 0xf800 =
      get16 packetbuf 0 / 2 ^ 11 * 2 ^ 11 := by
    rw [Nat.and_comm]
    exact high_mask_and 11 (show _ < 2 ^ 16 from get16_lt packetbuf 0)
      (by decide)
  rw [masked, get16_eq, Nat.shiftRight_eq_div_pow, Nat.zero_add]
  omega

variable {other : Received}

theorem SameFrame.fragHeader_eq
    (same : SameFrame received other) (framed : Framed received) :
    fragHeader other.packetbuf = fragHeader received.packetbuf := by
  obtain ⟨positive, inside⟩ := framed
  have first := same.bytes 0 positive
  have dispatch : (get16 other.packetbuf 0 &&& 0xf800) >>> 8 =
      (get16 received.packetbuf 0 &&& 0xf800) >>> 8 := by
    rw [dispatch_of_first, dispatch_of_first, first]
  have words : ∀ index, index + 2 ≤ received.datalen →
      get16 other.packetbuf index = get16 received.packetbuf index := by
    intro index bound
    unfold get16
    rw [same.bytes index (by omega), same.bytes (index + 1) (by omega)]
  unfold fragHeader at inside ⊢
  dsimp only at inside ⊢
  rw [dispatch]
  split
  · next first =>
      rw [if_pos first] at inside
      dsimp only [frag1HdrLen] at inside
      rw [words 0 (by omega), words 2 (by omega)]
  · next notFirst =>
      rw [if_neg notFirst] at inside
      split
      · next further =>
          rw [if_pos further] at inside
          dsimp only [fragnHdrLen] at inside
          rw [words 0 (by omega), words 2 (by omega),
            same.bytes 4 (by omega)]
      · rfl

theorem SameFrame.cancelExpired_eq
    (same : SameFrame received other) (state : State) (buf : ByteMem) :
    cancelExpired other (state.withBuf buf) =
      (cancelExpired received state).withBuf buf := by
  unfold cancelExpired
  rw [same.clockTime, apply_ite (State.withBuf · buf)]
  rfl

theorem SameFrame.lastFragment_eq
    (same : SameFrame received other) (header : FragHeader)
    (state : State) (buf : ByteMem) :
    lastFragment header other (state.withBuf buf) =
      lastFragment header received state := by
  unfold lastFragment
  rw [same.datalen]
  rfl

theorem SameFrame.prioritizeNewPackets_eq
    (same : SameFrame received other) (header : FragHeader)
    (state : State) (buf : ByteMem) :
    prioritizeNewPackets header other (state.withBuf buf) =
      (prioritizeNewPackets header received state).withBuf buf := by
  unfold prioritizeNewPackets
  rw [same.sender, apply_ite (State.withBuf · buf),
    apply_ite (State.withBuf · buf)]
  rfl

theorem SameFrame.accept_eq
    (same : SameFrame received other) (header : FragHeader)
    (state : State) (buf : ByteMem) :
    accept node header other (state.withBuf buf) =
      (accept node header received state).map (State.withBuf · buf) := by
  unfold accept
  rw [same.sender, same.clockTime]
  simp only [apply_ite (Option.map (State.withBuf · buf)),
    Option.map_some, Option.map_none]
  rfl

theorem SameFrame.ready_eq
    (same : SameFrame received other) (framed : Framed received)
    (state : State) (buf : ByteMem) :
    ready other (state.withBuf buf) =
      (ready received state).withBuf buf := by
  unfold ready
  rw [same.fragHeader_eq framed, same.cancelExpired_eq,
    same.prioritizeNewPackets_eq]

theorem SameFrame.uncompressHeaders_eq
    (same : SameFrame received other) (decodes : Decodes node received) :
    (∀ buf, uncompressHeaders node (fragHeader received.packetbuf)
        received buf = none ∧
      uncompressHeaders node (fragHeader received.packetbuf) other buf =
        none) ∨
    ∃ (store : ByteMem → ByteMem) (hdrLen uncompHdrLen : Nat),
      ByteMem.Fills store (fun position => position < uncompHdrLen) ∧
      (∀ buf, uncompressHeaders node (fragHeader received.packetbuf)
          received buf =
        some
          { buf := store buf
            packetbufHdrLen := hdrLen
            uncompHdrLen := uncompHdrLen }) ∧
      ∀ buf, uncompressHeaders node (fragHeader received.packetbuf) other
          buf =
        some
          { buf := store buf
            packetbufHdrLen := hdrLen
            uncompHdrLen := uncompHdrLen } := by
  unfold Decodes at decodes
  unfold uncompressHeaders
  generalize fragHeader received.packetbuf = header at decodes ⊢
  dsimp only at decodes ⊢
  by_cases further : header.packetbufHdrLen = fragnHdrLen
  · simp only [if_pos further]
    exact .inr ⟨fun buf => buf, header.packetbufHdrLen, 0,
      ByteMem.fills_id.mono fun _ below => absurd below (Nat.not_lt_zero _),
      fun _ => rfl, fun _ => rfl⟩
  obtain ⟨inside, iphc, ipv6⟩ := decodes further
  simp only [if_neg further, same.bytes _ inside]
  by_cases compressed :
      received.packetbuf header.packetbufHdrLen &&& 0xe0 = dispatchIphc
  · simp only [if_pos compressed, same.sender, same.receiver,
      same.datalen]
    obtain ⟨store, hdrLen, uncompHdrLen, fills, eq⟩ :=
      uncompressHdrHc06_complete received.sender received.receiver
        (iphc compressed) header.fragSize
    exact .inr ⟨store, hdrLen, uncompHdrLen, fills,
      fun buf => congrArg some (eq _ (fun _ _ => rfl) buf),
      fun buf => congrArg some (eq _ same.bytes buf)⟩
  simp only [if_neg compressed]
  by_cases plain : received.packetbuf header.packetbufHdrLen = dispatchIpv6
  · simp only [if_pos plain]
    have copied : other.packetbuf.read
        (header.packetbufHdrLen + ipv6HdrLen) uipIphLen =
          received.packetbuf.read (header.packetbufHdrLen + ipv6HdrLen)
            uipIphLen :=
      ByteMem.read_congr fun index _ bound => same.bytes index
        (Nat.lt_of_lt_of_le bound (ipv6 plain))
    refine .inr ⟨_, header.packetbufHdrLen + ipv6HdrLen + uipIphLen,
      uipIphLen, (ByteMem.fills_id.write 0 _).mono fun position below => ?_,
      fun _ => rfl, fun _ => by rw [copied]⟩
    rw [ByteMem.length_read]
    omega
  · simp only [if_neg plain]
    exact .inl fun _ => ⟨trivial, trivial⟩

/-- What `complete` hands over is the start of the buffer, and its length does
not depend on the buffer. -/
theorem complete_withBuf (header : FragHeader) (last : Bool)
    (payloadLen uncompHdrLen : Nat) (state : State) :
    ∃ (next : State) (len : Option Nat),
      (header.fragSize = 0 → ∀ count ∈ len,
        count ≤ uncompHdrLen + payloadLen) ∧
      (header.fragSize > 0 → 0 < next.processedIpInLen →
        next.key = state.key) ∧
      ∀ buf, complete header last payloadLen uncompHdrLen
          (state.withBuf buf) =
        (next.withBuf buf, len.map fun count => buf.read 0 count) := by
  unfold complete
  by_cases positive : header.fragSize > 0
  · simp only [if_pos positive, State.withBuf]
    generalize (if last = true then header.fragSize else _) = processed
    by_cases full : processed = 0 ∨ processed = state.sicslowpanLen
    · refine ⟨state.cancel, some state.sicslowpanLen, fun none => ?_,
        fun _ pending => absurd pending (Nat.lt_irrefl 0),
        fun buf => if_pos full⟩
      exact absurd none (Nat.ne_of_gt positive)
    · exact ⟨{ state with processedIpInLen := processed }, none,
        fun _ _ listed => absurd listed (by simp), fun _ _ => rfl,
        fun buf => if_neg full⟩
  · simp only [if_neg positive]
    by_cases full : state.processedIpInLen = 0 ∨ state.processedIpInLen =
        (payloadLen + uncompHdrLen) % 65536
    · refine ⟨state.cancel, some ((payloadLen + uncompHdrLen) % 65536),
        fun _ count listed => ?_, fun size => absurd size positive,
        fun buf => if_pos full⟩
      have bound := Nat.mod_le (payloadLen + uncompHdrLen) 65536
      cases listed
      omega
    · exact ⟨{ state with
          sicslowpanLen := (payloadLen + uncompHdrLen) % 65536 }, none,
        fun _ _ listed => absurd listed (by simp),
        fun size => absurd size positive, fun buf => if_neg full⟩

/-- Both nodes process a frame in the same way, and what it supplies does not
depend on the buffer. -/
theorem SameFrame.process_eq
    (same : SameFrame received other) (decodes : Decodes node received)
    (sized : (fragHeader received.packetbuf).fragSize = 0 →
      (fragHeader received.packetbuf).fragOffset = 0)
    (last : Bool) (state : State) :
    ∃ (store : ByteMem → ByteMem) (positions : Nat → Prop) (next : State)
      (len : Option Nat),
      ByteMem.Fills store positions ∧
      (∀ range ∈ supplied node received,
        range.start + range.count ≤ node.sizeofBuf →
        ∀ position, range.Contains position → positions position) ∧
      ((fragHeader received.packetbuf).fragSize = 0 → ∀ count ∈ len,
        ∀ position < count, positions position) ∧
      ((fragHeader received.packetbuf).fragSize > 0 →
        0 < next.processedIpInLen → next.key = state.key) ∧
      ∀ buf, process node (fragHeader received.packetbuf) received last
            (state.withBuf buf) =
          (next.withBuf (store buf),
            len.map fun count => (store buf).read 0 count) ∧
        process node (fragHeader received.packetbuf) other last
            (state.withBuf buf) =
          (next.withBuf (store buf),
            len.map fun count => (store buf).read 0 count) := by
  have frameKinds := fragHeader_cases received.packetbuf
  have suppliedHere := fun buf => supplied_eq node received buf
  have headersHere := same.uncompressHeaders_eq decodes
  generalize fragHeader received.packetbuf = header at *
  rcases headersHere with unknown | ⟨store, hdrLen, uncompHdrLen, fills,
    own, others⟩
  · refine ⟨fun buf => buf, fun _ => False, state, none,
      ByteMem.fills_id, fun range listed => ?_,
      fun _ _ listed => absurd listed (by simp), fun _ _ => rfl,
      fun buf => ?_⟩
    · rw [suppliedHere fun _ => 0, (unknown _).1] at listed
      exact absurd listed (by simp)
    · unfold process
      rw [(unknown _).1, (unknown _).2]
      exact ⟨rfl, rfl⟩
  by_cases short : received.datalen < hdrLen
  · refine ⟨store, _, state, none, fills, fun range listed => ?_,
      fun _ _ listed => absurd listed (by simp), fun _ _ => rfl,
      fun buf => ?_⟩
    · rw [suppliedHere fun _ => 0, own, Option.bind_some, if_pos short]
        at listed
      exact absurd listed (by simp)
    · unfold process copyPayload
      rw [own, others, same.datalen]
      simp only [if_pos short]
      exact ⟨rfl, rfl⟩
  have offsets : header.fragOffset <<< 3 = 0 ∨ uncompHdrLen = 0 := by
    rcases frameKinds with ⟨_, size, _⟩ | ⟨_, _, _, offset⟩ | ⟨_, _, kind⟩
    · rw [sized size]
      exact .inl rfl
    · rw [offset]
      exact .inl rfl
    · have noHeaders := own fun _ => 0
      unfold uncompressHeaders at noHeaders
      simp only [if_pos kind, Option.some.injEq,
        Uncompressed.mk.injEq] at noHeaders
      exact .inr noHeaders.2.2.symm
  by_cases room : uncompHdrLen + header.fragOffset <<< 3 +
      (received.datalen - hdrLen) > node.sizeofBuf
  · refine ⟨store, _, state, none, fills, fun range listed fits => ?_,
      fun _ _ listed => absurd listed (by simp), fun _ _ => rfl,
      fun buf => ?_⟩
    · rw [suppliedHere fun _ => 0, own, Option.bind_some, if_neg short]
        at listed
      cases listed
      dsimp only at fits
      omega
    · unfold process copyPayload
      rw [own, others, same.datalen]
      simp only [if_neg short, if_pos room]
      exact ⟨rfl, rfl⟩
  have payload : other.packetbuf.read hdrLen (received.datalen - hdrLen) =
      received.packetbuf.read hdrLen (received.datalen - hdrLen) :=
    ByteMem.read_congr fun index _ bound => same.bytes index (by omega)
  have written := fills.write (uncompHdrLen + header.fragOffset <<< 3)
    (received.packetbuf.read hdrLen (received.datalen - hdrLen))
  obtain ⟨next, len, whole, keys, completed⟩ := complete_withBuf header last
    (received.datalen - hdrLen) uncompHdrLen state
  refine ⟨_, _, next, len, written, fun range listed fits => ?_,
    fun size count listed position below => ?_, keys, fun buf => ?_⟩
  · rw [suppliedHere fun _ => 0, own, Option.bind_some, if_neg short]
      at listed
    cases listed
    intro position contains
    simp only [Range.Contains] at contains
    rw [ByteMem.length_read]
    omega
  · have bound := whole size count listed
    have offset : header.fragOffset <<< 3 = 0 := by
      rw [sized size]
      rfl
    rw [ByteMem.length_read]
    omega
  · unfold process copyPayload
    rw [own, others, same.datalen]
    simp only [if_neg short, if_neg room, payload]
    exact ⟨completed _, completed _⟩

/-- A frame that leaves no residue where it arrives: its fragmentation header
is complete and, unless it is ignored as a fragment of another packet, it is
proper, its headers are complete, and a fragment of a datagram without a size
has no offset. -/
structure Sound (node : Node) (run : Run) (received : Received) : Prop
    where
  framed : Framed received
  proper : Taken run received → Proper node run received
  decodes : Taken run received → Decodes node received
  sized : Taken run received →
    (fragHeader received.packetbuf).fragSize = 0 →
      (fragHeader received.packetbuf).fragOffset = 0

/-- Every frame is sound where it arrives. -/
def SoundRun (node : Node) : Run → List Received → Prop
  | _, [] => True
  | run, received :: rest =>
      Sound node run received ∧ SoundRun node (run.receive node received) rest

/-- The headers cannot be decompressed: the dispatch is unknown, or an
address context or the compressed next header is, or the destination is
compressed with a multicast context. -/
def Undecodable (node : Node) (received : Received) : Prop :=
  let base := (fragHeader received.packetbuf).packetbufHdrLen
  base ≠ fragnHdrLen ∧
    received.packetbuf base ≠ dispatchIpv6 ∧
    (received.packetbuf base &&& 0xe0 = dispatchIphc →
      ¬ SourceKnown node.contexts received.packetbuf base ∨
        ¬ DestinationKnown node.contexts received.packetbuf base ∨
        ¬ NextHeaderKnown received.packetbuf base)

/-- The other node differs in its packet buffer only, and there only at
positions that no fragment of the packet in reassembly supplied. -/
structure Twins (node : Node) (run : Run) (other : State) : Prop where
  fields : other = run.state.withBuf other.sicslowpanBuf
  counted : 0 < run.state.processedIpInLen → Counted node run
  agree : 0 < run.state.processedIpInLen →
    ∀ range ∈ suppliedBy node run.state.key run.since,
      ∀ position, range.Contains position →
        other.sicslowpanBuf position = run.state.sicslowpanBuf position

theorem accept_buf {accepted : State} {header : FragHeader}
    (taken : accept node header received state = some accepted) :
    accepted.sicslowpanBuf = state.sicslowpanBuf ∧
      accepted.processedIpInLen = state.processedIpInLen := by
  unfold accept at taken
  split at taken
  · split at taken
    · exact absurd taken (by simp)
    · cases taken
      exact ⟨rfl, rfl⟩
  · split at taken
    · split at taken
      · exact absurd taken (by simp)
      · cases taken
        exact ⟨rfl, rfl⟩
    · cases taken
      exact ⟨rfl, rfl⟩

theorem input_undecodable (undecodable : Undecodable node received)
    (decodes : Decodes node received) (last : Bool) :
    process node (fragHeader received.packetbuf) received last state =
      (state, none) := by
  obtain ⟨header, notIpv6, iphc⟩ := undecodable
  obtain ⟨_, complete, _⟩ := decodes header
  have notIphc : ¬ received.packetbuf
      (fragHeader received.packetbuf).packetbufHdrLen &&& 0xe0 =
        dispatchIphc := by
    intro dispatch
    obtain ⟨source, destination, nextHeader, _, _⟩ := complete dispatch
    rcases iphc dispatch with unknown | unknown | unknown
    · exact unknown source
    · exact unknown destination
    · exact unknown nextHeader
  unfold process uncompressHeaders
  simp only [if_neg header, if_neg notIphc, if_neg notIpv6]

theorem accept_counted
    (counted : 0 < run.state.processedIpInLen → Counted node run)
    (ongoing : (ready received run.state).processedIpInLen ≠ 0) :
    accept node (fragHeader received.packetbuf) received
        (ready received run.state) =
      if received.key = run.state.key then some run.state else none := by
  have same := (ready_ongoing ongoing).1
  rw [same] at ongoing ⊢
  have positive := Nat.pos_of_ne_zero ongoing
  have incomplete := (counted positive).incomplete
  exact accept_ongoing node received positive (by omega)

theorem mem_sinceWith {fragment : Received}
    (member : fragment ∈ run.sinceWith received) :
    fragment = received ∨
      (ready received run.state).processedIpInLen ≠ 0 ∧
        fragment ∈ run.since := by
  unfold Run.sinceWith at member
  split at member
  · exact .inl (List.mem_singleton.mp member)
  · next ongoing =>
      rcases List.mem_append.mp member with before | now
      · exact .inr ⟨ongoing, before⟩
      · exact .inl (List.mem_singleton.mp now)

theorem Twins.dropped {twin : State} (twins : Twins node run twin)
    (rejected : accept node (fragHeader received.packetbuf) received
      (ready received run.state) = none) :
    Twins node (run.receive node received)
      ((ready received run.state).withBuf twin.sicslowpanBuf) := by
  obtain ⟨fields, counted, agree⟩ := twins
  have next : (run.receive node received).state =
      ready received run.state := by
    rw [Run.receive, input_dropped rejected]
  by_cases restart : (ready received run.state).processedIpInLen = 0
  · have idle : ¬ 0 <
        (run.receive node received).state.processedIpInLen := by
      rw [next]
      omega
    exact ⟨by rw [next]; rfl, fun pending => absurd pending idle,
      fun pending => absurd pending idle⟩
  · have same := (ready_ongoing restart).1
    have running : 0 < run.state.processedIpInLen := by
      rw [same] at restart
      omega
    have keys : received.key ≠ run.state.key := by
      intro matching
      have taken := accept_counted counted restart
      rw [rejected, if_pos matching] at taken
      exact absurd taken (by simp)
    have unchanged : suppliedBy node run.state.key
        (run.sinceWith received) =
        suppliedBy node run.state.key run.since := by
      rw [Run.sinceWith, if_neg restart, suppliedBy_concat, if_neg keys,
        List.append_nil]
    refine ⟨by rw [next]; rfl, (counted_foreign (counted running) keys
      restart).1, fun _ => ?_⟩
    rw [next, same]
    change ∀ range ∈ suppliedBy node run.state.key
      (run.sinceWith received), _
    rw [unchanged]
    exact agree running

/-- One frame: both nodes do the same, and an undecodable frame hands over
nothing. -/
theorem Twins.input_eq {twin : State} {other : Received}
    (twins : Twins node run twin) (same : SameFrame received other)
    (sound : Sound node run received) :
    (input node other twin).2 = (input node received run.state).2 ∧
      (Undecodable node received →
        (input node received run.state).2 = none) ∧
      Twins node (run.receive node received) (input node other twin).1 := by
  have header := same.fragHeader_eq sound.framed
  have readied : ready other twin =
      (ready received run.state).withBuf twin.sicslowpanBuf := by
    conv_lhs => rw [twins.fields]
    exact same.ready_eq sound.framed run.state twin.sicslowpanBuf
  have lastEq : lastFragment (fragHeader other.packetbuf) other
      (cancelExpired other twin) =
        lastFragment (fragHeader received.packetbuf) received
          (cancelExpired received run.state) := by
    conv_lhs => rw [twins.fields, header, same.cancelExpired_eq,
      same.lastFragment_eq]
  have twinAccept : accept node (fragHeader other.packetbuf) other
      (ready other twin) =
        (accept node (fragHeader received.packetbuf) received
          (ready received run.state)).map
            (State.withBuf · twin.sicslowpanBuf) := by
    rw [readied, header, same.accept_eq]
  cases accepted : accept node (fragHeader received.packetbuf) received
      (ready received run.state) with
  | none =>
      rw [accepted, Option.map_none] at twinAccept
      rw [input_dropped accepted, input_dropped twinAccept, readied]
      exact ⟨rfl, fun _ => rfl, twins.dropped accepted⟩
  | some state =>
      rw [accepted, Option.map_some] at twinAccept
      have step := input_accepted accepted
      have twinStep := input_accepted twinAccept
      rw [lastEq, header] at twinStep
      have continued : (ready received run.state).processedIpInLen ≠ 0 →
          received.key = run.state.key ∧ state = run.state := by
        intro ongoing
        have checked := accept_counted twins.counted ongoing
        rw [accepted] at checked
        split at checked
        · next keys =>
            exact ⟨keys, Option.some.inj checked⟩
        · exact absurd checked (by simp)
      have taken : Taken run received := fun ongoing =>
        (continued ongoing).1
      have decodes := sound.decodes taken
      obtain ⟨store, positions, next, len, fills, suppliedHere, whole,
        keys, processed⟩ := same.process_eq decodes (sound.sized taken)
          (lastFragment (fragHeader received.packetbuf) received
            (cancelExpired received run.state)) state
      have own : process node (fragHeader received.packetbuf) received _
          state = _ := (processed state.sicslowpanBuf).1
      rw [own] at step
      rw [(processed twin.sicslowpanBuf).2] at twinStep
      have bufs : state.sicslowpanBuf = run.state.sicslowpanBuf :=
        (accept_buf accepted).1.trans (ready_buf received run.state)
      have proper := sound.proper taken
      have counting : (0 < (run.receive node received).state.processedIpInLen →
            Counted node (run.receive node received)) ∧
          ∀ packet, (input node received run.state).2 = some packet →
            (fragHeader received.packetbuf).fragSize > 0 →
              Covered node run received packet := by
        by_cases restart : (ready received run.state).processedIpInLen = 0
        · exact receive_restart proper restart
        · have running := restart
          rw [(ready_ongoing restart).1] at running
          have both := receive_ongoing
            (twins.counted (Nat.pos_of_ne_zero running)) proper restart
          exact ⟨both.1, fun packet delivered _ => both.2 packet delivered⟩
      -- A position that a fragment of this packet supplied is the same.
      have covers : (fragHeader received.packetbuf).fragSize > 0 →
          ∀ fragment ∈ run.sinceWith received,
          ((ready received run.state).processedIpInLen ≠ 0 →
            fragment.key = run.state.key) →
          ∀ range ∈ supplied node fragment, ∀ position,
          range.Contains position →
          store twin.sicslowpanBuf position =
            store state.sicslowpanBuf position := by
        intro positive fragment member key range listed position contains
        apply fills
        rcases mem_sinceWith member with now | ⟨ongoing, before⟩
        · subst now
          have room := proper.inside ⟨taken, fun none =>
            accept_first none positive proper.size accepted⟩ positive range
              listed
          have size := proper.size
          refine .inl (suppliedHere range listed ?_ position contains)
          unfold Node.sizeofBuf
          omega
        · have running := ongoing
          rw [(ready_ongoing ongoing).1] at running
          rw [bufs]
          exact .inr (twins.agree (Nat.pos_of_ne_zero running) range
            (mem_suppliedBy.mpr ⟨fragment, before, key ongoing, listed⟩)
            position contains)
      have nextState : (run.receive node received).state =
          next.withBuf (store state.sicslowpanBuf) := by
        rw [Run.receive, step]
      rw [step] at counting
      rw [step, twinStep]
      refine ⟨?_, fun undecodable => ?_, by rw [nextState]; rfl,
        counting.1, ?_⟩
      · cases len with
        | none =>
            rfl
        | some count =>
            refine congrArg some (ByteMem.read_congr
              fun position _ below => ?_)
            rw [Nat.zero_add] at below
            by_cases size : (fragHeader received.packetbuf).fragSize = 0
            · exact fills _ _ _ (.inl (whole size count rfl position below))
            · have positive := Nat.pos_of_ne_zero size
              obtain ⟨_, covered⟩ := counting.2 _ rfl positive
              obtain ⟨fragment, member, key, range, listed, contains⟩ :=
                covered position (by rw [ByteMem.length_read]; exact below)
              exact covers positive fragment member
                (fun ongoing => key.trans (taken ongoing)) range listed
                position contains
      · have nothing := own.symm.trans
          (input_undecodable undecodable decodes _)
        exact congrArg Prod.snd nothing
      · intro pending range listed position contains
        rw [nextState] at pending listed ⊢
        have positive : (fragHeader received.packetbuf).fragSize > 0 := by
          by_contra whole
          have size : (fragHeader received.packetbuf).fragSize = 0 := by
            omega
          by_cases restart : (ready received run.state).processedIpInLen = 0
          · have stays := process_unfragmented node
              (lastFragment (fragHeader received.packetbuf) received
                (cancelExpired received run.state))
              ((accept_buf accepted).2.trans restart) size
            rw [own] at stays
            exact absurd pending (by
              rw [stays]
              exact Nat.lt_irrefl 0)
          · have sizes := congrArg Key.size (taken restart)
            rw [(ready_ongoing restart).1] at restart
            have incomplete := (twins.counted
              (Nat.pos_of_ne_zero restart)).incomplete
            simp only [Received.key, State.key] at sizes
            omega
        obtain ⟨fragment, member, key, found⟩ := mem_suppliedBy.mp listed
        refine covers positive fragment member (fun ongoing => ?_) range
          found position contains
        rw [key, ← (continued ongoing).2]
        exact keys positive pending

/-- Whatever the packet buffers held before, two nodes that receive the same
frames hand over the same packets, and nothing for a frame that cannot be
decompressed. -/
theorem inputAll_residueFree {node : Node} {state twin : State}
    {frames others : List Received}
    (idle : state.processedIpInLen = 0)
    (fields : twin = state.withBuf twin.sicslowpanBuf)
    (same : List.Forall₂ SameFrame frames others)
    (sound : SoundRun node { state := state, since := [] } frames) :
    (inputAll node others twin).2 = (inputAll node frames state).2 ∧
      ∀ pair ∈ frames.zip (inputAll node frames state).2,
        Undecodable node pair.1 → pair.2 = none := by
  have general : ∀ {run : Run} {twin : State}, Twins node run twin →
      SoundRun node run frames →
      (inputAll node others twin).2 = (inputAll node frames run.state).2 ∧
        ∀ pair ∈ frames.zip (inputAll node frames run.state).2,
          Undecodable node pair.1 → pair.2 = none := by
    clear sound fields idle
    induction same with
    | nil =>
        intro run twin _ _
        exact ⟨rfl, fun pair member => absurd member List.not_mem_nil⟩
    | @cons received other rest others frame _ inductionHypothesis =>
        intro run twin twins soundRun
        obtain ⟨outputs, undecodable, next⟩ :=
          twins.input_eq frame soundRun.1
        obtain ⟨tailOutputs, tailUndecodable⟩ :=
          inductionHypothesis next soundRun.2
        refine ⟨?_, fun pair member => ?_⟩
        · exact congrArg₂ List.cons outputs tailOutputs
        · rcases List.mem_cons.mp member with head | tail
          · subst head
            exact undecodable
          · exact tailUndecodable pair tail
  have notRunning : ¬ 0 < state.processedIpInLen := by
    omega
  exact general ⟨fields, fun running => absurd running notRunning,
    fun running => absurd running notRunning⟩ sound

/-- A whole packet with a compressed UDP header and a payload of two bytes. -/
def sampleUdp : Received :=
  sampleFrame [0x7e, 0x33, 0xf0, 1, 2, 3, 4, 5, 6, 7, 8] 0

/-- The frame in a packet buffer that was not clear. -/
def Received.inDirty (received : Received) : Received :=
  { received with packetbuf := fun index =>
      if index < received.datalen then received.packetbuf index else 0xaa }

theorem sameFrame_inDirty (received : Received) :
    SameFrame received received.inDirty :=
  ⟨rfl, rfl, rfl, rfl, fun _ inside => if_pos inside⟩

theorem sample_residueFree :
    (inputAll sampleNode
      ([sampleUdp, sampleFirst, sampleMiddle, sampleLast].map
        Received.inDirty) (idleState.withBuf fun _ => 0xaa)).2 =
      (inputAll sampleNode
        [sampleUdp, sampleFirst, sampleMiddle, sampleLast] idleState).2 ∧
    ∀ pair ∈ [sampleUdp, sampleFirst, sampleMiddle, sampleLast].zip
        (inputAll sampleNode
          [sampleUdp, sampleFirst, sampleMiddle, sampleLast] idleState).2,
      Undecodable sampleNode pair.1 → pair.2 = none := by
  have udp : Sound sampleNode { state := idleState, since := [] }
      sampleUdp :=
    ⟨⟨by decide, by decide⟩,
      fun _ => ⟨by decide, by decide, by decide, by decide⟩,
      fun _ _ => ⟨by decide,
        fun _ => ⟨fun sac => absurd sac (by decide),
          fun dac => absurd dac (by decide),
          fun _ => by decide, by decide, by decide⟩,
        by decide⟩, fun _ => by decide⟩
  have first : Sound sampleNode (sampleRun [sampleUdp]) sampleFirst :=
    ⟨⟨by decide, by decide⟩,
      fun _ => ⟨by decide, by decide, by decide, by decide⟩,
      fun _ _ => ⟨by decide, fun iphc => absurd iphc (by decide),
        by decide⟩, fun _ => by decide⟩
  have middle : Sound sampleNode (sampleRun [sampleUdp, sampleFirst])
      sampleMiddle :=
    ⟨⟨by decide, by decide⟩,
      fun _ => ⟨by decide, by decide, by decide, by decide⟩,
      fun _ header => absurd rfl header, fun _ => by decide⟩
  have last : Sound sampleNode
      (sampleRun [sampleUdp, sampleFirst, sampleMiddle]) sampleLast :=
    ⟨⟨by decide, by decide⟩,
      fun _ => ⟨by decide, by decide, by decide, by decide⟩,
      fun _ header => absurd rfl header, fun _ => by decide⟩
  exact inputAll_residueFree rfl rfl
    (List.forall₂_map_right_iff.mpr (List.forall₂_same.mpr
      fun received _ => sameFrame_inDirty received))
    ⟨udp, first, middle, last, trivial⟩

/-- The compressed next header is not a UDP header. -/
def sampleUnknownNextHeader : Received :=
  sampleFrame [0x7e, 0x33, 0, 1, 2] 0

/-- The source address needs a context that the node does not have. -/
def sampleUnknownContext : Received :=
  sampleFrame [0x7a, 0xf3, 0x50, 1, 2] 0

/-- With an unknown next header the byte of the next header is what was in the
packet buffer; with an unknown context the frame itself is handed over. -/
theorem input_sample_residue :
    Undecodable sampleNode sampleUnknownNextHeader ∧
      Undecodable sampleNode sampleUnknownContext ∧
      (input sampleNode sampleUnknownNextHeader idleState).2 ≠
        (input sampleNode sampleUnknownNextHeader
          (idleState.withBuf fun _ => 0xaa)).2 ∧
      (input sampleNode sampleUnknownNextHeader idleState).2 ≠ none ∧
      (input sampleNode sampleUnknownContext idleState).2 =
        some [0x7a, 0xf3, 0x50, 1, 2] := by
  refine ⟨⟨by decide, by decide, fun _ => .inr (.inr fun known => ?_)⟩,
    ⟨by decide, by decide, fun _ => .inl fun known => ?_⟩, by decide,
    by decide, by decide⟩
  · exact absurd (known (by decide)) (by decide)
  · exact absurd (known (by decide) (by decide)) (by decide)

end Contiki.Sicslowpan
