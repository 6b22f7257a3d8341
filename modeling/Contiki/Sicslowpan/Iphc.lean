import Contiki.Lib.ByteMem

/-!
# IPHC header compression

`compress_hdr_hc06` and `uncompress_hdr_hc06` of `sicslowpan.c`, with the
address and port encodings they use, for 8-byte link-layer addresses and UDP
compression.

An IPv6 packet is a memory that holds the packet from address 0 on: the
traffic class and flow label are bytes 0 to 3, the length 4 and 5, the next
header 6, the hop limit 7, the addresses start at 8 and 24 and the UDP header
at 40.  Where the source advances `hc06_ptr`, a function of this module
returns the bytes it appends, or how many bytes it consumes.
-/

namespace Contiki.Sicslowpan

open Contiki.Lib

/-- `linkaddr_t` and `uip_lladdr_t`. -/
abbrev LinkAddr := Vector UInt8 8

/-- `struct sicslowpan_addr_context`. -/
structure AddrContext where
  used : UInt8
  number : UInt8
  prefixBytes : Vector UInt8 8

def uipIphLen : Nat := 40
def uipUdphLen : Nat := 8
def uipProtoUdp : UInt8 := 17

/-- `SICSLOWPAN_DISPATCH_IPHC`. -/
def dispatchIphc : UInt8 := 0x60

namespace Iphc

def flC : UInt8 := 0x10
def tcC : UInt8 := 0x08
def nhC : UInt8 := 0x04
def ttl1 : UInt8 := 0x01
def ttl64 : UInt8 := 0x02
def ttl255 : UInt8 := 0x03
def ttlI : UInt8 := 0x00
def cid : UInt8 := 0x80
def sac : UInt8 := 0x40
def sam11 : UInt8 := 0x30
def samBit : UInt8 := 4
def m : UInt8 := 0x08
def dac : UInt8 := 0x04
def dam01 : UInt8 := 0x01
def dam10 : UInt8 := 0x02
def dam11 : UInt8 := 0x03
def damBit : UInt8 := 0

end Iphc

namespace NhcUdp

def mask : UInt8 := 0xF8
def id : UInt8 := 0xF0
def checksumC : UInt8 := 0x04
def csP00 : UInt8 := 0xF0
def csP01 : UInt8 := 0xF1
def csP10 : UInt8 := 0xF2
def csP11 : UInt8 := 0xF3

end NhcUdp

def udp4BitPortMin : Nat := 0xF0B0
def udp8BitPortMin : Nat := 0xF000

/-! ## The fields of a packet -/

def srcipaddr (packet : ByteMem) : ByteMem := packet.shift 8

def destipaddr (packet : ByteMem) : ByteMem := packet.shift 24

/-- The value of the two bytes at an address in network order. -/
def get16 (memory : ByteMem) (index : Nat) : Nat :=
  (memory index).toNat <<< 8 ||| (memory (index + 1)).toNat

/-- The bytes of a 16-bit value in network order. -/
def set16 (value : Nat) : List UInt8 :=
  [UInt8.ofNat (value >>> 8), UInt8.ofNat value]

/-- `u16[index] == 0`. -/
def u16IsZero (address : ByteMem) (index : Nat) : Bool :=
  address (2 * index) = 0 ∧ address (2 * index + 1) = 0

/-- `uip_is_addr_unspecified`. -/
def isAddrUnspecified (address : ByteMem) : Bool :=
  (List.range 8).all (u16IsZero address)

/-- `uip_is_addr_link_local`. -/
def isAddrLinkLocal (address : ByteMem) : Bool :=
  address 0 = 0xFE ∧ address 1 = 0x80

/-- `uip_is_addr_mcast`. -/
def isAddrMcast (address : ByteMem) : Bool := address 0 = 0xFF

theorem first_lt_iid : 0 < 8 := by decide

/-- `uip_is_addr_mac_addr_based`. -/
def isAddrMacAddrBased (address : ByteMem) (lladdr : LinkAddr) : Bool :=
  address 8 = getElem lladdr 0 first_lt_iid ^^^ 0x02 ∧
    address.read 9 7 = lladdr.toList.drop 1

/-- `sicslowpan_is_iid_16_bit_compressable`. -/
def isIid16BitCompressable (address : ByteMem) : Bool :=
  u16IsZero address 4 ∧ address 10 = 0 ∧ address 11 = 0xff ∧
    address 12 = 0xfe ∧ address 13 = 0

/-- `sicslowpan_is_mcast_addr_compressable48`. -/
def isMcastAddrCompressable48 (address : ByteMem) : Bool :=
  u16IsZero address 1 ∧ u16IsZero address 2 ∧ u16IsZero address 3 ∧
    u16IsZero address 4 ∧ address 10 = 0

/-- `sicslowpan_is_mcast_addr_compressable32`. -/
def isMcastAddrCompressable32 (address : ByteMem) : Bool :=
  u16IsZero address 1 ∧ u16IsZero address 2 ∧ u16IsZero address 3 ∧
    u16IsZero address 4 ∧ u16IsZero address 5 ∧ address 12 = 0

/-- `sicslowpan_is_mcast_addr_compressable8`. -/
def isMcastAddrCompressable8 (address : ByteMem) : Bool :=
  address 1 = 2 ∧ u16IsZero address 1 ∧ u16IsZero address 2 ∧
    u16IsZero address 3 ∧ u16IsZero address 4 ∧ u16IsZero address 5 ∧
    u16IsZero address 6 ∧ address 14 = 0

/-! ## Contexts -/

/-- `addr_context_lookup_by_prefix`. -/
def addrContextLookupByPrefix (contexts : List AddrContext)
    (ipaddr : ByteMem) : Option AddrContext :=
  contexts.find? fun context =>
    context.used = 1 ∧ ipaddr.read 0 8 = context.prefixBytes.toList

/-- `addr_context_lookup_by_number`. -/
def addrContextLookupByNumber (contexts : List AddrContext)
    (number : UInt8) : Option AddrContext :=
  contexts.find? fun context =>
    context.used = 1 ∧ context.number = number

/-! ## Compression -/

/-- Flag bits for an encoding byte, and the bytes that follow inline. -/
structure Encoded where
  flags : UInt8
  inline : List UInt8

/-- `compress_addr_64`. -/
def compressAddr64 (bitpos : UInt8) (ipaddr : ByteMem)
    (lladdr : LinkAddr) : Encoded :=
  if isAddrMacAddrBased ipaddr lladdr then
    { flags := 3 <<< bitpos, inline := [] }
  else if isIid16BitCompressable ipaddr then
    { flags := 2 <<< bitpos, inline := ipaddr.read 14 2 }
  else
    { flags := 1 <<< bitpos, inline := ipaddr.read 8 8 }

def compressTrafficFlow (packet : ByteMem) : Encoded :=
  let vtc := packet 0
  let tcflow := packet 1
  -- hc06 format of tc is ECN | DSCP, original is DSCP | ECN
  let tmp := vtc <<< 4 ||| tcflow >>> 4
  let tmp := (tmp &&& 0x03) <<< 6 ||| tmp >>> 2
  if tcflow &&& 0x0F = 0 ∧ packet 2 = 0 ∧ packet 3 = 0 then
    if vtc &&& 0x0F = 0 ∧ tcflow &&& 0xF0 = 0 then
      { flags := Iphc.flC ||| Iphc.tcC, inline := [] }
    else { flags := Iphc.flC, inline := [tmp] }
  else if vtc &&& 0x0F = 0 ∧ tcflow &&& 0xF0 = 0 then
    { flags := Iphc.tcC
      inline := [tmp &&& 0xc0 ||| tcflow &&& 0x0F, packet 2, packet 3] }
  else
    { flags := 0, inline := [tmp, tcflow, packet 2, packet 3] }

def compressNextHeader (packet : ByteMem) : Encoded :=
  if packet 6 = uipProtoUdp then { flags := Iphc.nhC, inline := [] }
  else { flags := 0, inline := [packet 6] }

def compressHopLimit (packet : ByteMem) : Encoded :=
  if packet 7 = 1 then { flags := Iphc.ttl1, inline := [] }
  else if packet 7 = 64 then { flags := Iphc.ttl64, inline := [] }
  else if packet 7 = 255 then { flags := Iphc.ttl255, inline := [] }
  else { flags := 0, inline := [packet 7] }

/-- A source or destination address with its context, for the byte with the
context numbers. -/
structure EncodedAddr where
  encoded : Encoded
  context : Option AddrContext

def compressSource (contexts : List AddrContext) (uipLladdr : LinkAddr)
    (packet : ByteMem) : EncodedAddr :=
  let src := srcipaddr packet
  let dest := destipaddr packet
  if isAddrUnspecified src then
    { encoded := { flags := Iphc.sac, inline := [] }, context := none }
  else
    match addrContextLookupByPrefix contexts src with
    | some context =>
        let iid := compressAddr64 Iphc.samBit src uipLladdr
        { encoded :=
            { flags := Iphc.cid ||| Iphc.sac ||| iid.flags
              inline := iid.inline }
          context := some context }
    | none =>
        -- no context found for this address
        if isAddrLinkLocal src ∧ u16IsZero dest 1 ∧ u16IsZero dest 2 ∧
            u16IsZero dest 3 then
          { encoded := compressAddr64 Iphc.samBit src uipLladdr
            context := none }
        else
          { encoded := { flags := 0, inline := src.read 0 16 }
            context := none }

def compressDestination (contexts : List AddrContext)
    (linkDestaddr : LinkAddr) (packet : ByteMem) : EncodedAddr :=
  let dest := destipaddr packet
  if isAddrMcast dest then
    let encoded : Encoded :=
      if isMcastAddrCompressable8 dest then
        { flags := Iphc.m ||| Iphc.dam11, inline := [dest 15] }
      else if isMcastAddrCompressable32 dest then
        { flags := Iphc.m ||| Iphc.dam10
          inline := dest 1 :: dest.read 13 3 }
      else if isMcastAddrCompressable48 dest then
        { flags := Iphc.m ||| Iphc.dam01
          inline := dest 1 :: dest.read 11 5 }
      else { flags := Iphc.m, inline := dest.read 0 16 }
    { encoded := encoded, context := none }
  else
    match addrContextLookupByPrefix contexts dest with
    | some context =>
        let iid := compressAddr64 Iphc.damBit dest linkDestaddr
        { encoded :=
            { flags := Iphc.dac ||| iid.flags, inline := iid.inline }
          context := some context }
    | none =>
        if isAddrLinkLocal dest ∧ u16IsZero dest 1 ∧ u16IsZero dest 2 ∧
            u16IsZero dest 3 then
          { encoded := compressAddr64 Iphc.damBit dest linkDestaddr
            context := none }
        else
          { encoded := { flags := 0, inline := dest.read 0 16 }
            context := none }

/-- The first byte of a compressed UDP header and the ports. -/
def compressPorts (packet : ByteMem) : List UInt8 :=
  let srcport := get16 packet 40
  let destport := get16 packet 42
  if srcport &&& 0xfff0 = udp4BitPortMin ∧
      destport &&& 0xfff0 = udp4BitPortMin then
    [NhcUdp.csP11,
      UInt8.ofNat ((srcport - udp4BitPortMin) <<< 4) +
        UInt8.ofNat (destport - udp4BitPortMin)]
  else if destport &&& 0xff00 = udp8BitPortMin then
    NhcUdp.csP01 :: packet.read 40 2 ++
      [UInt8.ofNat (destport - udp8BitPortMin)]
  else if srcport &&& 0xff00 = udp8BitPortMin then
    [NhcUdp.csP10, UInt8.ofNat (srcport - udp8BitPortMin)] ++
      packet.read 42 2
  else NhcUdp.csP00 :: packet.read 40 4

/-- UDP header; the checksum is always inline. -/
def compressUdp (packet : ByteMem) : List UInt8 :=
  compressPorts packet ++ packet.read 46 2

/-- The compressed header and the length of the headers that it stands
for. -/
structure Compressed where
  header : List UInt8
  uncompHdrLen : Nat

/-- `compress_hdr_hc06`. -/
def compressHdrHc06 (contexts : List AddrContext)
    (uipLladdr linkDestaddr : LinkAddr) (packet : ByteMem) :
    Compressed :=
  let cid : Bool :=
    (addrContextLookupByPrefix contexts (destipaddr packet)).isSome ∨
      (addrContextLookupByPrefix contexts (srcipaddr packet)).isSome
  let trafficFlow := compressTrafficFlow packet
  let nextHeader := compressNextHeader packet
  let hopLimit := compressHopLimit packet
  let source := compressSource contexts uipLladdr packet
  let destination := compressDestination contexts linkDestaddr packet
  let udp := packet 6 = uipProtoUdp
  let iphc0 := dispatchIphc ||| trafficFlow.flags |||
    nextHeader.flags ||| hopLimit.flags
  let iphc1 := (if cid then Iphc.cid else 0) |||
    source.encoded.flags ||| destination.encoded.flags
  let contextNumber := fun context : Option AddrContext =>
    (context.map AddrContext.number).getD 0
  let numbers := contextNumber source.context <<< 4 |||
    contextNumber destination.context
  { header := [iphc0, iphc1] ++ (if cid then [numbers] else []) ++
      trafficFlow.inline ++ nextHeader.inline ++ hopLimit.inline ++
      source.encoded.inline ++ destination.encoded.inline ++
      (if udp then compressUdp packet else [])
    uncompHdrLen := uipIphLen + if udp then uipUdphLen else 0 }

/-! ## Decompression -/

/-- Decoded bytes, and how many inline bytes were consumed. -/
structure Decoded where
  bytes : List UInt8
  consumed : Nat

/-- `unc_llconf`. -/
def uncLlconf : List UInt8 := [0x0f, 0x28, 0x22, 0x20]

/-- `unc_ctxconf`. -/
def uncCtxconf : List UInt8 := [0x00, 0x88, 0x82, 0x80]

/-- `unc_mxconf`. -/
def uncMxconf : List UInt8 := [0x0f, 0x25, 0x23, 0x21]

/-- `llprefix`. -/
def llprefix : List UInt8 := [0xfe, 0x80]

/-- `ttl_values`. -/
def ttlValues : List UInt8 := [0, 1, 64, 255]

/-- `uip_ds6_set_addr_iid`. -/
def setAddrIid (ipaddr : List UInt8) (lladdr : LinkAddr) : List UInt8 :=
  ipaddr.take 8 ++
    (getElem lladdr 0 first_lt_iid ^^^ 0x02) :: lladdr.toList.drop 1

/-- `uncompress_addr`, with the bytes at `hc06_ptr` as `inline`. -/
def uncompressAddr (prefixBytes : List UInt8) (prefPostCount : UInt8)
    (lladdr : LinkAddr) (inline : ByteMem) : Decoded :=
  let prefcount := (prefPostCount >>> 4).toNat
  let postcount := (prefPostCount &&& 0x0f).toNat
  -- full nibble 15 => 16
  let prefcount := if prefcount = 15 then 16 else prefcount
  let postcount := if postcount = 15 then 16 else postcount
  let ipaddr := prefixBytes.take prefcount ++
    List.replicate (16 - (prefcount + postcount)) 0
  if postcount > 0 then
    let ipaddr := ipaddr ++ inline.read 0 postcount
    { bytes :=
        if postcount = 2 ∧ prefcount < 11 then
          -- 16 bits uncompression => 0000:00ff:fe00:XXXX
          (ipaddr.set 11 0xff).set 12 0xfe
        else ipaddr
      consumed := postcount }
  else
    -- no IID based configuration if no prefix and no data => unspec
    { bytes := if prefcount > 0 then setAddrIid ipaddr lladdr else ipaddr
      consumed := 0 }

/-- Traffic class and flow label: the first four header bytes. -/
def uncompressTrafficFlow (iphc0 : UInt8) (inline : ByteMem) : Decoded :=
  let tmp := inline 0
  if iphc0 &&& Iphc.flC = 0 then
    if iphc0 &&& Iphc.tcC = 0 then
      -- hc06 format of tc is ECN | DSCP, original is DSCP | ECN
      { bytes :=
          [(0x60 : UInt8) ||| (tmp >>> 2 &&& (0x0f : UInt8)),
            (tmp >>> 2 &&& (0x30 : UInt8)) ||| tmp <<< 6 |||
              (inline 1 &&& 0x0f),
            inline 2, inline 3]
        consumed := 4 }
    else
      { bytes :=
          [0x60, (tmp &&& (0x0F : UInt8)) ||| (tmp >>> 2 &&& (0x30 : UInt8)),
            inline 1,
            inline 2]
        consumed := 3 }
  else if iphc0 &&& Iphc.tcC = 0 then
    { bytes :=
        [(0x60 : UInt8) ||| (tmp >>> 2 &&& (0x0f : UInt8)),
          (tmp <<< 6 &&& (0xC0 : UInt8)) |||
            (tmp >>> 2 &&& (0x30 : UInt8)), 0, 0]
      consumed := 1 }
  else { bytes := [0x60, 0, 0, 0], consumed := 0 }

/-- Next header, where it is carried inline. -/
def uncompressNextHeader (iphc0 : UInt8) (inline : ByteMem) : Decoded :=
  if iphc0 &&& Iphc.nhC = 0 then
    { bytes := [inline 0], consumed := 1 }
  else { bytes := [], consumed := 0 }

def uncompressHopLimit (iphc0 : UInt8) (inline : ByteMem) : Decoded :=
  if iphc0 &&& 0x03 ≠ Iphc.ttlI then
    { bytes := [ttlValues.getD (iphc0 &&& 0x03).toNat 0], consumed := 0 }
  else { bytes := [inline 0], consumed := 1 }

/-- The context-number byte, or zero where there is none. -/
def contextNumbers (iphc1 : UInt8) (frame : ByteMem) : UInt8 :=
  if iphc1 &&& Iphc.cid ≠ 0 then frame 2 else 0

/-- Source address; nothing if the context is unknown. -/
def uncompressSource (contexts : List AddrContext) (sender : LinkAddr)
    (iphc1 numbers : UInt8) (inline : ByteMem) : Option Decoded :=
  let tmp := (iphc1 &&& Iphc.sam11) >>> Iphc.samBit &&& 0x03
  if iphc1 &&& Iphc.sac ≠ 0 then
    -- check context != NULL only if SAM bits are != 0
    if tmp ≠ 0 then
      (addrContextLookupByNumber contexts (numbers >>> 4)).map
        fun context => uncompressAddr context.prefixBytes.toList
          (uncCtxconf.getD tmp.toNat 0) sender inline
    else some (uncompressAddr [] (uncCtxconf.getD 0 0) sender inline)
  else
    some (uncompressAddr llprefix (uncLlconf.getD tmp.toNat 0) sender
      inline)

/-- Destination address; nothing if the context is unknown.  Multicast with
a context is not implemented and decodes to no bytes. -/
def uncompressDestination (contexts : List AddrContext)
    (receiver : LinkAddr) (iphc1 numbers : UInt8) (inline : ByteMem) :
    Option Decoded :=
  let tmp := (iphc1 &&& Iphc.dam11) >>> Iphc.damBit &&& 0x03
  if iphc1 &&& Iphc.m ≠ 0 then
    if iphc1 &&& Iphc.dac ≠ 0 then some { bytes := [], consumed := 0 }
    else if tmp > 0 ∧ tmp < 3 then
      let rest := uncompressAddr [0xff, inline 0]
        (uncMxconf.getD tmp.toNat 0) receiver (inline.shift 1)
      some { rest with consumed := rest.consumed + 1 }
    else
      some (uncompressAddr [0xff, 0x02] (uncMxconf.getD tmp.toNat 0)
        receiver inline)
  else if iphc1 &&& Iphc.dac ≠ 0 then
    (addrContextLookupByNumber contexts (numbers &&& 0x0f)).map
      fun context => uncompressAddr context.prefixBytes.toList
        (uncCtxconf.getD tmp.toNat 0) receiver inline
  else
    some (uncompressAddr llprefix (uncLlconf.getD tmp.toNat 0) receiver
      inline)

/-- The ports of a compressed UDP header, with its first byte at
`inline 0`. -/
def uncompressPorts (inline : ByteMem) : Decoded :=
  let encoding := inline 0 &&& NhcUdp.csP11
  if encoding = NhcUdp.csP00 then
    { bytes := inline.read 1 4, consumed := 5 }
  else if encoding = NhcUdp.csP01 then
    { bytes := inline.read 1 2 ++
        set16 (udp8BitPortMin + (inline 3).toNat)
      consumed := 4 }
  else if encoding = NhcUdp.csP10 then
    { bytes := set16 (udp8BitPortMin + (inline 1).toNat) ++
        inline.read 2 2
      consumed := 4 }
  else
    { bytes := set16 (udp4BitPortMin + (inline 1 >>> 4).toNat) ++
        set16 (udp4BitPortMin + (inline 1 &&& 0x0F).toNat)
      consumed := 2 }

/-- The result of a decompression: the packet buffer, `packetbuf_hdr_len`
and `uncomp_hdr_len`. -/
structure Uncompressed where
  buf : ByteMem
  packetbufHdrLen : Nat
  uncompHdrLen : Nat

/-- The next header, when it is compressed: the buffer, the bytes consumed
and the length added to the uncompressed headers. -/
def uncompressUdp (inline buf : ByteMem) : ByteMem × Nat × Nat :=
  if inline 0 &&& NhcUdp.mask = NhcUdp.id then
    let ports := uncompressPorts inline
    let buf := (buf.write 6 [uipProtoUdp]).write 40 ports.bytes
    if inline 0 &&& NhcUdp.checksumC = 0 then
      (buf.write 46 (inline.read ports.consumed 2), ports.consumed + 2,
        uipUdphLen)
    else (buf, ports.consumed, uipUdphLen)
  else (buf, 0, 0)

def uncompressLengths (datalen packetbufHdrLen uncompHdrLen ipLen : Nat)
    (buf : ByteMem) : ByteMem :=
  let len : Int :=
    if ipLen = 0 then
      (datalen : Int) - packetbufHdrLen + uncompHdrLen - uipIphLen
    else
      -- this is a first fragment
      (ipLen : Int) - uipIphLen
  let buf := buf.write 4 (set16 (len % 65536).toNat)
  if buf 6 = uipProtoUdp then buf.write 44 (buf.read 4 2) else buf

/-- The packet buffer and `hc06_ptr`. -/
structure Progress where
  buf : ByteMem
  ptr : Nat

/-- `uncompress_hdr_hc06` up to the hop limit. -/
def uncompressFields (iphc0 : UInt8) (frame : ByteMem) (ptr : Nat)
    (buf : ByteMem) : Progress :=
  let trafficFlow := uncompressTrafficFlow iphc0 (frame.shift ptr)
  let buf := buf.write 0 trafficFlow.bytes
  let ptr := ptr + trafficFlow.consumed
  let nextHeader := uncompressNextHeader iphc0 (frame.shift ptr)
  let buf := buf.write 6 nextHeader.bytes
  let ptr := ptr + nextHeader.consumed
  let hopLimit := uncompressHopLimit iphc0 (frame.shift ptr)
  { buf := buf.write 7 hopLimit.bytes, ptr := ptr + hopLimit.consumed }

/-- `uncompress_hdr_hc06` behind the addresses. -/
def uncompressTail (iphc0 : UInt8) (frame : ByteMem)
    (datalen ptr ipLen : Nat) (buf : ByteMem) : Uncompressed :=
  let udp :=
    if iphc0 &&& Iphc.nhC ≠ 0 then uncompressUdp (frame.shift ptr) buf
    else (buf, 0, 0)
  let packetbufHdrLen := ptr + udp.2.1
  let uncompHdrLen := uipIphLen + udp.2.2
  { buf := uncompressLengths datalen packetbufHdrLen uncompHdrLen ipLen
      udp.1
    packetbufHdrLen := packetbufHdrLen
    uncompHdrLen := uncompHdrLen }

/-- `uncompress_hdr_hc06` for the frame with `datalen` bytes at
`packetbuf_ptr`, whose compressed header starts at `packetbufHdrLen`.  It
returns early where a context is unknown. -/
def uncompressHdrHc06 (contexts : List AddrContext)
    (sender receiver : LinkAddr) (frame : ByteMem)
    (datalen packetbufHdrLen ipLen : Nat) (buf : ByteMem) :
    Uncompressed :=
  let iphc := frame.shift packetbufHdrLen
  let iphc0 := iphc 0
  let iphc1 := iphc 1
  let numbers := contextNumbers iphc1 iphc
  let ptr := packetbufHdrLen + 2 +
    if iphc1 &&& Iphc.cid ≠ 0 then 1 else 0
  let fields := uncompressFields iphc0 frame ptr buf
  match uncompressSource contexts sender iphc1 numbers
      (frame.shift fields.ptr) with
  | none =>
      { buf := fields.buf
        packetbufHdrLen := packetbufHdrLen
        uncompHdrLen := 0 }
  | some source =>
      let buf := fields.buf.write 8 source.bytes
      let ptr := fields.ptr + source.consumed
      match uncompressDestination contexts receiver iphc1 numbers
          (frame.shift ptr) with
      | none =>
          { buf := buf
            packetbufHdrLen := packetbufHdrLen
            uncompHdrLen := 0 }
      | some destination =>
          uncompressTail iphc0 frame datalen
            (ptr + destination.consumed) ipLen
            (buf.write 24 destination.bytes)

end Contiki.Sicslowpan
