import Contiki.Lib.BitMem
import Contiki.Net.Packetbuf

/-!
# Bit-packed headers

`core/net/rime/chameleon-bitopt.c` packs the attributes of a channel bit by
bit into the header of a packet, and unpacks them.  The addresses are in the
header, too: `CHAMELEON_WITH_MAC_LINK_ADDRESSES` is 0.
-/

namespace Contiki.Rime

open Contiki.Lib
open Contiki.Net

/-- `bitmask` -/
def bitmask (index : Nat) : Nat :=
  [0x00, 0x80, 0xc0, 0xe0, 0xf0, 0xf8, 0xfc, 0xfe, 0xff].getD index 0

/-- `get_bits_in_byte` -/
def getBitsInByte (memory : ByteMem) (ptr bitpos vallen : Nat) : UInt8 :=
  let shiftedVal := (memory ptr).toNat <<< 8 ||| (memory (ptr + 1)).toNat
  UInt8.ofNat
    (((shiftedVal <<< bitpos) >>> 8 &&& bitmask vallen) >>> (8 - vallen))

/-- `get_bits`; `to_` is the object that is stored to. -/
def getBits (to_ memory : ByteMem) (ptr bitpos vallen : Nat) : ByteMem :=
  if vallen < 8 then to_.store 0 (getBitsInByte memory ptr bitpos vallen)
  else
    let i := vallen / 8
    let bits := vallen % 8
    let bytes :=
      if bitpos = 0 then
        (List.range i).foldl (fun to_ i => to_.store i (memory (ptr + i)))
          to_
      else
        (List.range i).foldl
          (fun to_ i =>
            to_.store i (getBitsInByte memory (ptr + i) bitpos 8)) to_
    if bits ≠ 0 then
      bytes.store i (getBitsInByte memory (ptr + i) bitpos bits)
    else bytes

/-- `set_bits_in_byte` -/
def setBitsInByte (memory : ByteMem) (target bitpos : Nat) (val : UInt8)
    (vallen : Nat) : ByteMem :=
  let shiftedVal := (val.toNat <<< (8 - bitpos + 8 - vallen)) % 65536
  let memory := memory.store target
    (memory target ||| UInt8.ofNat (shiftedVal >>> 8))
  memory.store (target + 1)
    (memory (target + 1) ||| UInt8.ofNat (shiftedVal &&& 0xff))

/-- `set_bits` -/
def setBits (memory : ByteMem) (ptr bitpos : Nat) (val : ByteMem)
    (vallen : Nat) : ByteMem :=
  if vallen < 8 then setBitsInByte memory ptr bitpos (val 0) vallen
  else
    let i := vallen / 8
    let bits := vallen % 8
    if bitpos = 0 then
      let memory := (List.range i).foldl
        (fun memory i => memory.store (ptr + i) (val i)) memory
      if bits ≠ 0 then
        setBitsInByte memory (ptr + i) 0
          (UInt8.ofNat ((val i).toNat >>> (8 - bits))) bits
      else memory
    else
      let memory := (List.range i).foldl
        (fun memory i => setBitsInByte memory (ptr + i) bitpos (val i) 8)
        memory
      if bits ≠ 0 then
        setBitsInByte memory (ptr + i) 0
          (UInt8.ofNat ((val i).toNat >>> (8 - bits + bitpos))) bits
      else memory

/-- What a `type` of an attribute list is: `PACKETBUF_IS_ADDR`. -/
inductive FieldType (Attr Addr : Type) where
  | attr (type : Attr)
  | addr (type : Addr)
  deriving DecidableEq

/-- `struct packetbuf_attrlist` -/
structure AttrEntry (Attr Addr : Type) where
  type : FieldType Attr Addr
  len : UInt8
  deriving DecidableEq

variable {Attr Addr : Type}

/-- `header_size` -/
def headerSize (attrlist : List (AttrEntry Attr Addr)) : Nat :=
  attrlist.foldl (fun size entry => size + entry.len.toNat) 0

/-- `struct channel`, after `channel_set_attributes`; `hdrsize` is an
`uint8_t`. -/
structure Channel (Attr Addr : Type) where
  channelno : UInt16
  attrlist : List (AttrEntry Attr Addr)
  hdrsize : UInt8
  isSize : hdrsize = UInt8.ofNat (headerSize attrlist)

/-- The channel that `channel_open` and `channel_set_attributes` make. -/
def channelOpen (channelno : UInt16)
    (attrlist : List (AttrEntry Attr Addr)) : Channel Attr Addr where
  channelno := channelno
  attrlist := attrlist
  hdrsize := UInt8.ofNat (headerSize attrlist)
  isSize := rfl

/-- `channel_lookup` -/
def channelLookup (channels : List (Channel Attr Addr))
    (channelno : UInt16) : Option (Channel Attr Addr) :=
  channels.find? fun c => c.channelno = channelno

/-- `c->hdrsize / 8 + ((c->hdrsize & 7) == 0? 0: 1)` -/
def Channel.hdrbytesize (c : Channel Attr Addr) : Nat :=
  c.hdrsize.toNat / 8 + if c.hdrsize.toNat % 8 = 0 then 0 else 1

/-- `struct bitopt_hdr` with a channel number. -/
def channelBytes (channelno : UInt16) : List UInt8 :=
  [channelno.toUInt8, (channelno >>> (8 : UInt16)).toUInt8]

/-- The bytes of a `packetbuf_attr_t` in memory. -/
def attrBytes (val : UInt16) : ByteMem :=
  ByteMem.ofList [val.toUInt8, (val >>> (8 : UInt16)).toUInt8]

/-- The `packetbuf_attr_t` with these bytes in memory. -/
def attrOfBytes (bytes : ByteMem) : UInt16 :=
  UInt16.ofNat ((bytes 0).toNat + 256 * (bytes 1).toNat)

section Header

variable [DecidableEq Attr] [DecidableEq Addr] (linkaddrSize : Nat)

/-- The size of the object that an entry is stored in. -/
def FieldType.size : FieldType Attr Addr → Nat
  | .attr _ => 2
  | .addr _ => linkaddrSize

/-- The bytes of the attribute or address of an entry. -/
def fieldValue (buf : Packetbuf Attr Addr) : FieldType Attr Addr → ByteMem
  | .attr type => attrBytes (buf.attrs type)
  | .addr type => buf.addrs type

/-- The loop of `pack_header`; it has no result when `set_bits` reads behind
the end of an attribute or an address. -/
def packFields (buf : Packetbuf Attr Addr) (hdrptr : Nat) :
    List (AttrEntry Attr Addr) → Nat → ByteMem → Option ByteMem
  | [], _, memory => some memory
  | entry :: entries, bitptr, memory =>
      let len := entry.len.toNat
      if fieldBytes len ≤ entry.type.size linkaddrSize then
        packFields buf hdrptr entries (bitptr + len)
          (setBits memory (hdrptr + bitptr / 8) (bitptr % 8)
            (fieldValue buf entry.type) len)
      else none

/-- `pack_header` with its return value. -/
def packHeader (c : Channel Attr Addr) (buf : Packetbuf Attr Addr) :
    Option (Bool × Packetbuf Attr Addr) :=
  match buf.hdralloc (c.hdrbytesize + 2) with
  | none => some (false, buf)
  | some buf =>
      let memory := buf.packetbuf.write buf.hdrptr
        (channelBytes c.channelno ++ List.replicate c.hdrbytesize 0)
      match packFields linkaddrSize buf (buf.hdrptr + 2) c.attrlist 0
          memory with
      | some memory => some (true, { buf with packetbuf := memory })
      | none => none

/-- The value of an entry is stored: `packetbuf_set_attr` or
`packetbuf_set_addr`, which copies an address. -/
def setField (buf : Packetbuf Attr Addr) (bytes : ByteMem) :
    FieldType Attr Addr → Packetbuf Attr Addr
  | .attr type =>
      { buf with
        attrs := fun other =>
          if other = type then attrOfBytes bytes else buf.attrs other }
  | .addr type =>
      { buf with
        addrs := fun other =>
          if other = type then fun index =>
            if index < linkaddrSize then bytes index
            else buf.addrs type index
          else buf.addrs other }

/-- The object that `get_bits` stores to: `val` is 0, and `addr` is not
initialized, so that it has any bytes. -/
def FieldType.object (uninitialized : ByteMem) :
    FieldType Attr Addr → ByteMem
  | .attr _ => attrBytes 0
  | .addr _ => uninitialized

/-- The loop of `unpack_header`; it has no result when `get_bits` writes
behind the end of an attribute or an address. -/
def unpackFields (uninitialized : ByteMem) (hdrptr : Nat) :
    List (AttrEntry Attr Addr) → Nat → Packetbuf Attr Addr →
      Option (Packetbuf Attr Addr)
  | [], _, buf => some buf
  | entry :: entries, bitptr, buf =>
      let len := entry.len.toNat
      if fieldBytes len ≤ entry.type.size linkaddrSize then
        let bytes := getBits (entry.type.object uninitialized) buf.packetbuf
          (hdrptr + bitptr / 8) (bitptr % 8) len
        unpackFields uninitialized hdrptr entries (bitptr + len)
          (setField linkaddrSize buf bytes entry.type)
      else none

/-- `unpack_header` -/
def unpackHeader (channels : List (Channel Attr Addr))
    (uninitialized : ByteMem) (buf : Packetbuf Attr Addr) :
    Option (Option (Channel Attr Addr) × Packetbuf Attr Addr) :=
  let hdr := buf.dataptr
  match buf.hdrreduce 2 with
  | none => some (none, buf)
  | some buf =>
      let channelno := ((buf.packetbuf (hdr + 1)).toUInt16 <<< (8 : UInt16)) +
        (buf.packetbuf hdr).toUInt16
      match channelLookup channels channelno with
      | none => some (none, buf)
      | some c =>
          let hdrptr := buf.dataptr
          match buf.hdrreduce c.hdrbytesize with
          | none => some (none, buf)
          | some buf =>
              (unpackFields linkaddrSize uninitialized hdrptr c.attrlist 0
                buf).map fun buf => (some c, buf)

end Header

end Contiki.Rime
