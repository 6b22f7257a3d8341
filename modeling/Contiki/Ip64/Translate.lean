import Contiki.Ip64.AddrMap
import Contiki.Lib.ByteMem

/-!
# The translation of ip64

`ip64.c`.  Packets are memories that start with the IP header; what a
translation does not write is what was in its buffer before.
-/

namespace Contiki.Ip64

open Contiki.Lib

/-! ## Words -/

/-- A word in network byte order, with `uip_ntohs`. -/
def readWord (packet : ByteMem) (addr : Nat) : UInt16 :=
  (packet addr).toUInt16 <<< 8 ||| (packet (addr + 1)).toUInt16

/-- The bytes of a word in network byte order. -/
def wordBytes (value : UInt16) : List UInt8 :=
  [(value >>> 8).toUInt8, value.toUInt8]

/-- Store a word in network byte order, with `uip_htons`. -/
def storeWord (packet : ByteMem) (addr : Nat) (value : UInt16) : ByteMem :=
  packet.write addr (wordBytes value)

/-! ## Headers -/

def ephemeralPortrange : UInt16 := 1024
def ipv6Hdrlen : Nat := 40
def ipv4Hdrlen : Nat := 20
def ipProtoIcmpv4 : UInt8 := 1
def ipProtoTcp : UInt8 := 6
def ipProtoUdp : UInt8 := 17
def ipProtoIcmpv6 : UInt8 := 58
def icmpEchoReply : UInt8 := 0
def icmpEcho : UInt8 := 8
def icmp6EchoReply : UInt8 := 129
def icmp6Echo : UInt8 := 128
def tcpFin : UInt8 := 0x01
def tcpSyn : UInt8 := 0x02
def tcpRst : UInt8 := 0x04

def readAddr4 (packet : ByteMem) (addr : Nat) : Ip4Addr :=
  Vector.ofFn fun i => packet (addr + i)

def readAddr6 (packet : ByteMem) (addr : Nat) : Ip6Addr :=
  Vector.ofFn fun i => packet (addr + i)

/-- `ipv4_broadcast_addr` -/
def ipv4BroadcastAddr : Ip4Addr := Vector.replicate 4 0xFF

/-- `uip_create_linklocal_allnodes_mcast` -/
def linklocalAllnodesMcast : Ip6Addr :=
  ⟨#[0xFF, 0x02, 0, 0, 0, 0, 0, 0, 0, 0, 0, 0, 0, 0, 0, 1], rfl⟩

/-- `ip64_addr_4to6` -/
def ip64_addr_4to6 (ipv4addr : Ip4Addr) : Ip6Addr :=
  (Vector.replicate 10 (0 : UInt8) ++ Vector.replicate 2 (0xFF : UInt8)) ++
    ipv4addr

/-- `ip64_addr_6to4` -/
def ip64_addr_6to4 (ipv6addr : Ip6Addr) : Option Ip4Addr :=
  if (List.range 10).all (fun i => ipv6addr.getD i 0 = 0) ∧
      ipv6addr[10] = 0xFF ∧ ipv6addr[11] = 0xFF then
    some (Vector.ofFn fun i => ipv6addr[12 + i.val])
  else none

/-! ## Checksums -/

/-- `chksum` -/
def chksum (sum : UInt16) : List UInt8 → UInt16
  | first :: second :: data =>
      let t := first.toUInt16 <<< 8 + second.toUInt16
      let sum := sum + t
      chksum (if sum < t then sum + 1 else sum) data
  | [last] =>
      let t := last.toUInt16 <<< 8 + 0
      let sum := sum + t
      if sum < t then sum + 1 else sum
  | [] => sum

/-- `(sum == 0) ? 0xffff : sum`, in host byte order. -/
def onesIfZero (sum : UInt16) : UInt16 :=
  if sum = 0 then 0xFFFF else sum

/-- `ipv4_checksum` -/
def ipv4Checksum (packet : ByteMem) : UInt16 :=
  onesIfZero (chksum 0 (packet.read 0 ipv4Hdrlen))

/-- `ipv4_transport_checksum` -/
def ipv4TransportChecksum (packet : ByteMem) (len : UInt16)
    (proto : UInt8) : UInt16 :=
  let transportLayerLen := len - 20
  let sum :=
    if proto ≠ ipProtoIcmpv4 then
      chksum (transportLayerLen + proto.toUInt16) (packet.read 12 8)
    else 0
  onesIfZero (chksum sum (packet.read ipv4Hdrlen transportLayerLen.toNat))

/-- `ipv6_transport_checksum` -/
def ipv6TransportChecksum (packet : ByteMem) (len : UInt16)
    (proto : UInt8) : UInt16 :=
  let transportLayerLen := len - 40
  let sum := transportLayerLen + proto.toUInt16
  let sum := chksum sum (packet.read 8 16)
  let sum := chksum sum (packet.read 24 16)
  onesIfZero (chksum sum (packet.read ipv6Hdrlen transportLayerLen.toNat))

/-- The place of a checksum in the transport header. -/
def checksumOffset (proto : UInt8) : Nat :=
  if proto = ipProtoTcp then 16 else if proto = ipProtoUdp then 6 else 2

/-- Set the checksum field of a packet to 0 and then to the complement of
what a function computes, but for UDP not to 0. -/
def storeChecksum (checksum : ByteMem → UInt16) (packet : ByteMem)
    (addr : Nat) (proto : UInt8) : ByteMem :=
  let packet := storeWord packet addr 0
  let packet := storeWord packet addr (~~~ checksum packet)
  if proto = ipProtoUdp ∧ readWord packet addr = 0 then
    storeWord packet addr 0xFFFF
  else packet

/-! ## Translations -/

/-- The configuration of ip64. -/
structure Ip64Config where
  /-- `ip64_special_ports_outgoing_is_special` -/
  outgoingIsSpecial : UInt16 → Bool
  /-- `ip64_special_ports_translate_outgoing` -/
  translateOutgoing : UInt16 → Ip6Addr → Option UInt16
  /-- `ip64_special_ports_incoming_is_special` -/
  incomingIsSpecial : UInt16 → Bool
  /-- `ip64_special_ports_translate_incoming` -/
  translateIncoming : UInt16 → Option (Ip6Addr × UInt16)
  /-- `CLOCK_SECOND` -/
  clockSecond : Nat
  /-- `UIP_BUFSIZE` -/
  bufsize : Nat
  bufsizeLt : bufsize < 65536

/-- The static variables of ip64. -/
structure Ip64State (numEntries width : Nat) where
  hostaddr : Ip4Addr
  netmask : Ip4Addr
  hostaddrConfigured : Bool
  ipid : UInt16
  ipv6LocalAddress : Ip6Addr
  addrmap : AddrMap numEntries width

variable {numEntries width : Nat}

/-- The entry for an outgoing packet, a new one if there is none. -/
def findMapping (addrmap : AddrMap numEntries width) (rands : List UInt16)
    (packet : ByteMem) (srcipaddr : Ip6Addr) (destipaddr : Ip4Addr)
    (proto : UInt8) :
    Option (Option (Fin numEntries) × AddrMap numEntries width) :=
  match addrmap.ip64AddrmapLookup srcipaddr (readWord packet 20) destipaddr
      (readWord packet 22) proto with
  | none => none
  | some (some m, addrmap) => some (some m, addrmap)
  | some (none, addrmap) =>
      addrmap.ip64AddrmapCreate srcipaddr (readWord packet 20) destipaddr
        (readWord packet 22) proto rands

/-- The lifetime of an entry and its flag after an outgoing packet. -/
def updateMapping (config : Ip64Config)
    (addrmap : AddrMap numEntries width) (packet : ByteMem) (proto : UInt8)
    (m : Fin numEntries) : AddrMap numEntries width :=
  let lifetime := fun seconds => addrmap.ip64AddrmapSetLifetime (some m)
    (BitVec.ofNat width (config.clockSecond * seconds))
  if proto = ipProtoTcp then
    let flags := packet 33
    let addrmap :=
      if flags &&& tcpSyn ≠ 0 then lifetime 20
      else if flags &&& tcpRst ≠ 0 then lifetime 30
      else lifetime 300
    if flags &&& tcpFin ≠ 0 ∨ flags &&& tcpRst ≠ 0 then
      addrmap.ip64AddrmapSetRecycleble (some m)
    else addrmap
  else if readWord packet 22 = 53 then
    (lifetime 300).ip64AddrmapSetRecycleble (some m)
  else lifetime 300

/-- The source port of an outgoing packet, or none for a packet that is
dropped. -/
def mapOutgoing (config : Ip64Config) (addrmap : AddrMap numEntries width)
    (rands : List UInt16) (packet : ByteMem) (srcipaddr : Ip6Addr)
    (destipaddr : Ip4Addr) (proto : UInt8) :
    Option (Option UInt16 × AddrMap numEntries width) :=
  let srcport := readWord packet 20
  if config.outgoingIsSpecial srcport then
    some (some ((config.translateOutgoing srcport srcipaddr).getD srcport),
      addrmap)
  else if ephemeralPortrange ≤ srcport then
    match findMapping addrmap rands packet srcipaddr destipaddr proto with
    | none => none
    | some (none, addrmap) => some (none, addrmap)
    | some (some m, addrmap) =>
        let addrmap := updateMapping config addrmap packet proto m
        some (some (addrmap.entry m).mappedPort, addrmap)
  else some (some srcport, addrmap)

/-- The protocol of an IPv4 packet for an IPv6 packet. -/
def protoFor6to4 (ipv6packet : ByteMem) : Option UInt8 :=
  if ipv6packet 6 = ipProtoTcp then some ipProtoTcp
  else if ipv6packet 6 = ipProtoUdp then some ipProtoUdp
  else if ipv6packet 6 = ipProtoIcmpv6 ∧ ipv6packet 40 = icmp6EchoReply then
    some ipProtoIcmpv4
  else none

def ipv4Header (ipv4len ipid : UInt16) (ttl proto : UInt8)
    (srcipaddr destipaddr : Ip4Addr) : List UInt8 :=
  [0x45, 0] ++ wordBytes ipv4len ++ wordBytes ipid ++ [0, 0, ttl, proto] ++
    wordBytes 0 ++ srcipaddr.toList ++ destipaddr.toList

/-- The end of `ip64_6to4`: the checksums. -/
def checksums6to4 (packet : ByteMem) (ipv4len : UInt16) (proto : UInt8) :
    ByteMem :=
  let packet := storeWord packet 10 (~~~ ipv4Checksum packet)
  storeChecksum (fun packet => ipv4TransportChecksum packet ipv4len proto)
    packet (ipv4Hdrlen + checksumOffset proto) proto

/-- `ip64_6to4`: the length and the packet, none if it returns 0, and no
result if the length of the packet is too large for its variable or
`random_rand` has too few results. -/
def ip64_6to4 (config : Ip64Config) (ip64 : Ip64State numEntries width)
    (rands : List UInt16) (ipv6packet : ByteMem) (ipv6packetLen : UInt16)
    (resultpacket : ByteMem) :
    Option (Option (UInt16 × ByteMem) × Ip64State numEntries width) :=
  let len := readWord ipv6packet 4
  if ipv6packetLen < len then some (none, ip64)
  else if 65536 ≤ len.toNat + ipv6Hdrlen then none
  else
    let ipv4len := len + 20
    let packet := resultpacket.write ipv4Hdrlen
      (ipv6packet.read ipv6Hdrlen len.toNat)
    let ip64 := { ip64 with ipid := ip64.ipid + 1 }
    match protoFor6to4 ipv6packet with
    | none => some (none, ip64)
    | some proto =>
        let packet :=
          if proto = ipProtoIcmpv4 then packet.write 20 [icmpEchoReply]
          else packet
        match ip64_addr_6to4 (readAddr6 ipv6packet 24) with
        | none => some (none, ip64)
        | some destipaddr =>
            if ¬ ip64.hostaddrConfigured ∧ destipaddr ≠ ipv4BroadcastAddr then
              some (none, ip64)
            else
              let packet := packet.write 0 (ipv4Header ipv4len ip64.ipid
                (ipv6packet 7) proto ip64.hostaddr destipaddr)
              if proto = ipProtoIcmpv4 then
                some (some (ipv4len, checksums6to4 packet ipv4len proto),
                  ip64)
              else
                match mapOutgoing config ip64.addrmap rands packet
                    (readAddr6 ipv6packet 8) destipaddr proto with
                | none => none
                | some (none, addrmap) =>
                    some (none, { ip64 with addrmap := addrmap })
                | some (some srcport, addrmap) =>
                    some (some (ipv4len, checksums6to4
                        (storeWord packet 20 srcport) ipv4len proto),
                      { ip64 with addrmap := addrmap })

/-- The next header of an IPv6 packet for an IPv4 packet. -/
def nxthdrFor4to6 (ipv4packet : ByteMem) : Option UInt8 :=
  if ipv4packet 9 = ipProtoUdp then some ipProtoUdp
  else if ipv4packet 9 = ipProtoTcp then some ipProtoTcp
  else if ipv4packet 9 = ipProtoIcmpv4 ∧ ipv4packet 20 = icmpEcho then
    some ipProtoIcmpv6
  else none

/-- A packet is sent to all hosts, or to all hosts of the network. -/
def isBroadcast (ip64 : Ip64State numEntries width) (destipaddr : Ip4Addr) :
    Bool :=
  destipaddr = ipv4BroadcastAddr ∨
    ∀ i : Fin 4,
      destipaddr[i] &&& ip64.netmask[i] =
          ip64.hostaddr[i] &&& ip64.netmask[i] ∧
        destipaddr[i] &&& ~~~ ip64.netmask[i] = ~~~ ip64.netmask[i]

/-- The address and the port for an incoming TCP or UDP packet, or none for a
packet that is dropped. -/
def mapIncoming (config : Ip64Config) (ip64 : Ip64State numEntries width)
    (destport : UInt16) (proto : UInt8) :
    Option (Option (Ip6Addr × UInt16) × AddrMap numEntries width) :=
  if destport < ephemeralPortrange then
    some (some (ip64.ipv6LocalAddress, destport), ip64.addrmap)
  else if config.incomingIsSpecial destport then
    some (some ((config.translateIncoming destport).getD
      (ip64.ipv6LocalAddress, destport)), ip64.addrmap)
  else
    match ip64.addrmap.ip64AddrmapLookupPort destport proto with
    | none => none
    | some (none, addrmap) => some (none, addrmap)
    | some (some m, addrmap) =>
        some (some ((addrmap.entry m).ip6addr, (addrmap.entry m).ip6port),
          addrmap)

def ipv6Header (payloadLen : UInt16) (nxthdr hoplim : UInt8)
    (srcipaddr destipaddr : Ip6Addr) : List UInt8 :=
  [0x60, 0, 0, 0] ++ wordBytes payloadLen ++ [nxthdr, hoplim] ++
    srcipaddr.toList ++ destipaddr.toList

/-- The end of `ip64_4to6`: the addresses and the checksum. -/
def finish4to6 (packet ipv4packet : ByteMem) (ipv4len : UInt16)
    (nxthdr : UInt8) (destipaddr : Ip6Addr) : UInt16 × ByteMem :=
  let ipv6len := ipv4len + 20
  let packet := packet.write 0 (ipv6Header (ipv4len - 20) nxthdr
    (ipv4packet 8) (ip64_addr_4to6 (readAddr4 ipv4packet 12)) destipaddr)
  (ipv6len, storeChecksum
    (fun packet => ipv6TransportChecksum packet ipv6len nxthdr)
    packet (ipv6Hdrlen + checksumOffset nxthdr) nxthdr)

/-- `ip64_4to6`: the length and the packet, none if it returns 0. -/
def ip64_4to6 (config : Ip64Config) (ip64 : Ip64State numEntries width)
    (ipv4packet : ByteMem) (ipv4packetLen : UInt16)
    (resultpacket : ByteMem) :
    Option (Option (UInt16 × ByteMem) × Ip64State numEntries width) :=
  let ipv4len := readWord ipv4packet 2
  if ipv4packetLen < ipv4len ∨ ipv4len ≤ 20 ∨
      config.bufsize < ipv4len.toNat - ipv4Hdrlen + ipv6Hdrlen then
    some (none, ip64)
  else
    let packet := resultpacket.write ipv6Hdrlen
      (ipv4packet.read ipv4Hdrlen (ipv4len.toNat - ipv4Hdrlen))
    match nxthdrFor4to6 ipv4packet with
    | none => some (none, ip64)
    | some nxthdr =>
        let packet :=
          if nxthdr = ipProtoIcmpv6 then packet.write 40 [icmp6Echo]
          else packet
        let destipaddr := readAddr4 ipv4packet 16
        if isBroadcast ip64 destipaddr then
          some (some (finish4to6 packet ipv4packet ipv4len nxthdr
            linklocalAllnodesMcast), ip64)
        else if ¬ ip64.hostaddrConfigured ∨ destipaddr ≠ ip64.hostaddr then
          some (none, ip64)
        else if nxthdr = ipProtoIcmpv6 then
          some (some (finish4to6 packet ipv4packet ipv4len nxthdr
            ip64.ipv6LocalAddress), ip64)
        else
          match mapIncoming config ip64 (readWord packet 42)
              (ipv4packet 9) with
          | none => none
          | some (none, addrmap) =>
              some (none, { ip64 with addrmap := addrmap })
          | some (some (destipaddr, destport), addrmap) =>
              some (some (finish4to6 (storeWord packet 42 destport)
                  ipv4packet ipv4len nxthdr destipaddr),
                { ip64 with addrmap := addrmap })

end Contiki.Ip64
