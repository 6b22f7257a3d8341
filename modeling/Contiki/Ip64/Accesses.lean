import Contiki.Ip64.Binding

/-!
# The accesses of a translation

The bytes that `ip64_6to4` and `ip64_4to6` read and write, in the order of
the source.
-/

namespace Contiki.Ip64

open Contiki.Lib

/-- An access to `count` bytes from `start` on, or to a transport header. -/
inductive Access where
  /-- A read of the received packet. -/
  | packet (start count : Nat)
  /-- A write to the result. -/
  | write (start count : Nat)
  /-- A read of the result; the field of a checksum that has just been stored
  is not counted. -/
  | result (start count : Nat)
  /-- The transport header is taken at an offset from the IPv4 header. -/
  | transport (offset : Nat)

/-- What a translation may access. -/
structure Bounds where
  /-- The length of the received packet. -/
  received : Nat
  /-- `BUFSIZE` -/
  bufsize : Nat
  /-- The end of the header of the result and of the data behind it. -/
  filled : Nat
  /-- The header length of the IPv4 packet. -/
  headerLen : Nat

/-- An access that a translation may make. -/
def Access.Inside (bounds : Bounds) : Access → Prop
  | .packet start count => ∀ k, k < count → start + k < bounds.received
  | .write start count => ∀ k, k < count → start + k < bounds.bufsize
  | .result start count => ∀ k, k < count → start + k < bounds.filled
  | .transport offset => offset = bounds.headerLen

/-- All accesses are ones that a translation may make. -/
def Inside (bounds : Bounds) (accesses : List Access) : Prop :=
  ∀ access ∈ accesses, access.Inside bounds

/-- An IPv4 packet that is a fragment, but not the first one. -/
def LaterFragment (packet : ByteMem) : Prop :=
  readWord packet 6 &&& 0x1fff ≠ 0

/-- An IPv6 packet that is a fragment, but not the first one: the next header
is a fragment header with an offset. -/
def LaterFragment6 (packet : ByteMem) : Prop :=
  packet 6 = 44 ∧ readWord packet 42 &&& 0xfff8 ≠ 0

/-! ## `ip64_6to4` -/

/-- `ipv6len - IPV6_HDRLEN` as a `size_t` of 32 bits: where the length does
not fit its variable, the difference is negative. -/
def copied6to4 (len : UInt16) : Nat :=
  if 65536 ≤ len.toNat + ipv6Hdrlen then 4294901760 + len.toNat
  else len.toNat

def protoAccesses6to4 (ipv6packet : ByteMem) : List Access :=
  if ipv6packet 6 = ipProtoTcp ∨ ipv6packet 6 = ipProtoUdp then
    [.write 9 1, .packet 8 32, .packet 40 (readWord ipv6packet 4).toNat]
  else if ipv6packet 6 = ipProtoIcmpv6 then
    [.write 9 1, .packet 40 1] ++
      if ipv6packet 40 = icmp6EchoReply then [.write 20 1] else []
  else []

variable {numEntries width : Nat}

def portAccesses6to4 (config : Ip64Config)
    (addrmap : AddrMap numEntries width) (rands : List UInt16)
    (packet : ByteMem) (srcipaddr : Ip6Addr) (destipaddr : Ip4Addr)
    (proto : UInt8) : List Access :=
  [.result 9 1, .transport ipv4Hdrlen, .result 20 2] ++
    if config.outgoingIsSpecial (readWord packet 20) then
      [.packet 8 16] ++
        if (config.translateOutgoing (readWord packet 20) srcipaddr).isSome
        then [.write 20 2] else []
    else if ephemeralPortrange ≤ readWord packet 20 then
      [.packet 8 16, .result 16 4, .result 22 2] ++
        match findMapping addrmap rands packet srcipaddr destipaddr proto with
        | some (some _, _) =>
            [if proto = ipProtoTcp then .result 33 1 else .result 22 2,
              .write 20 2]
        | some (none, _) => []
        | none => []
    else []

def checksumAccesses6to4 (len : UInt16) (proto : UInt8) : List Access :=
  [.write 10 2, .result 0 20, .write 10 2, .result 9 1,
    .transport ipv4Hdrlen, .write (ipv4Hdrlen + checksumOffset proto) 2] ++
    (if proto ≠ ipProtoIcmpv4 then [.result 12 8] else []) ++
    [.result 20 len.toNat, .write (ipv4Hdrlen + checksumOffset proto) 2]

/-- The packet before its port is mapped. -/
def outgoing (ip64 : Ip64State numEntries width)
    (ipv6packet resultpacket : ByteMem) (destipaddr : Ip4Addr)
    (proto : UInt8) : ByteMem :=
  payload6to4 resultpacket ipv6packet
    (ipv4Header (readWord ipv6packet 4 + 20) (ip64.ipid + 1) (ipv6packet 7)
      proto ip64.hostaddr destipaddr)

/-- The transport header of an outgoing packet. -/
def transportAccesses6to4 (config : Ip64Config)
    (ip64 : Ip64State numEntries width) (rands : List UInt16)
    (ipv6packet resultpacket : ByteMem) (destipaddr : Ip4Addr)
    (proto : UInt8) : List Access :=
  if proto = ipProtoIcmpv4 then
    checksumAccesses6to4 (readWord ipv6packet 4) proto
  else
    portAccesses6to4 config ip64.addrmap rands
      (outgoing ip64 ipv6packet resultpacket destipaddr proto)
      (readAddr6 ipv6packet 8) destipaddr proto ++
      match mapOutgoing config ip64.addrmap rands
        (outgoing ip64 ipv6packet resultpacket destipaddr proto)
        (readAddr6 ipv6packet 8) destipaddr proto with
      | some (some _, _) =>
          checksumAccesses6to4 (readWord ipv6packet 4) proto
      | some (none, _) => []
      | none => []

/-- The addresses of an outgoing packet and what follows. -/
def addrAccesses6to4 (config : Ip64Config)
    (ip64 : Ip64State numEntries width) (rands : List UInt16)
    (ipv6packet resultpacket : ByteMem) (proto : UInt8) : List Access :=
  [.packet 7 1, .write 8 1, .packet 24 16] ++
    match ip64_addr_6to4 (readAddr6 ipv6packet 24) with
    | none => []
    | some destipaddr =>
        [.write 16 4] ++
          (if ip64.hostaddrConfigured then [] else [.result 16 4]) ++
          if ¬ ip64.hostaddrConfigured ∧ destipaddr ≠ ipv4BroadcastAddr then
            []
          else
            [.write 12 4] ++ transportAccesses6to4 config ip64 rands
              ipv6packet resultpacket destipaddr proto

/-- The accesses of `ip64_6to4`. -/
def accesses6to4 (config : Ip64Config) (ip64 : Ip64State numEntries width)
    (rands : List UInt16) (ipv6packet : ByteMem) (ipv6packetLen : UInt16)
    (resultpacket : ByteMem) : List Access :=
  [.packet 4 2] ++
    if ipv6packetLen < readWord ipv6packet 4 then []
    else
      [.packet 40 (copied6to4 (readWord ipv6packet 4)),
        .write 20 (copied6to4 (readWord ipv6packet 4)), .write 0 8,
        .packet 6 1] ++ protoAccesses6to4 ipv6packet ++
        match protoFor6to4 ipv6packet with
        | none => []
        | some proto =>
            addrAccesses6to4 config ip64 rands ipv6packet resultpacket proto

/-! ## `ip64_4to6` -/

def protoAccesses4to6 (ipv4packet : ByteMem) : List Access :=
  if ipv4packet 9 = ipProtoUdp ∨ ipv4packet 9 = ipProtoTcp then
    [.write 6 1]
  else if ipv4packet 9 = ipProtoIcmpv4 then
    [.transport ipv4Hdrlen, .packet 20 1] ++
      if ipv4packet 20 = icmpEcho then
        [.write 6 1, .write 40 1, .write 24 16]
      else []
  else []

def checksumAccesses4to6 (ipv4len : UInt16) (nxthdr : UInt8) : List Access :=
  [.result 6 1, .transport ipv4Hdrlen,
    .write (ipv6Hdrlen + checksumOffset nxthdr) 2, .result 8 32,
    .result 40 (ipv4len.toNat - ipv4Hdrlen),
    .write (ipv6Hdrlen + checksumOffset nxthdr) 2]

def portAccesses4to6 (config : Ip64Config) (destport : UInt16) :
    List Access :=
  if destport < ephemeralPortrange then []
  else if config.incomingIsSpecial destport then
    if (config.translateIncoming destport).isSome then [.write 42 2] else []
  else [.write 42 2]

/-- The addresses of an incoming packet and what follows. -/
def addrAccesses4to6 (config : Ip64Config)
    (ip64 : Ip64State numEntries width) (ipv4packet resultpacket : ByteMem)
    (nxthdr : UInt8) : List Access :=
  [.packet 16 4] ++
    if isBroadcast ip64 (readAddr4 ipv4packet 16) then
      [.write 24 16] ++ checksumAccesses4to6 (readWord ipv4packet 2) nxthdr
    else if ¬ ip64.hostaddrConfigured ∨
        readAddr4 ipv4packet 16 ≠ ip64.hostaddr then []
    else if nxthdr = ipProtoIcmpv6 then
      checksumAccesses4to6 (readWord ipv4packet 2) nxthdr
    else
      [.transport ipv4Hdrlen, .result 42 2] ++
        match mapIncoming config ip64
          (readWord (payload4to6 resultpacket ipv4packet) 42)
          (ipv4packet 9) with
        | some (some _, _) =>
            [.write 24 16] ++ portAccesses4to6 config
              (readWord (payload4to6 resultpacket ipv4packet) 42) ++
              checksumAccesses4to6 (readWord ipv4packet 2) nxthdr
        | some (none, _) => []
        | none => []

/-- The accesses of `ip64_4to6`. -/
def accesses4to6 (config : Ip64Config) (ip64 : Ip64State numEntries width)
    (ipv4packet : ByteMem) (ipv4packetLen : UInt16) (resultpacket : ByteMem) :
    List Access :=
  [.packet 2 2] ++
    if ipv4packetLen < readWord ipv4packet 2 ∨ readWord ipv4packet 2 ≤ 20 ∨
        config.bufsize <
          (readWord ipv4packet 2).toNat - ipv4Hdrlen + ipv6Hdrlen then []
    else
      [.packet 20 ((readWord ipv4packet 2).toNat - ipv4Hdrlen),
        .write 40 ((readWord ipv4packet 2).toNat - ipv4Hdrlen), .write 0 6,
        .packet 8 1, .write 7 1, .packet 12 4, .write 8 16, .packet 9 1] ++
        protoAccesses4to6 ipv4packet ++
        match nxthdrFor4to6 ipv4packet with
        | none => []
        | some nxthdr =>
            addrAccesses4to6 config ip64 ipv4packet resultpacket nxthdr

/-! ## Accesses inside the bounds -/

variable {bounds : Bounds}

@[simp]
theorem inside_nil : Inside bounds [] :=
  nofun

@[simp]
theorem inside_cons (access : Access) (accesses : List Access) :
    Inside bounds (access :: accesses) ↔
      access.Inside bounds ∧ Inside bounds accesses :=
  List.forall_mem_cons

@[simp]
theorem inside_append (first second : List Access) :
    Inside bounds (first ++ second) ↔
      Inside bounds first ∧ Inside bounds second :=
  List.forall_mem_append

theorem forall_lt_iff (start count limit : Nat) :
    (∀ k, k < count → start + k < limit) ↔
      count = 0 ∨ start + count ≤ limit := by
  constructor
  · intro all
    cases count with
    | zero =>
        exact .inl rfl
    | succ count =>
        exact .inr (all count (Nat.lt_succ_self count))
  · rintro (rfl | fits) k below
    · exact absurd below (Nat.not_lt_zero k)
    · omega

variable (start count : Nat)

@[simp]
theorem packet_inside :
    (Access.packet start count).Inside bounds ↔
      count = 0 ∨ start + count ≤ bounds.received :=
  forall_lt_iff start count bounds.received

@[simp]
theorem write_inside :
    (Access.write start count).Inside bounds ↔
      count = 0 ∨ start + count ≤ bounds.bufsize :=
  forall_lt_iff start count bounds.bufsize

@[simp]
theorem result_inside :
    (Access.result start count).Inside bounds ↔
      count = 0 ∨ start + count ≤ bounds.filled :=
  forall_lt_iff start count bounds.filled

@[simp]
theorem transport_inside (offset : Nat) :
    (Access.transport offset).Inside bounds ↔ offset = bounds.headerLen :=
  Iff.rfl

end Contiki.Ip64
