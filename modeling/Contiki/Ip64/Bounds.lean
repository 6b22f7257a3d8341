import Contiki.Ip64.Accesses

/-!
# Translations that stay inside their packets

Exactly which packets `ip64_4to6` and `ip64_6to4` translate without an access
outside the received packet or the result, with the transport header where
the IPv4 header ends, and without taking a later fragment for a packet.
-/

namespace Contiki.Ip64

open Contiki.Lib

variable {numEntries width : Nat}

/-! ## The specification -/

/-- What `ip64_4to6` may access. -/
def bounds4to6 (config : Ip64Config) (ipv4packet : ByteMem)
    (ipv4packetLen : UInt16) : Bounds where
  received := ipv4packetLen.toNat
  bufsize := config.bufsize
  filled := (readWord ipv4packet 2).toNat - ipv4Hdrlen + ipv6Hdrlen
  headerLen := headerLen ipv4packet

/-- `ip64_4to6` stays inside its packets and translates no later fragment. -/
def Bounded4to6 (config : Ip64Config) (ip64 : Ip64State numEntries width)
    (ipv4packet : ByteMem) (ipv4packetLen : UInt16) (resultpacket : ByteMem) :
    Prop :=
  Inside (bounds4to6 config ipv4packet ipv4packetLen)
      (accesses4to6 config ip64 ipv4packet ipv4packetLen resultpacket) ∧
    ∀ len out after, ip64_4to6 config ip64 ipv4packet ipv4packetLen
      resultpacket = some (some (len, out), after) →
        ¬ LaterFragment ipv4packet

/-- What `ip64_6to4` may access. -/
def bounds6to4 (config : Ip64Config) (ipv6packet : ByteMem)
    (ipv6packetLen : UInt16) : Bounds where
  received := ipv6packetLen.toNat
  bufsize := config.bufsize
  filled := (readWord ipv6packet 4).toNat + ipv4Hdrlen
  headerLen := ipv4Hdrlen

/-- `ip64_6to4` stays inside its packets, gives the header length of the IPv4
packet behind which it puts the transport header, and translates no later
fragment. -/
def Bounded6to4 (config : Ip64Config) (ip64 : Ip64State numEntries width)
    (rands : List UInt16) (ipv6packet : ByteMem) (ipv6packetLen : UInt16)
    (resultpacket : ByteMem) : Prop :=
  Inside (bounds6to4 config ipv6packet ipv6packetLen)
      (accesses6to4 config ip64 rands ipv6packet ipv6packetLen
        resultpacket) ∧
    ∀ len out after, ip64_6to4 config ip64 rands ipv6packet ipv6packetLen
      resultpacket = some (some (len, out), after) →
        headerLen out = ipv4Hdrlen ∧ ¬ LaterFragment6 ipv6packet

/-! ## Incoming packets -/

/-- The length checks let the packet in. -/
def Enters4 (config : Ip64Config) (ipv4packet : ByteMem)
    (ipv4packetLen : UInt16) : Prop :=
  readWord ipv4packet 2 ≤ ipv4packetLen ∧
    ipv4Hdrlen < (readWord ipv4packet 2).toNat ∧
    (readWord ipv4packet 2).toNat + 20 ≤ config.bufsize

/-- The packet holds a UDP datagram or a TCP segment. -/
def HasPorts4 (ipv4packet : ByteMem) : Prop :=
  ipv4packet 9 = ipProtoUdp ∨ ipv4packet 9 = ipProtoTcp

/-- The packet is sent to the host. -/
def ToHost (ip64 : Ip64State numEntries width) (ipv4packet : ByteMem) :
    Prop :=
  ¬ isBroadcast ip64 (readAddr4 ipv4packet 16) ∧
    ip64.hostaddrConfigured ∧ readAddr4 ipv4packet 16 = ip64.hostaddr

def Accepts (ip64 : Ip64State numEntries width) (ipv4packet : ByteMem) :
    Prop :=
  isBroadcast ip64 (readAddr4 ipv4packet 16) ∨ ToHost ip64 ipv4packet

/-- There is a receiver for the port. -/
def HasReceiver (config : Ip64Config) (ip64 : Ip64State numEntries width)
    (destport : UInt16) (proto : UInt8) : Prop :=
  destport < ephemeralPortrange ∨ config.incomingIsSpecial destport ∨
    ∃ m after, ip64.addrmap.ip64AddrmapLookupPort destport proto =
      some (some m, after)

/-- The packet is one that is translated. -/
def Translated4 (config : Ip64Config) (ip64 : Ip64State numEntries width)
    (ipv4packet : ByteMem) : Prop :=
  Accepts ip64 ipv4packet ∧
    (ipv4packet 9 = ipProtoIcmpv4 ∧ ipv4packet 20 = icmpEcho ∨
      HasPorts4 ipv4packet ∧ (ToHost ip64 ipv4packet →
        HasReceiver config ip64 (readWord ipv4packet 22) (ipv4packet 9)))

/-- When `ip64_4to6` stays inside its packets. -/
structure Contained4 (config : Ip64Config) (ip64 : Ip64State numEntries width)
    (ipv4packet : ByteMem) (ipv4packetLen : UInt16) : Prop where
  /-- The length field is received. -/
  length : 4 ≤ ipv4packetLen.toNat
  /-- There are no options in front of a transport header. -/
  options : Enters4 config ipv4packet ipv4packetLen →
    (ipv4packet 9 = ipProtoIcmpv4 ∨
      HasPorts4 ipv4packet ∧ Accepts ip64 ipv4packet) →
    headerLen ipv4packet = ipv4Hdrlen
  /-- Ports that are looked up are received. -/
  ports : Enters4 config ipv4packet ipv4packetLen →
    HasPorts4 ipv4packet → ToHost ip64 ipv4packet →
    ipv4Hdrlen + 4 ≤ (readWord ipv4packet 2).toNat
  /-- The packet is no later fragment. -/
  first : Enters4 config ipv4packet ipv4packetLen →
    Translated4 config ip64 ipv4packet → ¬ LaterFragment ipv4packet

theorem checksumOffset_le (proto : UInt8) : checksumOffset proto ≤ 16 := by
  unfold checksumOffset
  split
  · exact Nat.le_refl 16
  split <;> decide

section Incoming

variable {bounds : Bounds} {ipv4len : UInt16}

theorem inside_checksumAccesses4to6 (room : 548 ≤ bounds.bufsize)
    (filled : bounds.filled = ipv4len.toNat - ipv4Hdrlen + ipv6Hdrlen)
    (nxthdr : UInt8) :
    Inside bounds (checksumAccesses4to6 ipv4len nxthdr) ↔
      bounds.headerLen = ipv4Hdrlen := by
  have field := checksumOffset_le nxthdr
  have short : ipv4Hdrlen = 20 := rfl
  have long : ipv6Hdrlen = 40 := rfl
  simp only [checksumAccesses4to6, inside_cons, inside_nil, result_inside,
    write_inside, transport_inside, filled]
  constructor
  · intro inside
    exact inside.2.1.symm
  · intro same
    refine ⟨?_, same.symm, ?_, ?_, ?_, ?_, trivial⟩ <;> omega

theorem mapIncoming_iff {config : Ip64Config}
    {ip64 : Ip64State numEntries width} {destport : UInt16} {proto : UInt8} :
    (∃ target after, mapIncoming config ip64 destport proto =
        some (some target, after)) ↔
      HasReceiver config ip64 destport proto := by
  unfold mapIncoming HasReceiver
  split
  next low =>
    exact iff_of_true ⟨_, _, rfl⟩ (.inl low)
  next high =>
    split
    next special =>
      exact iff_of_true ⟨_, _, rfl⟩ (.inr (.inl special))
    next plain =>
      simp only [high, plain, false_or]
      cases ip64.addrmap.ip64AddrmapLookupPort destport proto with
      | none =>
          simp
      | some result =>
          obtain ⟨found, addrmap⟩ := result
          cases found <;> simp

theorem inside_addrAccesses4to6 {config : Ip64Config}
    {ip64 : Ip64State numEntries width} {ipv4packet resultpacket : ByteMem}
    {nxthdr : UInt8} (room : 548 ≤ bounds.bufsize)
    (filled : bounds.filled =
      (readWord ipv4packet 2).toNat - ipv4Hdrlen + ipv6Hdrlen)
    (header : ipv4Hdrlen ≤ bounds.received) :
    Inside bounds
        (addrAccesses4to6 config ip64 ipv4packet resultpacket nxthdr) ↔
      (Accepts ip64 ipv4packet → bounds.headerLen = ipv4Hdrlen) ∧
        (ToHost ip64 ipv4packet → nxthdr ≠ ipProtoIcmpv6 →
          44 ≤ bounds.filled) := by
  have short : ipv4Hdrlen = 20 := rfl
  have addr : 16 + 4 ≤ bounds.received := header
  have stored : 24 + 16 ≤ bounds.bufsize := by
    omega
  unfold addrAccesses4to6 Accepts ToHost
  rw [inside_append, inside_cons, packet_inside]
  split
  next broadcast =>
    simp [broadcast, inside_checksumAccesses4to6 room filled, addr, stored]
  next unicast =>
    split
    next foreign =>
      have other : ¬ (ip64.hostaddrConfigured = true ∧
          readAddr4 ipv4packet 16 = ip64.hostaddr) := by
        rcases foreign with off | other
        · exact fun host => off host.1
        · exact fun host => other host.2
      simp [unicast, other, addr]
    next host =>
      rw [not_or, not_not, not_not] at host
      split
      next icmp =>
        simp [host, icmp, inside_checksumAccesses4to6 room filled, addr]
      next ports =>
        have mapped (destport : UInt16) :
            Inside bounds (portAccesses4to6 config destport) := by
          unfold portAccesses4to6
          split
          · exact inside_nil
          split
          · split
            · simp only [inside_cons, inside_nil, write_inside]
              exact ⟨by omega, trivial⟩
            · exact inside_nil
          · simp only [inside_cons, inside_nil, write_inside]
            exact ⟨by omega, trivial⟩
        simp only [inside_append, inside_cons, inside_nil, transport_inside,
          result_inside]
        constructor
        · rintro ⟨-, ⟨same, fits, -⟩, -⟩
          refine ⟨fun _ => same.symm, fun _ _ => ?_⟩
          rcases fits with none | fits
          · exact absurd none (by decide)
          · exact fits
        · rintro ⟨same, fits⟩
          have accepted : bounds.headerLen = ipv4Hdrlen :=
            same (.inr ⟨unicast, host⟩)
          have checksum :=
            (inside_checksumAccesses4to6 room filled nxthdr).mpr accepted
          refine ⟨⟨.inr addr, trivial⟩, ⟨accepted.symm,
            .inr (fits ⟨unicast, host⟩ ports), trivial⟩, ?_⟩
          split
          · simp only [inside_append, inside_cons, inside_nil, write_inside]
            exact ⟨⟨⟨.inr stored, trivial⟩, mapped _⟩, checksum⟩
          · exact inside_nil
          · exact inside_nil

theorem inside_protoAccesses4to6 {ipv4packet : ByteMem}
    (room : 548 ≤ bounds.bufsize) (header : 21 ≤ bounds.received) :
    Inside bounds (protoAccesses4to6 ipv4packet) ↔
      (ipv4packet 9 = ipProtoIcmpv4 → bounds.headerLen = ipv4Hdrlen) := by
  unfold protoAccesses4to6
  split
  next ports =>
    have other : ipv4packet 9 ≠ ipProtoIcmpv4 := by
      rcases ports with equal | equal <;> rw [equal] <;> decide
    simp only [inside_cons, inside_nil, write_inside, other, false_implies]
    exact iff_of_true ⟨by omega, trivial⟩ trivial
  next =>
    split
    next icmp =>
      simp only [inside_append, inside_cons, inside_nil, transport_inside,
        packet_inside, icmp, true_implies]
      constructor
      · rintro ⟨⟨same, -⟩, -⟩
        exact same.symm
      · intro same
        refine ⟨⟨same.symm, .inr header, trivial⟩, ?_⟩
        split
        · simp only [inside_cons, inside_nil, write_inside]
          exact ⟨by omega, by omega, by omega, trivial⟩
        · exact inside_nil
    next other =>
      simp [other]

end Incoming

theorem nxthdrFor4to6_isSome_iff (ipv4packet : ByteMem) :
    (nxthdrFor4to6 ipv4packet).isSome ↔
      ipv4packet 9 = ipProtoIcmpv4 ∧ ipv4packet 20 = icmpEcho ∨
        HasPorts4 ipv4packet := by
  unfold nxthdrFor4to6 HasPorts4
  split
  next udp =>
    simp [udp]
  next =>
    split
    next tcp =>
      simp [tcp]
    next =>
      split
      next echo =>
        simp [echo]
      next other =>
        simp_all

variable {config : Ip64Config}

theorem enters4_iff {ipv4packet : ByteMem} {ipv4packetLen : UInt16} :
    Enters4 config ipv4packet ipv4packetLen ↔
      ¬ (ipv4packetLen < readWord ipv4packet 2 ∨ readWord ipv4packet 2 ≤ 20 ∨
        config.bufsize <
          (readWord ipv4packet 2).toNat - ipv4Hdrlen + ipv6Hdrlen) := by
  have short : ipv4Hdrlen = 20 := rfl
  have long : ipv6Hdrlen = 40 := rfl
  have twenty : (20 : UInt16).toNat = 20 := rfl
  unfold Enters4
  simp only [UInt16.lt_iff_toNat_lt, UInt16.le_iff_toNat_le, twenty]
  constructor
  · rintro ⟨received, header, fits⟩
    omega
  · intro enters
    omega

variable {ip64 : Ip64State numEntries width}

theorem not_translated4 {ipv4packet : ByteMem}
    (none : nxthdrFor4to6 ipv4packet = none) :
    ¬ Translated4 config ip64 ipv4packet := by
  rintro ⟨-, protocol⟩
  have found := (nxthdrFor4to6_isSome_iff ipv4packet).mpr
    (protocol.imp_right And.left)
  rw [none] at found
  exact absurd found (by decide)

theorem HasPorts4.not_icmp {ipv4packet : ByteMem}
    (ports : HasPorts4 ipv4packet) : ipv4packet 9 ≠ ipProtoIcmpv4 := by
  rcases ports with equal | equal <;> rw [equal] <;> decide

variable {ipv4packet resultpacket : ByteMem} {ipv4packetLen : UInt16}

theorem translated4_iff (enters : Enters4 config ipv4packet ipv4packetLen)
    (ports : HasPorts4 ipv4packet → ToHost ip64 ipv4packet →
      ipv4Hdrlen + 4 ≤ (readWord ipv4packet 2).toNat) :
    (∃ len out after, ip64_4to6 config ip64 ipv4packet ipv4packetLen
      resultpacket = some (some (len, out), after)) ↔
        Translated4 config ip64 ipv4packet := by
  unfold ip64_4to6
  dsimp only
  rw [if_neg (enters4_iff.mp enters)]
  cases found : nxthdrFor4to6 ipv4packet with
  | none =>
      simp [not_translated4 found]
  | some nxthdr =>
      have protocol := (nxthdrFor4to6_isSome_iff ipv4packet).mp
        (by rw [found]; rfl)
      dsimp only
      split
      next broadcast =>
        refine iff_of_true ⟨_, _, _, rfl⟩ ⟨.inl broadcast, ?_⟩
        exact protocol.imp_right fun has =>
          ⟨has, fun host => absurd broadcast host.1⟩
      next unicast =>
        split
        next foreign =>
          refine iff_of_false (by simp) ?_
          rintro ⟨broadcast | host, -⟩
          · exact unicast broadcast
          · rcases foreign with off | other
            · exact off host.2.1
            · exact other host.2.2
        next host =>
          rw [not_or, not_not, not_not] at host
          have toHost : ToHost ip64 ipv4packet := ⟨unicast, host⟩
          split
          next icmp =>
            refine iff_of_true ⟨_, _, _, rfl⟩ ⟨.inr toHost, .inl ?_⟩
            rcases protocol with echo | has
            · exact echo
            · rcases nxthdrFor4to6_cases found with
                ⟨-, equal | equal⟩ | ⟨protocol, -⟩
              · rw [equal] at icmp
                exact absurd icmp (by decide)
              · rw [equal] at icmp
                exact absurd icmp (by decide)
              · exact absurd protocol has.not_icmp
          next other =>
            have has : HasPorts4 ipv4packet := by
              rcases nxthdrFor4to6_cases found with
                ⟨same, equal | equal⟩ | ⟨-, equal⟩
              · exact .inr (same.trans equal)
              · exact .inl (same.trans equal)
              · exact absurd equal other
            have port := readWord_payload4to6 resultpacket ipv4packet
              (ports has toHost)
            unfold payload4to6 at port
            rw [port]
            have receiver := @mapIncoming_iff _ _ config ip64
              (readWord ipv4packet 22) (ipv4packet 9)
            have translated : Translated4 config ip64 ipv4packet ↔
                HasReceiver config ip64 (readWord ipv4packet 22)
                  (ipv4packet 9) := by
              constructor
              · rintro ⟨-, echo | ⟨-, mapped⟩⟩
                · exact absurd echo.1 has.not_icmp
                · exact mapped toHost
              · intro mapped
                exact ⟨.inr toHost, .inr ⟨has, fun _ => mapped⟩⟩
            rw [translated, ← receiver]
            cases mapIncoming config ip64 (readWord ipv4packet 22)
                (ipv4packet 9) with
            | none =>
                simp
            | some result =>
                obtain ⟨target, addrmap⟩ := result
                cases target with
                | none =>
                    simp
                | some target =>
                    exact iff_of_true ⟨_, _, _, rfl⟩ ⟨_, _, rfl⟩

theorem inside_accesses4to6 (room : 548 ≤ config.bufsize)
    (enters : Enters4 config ipv4packet ipv4packetLen) :
    Inside (bounds4to6 config ipv4packet ipv4packetLen)
        (accesses4to6 config ip64 ipv4packet ipv4packetLen resultpacket) ↔
      ((ipv4packet 9 = ipProtoIcmpv4 ∨
          HasPorts4 ipv4packet ∧ Accepts ip64 ipv4packet) →
        headerLen ipv4packet = ipv4Hdrlen) ∧
      (HasPorts4 ipv4packet → ToHost ip64 ipv4packet →
        ipv4Hdrlen + 4 ≤ (readWord ipv4packet 2).toNat) := by
  have short : ipv4Hdrlen = 20 := rfl
  have long : ipv6Hdrlen = 40 := rfl
  obtain ⟨received, header, fits⟩ := enters
  rw [UInt16.le_iff_toNat_le] at received
  generalize bound : bounds4to6 config ipv4packet ipv4packetLen = bounds
  have isReceived : bounds.received = ipv4packetLen.toNat := by
    rw [← bound]
    rfl
  have isBufsize : bounds.bufsize = config.bufsize := by
    rw [← bound]
    rfl
  have isFilled : bounds.filled =
      (readWord ipv4packet 2).toNat - ipv4Hdrlen + ipv6Hdrlen := by
    rw [← bound]
    rfl
  have isHeaderLen : bounds.headerLen = headerLen ipv4packet := by
    rw [← bound]
    rfl
  have enough : 548 ≤ bounds.bufsize := by
    omega
  have first : Inside bounds
      [.packet 20 ((readWord ipv4packet 2).toNat - ipv4Hdrlen),
        .write 40 ((readWord ipv4packet 2).toNat - ipv4Hdrlen), .write 0 6,
        .packet 8 1, .write 7 1, .packet 12 4, .write 8 16, .packet 9 1] := by
    simp only [inside_cons, inside_nil, packet_inside, write_inside]
    refine ⟨?_, ?_, ?_, ?_, ?_, ?_, ?_, ?_, trivial⟩ <;> omega
  have length : Inside bounds [.packet 2 2] := by
    simp only [inside_cons, inside_nil, packet_inside]
    exact ⟨by omega, trivial⟩
  have proto := @inside_protoAccesses4to6 bounds ipv4packet enough (by omega)
  unfold accesses4to6
  rw [if_neg (enters4_iff.mp ⟨received, header, fits⟩), inside_append,
    inside_append, inside_append, proto, isHeaderLen]
  simp only [length, first, true_and]
  cases found : nxthdrFor4to6 ipv4packet with
  | none =>
      have noPorts : ¬ HasPorts4 ipv4packet := fun has => by
        have some := (nxthdrFor4to6_isSome_iff ipv4packet).mpr (.inr has)
        rw [found] at some
        exact absurd some (by decide)
      simp [noPorts]
  | some nxthdr =>
      rw [inside_addrAccesses4to6 enough isFilled (by omega), isHeaderLen,
        isFilled]
      rcases nxthdrFor4to6_cases found with
        ⟨same, tcpudp⟩ | ⟨icmp, rfl⟩
      · have has : HasPorts4 ipv4packet := by
          rcases tcpudp with equal | equal
          · exact .inr (same.trans equal)
          · exact .inl (same.trans equal)
        have other : nxthdr ≠ ipProtoIcmpv6 := by
          rcases tcpudp with equal | equal <;> rw [equal] <;> decide
        have lengths : 44 ≤ (readWord ipv4packet 2).toNat - ipv4Hdrlen +
            ipv6Hdrlen ↔ ipv4Hdrlen + 4 ≤ (readWord ipv4packet 2).toNat := by
          omega
        simp only [has.not_icmp, has, other, lengths, false_implies, true_and,
          false_or, true_implies, ne_eq, not_false_eq_true]
      · have noPorts : ¬ HasPorts4 ipv4packet := fun has =>
          has.not_icmp icmp
        simp only [icmp, noPorts, ne_eq, not_true_eq_false, false_implies,
          implies_true, and_true, true_or, true_implies]
        exact ⟨And.left, fun same => ⟨same, fun _ => same⟩⟩

/-- `ip64_4to6` stays inside its packets exactly for the packets that are
contained. -/
theorem bounded4to6_iff (room : 548 ≤ config.bufsize) :
    Bounded4to6 config ip64 ipv4packet ipv4packetLen resultpacket ↔
      Contained4 config ip64 ipv4packet ipv4packetLen := by
  have short : ipv4Hdrlen = 20 := rfl
  by_cases enters : Enters4 config ipv4packet ipv4packetLen
  · rw [Bounded4to6, inside_accesses4to6 room enters]
    constructor
    · rintro ⟨⟨options, ports⟩, first⟩
      refine ⟨?_, fun _ => options, fun _ => ports, fun _ translated => ?_⟩
      · have received := UInt16.le_iff_toNat_le.mp enters.1
        have header := enters.2.1
        omega
      · obtain ⟨len, out, after, equal⟩ :=
          (translated4_iff enters ports).mpr translated
        exact first len out after equal
    · intro contained
      refine ⟨⟨contained.options enters, contained.ports enters⟩, ?_⟩
      intro len out after translated
      exact contained.first enters ((translated4_iff enters
        (contained.ports enters)).mp ⟨len, out, after, translated⟩)
  · have refused := not_not.mp (mt enters4_iff.mpr enters)
    unfold Bounded4to6 accesses4to6 ip64_4to6
    dsimp only
    rw [if_pos refused, if_pos refused, List.append_nil, inside_cons,
      packet_inside]
    constructor
    · rintro ⟨⟨length, -⟩, -⟩
      refine ⟨?_, fun entered => absurd entered enters,
        fun entered => absurd entered enters,
        fun entered => absurd entered enters⟩
      exact length.resolve_left (by decide)
    · intro contained
      exact ⟨⟨.inr contained.length, inside_nil⟩, nofun⟩

/-! ## Outgoing packets -/

/-- The packet holds a UDP datagram or a TCP segment. -/
def HasPorts6 (ipv6packet : ByteMem) : Prop :=
  ipv6packet 6 = ipProtoTcp ∨ ipv6packet 6 = ipProtoUdp

/-- The destination is an IPv4 address to which the host may send. -/
def RoutedTo (ip64 : Ip64State numEntries width) (ipv6packet : ByteMem)
    (destipaddr : Ip4Addr) : Prop :=
  ip64_addr_6to4 (readAddr6 ipv6packet 24) = some destipaddr ∧
    (ip64.hostaddrConfigured ∨ destipaddr = ipv4BroadcastAddr)

def Maps (config : Ip64Config) (ipv6packet : ByteMem) : Prop :=
  ¬ config.outgoingIsSpecial (readWord ipv6packet 40) ∧
    ephemeralPortrange ≤ readWord ipv6packet 40

/-- There is an entry for the packet, or one can be created. -/
def HasMapping (ip64 : Ip64State numEntries width) (rands : List UInt16)
    (ipv6packet : ByteMem) (destipaddr : Ip4Addr) : Prop :=
  ∃ m after, findMapping ip64.addrmap rands
    (fun address => ipv6packet (address + 20)) (readAddr6 ipv6packet 8)
    destipaddr (ipv6packet 6) = some (some m, after)

/-- When `ip64_6to4` stays inside its packets. -/
structure Contained6 (config : Ip64Config) (ip64 : Ip64State numEntries width)
    (rands : List UInt16) (ipv6packet : ByteMem) (ipv6packetLen : UInt16) :
    Prop where
  /-- The length field is received. -/
  length : 6 ≤ ipv6packetLen.toNat
  /-- So is the next header. -/
  nextHeader : readWord ipv6packet 4 ≤ ipv6packetLen →
    7 ≤ ipv6packetLen.toNat
  /-- The header and the data that it tells of are received, or no data. -/
  payload : readWord ipv6packet 4 ≤ ipv6packetLen →
    readWord ipv6packet 4 = 0 ∨
      ipv6Hdrlen + (readWord ipv6packet 4).toNat ≤ ipv6packetLen.toNat
  /-- The result fits. -/
  fits : readWord ipv6packet 4 ≤ ipv6packetLen →
    ipv4Hdrlen + (readWord ipv6packet 4).toNat ≤ config.bufsize
  /-- The header of a datagram or a segment is received. -/
  header : readWord ipv6packet 4 ≤ ipv6packetLen → HasPorts6 ipv6packet →
    ipv6Hdrlen ≤ ipv6packetLen.toNat
  /-- The type of a message is received. -/
  type : readWord ipv6packet 4 ≤ ipv6packetLen →
    ipv6packet 6 = ipProtoIcmpv6 → ipv6Hdrlen + 1 ≤ ipv6packetLen.toNat
  /-- The source port is received. -/
  srcport : readWord ipv6packet 4 ≤ ipv6packetLen → HasPorts6 ipv6packet →
    ∀ destipaddr, RoutedTo ip64 ipv6packet destipaddr →
      2 ≤ (readWord ipv6packet 4).toNat
  /-- So is the destination port where the source port is mapped. -/
  destport : readWord ipv6packet 4 ≤ ipv6packetLen → HasPorts6 ipv6packet →
    ∀ destipaddr, RoutedTo ip64 ipv6packet destipaddr →
      Maps config ipv6packet → 4 ≤ (readWord ipv6packet 4).toNat
  /-- So are the flags of a segment with an entry. -/
  flags : readWord ipv6packet 4 ≤ ipv6packetLen →
    ipv6packet 6 = ipProtoTcp →
    ∀ destipaddr, RoutedTo ip64 ipv6packet destipaddr →
      Maps config ipv6packet → HasMapping ip64 rands ipv6packet destipaddr →
        14 ≤ (readWord ipv6packet 4).toNat

section Outgoing

variable {bounds : Bounds} {len : UInt16}

theorem inside_checksumAccesses6to4 (room : 548 ≤ bounds.bufsize)
    (filled : bounds.filled = len.toNat + ipv4Hdrlen)
    (header : bounds.headerLen = ipv4Hdrlen) (proto : UInt8) :
    Inside bounds (checksumAccesses6to4 len proto) := by
  have field := checksumOffset_le proto
  have short : ipv4Hdrlen = 20 := rfl
  have addrs : Inside bounds
      (if proto ≠ ipProtoIcmpv4 then [.result 12 8] else []) := by
    split
    · simp only [inside_cons, inside_nil, result_inside]
      exact ⟨by omega, trivial⟩
    · exact inside_nil
  simp only [checksumAccesses6to4, inside_append, inside_cons, inside_nil,
    result_inside, write_inside, transport_inside]
  refine ⟨⟨⟨?_, ?_, ?_, ?_, header.symm, ?_, trivial⟩, addrs⟩, ?_, ?_,
    trivial⟩ <;> omega

theorem inside_portAccesses6to4 {config : Ip64Config}
    {addrmap : AddrMap numEntries width} {rands : List UInt16}
    {packet : ByteMem} {srcipaddr : Ip6Addr} {destipaddr : Ip4Addr}
    {proto : UInt8} (room : 548 ≤ bounds.bufsize)
    (filled : bounds.filled = len.toNat + ipv4Hdrlen)
    (header : bounds.headerLen = ipv4Hdrlen)
    (received : ipv6Hdrlen ≤ bounds.received) :
    Inside bounds (portAccesses6to4 config addrmap rands packet srcipaddr
        destipaddr proto) ↔
      2 ≤ len.toNat ∧
        (¬ config.outgoingIsSpecial (readWord packet 20) →
          ephemeralPortrange ≤ readWord packet 20 →
          4 ≤ len.toNat ∧ ((∃ m after, findMapping addrmap rands packet
            srcipaddr destipaddr proto = some (some m, after)) →
              proto = ipProtoTcp → 14 ≤ len.toNat)) := by
  have short : ipv4Hdrlen = 20 := rfl
  have long : ipv6Hdrlen = 40 := rfl
  have port : Inside bounds
      [.result 9 1, .transport ipv4Hdrlen, .result 20 2] ↔
        2 ≤ len.toNat := by
    simp only [inside_cons, inside_nil, result_inside, transport_inside]
    constructor
    · rintro ⟨-, -, fits, -⟩
      omega
    · intro fits
      exact ⟨by omega, header.symm, by omega, trivial⟩
  have source : Inside bounds [.packet 8 16] := by
    simp only [inside_cons, inside_nil, packet_inside]
    exact ⟨by omega, trivial⟩
  have store : (Access.write 20 2).Inside bounds := by
    rw [write_inside]
    omega
  unfold portAccesses6to4
  rw [inside_append, port]
  refine and_congr_right fun _ => ?_
  split
  next special =>
    rw [inside_append]
    refine iff_of_true ⟨source, ?_⟩ (fun plain => absurd special plain)
    split
    · exact (inside_cons _ _).mpr ⟨store, inside_nil⟩
    · exact inside_nil
  next plain =>
    split
    next ephemeral =>
      have lookup : Inside bounds
          [.packet 8 16, .result 16 4, .result 22 2] ↔ 4 ≤ len.toNat := by
        simp only [inside_cons, inside_nil, result_inside, packet_inside]
        constructor
        · rintro ⟨-, -, fits, -⟩
          omega
        · intro fits
          exact ⟨by omega, by omega, by omega, trivial⟩
      rw [inside_append, lookup, imp_iff_right plain, imp_iff_right ephemeral]
      refine and_congr_right fun ports => ?_
      split
      next found =>
        simp only [inside_cons, inside_nil, found, store, and_true]
        split
        next tcp =>
          rw [result_inside]
          constructor
          · intro fits _ _
            omega
          · intro fits
            have flags := fits ⟨_, _, rfl⟩ tcp
            omega
        next other =>
          rw [result_inside]
          exact iff_of_true (by omega) fun _ tcp => absurd tcp other
      next found =>
        simp [found]
      next found =>
        simp [found]
    next low =>
      exact iff_of_true inside_nil fun _ ephemeral => absurd ephemeral low

theorem findMapping_congr {addrmap : AddrMap numEntries width}
    {rands : List UInt16} {first second : ByteMem} {srcipaddr : Ip6Addr}
    {destipaddr : Ip4Addr} {proto : UInt8}
    (srcport : readWord first 20 = readWord second 20)
    (destport : readWord first 22 = readWord second 22) :
    findMapping addrmap rands first srcipaddr destipaddr proto =
      findMapping addrmap rands second srcipaddr destipaddr proto := by
  unfold findMapping
  rw [srcport, destport]

theorem readWord_outgoing {ip64 : Ip64State numEntries width}
    {ipv6packet : ByteMem} (resultpacket : ByteMem) (destipaddr : Ip4Addr)
    (proto : UInt8) {off : Nat}
    (inside : off + 2 ≤ (readWord ipv6packet 4).toNat) :
    readWord (outgoing ip64 ipv6packet resultpacket destipaddr proto)
        (ipv4Hdrlen + off) =
      readWord ipv6packet (ipv6Hdrlen + off) := by
  rw [outgoing, readWord_payload6to4 _ _ (length_ipv4Header ..)
    (Nat.le_add_right _ _), readWord_sentPayload resultpacket ipv6packet
      inside]

theorem inside_transportAccesses6to4 {config : Ip64Config}
    {ip64 : Ip64State numEntries width} {rands : List UInt16}
    {ipv6packet resultpacket : ByteMem} {destipaddr : Ip4Addr}
    (room : 548 ≤ bounds.bufsize)
    (filled : bounds.filled =
      (readWord ipv6packet 4).toNat + ipv4Hdrlen)
    (header : bounds.headerLen = ipv4Hdrlen)
    (received : ipv6Hdrlen ≤ bounds.received)
    (ports : HasPorts6 ipv6packet) :
    Inside bounds (transportAccesses6to4 config ip64 rands ipv6packet
        resultpacket destipaddr (ipv6packet 6)) ↔
      2 ≤ (readWord ipv6packet 4).toNat ∧
        (Maps config ipv6packet → 4 ≤ (readWord ipv6packet 4).toNat ∧
          (HasMapping ip64 rands ipv6packet destipaddr →
            ipv6packet 6 = ipProtoTcp →
              14 ≤ (readWord ipv6packet 4).toNat)) := by
  have other : ipv6packet 6 ≠ ipProtoIcmpv4 := by
    rcases ports with equal | equal <;> rw [equal] <;> decide
  have checksum := inside_checksumAccesses6to4 room filled header
    (ipv6packet 6)
  unfold transportAccesses6to4
  rw [if_neg other, inside_append]
  refine (and_iff_left ?_).trans ?_
  · split
    · exact checksum
    · exact inside_nil
    · exact inside_nil
  rw [inside_portAccesses6to4 room filled header received]
  refine and_congr_right fun source => ?_
  have srcport := @readWord_outgoing _ _ ip64 ipv6packet resultpacket
    destipaddr (ipv6packet 6) 0 source
  change readWord _ 20 = readWord _ 40 at srcport
  rw [srcport, Maps, and_imp]
  refine imp_congr_right fun _ => imp_congr_right fun _ => ?_
  refine and_congr_right fun dest => ?_
  have destport := @readWord_outgoing _ _ ip64 ipv6packet resultpacket
    destipaddr (ipv6packet 6) 2 dest
  change readWord _ 22 = readWord _ 42 at destport
  have mapping := @findMapping_congr _ _ ip64.addrmap rands
    (outgoing ip64 ipv6packet resultpacket destipaddr (ipv6packet 6))
    (fun address => ipv6packet (address + 20)) (readAddr6 ipv6packet 8)
    destipaddr (ipv6packet 6) srcport destport
  rw [mapping, HasMapping]

theorem inside_addrAccesses6to4 {config : Ip64Config}
    {ip64 : Ip64State numEntries width} {rands : List UInt16}
    {ipv6packet resultpacket : ByteMem} {proto : UInt8}
    (room : 548 ≤ bounds.bufsize)
    (filled : bounds.filled =
      (readWord ipv6packet 4).toNat + ipv4Hdrlen)
    (received : ipv6Hdrlen ≤ bounds.received) :
    Inside bounds (addrAccesses6to4 config ip64 rands ipv6packet resultpacket
        proto) ↔
      ∀ destipaddr, RoutedTo ip64 ipv6packet destipaddr →
        Inside bounds (transportAccesses6to4 config ip64 rands ipv6packet
          resultpacket destipaddr proto) := by
  have short : ipv4Hdrlen = 20 := rfl
  have long : ipv6Hdrlen = 40 := rfl
  have first : Inside bounds [.packet 7 1, .write 8 1, .packet 24 16] := by
    simp only [inside_cons, inside_nil, packet_inside, write_inside]
    exact ⟨by omega, by omega, by omega, trivial⟩
  have dest : Inside bounds [.write 16 4] := by
    simp only [inside_cons, inside_nil, write_inside]
    exact ⟨by omega, trivial⟩
  have source : Inside bounds [.write 12 4] := by
    simp only [inside_cons, inside_nil, write_inside]
    exact ⟨by omega, trivial⟩
  have compared : Inside bounds
      (if ip64.hostaddrConfigured then [] else [.result 16 4]) := by
    split
    · exact inside_nil
    · simp only [inside_cons, inside_nil, result_inside]
      exact ⟨by omega, trivial⟩
  unfold addrAccesses6to4 RoutedTo
  rw [inside_append, and_iff_right first]
  cases ip64_addr_6to4 (readAddr6 ipv6packet 24) with
  | none =>
      refine iff_of_true inside_nil ?_
      rintro _ ⟨equal, -⟩
      cases equal
  | some destipaddr =>
      dsimp only
      rw [inside_append, inside_append, and_iff_right ⟨dest, compared⟩]
      split
      next unrouted =>
        refine iff_of_true inside_nil ?_
        rintro _ ⟨equal, configured | broadcast⟩
        · exact absurd configured unrouted.1
        · exact absurd (Option.some.inj equal ▸ broadcast) unrouted.2
      next routed =>
        rw [inside_append, and_iff_right source]
        constructor
        · rintro inside _ ⟨equal, -⟩
          exact Option.some.inj equal ▸ inside
        · intro all
          refine all destipaddr ⟨rfl, ?_⟩
          by_contra none
          rw [not_or] at none
          exact routed none

theorem inside_protoAccesses6to4 {ipv6packet : ByteMem}
    (room : 548 ≤ bounds.bufsize)
    (payload : (readWord ipv6packet 4).toNat = 0 ∨
      ipv6Hdrlen + (readWord ipv6packet 4).toNat ≤ bounds.received) :
    Inside bounds (protoAccesses6to4 ipv6packet) ↔
      (HasPorts6 ipv6packet → ipv6Hdrlen ≤ bounds.received) ∧
        (ipv6packet 6 = ipProtoIcmpv6 →
          ipv6Hdrlen + 1 ≤ bounds.received) := by
  have long : ipv6Hdrlen = 40 := rfl
  unfold protoAccesses6to4 HasPorts6
  split
  next ports =>
    have other : ipv6packet 6 ≠ ipProtoIcmpv6 := by
      rcases ports with equal | equal <;> rw [equal] <;> decide
    simp only [inside_cons, inside_nil, write_inside, packet_inside, ports,
      other, true_implies, false_implies, and_true]
    constructor
    · rintro ⟨-, header, -⟩
      omega
    · intro header
      exact ⟨by omega, by omega, payload⟩
  next noPorts =>
    split
    next icmp =>
      simp only [inside_append, inside_cons, inside_nil, write_inside,
        packet_inside, icmp, true_implies]
      constructor
      · rintro ⟨⟨-, type, -⟩, -⟩
        exact ⟨fun ports => absurd (by rw [icmp]; exact ports) noPorts,
          by omega⟩
      · rintro ⟨-, type⟩
        refine ⟨⟨by omega, by omega, trivial⟩, ?_⟩
        split
        · simp only [inside_cons, inside_nil, write_inside]
          exact ⟨by omega, trivial⟩
        · exact inside_nil
    next other =>
      simp [noPorts, other]

end Outgoing

/-- The first accesses of a packet that is as long as its length field. -/
theorem copied6to4_fits {len : UInt16} {received bufsize : Nat}
    (packetLen : received < 65536) (size : bufsize < 65536)
    (room : 548 ≤ bufsize) :
    (copied6to4 len = 0 ∨ 40 + copied6to4 len ≤ received) ∧
        (copied6to4 len = 0 ∨ 20 + copied6to4 len ≤ bufsize) ↔
      (len.toNat = 0 ∨ ipv6Hdrlen + len.toNat ≤ received) ∧
        ipv4Hdrlen + len.toNat ≤ bufsize := by
  have short : ipv4Hdrlen = 20 := rfl
  have long : ipv6Hdrlen = 40 := rfl
  unfold copied6to4
  split
  · constructor
    · rintro ⟨payload, fits⟩
      omega
    · rintro ⟨payload, fits⟩
      omega
  · constructor
    · rintro ⟨payload, fits⟩
      omega
    · rintro ⟨payload, fits⟩
      omega

/-- The accesses of a packet that is as long as its length field. -/
theorem inside_accesses6to4 {rands : List UInt16}
    {ipv6packet resultpacket : ByteMem} {ipv6packetLen : UInt16}
    (room : 548 ≤ config.bufsize)
    (enters : readWord ipv6packet 4 ≤ ipv6packetLen) :
    Inside (bounds6to4 config ipv6packet ipv6packetLen)
        (accesses6to4 config ip64 rands ipv6packet ipv6packetLen
          resultpacket) ↔
      7 ≤ ipv6packetLen.toNat ∧
      (((readWord ipv6packet 4).toNat = 0 ∨
          ipv6Hdrlen + (readWord ipv6packet 4).toNat ≤
            ipv6packetLen.toNat) ∧
        ipv4Hdrlen + (readWord ipv6packet 4).toNat ≤ config.bufsize) ∧
      ((HasPorts6 ipv6packet → ipv6Hdrlen ≤ ipv6packetLen.toNat) ∧
        (ipv6packet 6 = ipProtoIcmpv6 →
          ipv6Hdrlen + 1 ≤ ipv6packetLen.toNat)) ∧
      (HasPorts6 ipv6packet → ∀ destipaddr,
        RoutedTo ip64 ipv6packet destipaddr →
        2 ≤ (readWord ipv6packet 4).toNat ∧
          (Maps config ipv6packet → 4 ≤ (readWord ipv6packet 4).toNat ∧
            (HasMapping ip64 rands ipv6packet destipaddr →
              ipv6packet 6 = ipProtoTcp →
                14 ≤ (readWord ipv6packet 4).toNat))) := by
  generalize bound : bounds6to4 config ipv6packet ipv6packetLen = bounds
  have isReceived : bounds.received = ipv6packetLen.toNat := by
    rw [← bound]
    rfl
  have isBufsize : bounds.bufsize = config.bufsize := by
    rw [← bound]
    rfl
  have isFilled : bounds.filled =
      (readWord ipv6packet 4).toNat + ipv4Hdrlen := by
    rw [← bound]
    rfl
  have isHeaderLen : bounds.headerLen = ipv4Hdrlen := by
    rw [← bound]
    rfl
  have enough : 548 ≤ bounds.bufsize := by
    omega
  have long : ipv6Hdrlen = 40 := rfl
  have fits := @copied6to4_fits (readWord ipv6packet 4) ipv6packetLen.toNat
    config.bufsize ipv6packetLen.toNat_lt config.bufsizeLt room
  unfold accesses6to4
  rw [if_neg (UInt16.not_lt.mpr enters)]
  simp only [inside_append, inside_cons, inside_nil, packet_inside,
    write_inside, isReceived, isBufsize, and_true]
  constructor
  · rintro ⟨length, ⟨⟨copied, written, -, next⟩, proto⟩, rest⟩
    obtain ⟨payload, small⟩ := fits.mp ⟨copied, written⟩
    have header := (inside_protoAccesses6to4 enough
      (isReceived ▸ payload)).mp proto
    rw [isReceived] at header
    refine ⟨by omega, ⟨payload, small⟩, header, ?_⟩
    intro ports destipaddr routed
    have received : ipv6Hdrlen ≤ bounds.received :=
      isReceived ▸ header.1 ports
    have found : protoFor6to4 ipv6packet = some (ipv6packet 6) := by
      unfold protoFor6to4
      rcases ports with equal | equal <;> rw [equal] <;> rfl
    rw [found] at rest
    have transport := (inside_addrAccesses6to4 enough isFilled received).mp
      rest destipaddr routed
    exact (inside_transportAccesses6to4 enough isFilled isHeaderLen received
      ports).mp transport
  · rintro ⟨next, ⟨payload, small⟩, header, all⟩
    obtain ⟨copied, written⟩ := fits.mpr ⟨payload, small⟩
    have proto := (inside_protoAccesses6to4 enough
      (isReceived ▸ payload)).mpr (isReceived ▸ header)
    refine ⟨by omega, ⟨⟨copied, written, by omega, by omega⟩, proto⟩, ?_⟩
    split
    next =>
      exact inside_nil
    next proto found =>
      rcases protoFor6to4_cases found with ⟨same, tcpudp⟩ | ⟨icmp, rfl⟩
      · have ports : HasPorts6 ipv6packet :=
          tcpudp.imp same.trans same.trans
        have received : ipv6Hdrlen ≤ bounds.received :=
          isReceived ▸ header.1 ports
        rw [inside_addrAccesses6to4 enough isFilled received, ← same]
        intro destipaddr routed
        exact (inside_transportAccesses6to4 enough isFilled isHeaderLen
          received ports).mpr (all ports destipaddr routed)
      · have type := header.2 icmp
        rw [inside_addrAccesses6to4 enough isFilled (by omega)]
        intro destipaddr routed
        unfold transportAccesses6to4
        rw [if_pos rfl]
        exact inside_checksumAccesses6to4 enough isFilled isHeaderLen _

theorem translated6
    {ip64 after : Ip64State numEntries width} {rands : List UInt16}
    {ipv6packet resultpacket out : ByteMem} {ipv6packetLen len : UInt16}
    (translated : ip64_6to4 config ip64 rands ipv6packet ipv6packetLen
      resultpacket = some (some (len, out), after)) :
    headerLen out = ipv4Hdrlen ∧ ¬ LaterFragment6 ipv6packet := by
  obtain ⟨proto, packet, protoEq, -, rfl, ⟨ipid, ttl, source, dest, header⟩,
    -⟩ := ip64_6to4_header translated
  constructor
  · have first : packet 0 = 0x45 := by
      have heads := congrArg List.head? header
      exact Option.some.inj heads
    unfold headerLen
    rw [checksums6to4_header packet len proto (by decide),
      storeWord_outside (.inl (by decide)), first]
    rfl
  · rintro ⟨fragment, -⟩
    rcases protoFor6to4_cases protoEq with ⟨same, equal | equal⟩ | ⟨icmp, -⟩
    · rw [← same, fragment] at equal
      exact absurd equal (by decide)
    · rw [← same, fragment] at equal
      exact absurd equal (by decide)
    · rw [fragment] at icmp
      exact absurd icmp (by decide)

/-- `ip64_6to4` stays inside its packets exactly for the packets that are
contained. -/
theorem bounded6to4_iff {rands : List UInt16}
    {ipv6packet resultpacket : ByteMem} {ipv6packetLen : UInt16}
    (room : 548 ≤ config.bufsize) :
    Bounded6to4 config ip64 rands ipv6packet ipv6packetLen resultpacket ↔
      Contained6 config ip64 rands ipv6packet ipv6packetLen := by
  have noData : (readWord ipv6packet 4).toNat = 0 ↔
      readWord ipv6packet 4 = 0 := by
    rw [← UInt16.toNat_inj]
    rfl
  rw [Bounded6to4, and_iff_left fun len out after => translated6]
  by_cases enters : readWord ipv6packet 4 ≤ ipv6packetLen
  · rw [inside_accesses6to4 room enters, noData]
    constructor
    · rintro ⟨next, ⟨payload, fits⟩, ⟨header, type⟩, ports⟩
      exact
        { length := by omega
          nextHeader := fun _ => next
          payload := fun _ => payload
          fits := fun _ => fits
          header := fun _ => header
          type := fun _ => type
          srcport := fun _ has dest routed => (ports has dest routed).1
          destport := fun _ has dest routed maps =>
            ((ports has dest routed).2 maps).1
          flags := fun _ tcp dest routed maps mapping =>
            ((ports (.inl tcp) dest routed).2 maps).2 mapping tcp }
    · intro contained
      exact ⟨contained.nextHeader enters,
        ⟨contained.payload enters, contained.fits enters⟩,
        ⟨contained.header enters, contained.type enters⟩,
        fun has dest routed => ⟨contained.srcport enters has dest routed,
          fun maps => ⟨contained.destport enters has dest routed maps,
            fun mapping tcp =>
              contained.flags enters tcp dest routed maps mapping⟩⟩⟩
  · unfold accesses6to4
    rw [if_pos (UInt16.not_le.mp enters), List.append_nil, inside_cons,
      packet_inside]
    constructor
    · rintro ⟨length, -⟩
      exact
        { length := length.resolve_left (by decide)
          nextHeader := fun entered => absurd entered enters
          payload := fun entered => absurd entered enters
          fits := fun entered => absurd entered enters
          header := fun entered => absurd entered enters
          type := fun entered => absurd entered enters
          srcport := fun entered => absurd entered enters
          destport := fun entered => absurd entered enters
          flags := fun entered => absurd entered enters }
    · intro contained
      exact ⟨.inr contained.length, inside_nil⟩

/-! ## Both translations -/

/-- The translations stay inside their packets exactly for the packets that
are contained; `BUFSIZE` is as large as `ip64-dhcpc.c` asks for. -/
theorem bounded_iff_contained (config : Ip64Config)
    (ip64 : Ip64State numEntries width) (rands : List UInt16)
    (packet resultpacket : ByteMem) (packetLen : UInt16)
    (room : 548 ≤ config.bufsize) :
    (Bounded4to6 config ip64 packet packetLen resultpacket ↔
        Contained4 config ip64 packet packetLen) ∧
      (Bounded6to4 config ip64 rands packet packetLen resultpacket ↔
        Contained6 config ip64 rands packet packetLen) :=
  ⟨bounded4to6_iff room, bounded6to4_iff room⟩

def roomyPorts : Ip64Config where
  outgoingIsSpecial _ := false
  translateOutgoing _ _ := none
  incomingIsSpecial _ := false
  translateIncoming _ := none
  clockSecond := 128
  bufsize := 600
  bufsizeLt := Nat.lt_of_lt_of_le (Nat.lt_succ_self 600)
    (Nat.le_add_left 601 64935)

/-- An echo request of 28 bytes to the host. -/
def echoRequest : ByteMem :=
  ByteMem.ofList [0x45, 0, 0, 28, 0, 0, 0, 0, 64, 1, 0, 0, 2, 2, 2, 2,
    1, 1, 1, 1, 8, 0]

/-- The echo request stays inside its packets. -/
theorem bounded_echoRequest :
    Bounded4to6 roomyPorts (hostState (Vector.replicate 4 1)) echoRequest 28
      fun _ => 0 := by
  have noPorts : ¬ HasPorts4 echoRequest := by
    rintro (udp | tcp)
    · exact absurd udp (by decide)
    · exact absurd tcp (by decide)
  refine (bounded_iff_contained roomyPorts (hostState (Vector.replicate 4 1))
    [] echoRequest (fun _ => 0) 28 (by decide)).1.mpr ?_
  exact
    { length := by decide
      options := fun _ _ => by decide
      ports := fun _ has => absurd has noPorts
      first := fun _ _ later =>
        absurd later (by unfold LaterFragment; decide) }

/-- A datagram whose length field counts the header of the packet. -/
def longDatagram : ByteMem :=
  ByteMem.ofList [0x60, 0, 0, 0, 0, 60, 17, 64]

/-- The data of the datagram is read behind the received packet. -/
theorem longDatagram_unbounded :
    ¬ ∀ (config : Ip64Config) (ip64 : Ip64State 3 16) (rands : List UInt16)
      (packet resultpacket : ByteMem) (packetLen : UInt16),
      548 ≤ config.bufsize →
        Bounded4to6 config ip64 packet packetLen resultpacket ∧
          Bounded6to4 config ip64 rands packet packetLen resultpacket := by
  intro all
  have room : 548 ≤ roomyPorts.bufsize := by
    decide
  have bounded := (all roomyPorts (hostState (Vector.replicate 4 1)) []
    longDatagram (fun _ => 0) 60 room).2
  have contained := (bounded6to4_iff room).mp bounded
  rcases contained.payload (by decide) with none | received
  · exact absurd none (by decide)
  · exact absurd received (by decide)

end Contiki.Ip64
