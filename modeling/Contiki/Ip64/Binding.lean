import Contiki.Ip64.Checksums

/-!
# The mappings of ip64

A mapping ties a port of the host to a node and to a remote host.  What the
address map knows of its mappings in every run of translations, and which
packets it lets in.
-/

namespace Contiki.Ip64

open Contiki.Lib

variable {numEntries width : Nat}

/-- What an entry is for: the port of the host, the remote host, and the
node. -/
structure Mapping where
  protocol : UInt8
  mappedPort : UInt16
  ip4addr : Ip4Addr
  ip4port : UInt16
  ip6addr : Ip6Addr
  ip6port : UInt16

def Entry.mapping (entry : Entry width) : Mapping where
  protocol := entry.protocol
  mappedPort := entry.mappedPort
  ip4addr := entry.ip4addr
  ip4port := entry.ip4port
  ip6addr := entry.ip6addr
  ip6port := entry.ip6port

/-- The entry of a flow from a node to a remote host. -/
def Mapping.IsFor (mapping : Mapping) (protocol : UInt8) (ip6addr : Ip6Addr)
    (ip6port : UInt16) (ip4addr : Ip4Addr) (ip4port : UInt16) : Prop :=
  mapping.protocol = protocol ∧ mapping.ip4port = ip4port ∧
    mapping.ip6port = ip6port ∧ mapping.ip4addr = ip4addr ∧
    mapping.ip6addr = ip6addr

variable (map : AddrMap numEntries width) (e : Fin numEntries)

namespace AddrMap

/-- An entry that is not too old has this mapping. -/
def Lives (map : AddrMap numEntries width) (mapping : Mapping) : Prop :=
  ∃ m ∈ map.unexpired, (map.entry m).mapping = mapping

/-- No two entries have the same port and protocol. -/
def MappingsDiffer (map : AddrMap numEntries width) : Prop :=
  ∀ m ∈ map.entries.list, ∀ n ∈ map.entries.list,
    (map.entry m).mappedPort = (map.entry n).mappedPort →
      (map.entry m).protocol = (map.entry n).protocol → m = n

/-- The port that is taken is not the one of another entry that stays and has
the same protocol. -/
def PicksFreeFor (map : AddrMap numEntries width) (rands : List UInt16)
    (protocol : UInt8) : Prop :=
  ∀ port, map.takenPort map.kept rands map.mappedPort = some port →
    ∀ n ∈ map.kept, (map.entry n).protocol = protocol →
      (map.entry n).mappedPort ≠ port

theorem Leaves.mappingsDiffer {before after : AddrMap numEntries width}
    (leaves : Leaves before after before.unexpired)
    (differ : before.MappingsDiffer) : after.MappingsDiffer := by
  intro m inM n inN samePort sameProtocol
  rw [leaves.list] at inM inN
  rw [leaves.entry, leaves.entry] at samePort sameProtocol
  exact differ m (List.mem_of_mem_filter inM) n (List.mem_of_mem_filter inN)
    samePort sameProtocol

theorem Leaves.picksFreeFor {before after : AddrMap numEntries width}
    (leaves : Leaves before after before.unexpired) (rands : List UInt16)
    (protocol : UInt8) :
    after.PicksFreeFor rands protocol ↔
      before.PicksFreeFor rands protocol := by
  unfold PicksFreeFor
  rw [leaves.kept, leaves.takenPort, leaves.mappedPort]
  simp only [leaves.entry]

theorem Creates.mappingsDiffer {before after : AddrMap numEntries width}
    {rands : List UInt16} {m : Fin numEntries} {port : UInt16}
    (creates : Creates before after rands m port)
    (differ : before.MappingsDiffer)
    (free : before.PicksFreeFor rands (after.entry m).protocol) :
    after.MappingsDiffer := by
  have notTaken : ∀ n ∈ before.kept,
      (after.entry n).protocol = (after.entry m).protocol →
        (after.entry n).mappedPort ≠ (after.entry m).mappedPort := by
    intro n member sameProtocol
    rw [creates.port]
    rw [creates.entry n member] at sameProtocol ⊢
    exact free port creates.taken n member sameProtocol
  intro a inA b inB samePort sameProtocol
  rw [creates.list, List.mem_append, List.mem_singleton] at inA inB
  rcases inA with inA | rfl <;> rcases inB with inB | rfl
  · rw [creates.entry a inA, creates.entry b inB] at samePort sameProtocol
    exact differ a (before.kept_subset inA) b (before.kept_subset inB)
      samePort sameProtocol
  · exact absurd samePort (notTaken a inA sameProtocol)
  · exact absurd samePort.symm (notTaken b inB sameProtocol.symm)
  · rfl

theorem ip64AddrmapCreate_mapping {map after : AddrMap numEntries width}
    {ip6addr : Ip6Addr} {ip6port : UInt16} {ip4addr : Ip4Addr}
    {ip4port : UInt16} {protocol : UInt8} {rands : List UInt16}
    {m : Fin numEntries}
    (isCreated : map.ip64AddrmapCreate ip6addr ip6port ip4addr ip4port
      protocol rands = some (some m, after)) :
    (after.entry m).mapping.IsFor protocol ip6addr ip6port ip4addr
      ip4port := by
  unfold ip64AddrmapCreate at isCreated
  split at isCreated
  · cases isCreated
  split at isCreated
  · cases isCreated
  split at isCreated
  · simp only [Option.some.injEq, Prod.mk.injEq] at isCreated
    obtain ⟨rfl, rfl⟩ := isCreated
    unfold entry
    dsimp only [Pool.take, Pool.push, Pool.set]
    rw [Function.update_self]
    exact ⟨rfl, rfl, rfl, rfl, rfl⟩
  · cases isCreated

/-- The same entries, but for their timers and flags. -/
structure Keeps (before after : AddrMap numEntries width) : Prop where
  list : after.entries.list = before.entries.list
  used : after.entries.used = before.entries.used
  mapping : ∀ m, (after.entry m).mapping = (before.entry m).mapping
  mappedPort : after.mappedPort = before.mappedPort

theorem Keeps.trans {first second third : AddrMap numEntries width}
    (one : Keeps first second) (two : Keeps second third) :
    Keeps first third :=
  ⟨two.list.trans one.list, two.used.trans one.used,
    fun m => (two.mapping m).trans (one.mapping m),
    two.mappedPort.trans one.mappedPort⟩

theorem Keeps.ok {before after : AddrMap numEntries width}
    (keeps : Keeps before after) (ok : before.Ok) : after.Ok := by
  have ports : ∀ m, (after.entry m).mappedPort =
      (before.entry m).mappedPort := fun m =>
    congrArg Mapping.mappedPort (keeps.mapping m)
  obtain ⟨⟨nodup, mem_iff⟩, inRange, inRanges⟩ := ok
  refine ⟨⟨?_, ?_⟩, ?_, fun m member => ?_⟩
  · rw [keeps.list]
    exact nodup
  · rw [keeps.list, keeps.used]
    exact mem_iff
  · rw [keeps.mappedPort]
    exact inRange
  · rw [keeps.list] at member
    rw [ports]
    exact inRanges m member

theorem Keeps.mappingsDiffer {before after : AddrMap numEntries width}
    (keeps : Keeps before after) (differ : before.MappingsDiffer) :
    after.MappingsDiffer := by
  intro m inM n inN samePort sameProtocol
  rw [keeps.list] at inM inN
  have port := fun m => congrArg Mapping.mappedPort (keeps.mapping m)
  have protocol := fun m => congrArg Mapping.protocol (keeps.mapping m)
  exact differ m inM n inN ((port m).symm.trans (samePort.trans (port n)))
    ((protocol m).symm.trans (sameProtocol.trans (protocol n)))

theorem keeps_set
    {entry : Entry width} (same : entry.mapping = (map.entry e).mapping) :
    Keeps map { map with entries := map.entries.set e entry } := by
  refine ⟨rfl, rfl, fun m => ?_, rfl⟩
  change (Function.update map.entries.slots e entry m).mapping = _
  rw [Function.update_apply]
  split
  · next isEntry =>
      rw [same, isEntry]
  · rfl

theorem keeps_setLifetime (time : BitVec width) :
    Keeps map (map.ip64AddrmapSetLifetime (some e) time) :=
  map.keeps_set e rfl

theorem keeps_setRecycleble :
    Keeps map (map.ip64AddrmapSetRecycleble (some e)) :=
  map.keeps_set e rfl

end AddrMap

open AddrMap

theorem keeps_updateMapping (config : Ip64Config)
    (map : AddrMap numEntries width) (packet : ByteMem) (proto : UInt8)
    (m : Fin numEntries) :
    Keeps map (updateMapping config map packet proto m) := by
  have lifetime := fun seconds => map.keeps_setLifetime m
    (BitVec.ofNat width (config.clockSecond * seconds))
  have chosen : Keeps map
      (if packet 33 &&& tcpSyn ≠ 0 then map.ip64AddrmapSetLifetime (some m)
          (BitVec.ofNat width (config.clockSecond * 20))
        else if packet 33 &&& tcpRst ≠ 0 then
          map.ip64AddrmapSetLifetime (some m)
            (BitVec.ofNat width (config.clockSecond * 30))
        else map.ip64AddrmapSetLifetime (some m)
          (BitVec.ofNat width (config.clockSecond * 300))) := by
    split
    · exact lifetime 20
    · split
      · exact lifetime 30
      · exact lifetime 300
  unfold updateMapping
  dsimp only
  split
  · split
    · exact chosen.trans (keeps_setRecycleble _ m)
    · exact chosen
  · split
    · exact (lifetime 300).trans (keeps_setRecycleble _ m)
    · exact lifetime 300

/-! ## Outgoing packets -/

/-- A live entry is for a flow. -/
def HasFlow (map : AddrMap numEntries width) (protocol : UInt8)
    (ip6addr : Ip6Addr) (ip6port : UInt16) (ip4addr : Ip4Addr)
    (ip4port : UInt16) : Prop :=
  ∃ mapping, map.Lives mapping ∧
    mapping.IsFor protocol ip6addr ip6port ip4addr ip4port

theorem ip64AddrmapLookup_spec {map after : AddrMap numEntries width}
    (consistent : map.entries.Consistent) {ip6addr : Ip6Addr}
    {ip6port : UInt16} {ip4addr : Ip4Addr} {ip4port : UInt16}
    {protocol : UInt8} {found : Option (Fin numEntries)}
    (isFound : map.ip64AddrmapLookup ip6addr ip6port ip4addr ip4port
      protocol = some (found, after)) :
    Leaves map after map.unexpired ∧
      (found = none → ¬ HasFlow map protocol ip6addr ip6port ip4addr
        ip4port) ∧
      ∀ m, found = some m → m ∈ after.entries.list ∧
        (after.entry m).mapping.IsFor protocol ip6addr ip6port ip4addr
          ip4port := by
  obtain ⟨aged, isAged, leaves⟩ := checkAge_spec consistent
  unfold ip64AddrmapLookup at isFound
  rw [isAged] at isFound
  simp only [Option.some.injEq, Prod.mk.injEq] at isFound
  obtain ⟨isFind, rfl⟩ := isFound
  refine ⟨leaves, ?_, ?_⟩
  · rintro rfl ⟨_, ⟨m, young, rfl⟩, isFor⟩
    have listed : m ∈ aged.entries.list := by
      rw [leaves.list]
      exact young
    rw [← leaves.entry] at isFor
    exact List.find?_eq_none.1 isFind m listed (decide_eq_true isFor)
  · rintro m rfl
    have flow := List.find?_some isFind
    rw [decide_eq_true_iff] at flow
    exact ⟨List.mem_of_find?_eq_some isFind, flow⟩

theorem findMapping_spec {map after : AddrMap numEntries width}
    (ok : map.Ok) {rands : List UInt16} {packet : ByteMem}
    {srcipaddr : Ip6Addr} {destipaddr : Ip4Addr} {proto : UInt8}
    {found : Option (Fin numEntries)}
    (isFound : findMapping map rands packet srcipaddr destipaddr proto =
      some (found, after)) :
    after.Ok ∧
      (map.MappingsDiffer →
        (¬ HasFlow map proto srcipaddr (readWord packet 20) destipaddr
          (readWord packet 22) → map.PicksFreeFor rands proto) →
        after.MappingsDiffer) ∧
      ∀ m, found = some m → m ∈ after.entries.list ∧
        (after.entry m).mapping.IsFor proto srcipaddr (readWord packet 20)
          destipaddr (readWord packet 22) := by
  unfold findMapping at isFound
  split at isFound
  · cases isFound
  · next m aged isLookup =>
      cases isFound
      obtain ⟨leaves, -, isFor⟩ :=
        ip64AddrmapLookup_spec ok.consistent isLookup
      exact ⟨leaves.ok ok, fun differ _ => leaves.mappingsDiffer differ,
        isFor⟩
  · next aged isLookup =>
      obtain ⟨leaves, noFlow, -⟩ :=
        ip64AddrmapLookup_spec ok.consistent isLookup
      have okAged := leaves.ok ok
      rcases ip64AddrmapCreate_spec okAged.consistent isFound with
        ⟨rfl, leavesAged⟩ | ⟨m, port, rfl, creates⟩
      · exact ⟨leavesAged.ok okAged, fun differ _ =>
          leavesAged.mappingsDiffer (leaves.mappingsDiffer differ),
          fun m impossible => by cases impossible⟩
      · have isFor := ip64AddrmapCreate_mapping isFound
        refine ⟨creates.ok okAged, fun differ free => ?_, ?_⟩
        · refine creates.mappingsDiffer (leaves.mappingsDiffer differ) ?_
          rw [show (after.entry m).protocol = proto from isFor.1]
          exact (leaves.picksFreeFor rands proto).2 (free (noFlow rfl))
        · rintro _ ⟨⟩
          refine ⟨?_, isFor⟩
          rw [creates.list]
          exact List.mem_append_right _ (List.mem_singleton_self m)

variable {config : Ip64Config}

/-- A packet from an ephemeral port gets the port of an entry for its flow. -/
theorem mapOutgoing_spec {map after : AddrMap numEntries width} (ok : map.Ok)
    {rands : List UInt16} {packet : ByteMem} {srcipaddr : Ip6Addr}
    {destipaddr : Ip4Addr} {proto : UInt8} {port : Option UInt16}
    (isMapped : mapOutgoing config map rands packet srcipaddr destipaddr
      proto = some (port, after)) :
    after.Ok ∧
      (map.MappingsDiffer →
        (config.outgoingIsSpecial (readWord packet 20) = false →
          ephemeralPortrange ≤ readWord packet 20 →
          ¬ HasFlow map proto srcipaddr (readWord packet 20) destipaddr
            (readWord packet 22) → map.PicksFreeFor rands proto) →
        after.MappingsDiffer) ∧
      (config.outgoingIsSpecial (readWord packet 20) = false →
        ephemeralPortrange ≤ readWord packet 20 →
        ∀ srcport, port = some srcport → ∃ m ∈ after.entries.list,
          (after.entry m).mapping.IsFor proto srcipaddr
            (readWord packet 20) destipaddr (readWord packet 22) ∧
          (after.entry m).mappedPort = srcport) := by
  unfold mapOutgoing at isMapped
  dsimp only at isMapped
  split at isMapped
  · next special =>
      cases isMapped
      exact ⟨ok, fun differ _ => differ, fun notSpecial =>
        absurd special (by simp [notSpecial])⟩
  next notSpecial =>
  split at isMapped
  · next ephemeral =>
      rw [Bool.not_eq_true] at notSpecial
      split at isMapped
      · cases isMapped
      · next aged isFound =>
          cases isMapped
          obtain ⟨okFound, differs, -⟩ := findMapping_spec ok isFound
          exact ⟨okFound, fun differ free =>
            differs differ (free notSpecial ephemeral),
            fun _ _ srcport impossible => by cases impossible⟩
      · next m aged isFound =>
          cases isMapped
          obtain ⟨okFound, differs, isFor⟩ := findMapping_spec ok isFound
          have keeps := keeps_updateMapping config aged packet proto m
          refine ⟨keeps.ok okFound, fun differ free =>
            keeps.mappingsDiffer
              (differs differ (free notSpecial ephemeral)), ?_⟩
          rintro _ _ _ ⟨⟩
          obtain ⟨listed, flow⟩ := isFor m rfl
          refine ⟨m, ?_, ?_, rfl⟩
          · rw [keeps.list]
            exact listed
          · rw [keeps.mapping]
            exact flow
  · next notEphemeral =>
      cases isMapped
      exact ⟨ok, fun differ _ => differ, fun _ ephemeral =>
        absurd ephemeral notEphemeral⟩

/-- The payload of an outgoing packet where `ip64_6to4` copies it. -/
def sentPayload (resultpacket ipv6packet : ByteMem) : ByteMem :=
  resultpacket.write ipv4Hdrlen
    (ipv6packet.read ipv6Hdrlen (readWord ipv6packet 4).toNat)

theorem readWord_congr {first second : ByteMem} {addr other : Nat}
    (high : first addr = second other)
    (low : first (addr + 1) = second (other + 1)) :
    readWord first addr = readWord second other := by
  unfold readWord
  rw [high, low]

theorem readWord_payload6to4 (resultpacket ipv6packet : ByteMem)
    {header : List UInt8} (length : header.length = ipv4Hdrlen) {addr : Nat}
    (behind : ipv4Hdrlen ≤ addr) :
    readWord (payload6to4 resultpacket ipv6packet header) addr =
      readWord (sentPayload resultpacket ipv6packet) addr := by
  have byte : ∀ address, ipv4Hdrlen ≤ address →
      payload6to4 resultpacket ipv6packet header address =
        sentPayload resultpacket ipv6packet address := by
    intro address inPayload
    unfold payload6to4 sentPayload
    rw [ByteMem.write_of_ge (by omega)]
  exact readWord_congr (byte addr behind) (byte (addr + 1) (by omega))

theorem readWord_sentPayload (resultpacket ipv6packet : ByteMem) {off : Nat}
    (inside : off + 2 ≤ (readWord ipv6packet 4).toNat) :
    readWord (sentPayload resultpacket ipv6packet) (ipv4Hdrlen + off) =
      readWord ipv6packet (ipv6Hdrlen + off) := by
  have byte : ∀ index, index < (readWord ipv6packet 4).toNat →
      sentPayload resultpacket ipv6packet (ipv4Hdrlen + index) =
        ipv6packet (ipv6Hdrlen + index) := by
    intro index below
    unfold sentPayload
    rw [ByteMem.write_inside index
      (by rw [ByteMem.length_read]; exact below), ByteMem.getElem_read]
  have high := byte off (by omega)
  have low := byte (off + 1) (by omega)
  exact readWord_congr high low

variable {packet : ByteMem} {ip64 after : Ip64State numEntries width}

/-- A translation of an outgoing packet changes the address map as
`mapOutgoing` does, or not at all. -/
theorem ip64_6to4_addrmap {rands : List UInt16}
    {ipv6packet resultpacket : ByteMem} {ipv6packetLen : UInt16}
    {result : Option (UInt16 × ByteMem)}
    (isResult : ip64_6to4 config ip64 rands ipv6packet ipv6packetLen
      resultpacket = some (result, after)) :
    after.addrmap = ip64.addrmap ∨
      ∃ proto destipaddr header port,
        protoFor6to4 ipv6packet = some proto ∧ proto ≠ ipProtoIcmpv4 ∧
        ip64_addr_6to4 (readAddr6 ipv6packet 24) = some destipaddr ∧
        header.length = ipv4Hdrlen ∧
        mapOutgoing config ip64.addrmap rands
          (payload6to4 resultpacket ipv6packet header)
          (readAddr6 ipv6packet 8) destipaddr proto =
            some (port, after.addrmap) := by
  unfold ip64_6to4 at isResult
  dsimp only at isResult
  split at isResult
  · cases isResult
    exact Or.inl rfl
  split at isResult
  · cases isResult
  split at isResult
  · cases isResult
    exact Or.inl rfl
  next proto protoEq =>
  split at isResult
  · cases isResult
    exact Or.inl rfl
  next destipaddr destEq =>
  split at isResult
  · cases isResult
    exact Or.inl rfl
  split at isResult
  · cases isResult
    exact Or.inl rfl
  next notIcmp =>
  have length := length_ipv4Header (readWord ipv6packet 4 + 20)
    (ip64.ipid + 1) (ipv6packet 7) proto ip64.hostaddr destipaddr
  split at isResult
  · cases isResult
  · next addrmap isMapped =>
      cases isResult
      exact Or.inr ⟨proto, destipaddr, _, none, protoEq, notIcmp, destEq,
        length, isMapped⟩
  · next srcport addrmap isMapped =>
      cases isResult
      exact Or.inr ⟨proto, destipaddr, _, some srcport, protoEq, notIcmp,
        destEq, length, isMapped⟩

/-! ## Incoming packets -/

theorem ip64AddrmapLookupPort_spec {map after : AddrMap numEntries width}
    (consistent : map.entries.Consistent) {port : UInt16} {protocol : UInt8}
    {found : Option (Fin numEntries)}
    (isFound : map.ip64AddrmapLookupPort port protocol =
      some (found, after)) :
    Leaves map after map.unexpired ∧
      found = map.unexpired.find? fun m =>
        (map.entry m).mappedPort = port ∧
          (map.entry m).protocol = protocol := by
  obtain ⟨aged, isAged, leaves⟩ := checkAge_spec consistent
  unfold ip64AddrmapLookupPort at isFound
  rw [isAged] at isFound
  simp only [Option.some.injEq, Prod.mk.injEq] at isFound
  obtain ⟨isFind, rfl⟩ := isFound
  refine ⟨leaves, ?_⟩
  rw [← isFind, leaves.list]
  simp only [leaves.entry]

theorem ip64_4to6_addrmap (consistent : ip64.addrmap.entries.Consistent)
    {ipv4packet resultpacket : ByteMem} {ipv4packetLen : UInt16}
    {result : Option (UInt16 × ByteMem)}
    (isResult : ip64_4to6 config ip64 ipv4packet ipv4packetLen
      resultpacket = some (result, after)) :
    after.addrmap = ip64.addrmap ∨
      Leaves ip64.addrmap after.addrmap ip64.addrmap.unexpired := by
  have mapped : ∀ port protocol target addrmap,
      mapIncoming config ip64 port protocol = some (target, addrmap) →
        addrmap = ip64.addrmap ∨
          Leaves ip64.addrmap addrmap ip64.addrmap.unexpired := by
    intro port protocol target addrmap isMapped
    unfold mapIncoming at isMapped
    split at isMapped
    · cases isMapped
      exact Or.inl rfl
    split at isMapped
    · cases isMapped
      exact Or.inl rfl
    split at isMapped
    · cases isMapped
    · next isFound =>
        cases isMapped
        exact Or.inr (ip64AddrmapLookupPort_spec consistent isFound).1
    · next isFound =>
        cases isMapped
        exact Or.inr (ip64AddrmapLookupPort_spec consistent isFound).1
  unfold ip64_4to6 at isResult
  dsimp only at isResult
  split at isResult
  · cases isResult
    exact Or.inl rfl
  split at isResult
  · cases isResult
    exact Or.inl rfl
  split at isResult
  · cases isResult
    exact Or.inl rfl
  split at isResult
  · cases isResult
    exact Or.inl rfl
  split at isResult
  · cases isResult
    exact Or.inl rfl
  split at isResult
  · cases isResult
  · next isMapped =>
      cases isResult
      exact mapped _ _ _ _ isMapped
  · next isMapped =>
      cases isResult
      exact mapped _ _ _ _ isMapped

theorem readAddr6_of_holds {addr : Nat}
    {ip6addr : Ip6Addr} (holds : packet.Holds addr ip6addr.toList) :
    readAddr6 packet addr = ip6addr := by
  refine Vector.ext fun i inside => ?_
  have byte := holds.apply i (by rw [Vector.length_toList]; exact inside)
  unfold readAddr6
  rw [Vector.getElem_ofFn, byte, Vector.getElem_toList]

theorem holds_storeChecksum (checksum : ByteMem → UInt16)
    (packet : ByteMem) (proto : UInt8) {header : List UInt8} {addr : Nat}
    (behind : header.length ≤ addr) :
    ByteMem.Holds (storeChecksum checksum (packet.write 0 header) addr proto)
      0 header := by
  have same : (storeChecksum checksum (packet.write 0 header) addr
      proto).read 0 header.length =
        (packet.write 0 header).read 0 header.length :=
    ByteMem.read_congr fun address _ below =>
      storeChecksum_outside (Or.inl (by omega))
  unfold ByteMem.Holds
  rw [same, ByteMem.read_write_self]

/-- The addresses and the payload that `ip64_4to6` sends. -/
theorem finish4to6_spec {packet ipv4packet out : ByteMem}
    {ipv4len outLen : UInt16} {nxthdr : UInt8} {destipaddr : Ip6Addr}
    (isOut : (outLen, out) =
      finish4to6 packet ipv4packet ipv4len nxthdr destipaddr) :
    readAddr6 out 24 = destipaddr ∧
      readAddr6 out 8 = ip64_addr_4to6 (readAddr4 ipv4packet 12) ∧
      ∀ index, index < checksumOffset nxthdr ∨
          checksumOffset nxthdr + 2 ≤ index →
        out (ipv6Hdrlen + index) = packet (ipv6Hdrlen + index) := by
  unfold finish4to6 at isOut
  obtain ⟨rfl, rfl⟩ := Prod.mk.inj isOut
  have length := length_ipv6Header (ipv4len - 20) nxthdr (ipv4packet 8)
    (ip64_addr_4to6 (readAddr4 ipv4packet 12)) destipaddr
  have behind : (ipv6Header (ipv4len - 20) nxthdr (ipv4packet 8)
      (ip64_addr_4to6 (readAddr4 ipv4packet 12)) destipaddr).length ≤
        ipv6Hdrlen + checksumOffset nxthdr := by
    rw [length]
    exact Nat.le_add_right _ _
  have holds := holds_storeChecksum
    (fun packet => ipv6TransportChecksum packet (ipv4len + 20) nxthdr)
    packet nxthdr behind
  unfold ipv6Header at holds
  rw [ByteMem.holds_append, ByteMem.holds_append] at holds
  obtain ⟨⟨_, source⟩, dest⟩ := holds
  simp only [wordBytes, List.length_append, List.length_cons,
    List.length_nil, Vector.length_toList, Nat.zero_add, Nat.reduceAdd]
    at source dest
  refine ⟨readAddr6_of_holds dest, readAddr6_of_holds source,
    fun index outside => ?_⟩
  · rw [storeChecksum_outside (by omega), ByteMem.write_of_ge (by omega)]

/-- The ports of an IPv4 packet, behind the header of the length that it
gives. -/
def srcport4 (packet : ByteMem) : UInt16 :=
  readWord packet (headerLen packet)

def destport4 (packet : ByteMem) : UInt16 :=
  readWord packet (headerLen packet + 2)

/-- A TCP or UDP packet to an ephemeral port. -/
structure Inbound (packet : ByteMem) : Prop where
  transport : packet 9 = ipProtoTcp ∨ packet 9 = ipProtoUdp
  hasPorts : headerLen packet + 4 ≤ (readWord packet 2).toNat
  ephemeral : ephemeralPortrange ≤ destport4 packet

/-- A packet to the port of a mapping from its remote host. -/
def Mapping.Accepts (mapping : Mapping) (packet : ByteMem) : Prop :=
  mapping.protocol = packet 9 ∧ mapping.mappedPort = destport4 packet ∧
    mapping.ip4addr = readAddr4 packet 12 ∧
    mapping.ip4port = srcport4 packet

/-- The translation of a packet to the node of a mapping: only the port and
the checksum of its payload differ. -/
def Mapping.Carries (mapping : Mapping) (packet out : ByteMem) : Prop :=
  readAddr6 out 24 = mapping.ip6addr ∧
    readWord out 42 = mapping.ip6port ∧
    readAddr6 out 8 = ip64_addr_4to6 (readAddr4 packet 12) ∧
    ∀ index, index < (readWord packet 2).toNat - headerLen packet →
      index < 2 ∨ 4 ≤ index →
      index < checksumOffset (packet 9) ∨
        checksumOffset (packet 9) + 2 ≤ index →
      out (ipv6Hdrlen + index) = packet (headerLen packet + index)

/-- A packet that is complete, fits in the buffer, and is for the host. -/
structure Deliverable (config : Ip64Config)
    (ip64 : Ip64State numEntries width) (packet : ByteMem)
    (packetLen : UInt16) : Prop where
  complete : readWord packet 2 ≤ packetLen
  fits : (readWord packet 2).toNat + 20 ≤ config.bufsize
  configured : ip64.hostaddrConfigured = true
  toHost : readAddr4 packet 16 = ip64.hostaddr

/-- A packet to an ephemeral port has no options, it is no broadcast, its
port is not special, and it is from the remote host of the live mappings of
its port. -/
structure FromRemote (config : Ip64Config)
    (ip64 : Ip64State numEntries width) (packet : ByteMem) : Prop where
  plain : headerLen packet = ipv4Hdrlen
  notBroadcast : isBroadcast ip64 (readAddr4 packet 16) = false
  notSpecial : config.incomingIsSpecial (destport4 packet) = false
  remote : ∀ mapping, ip64.addrmap.Lives mapping →
    mapping.protocol = packet 9 →
    mapping.mappedPort = destport4 packet → mapping.Accepts packet

theorem readWord_payload4to6 (resultpacket ipv4packet : ByteMem)
    (hasPorts : ipv4Hdrlen + 4 ≤ (readWord ipv4packet 2).toNat) :
    readWord (payload4to6 resultpacket ipv4packet) 42 =
      readWord ipv4packet 22 := by
  have high : payload4to6 resultpacket ipv4packet (ipv6Hdrlen + 2) =
      ipv4packet (ipv4Hdrlen + 2) :=
    payload4to6_apply resultpacket ipv4packet (by omega)
  have low : payload4to6 resultpacket ipv4packet (ipv6Hdrlen + 3) =
      ipv4packet (ipv4Hdrlen + 3) :=
    payload4to6_apply resultpacket ipv4packet (by omega)
  exact readWord_congr high low

/-- The port that `ip64_4to6` looks up when there are no options. -/
theorem Inbound.destport (inbound : Inbound packet)
    (plain : headerLen packet = ipv4Hdrlen) (resultpacket : ByteMem) :
    readWord (payload4to6 resultpacket packet) 42 = destport4 packet := by
  have hasPorts := inbound.hasPorts
  unfold destport4
  rw [plain] at hasPorts ⊢
  exact readWord_payload4to6 resultpacket packet hasPorts

theorem Inbound.nxthdr (inbound : Inbound packet) :
    nxthdrFor4to6 packet = some (packet 9) ∧
      packet 9 ≠ ipProtoIcmpv6 ∧ 4 ≤ checksumOffset (packet 9) := by
  unfold nxthdrFor4to6
  rcases inbound.transport with isTcp | isUdp
  · rw [isTcp]
    exact ⟨rfl, by decide, by decide⟩
  · rw [isUdp]
    exact ⟨rfl, by decide, by decide⟩

theorem mapIncoming_ephemeral
    {ip64 : Ip64State numEntries width} {destport : UInt16} {proto : UInt8}
    (ephemeral : ephemeralPortrange ≤ destport)
    (notSpecial : config.incomingIsSpecial destport = false) :
    mapIncoming config ip64 destport proto =
      (ip64.addrmap.ip64AddrmapLookupPort destport proto).map fun found =>
        (found.1.map fun m =>
          ((found.2.entry m).ip6addr, (found.2.entry m).ip6port),
          found.2) := by
  unfold mapIncoming
  rw [if_neg (UInt16.not_lt.2 ephemeral), notSpecial,
    if_neg Bool.false_ne_true]
  cases ip64.addrmap.ip64AddrmapLookupPort destport proto with
  | none =>
      rfl
  | some found =>
      obtain ⟨found, addrmap⟩ := found
      cases found with
      | none =>
          rfl
      | some m =>
          rfl

/-- A packet to an ephemeral port goes to the node of a live mapping with its
port and its protocol. -/
theorem ip64_4to6_carries (consistent : ip64.addrmap.entries.Consistent)
    {packet resultpacket out : ByteMem} {packetLen outLen : UInt16}
    (inbound : Inbound packet) (remote : FromRemote config ip64 packet)
    (translated : ip64_4to6 config ip64 packet packetLen resultpacket =
      some (some (outLen, out), after)) :
    ∃ m ∈ ip64.addrmap.unexpired,
      (ip64.addrmap.entry m).mappedPort = destport4 packet ∧
      (ip64.addrmap.entry m).protocol = packet 9 ∧
      (ip64.addrmap.entry m).mapping.Carries packet out := by
  obtain ⟨nxthdrEq, notIcmp, checksumBehind⟩ := inbound.nxthdr
  obtain ⟨nxthdr, shaped, destipaddr, isNxthdr, -, -, isOut, -, rest⟩ :=
    ip64_4to6_spec translated
  rw [nxthdrEq, Option.some.injEq] at isNxthdr
  subst isNxthdr
  rw [if_neg notIcmp, remote.notBroadcast, if_neg Bool.false_ne_true,
    inbound.destport remote.plain] at rest
  obtain ⟨destport, isMapped, isShaped⟩ := rest
  rw [mapIncoming_ephemeral inbound.ephemeral remote.notSpecial,
    Option.map_eq_some_iff] at isMapped
  obtain ⟨⟨found, addrmap⟩, isFound, isTarget⟩ := isMapped
  obtain ⟨leaves, isFind⟩ := ip64AddrmapLookupPort_spec consistent isFound
  cases found with
  | none =>
      cases isTarget
  | some m =>
      simp only [Option.map_some, Prod.mk.injEq, Option.some.injEq,
        leaves.entry] at isTarget
      obtain ⟨⟨toNode, toPort⟩, -⟩ := isTarget
      have member := List.mem_of_find?_eq_some isFind.symm
      have matching := List.find?_some isFind.symm
      rw [decide_eq_true_iff] at matching
      obtain ⟨dest, source, payload⟩ := finish4to6_spec isOut
      refine ⟨m, member, matching.1, matching.2, dest.trans toNode.symm, ?_,
        source, fun index inside notPort notChecksum => ?_⟩
      · have high := payload 2 (Or.inl (by omega))
        have low := payload 3 (Or.inl (by omega))
        rw [isShaped] at high low
        have same : readWord out 42 = readWord (storeWord (payload4to6
            resultpacket packet) 42 destport) 42 :=
          readWord_congr high low
        rw [same, readWord_storeWord]
        exact toPort.symm
      · rw [payload index notChecksum, isShaped, storeWord_outside
          (by unfold ipv6Hdrlen; omega)]
        rw [remote.plain] at inside ⊢
        exact payload4to6_apply resultpacket packet inside

/-- A packet for the host is translated when a mapping has its port. -/
theorem ip64_4to6_returns {ip64 : Ip64State numEntries width}
    {packet : ByteMem} (resultpacket : ByteMem) {packetLen : UInt16}
    (inbound : Inbound packet) (remote : FromRemote config ip64 packet)
    (deliverable : Deliverable config ip64 packet packetLen)
    {m : Fin numEntries} {aged : AddrMap numEntries width}
    (isFound : ip64.addrmap.ip64AddrmapLookupPort (destport4 packet)
      (packet 9) = some (some m, aged)) :
    ∃ outLen out after, ip64_4to6 config ip64 packet packetLen
      resultpacket = some (some (outLen, out), after) := by
  obtain ⟨nxthdrEq, notIcmp, -⟩ := inbound.nxthdr
  have port := inbound.destport remote.plain
  have isMapped := @mapIncoming_ephemeral _ _ config ip64 _ (packet 9)
    inbound.ephemeral remote.notSpecial
  rw [isFound] at isMapped
  have hasPorts := inbound.hasPorts
  rw [remote.plain] at hasPorts
  have accepted : ¬ (packetLen < readWord packet 2 ∨
      readWord packet 2 ≤ 20 ∨
      config.bufsize < (readWord packet 2).toNat - ipv4Hdrlen +
        ipv6Hdrlen) := by
    have complete := deliverable.complete
    have fits := deliverable.fits
    rw [UInt16.le_iff_toNat_le] at complete
    rw [UInt16.lt_iff_toNat_lt, UInt16.le_iff_toNat_le]
    change ¬ (_ ∨ _ ≤ 20 ∨ _)
    unfold ipv4Hdrlen at hasPorts ⊢
    unfold ipv6Hdrlen
    omega
  unfold ip64_4to6
  dsimp only
  rw [if_neg accepted, nxthdrEq]
  dsimp only
  rw [remote.notBroadcast, if_neg Bool.false_ne_true, if_neg
    (by simp [deliverable.configured, deliverable.toHost]), if_neg notIcmp,
    if_neg notIcmp]
  unfold payload4to6 at port
  rw [port, isMapped]
  exact ⟨_, _, _, rfl⟩

/-- A TCP or UDP packet from an ephemeral port that is not special. -/
structure Outbound (config : Ip64Config) (packet : ByteMem) : Prop where
  transport : packet 6 = ipProtoTcp ∨ packet 6 = ipProtoUdp
  hasPorts : 4 ≤ (readWord packet 4).toNat
  ephemeral : ephemeralPortrange ≤ readWord packet 40
  notSpecial : config.outgoingIsSpecial (readWord packet 40) = false

/-- The translation of a packet of the node of a mapping: only the port and
the checksum of its payload differ. -/
def Mapping.Sends (mapping : Mapping) (hostaddr : Ip4Addr)
    (packet out : ByteMem) : Prop :=
  out 9 = mapping.protocol ∧ readAddr4 out 12 = hostaddr ∧
    readAddr4 out 16 = mapping.ip4addr ∧
    readWord out 20 = mapping.mappedPort ∧
    ∀ index, index < (readWord packet 4).toNat → 2 ≤ index →
      index < checksumOffset (packet 6) ∨
        checksumOffset (packet 6) + 2 ≤ index →
      out (ipv4Hdrlen + index) = packet (ipv6Hdrlen + index)

theorem readAddr4_of_holds {addr : Nat}
    {ip4addr : Ip4Addr} (holds : packet.Holds addr ip4addr.toList) :
    readAddr4 packet addr = ip4addr := by
  refine Vector.ext fun i inside => ?_
  have byte := holds.apply i (by rw [Vector.length_toList]; exact inside)
  unfold readAddr4
  rw [Vector.getElem_ofFn, byte, Vector.getElem_toList]

theorem checksums6to4_outside (packet : ByteMem) (ipv4len : UInt16)
    (proto : UInt8) {address : Nat}
    (notHeader : address < 10 ∨ 12 ≤ address)
    (notTransport : address < ipv4Hdrlen + checksumOffset proto ∨
      ipv4Hdrlen + checksumOffset proto + 2 ≤ address) :
    checksums6to4 packet ipv4len proto address = packet address := by
  unfold checksums6to4
  rw [storeChecksum_outside notTransport, storeWord_outside notHeader]

/-- The header and the payload that `ip64_6to4` sends. -/
theorem checksums6to4_spec {outLen ipid srcport : UInt16}
    {ttl proto : UInt8} {source dest : Ip4Addr}
    (header : packet.read 0 ipv4Hdrlen =
      ipv4Header outLen ipid ttl proto source dest)
    (isPort : 4 ≤ checksumOffset proto) :
    checksums6to4 (storeWord packet ipv4Hdrlen srcport) outLen proto 9 =
        proto ∧
      readAddr4 (checksums6to4 (storeWord packet ipv4Hdrlen srcport) outLen
        proto) 12 = source ∧
      readAddr4 (checksums6to4 (storeWord packet ipv4Hdrlen srcport) outLen
        proto) 16 = dest ∧
      readWord (checksums6to4 (storeWord packet ipv4Hdrlen srcport) outLen
        proto) 20 = srcport ∧
      ∀ index, 2 ≤ index →
        index < checksumOffset proto ∨ checksumOffset proto + 2 ≤ index →
        checksums6to4 (storeWord packet ipv4Hdrlen srcport) outLen proto
          (ipv4Hdrlen + index) = packet (ipv4Hdrlen + index) := by
  have before : ∀ address, address < 10 ∨ 12 ≤ address → address < 20 →
      checksums6to4 (storeWord packet ipv4Hdrlen srcport) outLen proto
        address = packet address := by
    intro address notHeader below
    rw [checksums6to4_outside _ _ _ notHeader
      (Or.inl (by unfold ipv4Hdrlen; omega)),
      storeWord_outside (Or.inl (by unfold ipv4Hdrlen; omega))]
  have holds : packet.Holds 0
      (ipv4Header outLen ipid ttl proto source dest) := by
    unfold ByteMem.Holds
    rw [length_ipv4Header, header]
  have proto9 : packet 9 = proto :=
    holds.apply 9 (by rw [length_ipv4Header]; decide)
  unfold ipv4Header at holds
  rw [ByteMem.holds_append, ByteMem.holds_append] at holds
  obtain ⟨⟨_, holdsSource⟩, holdsDest⟩ := holds
  simp only [wordBytes, List.length_append, List.length_cons,
    List.length_nil, Vector.length_toList, Nat.zero_add, Nat.reduceAdd]
    at holdsSource holdsDest
  refine ⟨(before 9 (by decide) (by decide)).trans proto9, ?_, ?_, ?_, ?_⟩
  · rw [← readAddr4_of_holds holdsSource]
    refine Vector.ext fun i inside => ?_
    unfold readAddr4
    rw [Vector.getElem_ofFn, Vector.getElem_ofFn,
      before _ (by omega) (by omega)]
  · rw [← readAddr4_of_holds holdsDest]
    refine Vector.ext fun i inside => ?_
    unfold readAddr4
    rw [Vector.getElem_ofFn, Vector.getElem_ofFn,
      before _ (by omega) (by omega)]
  · have high := checksums6to4_outside
      (storeWord packet ipv4Hdrlen srcport) outLen proto
      (Or.inr (by decide) : 20 < 10 ∨ 12 ≤ 20)
      (Or.inl (by unfold ipv4Hdrlen; omega))
    have low := checksums6to4_outside
      (storeWord packet ipv4Hdrlen srcport) outLen proto
      (Or.inr (by decide) : 21 < 10 ∨ 12 ≤ 21)
      (Or.inl (by unfold ipv4Hdrlen; omega))
    exact (readWord_congr high low).trans
      (readWord_storeWord packet 20 srcport)
  · intro index behindPort notChecksum
    rw [checksums6to4_outside _ _ _
      (Or.inr (by unfold ipv4Hdrlen; omega)) (by omega),
      storeWord_outside (by omega)]

theorem Outbound.proto (outbound : Outbound config packet) :
    protoFor6to4 packet = some (packet 6) ∧ packet 6 ≠ ipProtoIcmpv4 ∧
      4 ≤ checksumOffset (packet 6) := by
  unfold protoFor6to4
  rcases outbound.transport with isTcp | isUdp
  · rw [isTcp]
    exact ⟨rfl, by decide, by decide⟩
  · rw [isUdp]
    exact ⟨rfl, by decide, by decide⟩

/-- A packet from an ephemeral port leaves an entry for its flow, and has the
port of this entry. -/
theorem ip64_6to4_sends (ok : ip64.addrmap.Ok)
    {rands : List UInt16} {packet resultpacket out : ByteMem}
    {packetLen outLen : UInt16} (outbound : Outbound config packet)
    (translated : ip64_6to4 config ip64 rands packet packetLen
      resultpacket = some (some (outLen, out), after)) :
    ∃ m ∈ after.addrmap.entries.list, ∃ destipaddr,
      ip64_addr_6to4 (readAddr6 packet 24) = some destipaddr ∧
      (after.addrmap.entry m).mapping.IsFor (packet 6) (readAddr6 packet 8)
        (readWord packet 40) destipaddr (readWord packet 42) ∧
      (after.addrmap.entry m).mapping.Sends ip64.hostaddr packet out := by
  obtain ⟨protoEq, notIcmp, behindPort⟩ := outbound.proto
  obtain ⟨proto, destipaddr, shaped, isProto, isDest, -, lenEq, rfl, -,
    rest⟩ := ip64_6to4_spec translated
  rw [protoEq, Option.some.injEq] at isProto
  subst isProto
  rw [if_neg notIcmp] at rest
  obtain ⟨srcport, isMapped, rfl⟩ := rest
  have length := length_ipv4Header outLen (ip64.ipid + 1) (packet 7)
    (packet 6) ip64.hostaddr destipaddr
  have hasPorts := outbound.hasPorts
  have isSrcport : readWord (payload6to4 resultpacket packet _) 20 =
      readWord packet 40 :=
    (readWord_payload6to4 resultpacket packet length (by decide)).trans
      (@readWord_sentPayload resultpacket packet 0 (by omega))
  have isDestport : readWord (payload6to4 resultpacket packet _) 22 =
      readWord packet 42 :=
    (readWord_payload6to4 resultpacket packet length (by decide)).trans
      (@readWord_sentPayload resultpacket packet 2 (by omega))
  obtain ⟨-, -, hasEntry⟩ := mapOutgoing_spec ok isMapped
  rw [isSrcport, isDestport] at hasEntry
  obtain ⟨m, listed, isFor, isPort⟩ := hasEntry outbound.notSpecial
    outbound.ephemeral srcport rfl
  have sends := @checksums6to4_spec _ _ _ srcport _ _ _ _
    (read_payload6to4 resultpacket packet length) behindPort
  refine ⟨m, listed, destipaddr, isDest, isFor, ?_, sends.2.1, ?_, ?_,
    fun index inside behind notChecksum => ?_⟩
  · exact sends.1.trans isFor.1.symm
  · exact sends.2.2.1.trans isFor.2.2.2.1.symm
  · exact sends.2.2.2.1.trans isPort.symm
  · rw [sends.2.2.2.2 index behind notChecksum]
    exact payload6to4_apply resultpacket packet length inside

/-! ## Runs -/

/-- The translations, and the clock. -/
inductive Translation (width : Nat) where
  | outgoing (rands : List UInt16) (packet : ByteMem) (packetLen : UInt16)
      (resultpacket : ByteMem)
  | incoming (packet : ByteMem) (packetLen : UInt16)
      (resultpacket : ByteMem)
  | advance (ticks : BitVec width)

namespace Ip64State

def step (config : Ip64Config) (ip64 : Ip64State numEntries width) :
    Translation width → Option (Ip64State numEntries width)
  | .outgoing rands packet packetLen resultpacket =>
      (ip64_6to4 config ip64 rands packet packetLen resultpacket).map
        Prod.snd
  | .incoming packet packetLen resultpacket =>
      (ip64_4to6 config ip64 packet packetLen resultpacket).map Prod.snd
  | .advance ticks =>
      some { ip64 with addrmap := { ip64.addrmap with
        clockTime := ip64.addrmap.clockTime + ticks } }

/-- A new entry gets a port that no entry of its protocol has, and a packet
to an ephemeral port is from the remote host of its mapping. -/
def Meets (config : Ip64Config) (ip64 : Ip64State numEntries width) :
    Translation width → Prop
  | .outgoing rands packet _ resultpacket =>
      ∀ proto destipaddr, protoFor6to4 packet = some proto →
        ip64_addr_6to4 (readAddr6 packet 24) = some destipaddr →
        proto ≠ ipProtoIcmpv4 →
        config.outgoingIsSpecial
          (readWord (sentPayload resultpacket packet) 20) = false →
        ephemeralPortrange ≤
          readWord (sentPayload resultpacket packet) 20 →
        ¬ HasFlow ip64.addrmap proto (readAddr6 packet 8)
          (readWord (sentPayload resultpacket packet) 20) destipaddr
          (readWord (sentPayload resultpacket packet) 22) →
        ip64.addrmap.PicksFreeFor rands proto
  | .incoming packet _ _ => Inbound packet → FromRemote config ip64 packet
  | .advance _ => True

/-- Translations after each other that meet a condition. -/
inductive Run (config : Ip64Config)
    (allowed : Ip64State numEntries width → Translation width → Prop)
    (start : Ip64State numEntries width) :
    Ip64State numEntries width → Prop
  | start : Run config allowed start start
  | step {ip64 after : Ip64State numEntries width}
      {translation : Translation width} :
      Run config allowed start ip64 → allowed ip64 translation →
      ip64.step config translation = some after →
      Run config allowed start after

/-- A translation keeps the entries in order, and one that meets its
condition keeps them apart. -/
theorem ok_step (ok : ip64.addrmap.Ok) (differ : ip64.addrmap.MappingsDiffer)
    {translation : Translation width} (meets : ip64.Meets config translation)
    (isStep : ip64.step config translation = some after) :
    after.addrmap.Ok ∧ after.addrmap.MappingsDiffer := by
  cases translation with
  | outgoing rands packet packetLen resultpacket =>
      obtain ⟨⟨result, _⟩, isResult, rfl⟩ :=
        Option.map_eq_some_iff.1 isStep
      rcases ip64_6to4_addrmap isResult with same |
        ⟨proto, destipaddr, header, port, isProto, notIcmp, isDest, length,
          isMapped⟩
      · rw [same]
        exact ⟨ok, differ⟩
      · obtain ⟨okAfter, differAfter, -⟩ := mapOutgoing_spec ok isMapped
        rw [readWord_payload6to4 resultpacket packet length (by decide),
          readWord_payload6to4 resultpacket packet length (by decide)]
          at differAfter
        exact ⟨okAfter, differAfter differ
          (meets proto destipaddr isProto isDest notIcmp)⟩
  | incoming packet packetLen resultpacket =>
      obtain ⟨⟨result, _⟩, isResult, rfl⟩ :=
        Option.map_eq_some_iff.1 isStep
      rcases ip64_4to6_addrmap ok.consistent isResult with same | leaves
      · rw [same]
        exact ⟨ok, differ⟩
      · exact ⟨leaves.ok ok, leaves.mappingsDiffer differ⟩
  | advance ticks =>
      cases isStep
      exact ⟨⟨ok.consistent, ok.inRange⟩, differ⟩

theorem ok_run {start ip64 : Ip64State numEntries width}
    {entry : Entry width} {clockTime : BitVec width}
    (fresh : start.addrmap = AddrMap.init entry clockTime)
    (run : Run config (Meets config) start ip64) :
    ip64.addrmap.Ok ∧ ip64.addrmap.MappingsDiffer := by
  induction run with
  | start =>
      rw [fresh]
      exact ⟨ok_init entry clockTime, by simp [MappingsDiffer, init]⟩
  | step _ meets isStep inductionHypothesis =>
      obtain ⟨ok, differ⟩ := inductionHypothesis
      exact ok_step ok differ meets isStep

/-- A datagram from port 5000 of a node to port 600 of the host 3.3.3.3. -/
def request : ByteMem :=
  ByteMem.ofList (ipv6Header 9 ipProtoUdp 64 (Vector.replicate 16 1)
    (ip64_addr_4to6 (Vector.replicate 4 3)) ++
    wordBytes 5000 ++ wordBytes 600 ++ wordBytes 9 ++ wordBytes 0 ++ [7])

/-- A datagram to the first mapped port. -/
def datagram4 (source : Ip4Addr) : ByteMem :=
  ByteMem.ofList (ipv4Header 29 0 64 ipProtoUdp source
    (Vector.replicate 4 1) ++
    wordBytes 600 ++ wordBytes 10000 ++ wordBytes 9 ++ wordBytes 0 ++ [7])

def requested : Ip64State 3 16 :=
  ((hostState (Vector.replicate 4 1)).step noSpecialPorts
    (.outgoing [5] request 49 fun _ => 0)).getD
      (hostState (Vector.replicate 4 1))

theorem requested_step :
    (hostState (Vector.replicate 4 1)).step noSpecialPorts
      (.outgoing [5] request 49 fun _ => 0) = some requested := by
  have returns : ((hostState (Vector.replicate 4 1)).step noSpecialPorts
      (.outgoing [5] request 49 fun _ => 0)).isSome = true := by
    decide +kernel
  obtain ⟨after, isStep⟩ := Option.isSome_iff_exists.1 returns
  unfold requested
  rw [isStep]
  rfl

theorem unexpired_requested : requested.addrmap.unexpired = [0] := by
  decide +kernel

theorem lives_requested {mapping : Mapping}
    (lives : requested.addrmap.Lives mapping) :
    mapping = (requested.addrmap.entry 0).mapping := by
  obtain ⟨m, young, rfl⟩ := lives
  rw [unexpired_requested, List.mem_singleton] at young
  rw [young]

instance (mapping : Mapping) (packet : ByteMem) :
    Decidable (mapping.Accepts packet) :=
  inferInstanceAs (Decidable (_ ∧ _))

end Ip64State

end Contiki.Ip64
