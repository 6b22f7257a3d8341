import Contiki.Ip64.AddrMapRuns
import Contiki.Ip64.Translate
import Contiki.Lib.OnesComplement

/-!
# The checksums of ip64

A translation computes the checksums anew: what it makes is valid, whether or
not its input was.
-/

namespace Contiki.Ip64

open Contiki.Lib Contiki.Lib.OnesComplement

variable {numEntries width : Nat}

/-! ## Words -/

theorem toNat_word (high low : UInt8) :
    (high.toUInt16 <<< 8 + low.toUInt16).toNat = word high low := by
  have highLt := high.toNat_lt
  have lowLt := low.toNat_lt
  rw [UInt16.toNat_add, UInt16.toNat_shiftLeft, UInt8.toNat_toUInt16,
    UInt8.toNat_toUInt16]
  change (high.toNat <<< 8 % 65536 + low.toNat) % 65536 = _
  rw [Nat.shiftLeft_eq]
  unfold word
  omega

theorem wordBytes_word (value : UInt16) :
    word (value >>> 8).toUInt8 value.toUInt8 = value.toNat := by
  have bound := value.toNat_lt
  unfold word
  rw [UInt16.toNat_toUInt8, UInt16.toNat_toUInt8, UInt16.toNat_shiftRight]
  change value.toNat >>> 8 % 256 * 256 + value.toNat % 256 = _
  rw [Nat.shiftRight_eq_div_pow]
  omega

variable {checksum : ByteMem → UInt16} {config : Ip64Config}
  {ip64 after : Ip64State numEntries width} {rands : List UInt16}
  {ipv6packet resultpacket out : ByteMem} {ipv6packetLen outLen : UInt16}
  (packet : ByteMem)

theorem readWord_storeWord (addr : Nat) (value : UInt16) :
    readWord (storeWord packet addr value) addr = value := by
  have high : storeWord packet addr value addr = (value >>> 8).toUInt8 :=
    ByteMem.write_inside 0 (by simp [wordBytes])
  have low : storeWord packet addr value (addr + 1) = value.toUInt8 :=
    ByteMem.write_inside 1 (by simp [wordBytes])
  have bound := value.toNat_lt
  unfold readWord
  rw [high, low]
  apply UInt16.toNat_inj.1
  rw [UInt16.toNat_or, UInt16.toNat_shiftLeft, UInt8.toNat_toUInt16,
    UInt8.toNat_toUInt16, UInt16.toNat_toUInt8, UInt16.toNat_toUInt8,
    UInt16.toNat_shiftRight]
  change (value.toNat >>> 8 % 256) <<< 8 % 65536 ||| value.toNat % 256 = _
  have fits : (value.toNat >>> 8 % 256) <<< 8 < 65536 := by
    rw [Nat.shiftLeft_eq]
    omega
  rw [Nat.mod_eq_of_lt fits,
    ← Nat.shiftLeft_add_eq_or_of_lt (show value.toNat % 256 < 2 ^ 8 by omega),
    Nat.shiftLeft_eq, Nat.shiftRight_eq_div_pow]
  omega

theorem storeWord_outside {packet : ByteMem} {addr address : Nat}
    {value : UInt16} (outside : address < addr ∨ addr + 2 ≤ address) :
    storeWord packet addr value address = packet address :=
  ByteMem.write_outside (by simpa [wordBytes] using outside)

theorem storeWord_storeWord (addr : Nat) (first second : UInt16) :
    storeWord (storeWord packet addr first) addr second =
      storeWord packet addr second := by
  funext address
  by_cases here : addr ≤ address ∧ address < addr + 2
  · obtain ⟨index, rfl⟩ := Nat.exists_eq_add_of_le here.1
    have bound : index < (wordBytes second).length := by
      simp only [wordBytes, List.length_cons, List.length_nil]
      omega
    exact (ByteMem.write_inside index bound).trans
      (ByteMem.write_inside index bound).symm
  · rw [storeWord_outside (by omega), storeWord_outside (by omega),
      storeWord_outside (by omega)]

theorem read_storeWord {base off count : Nat}
    (inside : off + 2 ≤ count) (value : UInt16) :
    (storeWord packet (base + off) value).read base count =
      packet.read base off ++ (value >>> 8).toUInt8 :: value.toUInt8 ::
        packet.read (base + off + 2) (count - off - 2) := by
  obtain ⟨rest, rfl⟩ := Nat.exists_eq_add_of_le inside
  have before : (storeWord packet (base + off) value).read base off =
      packet.read base off :=
    ByteMem.read_write_disjoint (Or.inl (Nat.le_refl _))
  have here : (storeWord packet (base + off) value).read (base + off) 2 =
      wordBytes value := ByteMem.read_write_self _ _ _
  have after : (storeWord packet (base + off) value).read
      (base + off + 2) rest = packet.read (base + off + 2) rest :=
    ByteMem.read_write_disjoint (Or.inr (by simp [wordBytes]))
  rw [ByteMem.read_add, ByteMem.read_add, before, here,
    show base + (off + 2) = base + off + 2 by omega, after,
    show off + 2 + rest - off - 2 = rest by omega, List.append_assoc]
  rfl

theorem total_storeWord {base off count : Nat}
    (even : off % 2 = 0) (inside : off + 2 ≤ count) (value : UInt16) :
    total ((storeWord packet (base + off) value).read base count) =
      total ((storeWord packet (base + off) 0).read base count) +
        value.toNat := by
  rw [read_storeWord packet inside, read_storeWord packet inside,
    total_replace (by rw [ByteMem.length_read]; exact even), wordBytes_word]
  rfl

/-! ## Sums -/

theorem folds_chksum {sum : UInt16} {number : Nat} (folds : Folds sum number)
    (data : List UInt8) : Folds (chksum sum data) (number + total data) := by
  induction data using total.induct generalizing sum number with
  | case1 first second data inductionHypothesis =>
      have later := inductionHypothesis
        (folds.addCarry (first.toUInt16 <<< 8 + second.toUInt16))
      rw [toNat_word, Nat.add_assoc] at later
      exact later
  | case2 last =>
      have later :=
        folds.addCarry (last.toUInt16 <<< 8 + (0 : UInt8).toUInt16)
      rw [toNat_word] at later
      exact later
  | case3 =>
      exact folds

theorem onesIfZero_eq {sum : UInt16} {number : Nat}
    (folds : Folds sum number) (notZero : number ≠ 0) :
    onesIfZero sum = sum :=
  if_neg fun isZero => notZero (folds.eq_zero_iff.1 isZero)

/-- A checksum that is stored in a block is valid, unless all that it covers
is 0. -/
theorem storeChecksum_checks
    {packet : ByteMem} {base off count pseudo : Nat} {start : UInt16}
    (even : off % 2 = 0) (inside : off + 2 ≤ count)
    (folds : Folds start pseudo)
    (isChecksum : ∀ other : ByteMem,
      (∀ addr, addr < base → other addr = packet addr) →
        checksum other = onesIfZero (chksum start (other.read base count)))
    (proto : UInt8)
    (notZero : pseudo +
      total ((storeWord packet (base + off) 0).read base count) ≠ 0) :
    Checks (pseudo + total ((storeChecksum checksum packet (base + off)
      proto).read base count)) ∧
    (proto = ipProtoUdp → readWord (storeChecksum checksum packet
      (base + off) proto) (base + off) ≠ 0) := by
  have isSum := isChecksum (storeWord packet (base + off) 0)
    fun addr below => storeWord_outside (Or.inl (by omega))
  have foldsAll := folds_chksum folds
    ((storeWord packet (base + off) 0).read base count)
  rw [onesIfZero_eq foldsAll notZero] at isSum
  have checks := foldsAll.checks notZero
  unfold storeChecksum
  dsimp only
  rw [isSum, storeWord_storeWord]
  split
  · next isZero =>
      rw [readWord_storeWord] at isZero
      rw [storeWord_storeWord, total_storeWord packet even inside,
        readWord_storeWord]
      rw [isZero.2, UInt16.toNat_zero, Nat.add_zero] at checks
      refine ⟨?_, fun _ => by decide⟩
      rw [← Nat.add_assoc]
      exact checks_add_ones.2 (Or.inr checks)
  · next notUdpZero =>
      rw [total_storeWord packet even inside, ← Nat.add_assoc]
      exact ⟨checks, fun isUdp isZero => notUdpZero ⟨isUdp, isZero⟩⟩

theorem storeChecksum_zero
    {packet : ByteMem} {addr base count : Nat} {start : UInt16}
    {proto : UInt8} (notUdp : proto ≠ ipProtoUdp) (folds : Folds start 0)
    (isChecksum : checksum (storeWord packet addr 0) = onesIfZero (chksum
      start ((storeWord packet addr 0).read base count)))
    (isZero : total ((storeWord packet addr 0).read base count) = 0) :
    storeChecksum checksum packet addr proto = storeWord packet addr 0 := by
  have foldsAll := folds_chksum folds
    ((storeWord packet addr 0).read base count)
  have noSum : chksum start ((storeWord packet addr 0).read base count) =
      0 := foldsAll.eq_zero_iff.2 (by omega)
  rw [noSum] at isChecksum
  unfold storeChecksum
  dsimp only
  rw [if_neg fun isUdp => notUdp isUdp.1, isChecksum, storeWord_storeWord]
  rfl

theorem storeChecksum_outside
    {packet : ByteMem} {addr address : Nat} {proto : UInt8}
    (outside : address < addr ∨ addr + 2 ≤ address) :
    storeChecksum checksum packet addr proto address = packet address := by
  unfold storeChecksum
  split
  · rw [storeWord_outside outside, storeWord_outside outside,
      storeWord_outside outside]
  · rw [storeWord_outside outside, storeWord_outside outside]

/-! ## What a translation makes -/

/-- The payload of an IPv6 packet after an IPv4 header. -/
def payload6to4 (resultpacket ipv6packet : ByteMem) (header : List UInt8) :
    ByteMem :=
  (resultpacket.write ipv4Hdrlen
    (ipv6packet.read ipv6Hdrlen (readWord ipv6packet 4).toNat)).write 0
      header

theorem length_ipv4Header (ipv4len ipid : UInt16) (ttl proto : UInt8)
    (srcipaddr destipaddr : Ip4Addr) :
    (ipv4Header ipv4len ipid ttl proto srcipaddr destipaddr).length =
      ipv4Hdrlen := by
  simp [ipv4Header, wordBytes, ipv4Hdrlen]

theorem read_payload6to4 (resultpacket ipv6packet : ByteMem)
    {header : List UInt8} (length : header.length = ipv4Hdrlen) :
    (payload6to4 resultpacket ipv6packet header).read 0 ipv4Hdrlen =
      header :=
  ByteMem.read_write_of_length length

theorem payload6to4_apply (resultpacket ipv6packet : ByteMem)
    {header : List UInt8} (length : header.length = ipv4Hdrlen)
    {index : Nat} (inside : index < (readWord ipv6packet 4).toNat) :
    payload6to4 resultpacket ipv6packet header (ipv4Hdrlen + index) =
      ipv6packet (ipv6Hdrlen + index) := by
  unfold payload6to4
  rw [ByteMem.write_outside (by omega), ByteMem.write_inside index
    (by rw [ByteMem.length_read]; exact inside), ByteMem.getElem_read]

/-- What `ip64_6to4` returns: the packet before its checksums are set. -/
theorem ip64_6to4_spec
    (translated : ip64_6to4 config ip64 rands ipv6packet ipv6packetLen
      resultpacket = some (some (outLen, out), after)) :
    ∃ proto destipaddr packet,
      protoFor6to4 ipv6packet = some proto ∧
      ip64_addr_6to4 (readAddr6 ipv6packet 24) = some destipaddr ∧
      (readWord ipv6packet 4).toNat + ipv6Hdrlen < 65536 ∧
      outLen = readWord ipv6packet 4 + 20 ∧
      out = checksums6to4 packet outLen proto ∧
      after = { ip64 with
        ipid := ip64.ipid + 1
        addrmap := after.addrmap } ∧
      if proto = ipProtoIcmpv4 then
        after.addrmap = ip64.addrmap ∧
        packet = (payload6to4 resultpacket ipv6packet
          (ipv4Header outLen (ip64.ipid + 1) (ipv6packet 7) proto
            ip64.hostaddr destipaddr)).write ipv4Hdrlen [icmpEchoReply]
      else ∃ srcport,
        mapOutgoing config ip64.addrmap rands
          (payload6to4 resultpacket ipv6packet
            (ipv4Header outLen (ip64.ipid + 1) (ipv6packet 7) proto
              ip64.hostaddr destipaddr)) (readAddr6 ipv6packet 8)
          destipaddr proto = some (some srcport, after.addrmap) ∧
        packet = storeWord (payload6to4 resultpacket ipv6packet
          (ipv4Header outLen (ip64.ipid + 1) (ipv6packet 7) proto
            ip64.hostaddr destipaddr)) ipv4Hdrlen srcport := by
  unfold ip64_6to4 at translated
  dsimp only at translated
  split at translated
  · simp at translated
  split at translated
  · simp at translated
  next fits =>
  split at translated
  · simp at translated
  next proto protoEq =>
  split at translated
  · simp at translated
  next destipaddr destEq =>
  split at translated
  · simp at translated
  refine ⟨proto, destipaddr, ?_⟩
  split at translated
  · next isIcmp =>
      simp only [Option.some.injEq, Prod.mk.injEq] at translated
      obtain ⟨⟨rfl, rfl⟩, rfl⟩ := translated
      refine ⟨_, protoEq, destEq, by omega, rfl, rfl, rfl, ?_⟩
      rw [if_pos isIcmp]
      refine ⟨rfl, ?_⟩
      unfold payload6to4
      exact ByteMem.write_comm (Or.inr (by
        rw [length_ipv4Header]; exact Nat.le_refl _))
  · next notIcmp =>
      split at translated
      · simp at translated
      · simp at translated
      next srcport addrmap mapped =>
      simp only [Option.some.injEq, Prod.mk.injEq] at translated
      obtain ⟨⟨rfl, rfl⟩, rfl⟩ := translated
      refine ⟨_, protoEq, destEq, by omega, rfl, rfl, rfl, ?_⟩
      rw [if_neg notIcmp]
      exact ⟨srcport, mapped, rfl⟩

/-- The payload of an IPv4 packet behind an IPv6 header. -/
def payload4to6 (resultpacket ipv4packet : ByteMem) : ByteMem :=
  resultpacket.write ipv6Hdrlen (ipv4packet.read ipv4Hdrlen
    ((readWord ipv4packet 2).toNat - ipv4Hdrlen))

theorem payload4to6_apply (resultpacket ipv4packet : ByteMem) {index : Nat}
    (inside : index < (readWord ipv4packet 2).toNat - ipv4Hdrlen) :
    payload4to6 resultpacket ipv4packet (ipv6Hdrlen + index) =
      ipv4packet (ipv4Hdrlen + index) := by
  unfold payload4to6
  rw [ByteMem.write_inside index
    (by rw [ByteMem.length_read]; exact inside), ByteMem.getElem_read]

/-- What `ip64_4to6` returns: the packet before its header and its checksum
are set. -/
theorem ip64_4to6_spec
    {ipv4packet resultpacket out : ByteMem} {ipv4packetLen outLen : UInt16}
    (translated : ip64_4to6 config ip64 ipv4packet ipv4packetLen
      resultpacket = some (some (outLen, out), after)) :
    ∃ nxthdr packet destipaddr,
      nxthdrFor4to6 ipv4packet = some nxthdr ∧
      20 < (readWord ipv4packet 2).toNat ∧
      (readWord ipv4packet 2).toNat + 20 ≤ config.bufsize ∧
      (outLen, out) = finish4to6 packet ipv4packet (readWord ipv4packet 2)
        nxthdr destipaddr ∧
      after = { ip64 with addrmap := after.addrmap } ∧
      if nxthdr = ipProtoIcmpv6 then
        after.addrmap = ip64.addrmap ∧
        packet = (payload4to6 resultpacket ipv4packet).write ipv6Hdrlen
          [icmp6Echo]
      else if isBroadcast ip64 (readAddr4 ipv4packet 16) then
        after.addrmap = ip64.addrmap ∧
        packet = payload4to6 resultpacket ipv4packet
      else ∃ destport,
        mapIncoming config ip64
          (readWord (payload4to6 resultpacket ipv4packet) 42)
          (ipv4packet 9) = some (some (destipaddr, destport),
            after.addrmap) ∧
        packet = storeWord (payload4to6 resultpacket ipv4packet) 42
          destport := by
  unfold ip64_4to6 at translated
  dsimp only at translated
  split at translated
  · simp at translated
  next fits =>
  simp only [not_or, UInt16.not_le, UInt16.lt_iff_toNat_lt] at fits
  change _ ∧ 20 < _ ∧ _ at fits
  have lower : 20 < (readWord ipv4packet 2).toNat := fits.2.1
  have upper : (readWord ipv4packet 2).toNat + 20 ≤ config.bufsize := by
    have bound := fits.2.2
    unfold ipv4Hdrlen ipv6Hdrlen at bound
    omega
  split at translated
  · simp at translated
  next nxthdr nxthdrEq =>
  split at translated
  · next broadcast =>
      simp only [Option.some.injEq, Prod.mk.injEq] at translated
      obtain ⟨result, rfl⟩ := translated
      refine ⟨nxthdr, _, _, nxthdrEq, lower, upper, result.symm, rfl, ?_⟩
      split
      · exact ⟨rfl, rfl⟩
      · exact ⟨rfl, rfl⟩
  next notBroadcast =>
  split at translated
  · simp at translated
  split at translated
  · next isIcmp =>
      simp only [Option.some.injEq, Prod.mk.injEq] at translated
      obtain ⟨result, rfl⟩ := translated
      refine ⟨nxthdr, _, _, nxthdrEq, lower, upper, result.symm, rfl, ?_⟩
      rw [if_pos isIcmp]
      exact ⟨rfl, rfl⟩
  · next notIcmp =>
      split at translated
      · simp at translated
      · simp at translated
      next destipaddr destport addrmap mapped =>
      simp only [Option.some.injEq, Prod.mk.injEq] at translated
      obtain ⟨result, rfl⟩ := translated
      refine ⟨nxthdr, _, _, nxthdrEq, lower, upper, result.symm, rfl, ?_⟩
      rw [if_neg notIcmp, if_neg notBroadcast]
      exact ⟨destport, mapped, rfl⟩

/-! ## Valid checksums -/

/-- The header length that an IPv4 packet gives. -/
def headerLen (packet : ByteMem) : Nat :=
  (packet 0 &&& 0x0f).toNat * 4

theorem headerLen_congr {packet other : ByteMem}
    (same : packet 0 = other 0) : headerLen packet = headerLen other := by
  unfold headerLen
  rw [same]

/-- The header checksum of an IPv4 packet is valid. -/
def ValidHeader4 (packet : ByteMem) : Prop :=
  Checks (total (packet.read 0 ipv4Hdrlen))

/-- What the pseudo-header of an IPv4 packet counts. -/
def pseudoTotal4 (packet : ByteMem) (transportLen : Nat) : Nat :=
  if packet 9 = ipProtoIcmpv4 then 0
  else transportLen + (packet 9).toNat + total (packet.read 12 8)

/-- The transport checksum of an IPv4 packet, behind the header of the length
that it gives, is valid.  UDP may leave it out. -/
def ValidTransport4 (packet : ByteMem) (transportLen : Nat) : Prop :=
  checksumOffset (packet 9) + 2 ≤ transportLen ∧
    (Checks (pseudoTotal4 packet transportLen +
        total (packet.read (headerLen packet) transportLen)) ∨
      packet 9 = ipProtoUdp ∧ readWord packet (headerLen packet + 6) = 0)

/-- What the pseudo-header of an IPv6 packet counts. -/
def pseudoTotal6 (packet : ByteMem) (transportLen : Nat) : Nat :=
  transportLen + (packet 6).toNat + total (packet.read 8 16) +
    total (packet.read 24 16)

/-- The transport checksum of an IPv6 packet is valid.  UDP may not leave it
out. -/
def ValidTransport6 (packet : ByteMem) (transportLen : Nat) : Prop :=
  checksumOffset (packet 6) + 2 ≤ transportLen ∧
    Checks (pseudoTotal6 packet transportLen +
      total (packet.read ipv6Hdrlen transportLen)) ∧
    (packet 6 = ipProtoUdp → readWord packet (ipv6Hdrlen + 6) ≠ 0)

instance (packet : ByteMem) (transportLen : Nat) :
    Decidable (ValidTransport4 packet transportLen) :=
  inferInstanceAs (Decidable (_ ∧ _))

instance (packet : ByteMem) (transportLen : Nat) :
    Decidable (ValidTransport6 packet transportLen) :=
  inferInstanceAs (Decidable (_ ∧ _))

theorem checksumOffset_even (proto : UInt8) :
    checksumOffset proto % 2 = 0 := by
  unfold checksumOffset
  split
  · rfl
  · split
    · rfl
    · rfl

/-- The end of `ip64_6to4` leaves the header as it is, but for its
checksum. -/
theorem checksums6to4_header (ipv4len : UInt16)
    (proto : UInt8) {address : Nat} (inHeader : address < 20) :
    checksums6to4 packet ipv4len proto address =
      storeWord packet 10 (~~~ ipv4Checksum packet) address := by
  unfold checksums6to4
  rw [storeChecksum_outside]
  left
  unfold ipv4Hdrlen
  omega

/-- The checksum that `ip64_6to4` stores in the header is valid. -/
theorem validHeader4_checksums6to4 {packet : ByteMem} {ipv4len : UInt16}
    {proto : UInt8} (version : packet 0 = 0x45) (high : packet 10 = 0)
    (low : packet 11 = 0) :
    ValidHeader4 (checksums6to4 packet ipv4len proto) := by
  have cleared : storeWord packet (0 + 10) 0 = packet := by
    funext address
    by_cases here : 10 ≤ address ∧ address < 12
    · obtain rfl | rfl : address = 10 ∨ address = 11 := by omega
      · exact (ByteMem.write_inside 0 (by decide)).trans high.symm
      · exact (ByteMem.write_inside 1 (by decide)).trans low.symm
    · exact storeWord_outside (by omega)
  have outside : (checksums6to4 packet ipv4len proto).read 0 ipv4Hdrlen =
      (storeWord packet (0 + 10) (~~~ ipv4Checksum packet)).read 0
        ipv4Hdrlen := by
    refine ByteMem.read_congr fun address _ below => ?_
    unfold ipv4Hdrlen at below
    exact checksums6to4_header packet ipv4len proto (by omega)
  have notZero : total (packet.read 0 ipv4Hdrlen) ≠ 0 := by
    intro isZero
    have first := (total_eq_zero_iff _).1 isZero (packet 0)
      (List.mem_cons_self ..)
    rw [version] at first
    contradiction
  have folds : Folds (chksum 0 (packet.read 0 ipv4Hdrlen))
      (total (packet.read 0 ipv4Hdrlen)) := by
    have empty : Folds 0 0 := folds_ofNat (by decide)
    simpa using folds_chksum empty (packet.read 0 ipv4Hdrlen)
  unfold ValidHeader4
  rw [outside, total_storeWord packet (by decide) (by decide), cleared]
  unfold ipv4Checksum
  rw [onesIfZero_eq folds notZero]
  exact folds.checks notZero

/-- The sum of a pseudo-header starts with the length and the protocol, and
a carry of these is lost. -/
theorem folds_lengthProto {len : UInt16} {headerLen : Nat} (proto : UInt8)
    (inLen : headerLen ≤ len.toNat) :
    Folds (len - UInt16.ofNat headerLen + proto.toUInt16)
      ((len.toNat - headerLen + proto.toNat) % 65536) := by
  have lenLt := len.toNat_lt
  have header : (UInt16.ofNat headerLen).toNat = headerLen := by
    rw [UInt16.toNat_ofNat']
    omega
  have value : (len - UInt16.ofNat headerLen + proto.toUInt16).toNat =
      (len.toNat - headerLen + proto.toNat) % 65536 := by
    rw [UInt16.toNat_add, UInt16.toNat_sub_of_le _ _
      (by rw [UInt16.le_iff_toNat_le, header]; exact inLen), header,
      UInt8.toNat_toUInt16]
  have folds := folds_ofNat (UInt16.toNat_lt
    (len - UInt16.ofNat headerLen + proto.toUInt16))
  rw [UInt16.ofNat_toNat, value] at folds
  exact folds

theorem ipv4TransportChecksum_eq (packet other : ByteMem) {len : UInt16}
    (proto : UInt8) (headerLen : 20 ≤ len.toNat)
    (agree : ∀ addr, addr < ipv4Hdrlen → other addr = packet addr) :
    ipv4TransportChecksum other len proto =
      onesIfZero (chksum
        (if proto ≠ ipProtoIcmpv4 then
          chksum (len - 20 + proto.toUInt16) (packet.read 12 8) else 0)
        (other.read ipv4Hdrlen (len.toNat - 20))) := by
  have addresses : other.read 12 8 = packet.read 12 8 :=
    ByteMem.read_congr fun address _ below =>
      agree address (by unfold ipv4Hdrlen; omega)
  have length : (len - 20).toNat = len.toNat - 20 :=
    UInt16.toNat_sub_of_le _ _ (UInt16.le_iff_toNat_le.2 headerLen)
  unfold ipv4TransportChecksum
  dsimp only
  rw [addresses, length]

theorem folds_pseudo4 {packet : ByteMem} {len : UInt16} {proto : UInt8}
    (protocol : packet 9 = proto) (small : proto.toNat ≤ 20)
    (headerLen : 20 ≤ len.toNat) :
    Folds (if proto ≠ ipProtoIcmpv4 then
        chksum (len - 20 + proto.toUInt16) (packet.read 12 8) else 0)
      (pseudoTotal4 packet (len.toNat - 20)) := by
  have lenLt := len.toNat_lt
  unfold pseudoTotal4
  rw [protocol]
  by_cases isIcmp : proto = ipProtoIcmpv4
  · rw [if_neg (not_not_intro isIcmp), if_pos isIcmp]
    exact folds_ofNat (by decide)
  · rw [if_pos isIcmp, if_neg isIcmp]
    have folds := @folds_lengthProto len 20 proto headerLen
    rw [Nat.mod_eq_of_lt (by omega)] at folds
    exact folds_chksum folds _

/-- Setting the checksum of an IPv4 packet makes it valid, unless it does not
fit or all that it covers is 0. -/
theorem validTransport4_storeChecksum {packet : ByteMem} {len : UInt16}
    {proto : UInt8} (plain : headerLen packet = ipv4Hdrlen)
    (protocol : packet 9 = proto) (small : proto.toNat ≤ 20)
    (enough : 20 ≤ len.toNat) :
    ValidTransport4 (storeChecksum
        (fun packet => ipv4TransportChecksum packet len proto) packet
        (ipv4Hdrlen + checksumOffset proto) proto) (len.toNat - 20) ↔
      checksumOffset proto + 2 ≤ len.toNat - 20 ∧
        pseudoTotal4 packet (len.toNat - 20) +
          total ((storeWord packet (ipv4Hdrlen + checksumOffset proto)
            0).read ipv4Hdrlen (len.toNat - 20)) ≠ 0 := by
  have header : ∀ address, address < 20 → storeChecksum
      (fun packet => ipv4TransportChecksum packet len proto) packet
      (ipv4Hdrlen + checksumOffset proto) proto address = packet address :=
    fun address below => storeChecksum_outside
      (Or.inl (by unfold ipv4Hdrlen; omega))
  have pseudo : pseudoTotal4 (storeChecksum
      (fun packet => ipv4TransportChecksum packet len proto) packet
      (ipv4Hdrlen + checksumOffset proto) proto) (len.toNat - 20) =
        pseudoTotal4 packet (len.toNat - 20) := by
    unfold pseudoTotal4
    rw [header 9 (by decide), ByteMem.read_congr
      fun address _ below => header address (by omega)]
  have length : headerLen (storeChecksum
      (fun packet => ipv4TransportChecksum packet len proto) packet
      (ipv4Hdrlen + checksumOffset proto) proto) = ipv4Hdrlen := by
    rw [headerLen_congr (header 0 (by decide)), plain]
  unfold ValidTransport4
  rw [pseudo, header 9 (by decide), protocol, length]
  refine and_congr_right fun inside => ?_
  have isChecksum := fun other agree =>
    ipv4TransportChecksum_eq packet other proto enough agree
  have folds := folds_pseudo4 protocol small enough
  by_cases notZero : pseudoTotal4 packet (len.toNat - 20) +
      total ((storeWord packet (ipv4Hdrlen + checksumOffset proto) 0).read
        ipv4Hdrlen (len.toNat - 20)) = 0
  · have pseudoZero : pseudoTotal4 packet (len.toNat - 20) = 0 := by omega
    have notUdp : proto ≠ ipProtoUdp := by
      rintro rfl
      unfold pseudoTotal4 at pseudoZero
      rw [if_neg (by rw [protocol]; decide), protocol] at pseudoZero
      have isProto : ipProtoUdp.toNat = 17 := rfl
      omega
    rw [pseudoZero] at folds notZero ⊢
    rw [storeChecksum_zero notUdp folds (isChecksum _ fun address below =>
      storeWord_outside (Or.inl (by omega))) (by omega)]
    constructor
    · rintro (checks | ⟨isUdp, -⟩)
      · exact checks.1
      · exact absurd isUdp notUdp
    · intro different
      exact absurd notZero different
  · have valid := storeChecksum_checks (checksumOffset_even proto) inside
      folds isChecksum proto notZero
    exact ⟨fun _ => notZero, fun _ => Or.inl valid.1⟩

theorem ipv6TransportChecksum_eq (packet other : ByteMem) {len : UInt16}
    (proto : UInt8) (headerLen : 40 ≤ len.toNat)
    (agree : ∀ addr, addr < ipv6Hdrlen → other addr = packet addr) :
    ipv6TransportChecksum other len proto =
      onesIfZero (chksum (chksum (chksum (len - 40 + proto.toUInt16)
        (packet.read 8 16)) (packet.read 24 16))
        (other.read ipv6Hdrlen (len.toNat - 40))) := by
  have source : other.read 8 16 = packet.read 8 16 :=
    ByteMem.read_congr fun address _ below =>
      agree address (by unfold ipv6Hdrlen; omega)
  have dest : other.read 24 16 = packet.read 24 16 :=
    ByteMem.read_congr fun address _ below =>
      agree address (by unfold ipv6Hdrlen; omega)
  have length : (len - 40).toNat = len.toNat - 40 :=
    UInt16.toNat_sub_of_le _ _ (UInt16.le_iff_toNat_le.2 headerLen)
  unfold ipv6TransportChecksum
  dsimp only
  rw [source, dest, length]

/-- Setting the checksum of an IPv6 packet makes it valid, unless it does not
fit or the sum of its length and its protocol has a carry. -/
theorem validTransport6_storeChecksum {packet : ByteMem} {len : UInt16}
    {proto : UInt8} (protocol : packet 6 = proto)
    (headerLen : 40 ≤ len.toNat)
    (hasSource : total (packet.read 8 16) ≠ 0) :
    ValidTransport6 (storeChecksum
        (fun packet => ipv6TransportChecksum packet len proto) packet
        (ipv6Hdrlen + checksumOffset proto) proto) (len.toNat - 40) ↔
      checksumOffset proto + 2 ≤ len.toNat - 40 ∧
        len.toNat - 40 + proto.toNat < 65536 := by
  have lenLt := len.toNat_lt
  have protoLt := proto.toNat_lt
  have header : ∀ address, address < 40 → storeChecksum
      (fun packet => ipv6TransportChecksum packet len proto) packet
      (ipv6Hdrlen + checksumOffset proto) proto address = packet address :=
    fun address below => storeChecksum_outside
      (Or.inl (by unfold ipv6Hdrlen; omega))
  have pseudo : pseudoTotal6 (storeChecksum
      (fun packet => ipv6TransportChecksum packet len proto) packet
      (ipv6Hdrlen + checksumOffset proto) proto) (len.toNat - 40) =
        pseudoTotal6 packet (len.toNat - 40) := by
    unfold pseudoTotal6
    rw [header 6 (by decide), ByteMem.read_congr
      fun address _ below => header address (by omega),
      ByteMem.read_congr fun address _ below => header address (by omega)]
  unfold ValidTransport6
  rw [pseudo, header 6 (by decide), protocol]
  refine and_congr_right fun inside => ?_
  have isChecksum := fun other agree =>
    ipv6TransportChecksum_eq packet other proto headerLen agree
  have folds := folds_chksum (folds_chksum
    (@folds_lengthProto len 40 proto headerLen) (packet.read 8 16))
    (packet.read 24 16)
  have valid := storeChecksum_checks (checksumOffset_even proto) inside
    folds isChecksum proto (by omega)
  unfold pseudoTotal6
  rw [protocol]
  constructor
  · rintro ⟨checks, -⟩
    by_contra carry
    have other := valid.1
    unfold Checks at checks other
    omega
  · intro noCarry
    rw [Nat.mod_eq_of_lt noCarry] at valid
    refine ⟨valid.1, fun isUdp => ?_⟩
    have stored := valid.2 isUdp
    have offset : checksumOffset proto = 6 := by
      rw [isUdp]
      rfl
    rwa [offset] at stored ⊢

/-! ## Translated packets -/

/-- A reply to an echo request whose bytes, besides its type and its
checksum, are all 0. -/
def EmptyReply (ipv6packet : ByteMem) (transportLen : Nat) : Prop :=
  ipv6packet 6 = ipProtoIcmpv6 ∧
    ∀ index, index < transportLen → index = 0 ∨ index = 2 ∨ index = 3 ∨
      ipv6packet (ipv6Hdrlen + index) = 0

/-- An echo request whose length and protocol have a sum with a carry. -/
def LongEcho (ipv4packet : ByteMem) (transportLen : Nat) : Prop :=
  ipv4packet 9 = ipProtoIcmpv4 ∧
    65536 ≤ transportLen + ipProtoIcmpv6.toNat

theorem protoFor6to4_cases {ipv6packet : ByteMem} {proto : UInt8}
    (protoEq : protoFor6to4 ipv6packet = some proto) :
    (ipv6packet 6 = proto ∧ (proto = ipProtoTcp ∨ proto = ipProtoUdp)) ∨
      (ipv6packet 6 = ipProtoIcmpv6 ∧ proto = ipProtoIcmpv4) := by
  unfold protoFor6to4 at protoEq
  split at protoEq
  · next isTcp =>
      cases protoEq
      exact Or.inl ⟨isTcp, Or.inl rfl⟩
  split at protoEq
  · next isUdp =>
      cases protoEq
      exact Or.inl ⟨isUdp, Or.inr rfl⟩
  split at protoEq
  · next isIcmp =>
      cases protoEq
      exact Or.inr ⟨isIcmp.1, rfl⟩
  · cases protoEq

theorem nxthdrFor4to6_cases {ipv4packet : ByteMem} {nxthdr : UInt8}
    (nxthdrEq : nxthdrFor4to6 ipv4packet = some nxthdr) :
    (ipv4packet 9 = nxthdr ∧
        (nxthdr = ipProtoTcp ∨ nxthdr = ipProtoUdp)) ∨
      (ipv4packet 9 = ipProtoIcmpv4 ∧ nxthdr = ipProtoIcmpv6) := by
  unfold nxthdrFor4to6 at nxthdrEq
  split at nxthdrEq
  · next isUdp =>
      cases nxthdrEq
      exact Or.inl ⟨isUdp, Or.inr rfl⟩
  split at nxthdrEq
  · next isTcp =>
      cases nxthdrEq
      exact Or.inl ⟨isTcp, Or.inl rfl⟩
  split at nxthdrEq
  · next isIcmp =>
      cases nxthdrEq
      exact Or.inr ⟨isIcmp.1, rfl⟩
  · cases nxthdrEq

theorem ip64_6to4_header
    (translated : ip64_6to4 config ip64 rands ipv6packet ipv6packetLen
      resultpacket = some (some (outLen, out), after)) :
    ∃ proto packet,
      protoFor6to4 ipv6packet = some proto ∧
      outLen.toNat = (readWord ipv6packet 4).toNat + 20 ∧
      out = checksums6to4 packet outLen proto ∧
      (∃ ipid ttl source dest, packet.read 0 ipv4Hdrlen =
        ipv4Header outLen ipid ttl proto source dest) ∧
      (proto = ipProtoIcmpv4 → ∀ index,
        index < (readWord ipv6packet 4).toNat → packet (ipv4Hdrlen + index) =
          if index = 0 then icmpEchoReply
          else ipv6packet (ipv6Hdrlen + index)) := by
  obtain ⟨proto, destipaddr, packet, protoEq, -, fits, lenEq, outEq, -,
    rest⟩ := ip64_6to4_spec translated
  refine ⟨proto, packet, protoEq, ?_, outEq, ?_, ?_⟩
  · unfold ipv6Hdrlen at fits
    rw [lenEq, UInt16.toNat_add]
    change _ % 65536 = _
    exact Nat.mod_eq_of_lt (by change _ + 20 < _; omega)
  · refine ⟨ip64.ipid + 1, ipv6packet 7, ip64.hostaddr, destipaddr, ?_⟩
    rw [← read_payload6to4 resultpacket ipv6packet (length_ipv4Header
      outLen (ip64.ipid + 1) (ipv6packet 7) proto ip64.hostaddr destipaddr)]
    split at rest
    · rw [rest.2]
      exact ByteMem.read_write_disjoint (Or.inl (Nat.le_refl _))
    · obtain ⟨srcport, -, rfl⟩ := rest
      exact ByteMem.read_write_disjoint (Or.inl (Nat.le_refl _))
  · intro isIcmp index inside
    rw [if_pos isIcmp] at rest
    rw [rest.2]
    split
    · next isFirst =>
        rw [isFirst]
        exact ByteMem.write_inside 0 (by decide)
    · next notFirst =>
        rw [ByteMem.write_outside (Or.inr (by
          rw [List.length_singleton]; omega))]
        exact payload6to4_apply resultpacket ipv6packet
          (length_ipv4Header ..) inside

theorem total_reply_eq_zero_iff {packet ipv6packet : ByteMem} {len : Nat}
    {value : UInt16} (isReply : ipv6packet 6 = ipProtoIcmpv6)
    (payload : ∀ index, index < len → packet (ipv4Hdrlen + index) =
      if index = 0 then icmpEchoReply
      else ipv6packet (ipv6Hdrlen + index)) :
    total ((storeWord (storeWord packet 10 value) (ipv4Hdrlen + 2) 0).read
      ipv4Hdrlen len) = 0 ↔ EmptyReply ipv6packet len := by
  have bytes : ∀ index, index < len →
      (storeWord (storeWord packet 10 value) (ipv4Hdrlen + 2) 0
        (ipv4Hdrlen + index) = 0 ↔ index = 0 ∨ index = 2 ∨ index = 3 ∨
          ipv6packet (ipv6Hdrlen + index) = 0) := by
    intro index inside
    by_cases isChecksum : index = 2 ∨ index = 3
    · have isZero : storeWord (storeWord packet 10 value) (ipv4Hdrlen + 2)
          0 (ipv4Hdrlen + index) = 0 := by
        rcases isChecksum with rfl | rfl
        · exact ByteMem.write_inside 0 (by decide)
        · exact ByteMem.write_inside 1 (by decide)
      exact iff_of_true isZero (Or.inr (isChecksum.elim Or.inl
        fun isThree => Or.inr (Or.inl isThree)))
    · rw [storeWord_outside (by omega), storeWord_outside
        (Or.inr (by unfold ipv4Hdrlen; omega)), payload index inside]
      split
      · next isFirst =>
          exact iff_of_true rfl (Or.inl isFirst)
      · next notFirst =>
          constructor
          · intro isZero
            exact Or.inr (Or.inr (Or.inr isZero))
          · rintro (isFirst | isTwo | isThree | isZero)
            · exact absurd isFirst notFirst
            · exact absurd (Or.inl isTwo) isChecksum
            · exact absurd (Or.inr isThree) isChecksum
            · exact isZero
  rw [total_eq_zero_iff, List.forall_mem_iff_forall_getElem]
  simp only [ByteMem.length_read, ByteMem.getElem_read]
  constructor
  · intro allZero
    exact ⟨isReply, fun index inside =>
      (bytes index inside).1 (allZero index inside)⟩
  · rintro ⟨-, allZero⟩ index inside
    exact (bytes index inside).2 (allZero index inside)

/-- The checksums of what `ip64_6to4` makes. -/
theorem ip64_6to4_checksums
    (translated : ip64_6to4 config ip64 rands ipv6packet ipv6packetLen
      resultpacket = some (some (outLen, out), after)) :
    ValidHeader4 out ∧
      outLen.toNat = (readWord ipv6packet 4).toNat + 20 ∧
      (ValidTransport4 out (readWord ipv6packet 4).toNat ↔
        checksumOffset (ipv6packet 6) + 2 ≤ (readWord ipv6packet 4).toNat ∧
          ¬ EmptyReply ipv6packet (readWord ipv6packet 4).toNat) := by
  obtain ⟨proto, packet, protoEq, lenEq, rfl, ⟨ipid, ttl, source, dest,
    header⟩, reply⟩ := ip64_6to4_header translated
  have length := length_ipv4Header outLen ipid ttl proto source dest
  have holds : packet.Holds 0
      (ipv4Header outLen ipid ttl proto source dest) := by
    unfold ByteMem.Holds
    rw [length, header]
  have byte : ∀ index, index < 20 → packet index =
      (ipv4Header outLen ipid ttl proto source dest).getD index 0 := by
    intro index below
    have inside : index <
        (ipv4Header outLen ipid ttl proto source dest).length := by
      rw [length]
      exact below
    rw [List.getD_eq_getElem?_getD, List.getElem?_eq_getElem inside,
      Option.getD_some, ← holds.apply index inside,
      Nat.zero_add]
  refine ⟨validHeader4_checksums6to4 (byte 0 (by decide))
    (byte 10 (by decide)) (byte 11 (by decide)), lenEq, ?_⟩
  have plain : headerLen (storeWord packet 10 (~~~ ipv4Checksum packet)) =
      ipv4Hdrlen := by
    have version : packet 0 = 0x45 := byte 0 (by decide)
    rw [headerLen_congr (storeWord_outside (Or.inl (by decide)))]
    unfold headerLen
    rw [version]
    rfl
  have protocol : storeWord packet 10 (~~~ ipv4Checksum packet) 9 = proto :=
    (storeWord_outside (Or.inl (by decide))).trans (byte 9 (by decide))
  have transportLen : outLen.toNat - 20 = (readWord ipv6packet 4).toNat := by
    omega
  have cases := protoFor6to4_cases protoEq
  have small : proto.toNat ≤ 20 := by
    rcases cases with ⟨-, rfl | rfl⟩ | ⟨-, rfl⟩ <;> decide
  have valid := validTransport4_storeChecksum plain protocol small
    (by omega : 20 ≤ outLen.toNat)
  rw [transportLen] at valid
  unfold checksums6to4
  rw [valid]
  rcases cases with ⟨same, ports⟩ | ⟨isReply, rfl⟩
  · have notIcmp : proto ≠ ipProtoIcmpv4 := by
      rcases ports with rfl | rfl <;> decide
    have notReply : proto ≠ ipProtoIcmpv6 := by
      rcases ports with rfl | rfl <;> decide
    have positive : 0 < proto.toNat := by
      rcases ports with rfl | rfl <;> decide
    rw [same]
    refine and_congr_right fun _ => iff_of_true ?_
      fun empty => notReply (same.symm.trans empty.1)
    unfold pseudoTotal4
    rw [protocol, if_neg notIcmp]
    omega
  · rw [isReply]
    refine and_congr_right fun _ => not_congr ?_
    unfold pseudoTotal4
    rw [protocol, if_pos rfl, Nat.zero_add]
    exact total_reply_eq_zero_iff isReply (reply rfl)

theorem length_ipv6Header (payloadLen : UInt16) (nxthdr hoplim : UInt8)
    (srcipaddr destipaddr : Ip6Addr) :
    (ipv6Header payloadLen nxthdr hoplim srcipaddr destipaddr).length =
      ipv6Hdrlen := by
  simp [ipv6Header, wordBytes, ipv6Hdrlen]

theorem mark_lt : 10 < 16 := by decide

theorem addr_4to6_mark (ipv4addr : Ip4Addr) :
    getElem (ip64_addr_4to6 ipv4addr) 10 mark_lt = 0xFF :=
  (Vector.getElem_append_left (by decide : 10 < 10 + 2)).trans
    ((Vector.getElem_append_right (by decide) (by decide)).trans
      (Vector.getElem_replicate _))

theorem total_addr_4to6 (payloadLen : UInt16)
    (nxthdr hoplim : UInt8) (srcipaddr : Ip4Addr) (destipaddr : Ip6Addr) :
    total ((packet.write 0 (ipv6Header payloadLen nxthdr hoplim
      (ip64_addr_4to6 srcipaddr) destipaddr)).read 8 16) ≠ 0 := by
  intro isZero
  have inside : 8 + 10 < (ipv6Header payloadLen nxthdr hoplim
      (ip64_addr_4to6 srcipaddr) destipaddr).length := by
    rw [length_ipv6Header]
    decide
  have value : (ipv6Header payloadLen nxthdr hoplim
      (ip64_addr_4to6 srcipaddr) destipaddr)[8 + 10] = 0xFF := by
    simp [ipv6Header, wordBytes, addr_4to6_mark]
  have written := (@ByteMem.write_inside packet 0 _ _ inside).trans value
  have none := (total_eq_zero_iff _).1 isZero _ (List.getElem_mem
    (show 10 < _ by rw [ByteMem.length_read]; decide))
  rw [ByteMem.getElem_read] at none
  rw [Nat.zero_add, none] at written
  exact absurd written (by decide)

/-- The checksum of what `ip64_4to6` makes. -/
theorem ip64_4to6_checksum
    {ipv4packet resultpacket out : ByteMem} {ipv4packetLen outLen : UInt16}
    (translated : ip64_4to6 config ip64 ipv4packet ipv4packetLen
      resultpacket = some (some (outLen, out), after)) :
    outLen.toNat = (readWord ipv4packet 2).toNat - 20 + 40 ∧
      (ValidTransport6 out ((readWord ipv4packet 2).toNat - 20) ↔
        checksumOffset (ipv4packet 9) + 2 ≤
            (readWord ipv4packet 2).toNat - 20 ∧
          ¬ LongEcho ipv4packet ((readWord ipv4packet 2).toNat - 20)) := by
  obtain ⟨nxthdr, packet, destipaddr, nxthdrEq, lower, upper, result, -⟩ :=
    ip64_4to6_spec translated
  have bufsizeLt := config.bufsizeLt
  unfold finish4to6 at result
  obtain ⟨rfl, rfl⟩ := Prod.mk.inj result
  have outLenEq : (readWord ipv4packet 2 + 20).toNat =
      (readWord ipv4packet 2).toNat - 20 + 40 := by
    rw [UInt16.toNat_add]
    change (_ + 20) % 65536 = _
    omega
  have transportLen : (readWord ipv4packet 2 + 20).toNat - 40 =
      (readWord ipv4packet 2).toNat - 20 := by
    omega
  have inside : 6 < (ipv6Header (readWord ipv4packet 2 - 20) nxthdr
      (ipv4packet 8) (ip64_addr_4to6 (readAddr4 ipv4packet 12))
      destipaddr).length := by
    rw [length_ipv6Header]
    decide
  have protocol : (packet.write 0 (ipv6Header (readWord ipv4packet 2 - 20)
      nxthdr (ipv4packet 8) (ip64_addr_4to6 (readAddr4 ipv4packet 12))
      destipaddr)) 6 = nxthdr := by
    have written := @ByteMem.write_inside packet 0 _ _ inside
    rw [Nat.zero_add] at written
    exact written.trans (by simp [ipv6Header, wordBytes])
  have valid := validTransport6_storeChecksum protocol
    (by omega : 40 ≤ (readWord ipv4packet 2 + 20).toNat)
    (total_addr_4to6 packet _ nxthdr _ _ destipaddr)
  rw [transportLen] at valid
  refine ⟨outLenEq, valid.trans ?_⟩
  unfold LongEcho
  rcases nxthdrFor4to6_cases nxthdrEq with ⟨same, ports⟩ | ⟨isEcho, rfl⟩
  · have notIcmp : nxthdr ≠ ipProtoIcmpv4 := by
      rcases ports with rfl | rfl <;> decide
    have small : nxthdr.toNat ≤ 20 := by
      rcases ports with rfl | rfl <;> decide
    rw [same]
    exact and_congr_right fun _ => iff_of_true (by omega)
      fun long => notIcmp long.1
  · rw [isEcho]
    refine and_congr_right fun _ => ?_
    rw [← Nat.not_le, and_iff_right rfl]

/-- Translations of checksums: the header of an IPv4 packet is valid, and the
transport checksum is as valid as that of the input exactly when the input is
too short for a checksum, or it is valid and its translation is neither an
empty reply nor a long echo request, or it is one and not valid.  An IPv4
packet that is too short behind 20 bytes may be long enough behind a shorter
header. -/
theorem checksums_translated (config : Ip64Config)
    (ip64 after : Ip64State numEntries width) (rands : List UInt16)
    (packet resultpacket out : ByteMem) (packetLen outLen : UInt16) :
    (ip64_6to4 config ip64 rands packet packetLen resultpacket =
        some (some (outLen, out), after) →
      ValidHeader4 out ∧
        ((ValidTransport4 out (outLen.toNat - ipv4Hdrlen) ↔
            ValidTransport6 packet (readWord packet 4).toNat) ↔
          (checksumOffset (packet 6) + 2 ≤ (readWord packet 4).toNat →
            (ValidTransport6 packet (readWord packet 4).toNat ↔
              ¬ EmptyReply packet (readWord packet 4).toNat)))) ∧
      (ip64_4to6 config ip64 packet packetLen resultpacket =
          some (some (outLen, out), after) →
        ((ValidTransport6 out (outLen.toNat - ipv6Hdrlen) ↔
            ValidTransport4 packet
              ((readWord packet 2).toNat - headerLen packet)) ↔
          if checksumOffset (packet 9) + 2 ≤
              (readWord packet 2).toNat - ipv4Hdrlen then
            (ValidTransport4 packet
                ((readWord packet 2).toNat - headerLen packet) ↔
              ¬ LongEcho packet ((readWord packet 2).toNat - ipv4Hdrlen))
          else
            ¬ ValidTransport4 packet
              ((readWord packet 2).toNat - headerLen packet))) := by
  unfold ipv4Hdrlen ipv6Hdrlen
  constructor
  · intro translated
    obtain ⟨header, length, transport⟩ := ip64_6to4_checksums translated
    have fits : ValidTransport6 packet (readWord packet 4).toNat →
        checksumOffset (packet 6) + 2 ≤ (readWord packet 4).toNat :=
      And.left
    refine ⟨header, ?_⟩
    rw [length, Nat.add_sub_cancel, transport]
    tauto
  · intro translated
    obtain ⟨length, transport⟩ := ip64_4to6_checksum translated
    rw [length, Nat.add_sub_cancel, transport]
    split
    · next enough =>
        rw [and_iff_right enough]
        exact Iff.comm
    · next short =>
        exact iff_false_left fun valid => short valid.1

def noSpecialPorts : Ip64Config where
  outgoingIsSpecial _ := false
  translateOutgoing _ _ := none
  incomingIsSpecial _ := false
  translateIncoming _ := none
  clockSecond := 128
  bufsize := 400
  bufsizeLt := by decide

/-- The state of a host with an address. -/
def hostState (hostaddr : Ip4Addr) : Ip64State 3 16 where
  hostaddr := hostaddr
  netmask := ⟨#[255, 255, 255, 0], rfl⟩
  hostaddrConfigured := true
  ipid := 0
  ipv6LocalAddress := Vector.replicate 16 1
  addrmap := AddrMap.init AddrMap.newEntry 0

/-- A datagram from port 500 with a checksum. -/
def datagram6 (checksum : UInt16) : ByteMem :=
  ByteMem.ofList (ipv6Header 9 ipProtoUdp 64 (Vector.replicate 16 1)
    (ip64_addr_4to6 (Vector.replicate 4 3)) ++
    wordBytes 500 ++ wordBytes 600 ++ wordBytes 9 ++ wordBytes checksum ++
    [7])

def translation
    (result : Option (Option (UInt16 × ByteMem) × Ip64State 3 16)) :
    ByteMem :=
  ((result.bind Prod.fst).map Prod.snd).getD fun _ => 0

theorem checksums_translated_datagram :
    ValidTransport4 (translation (ip64_6to4 noSpecialPorts
      (hostState (Vector.replicate 4 1)) [] (datagram6 0xE682) 49
      fun _ => 0)) 9 := by
  have valid := (checksums_translated noSpecialPorts
    (hostState (Vector.replicate 4 1)) _ [] (datagram6 0xE682) (fun _ => 0)
    (translation (ip64_6to4 noSpecialPorts
      (hostState (Vector.replicate 4 1)) [] (datagram6 0xE682) 49
      fun _ => 0)) 49 29).1 rfl
  refine (valid.2.2 fun _ => iff_of_true (by decide +kernel) ?_).2
    (by decide +kernel)
  intro empty
  exact absurd empty.1 (by decide +kernel)

/-- A datagram with a wrong checksum becomes one with a valid checksum. -/
theorem datagram6_becomesValid :
    ¬ ValidTransport6 (datagram6 1) 9 ∧
      ValidTransport4 (translation (ip64_6to4 noSpecialPorts
        (hostState (Vector.replicate 4 1)) [] (datagram6 1) 49
        fun _ => 0)) 9 := by
  decide +kernel

end Contiki.Ip64
