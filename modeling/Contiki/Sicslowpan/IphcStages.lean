import Contiki.Lib.Bits
import Contiki.Sicslowpan.Iphc

/-!
# Decoding what was encoded

Each stage of `uncompress_hdr_hc06` applied to the flags and the inline bytes
that the same stage of `compress_hdr_hc06` produced.
-/

namespace Contiki.Sicslowpan

open Contiki.Lib

variable {packet inline : ByteMem}

/-! ## Traffic class, flow label, next header and hop limit -/

/-- The traffic class in the order ECN, DSCP. -/
def swappedClass (vtc tcflow : UInt8) : UInt8 :=
  let tmp := vtc <<< 4 ||| tcflow >>> 4
  (tmp &&& 0x03) <<< 6 ||| tmp >>> 2

private theorem swapped_nibbles :
    ∀ low < 16, ∀ high < 16,
      let swapped := swappedClass (UInt8.ofNat (96 + low))
        (UInt8.ofNat (16 * high))
      (0x60 : UInt8) ||| (swapped >>> 2 &&& (0x0f : UInt8)) =
          UInt8.ofNat (96 + low) ∧
        (swapped >>> 2 &&& (0x30 : UInt8)) ||| swapped <<< 6 =
          UInt8.ofNat (16 * high) ∧
        (swapped <<< 6 &&& (0xC0 : UInt8)) |||
            (swapped >>> 2 &&& (0x30 : UInt8)) =
          UInt8.ofNat (16 * high) := by
  decide

private theorem high_nibble (byte : UInt8) :
    byte &&& 0xF0 = UInt8.ofNat (16 * (byte.toNat / 16)) ∧
      (byte &&& 0xF0) >>> 4 = byte >>> 4 := by
  have masked : (byte &&& 0xF0).toNat = byte.toNat / 16 * 16 := by
    rw [UInt8.toNat_and, Nat.and_comm]
    exact high_mask_and 4 byte.toNat_lt (by decide)
  constructor
  · rw [Nat.mul_comm]
    exact byte_eq_ofNat masked
  · rw [← UInt8.toNat_inj, UInt8.toNat_shiftRight,
      UInt8.toNat_shiftRight, masked]
    change (byte.toNat / 16 * 16) >>> 4 = byte.toNat >>> 4
    omega

variable {vtc : UInt8}

private theorem version_nibble (version : vtc >>> 4 = 6) :
    vtc.toNat / 16 = 6 := by
  have value := congrArg UInt8.toNat version
  rw [UInt8.toNat_shiftRight] at value
  change vtc.toNat >>> 4 = 6 at value
  omega

theorem swappedClass_spec (version : vtc >>> 4 = 6) (tcflow : UInt8) :
    let swapped := swappedClass vtc tcflow
    (0x60 : UInt8) ||| (swapped >>> 2 &&& (0x0f : UInt8)) = vtc ∧
      (swapped >>> 2 &&& (0x30 : UInt8)) ||| swapped <<< 6 =
        tcflow &&& 0xF0 ∧
      (swapped <<< 6 &&& (0xC0 : UInt8)) |||
          (swapped >>> 2 &&& (0x30 : UInt8)) = tcflow &&& 0xF0 := by
  have nibble := version_nibble version
  have shape : vtc = UInt8.ofNat (96 + vtc.toNat % 16) :=
    byte_eq_ofNat (by omega)
  have upper := tcflow.toNat_lt
  have split := swapped_nibbles (vtc.toNat % 16) (by omega)
    (tcflow.toNat / 16) (by omega)
  rw [← shape, ← (high_nibble tcflow).1] at split
  have same : swappedClass vtc (tcflow &&& 0xF0) =
      swappedClass vtc tcflow := by
    rw [swappedClass, (high_nibble tcflow).2]
    rfl
  rw [same] at split
  exact split

private theorem and_or_nibbles (byte : UInt8) :
    byte &&& 0xF0 ||| byte &&& 0x0F = byte := by
  rw [← UInt8.toNat_inj, UInt8.toNat_or, UInt8.toNat_and,
    UInt8.toNat_and]
  change byte.toNat &&& 0xF0 ||| byte.toNat &&& 0x0F = byte.toNat
  rw [← Nat.and_or_distrib_left]
  exact (Nat.and_two_pow_sub_one_eq_mod _ 8).trans
    (Nat.mod_eq_of_lt byte.toNat_lt)

theorem and_flag {byte mask flag value : UInt8}
    (masked : byte &&& mask = value) (within : mask &&& flag = flag) :
    byte &&& flag = value &&& flag := by
  rw [← masked, UInt8.and_assoc, within]

theorem vtc_of_class_zero (version : vtc >>> 4 = 6)
    (zero : vtc &&& 0x0F = 0) : vtc = 0x60 := by
  have high := version_nibble version
  have low := congrArg UInt8.toNat zero
  rw [UInt8.toNat_and] at low
  have remainder : vtc.toNat % 2 ^ 4 = 0 :=
    (low_mask_and vtc.toNat 4).symm.trans low
  have number : vtc.toNat = 96 := by omega
  exact byte_eq_ofNat number

private theorem low_nibble_shifted {byte : UInt8}
    (zero : byte &&& 0xF0 = 0) :
    byte >>> 2 &&& (0x30 : UInt8) = 0 := by
  have all : ∀ low < 16,
      UInt8.ofNat low >>> 2 &&& (0x30 : UInt8) = 0 := by
    decide
  have high := (high_nibble byte).1
  rw [zero] at high
  have value := congrArg UInt8.toNat high
  rw [UInt8.toNat_ofNat'] at value
  have bound := byte.toNat_lt
  change 0 = 16 * (byte.toNat / 16) % 256 at value
  have small : byte.toNat < 16 := by omega
  rw [byte_eq_ofNat (rfl : byte.toNat = byte.toNat)]
  exact all byte.toNat small

theorem holds_cons {memory : ByteMem} {base : Nat} {byte : UInt8}
    {bytes : List UInt8} :
    memory.Holds base (byte :: bytes) ↔
      memory base = byte ∧ memory.Holds (base + 1) bytes := by
  simp [ByteMem.Holds, ByteMem.read_succ]

variable {iphc0 : UInt8}

theorem uncompressTrafficFlow_compressed (version : packet 0 >>> 4 = 6)
    (flags : iphc0 &&& (Iphc.flC ||| Iphc.tcC) =
      (compressTrafficFlow packet).flags)
    (holds : inline.Holds 0 (compressTrafficFlow packet).inline) :
    uncompressTrafficFlow iphc0 inline =
      { bytes := packet.read 0 4
        consumed := (compressTrafficFlow packet).inline.length } := by
  have flowFlag := and_flag flags
    (show (Iphc.flC ||| Iphc.tcC) &&& Iphc.flC = Iphc.flC by decide)
  have classFlag := and_flag flags
    (show (Iphc.flC ||| Iphc.tcC) &&& Iphc.tcC = Iphc.tcC by decide)
  obtain ⟨class0, class1, class2⟩ := swappedClass_spec version (packet 1)
  have nibbles := and_or_nibbles (packet 1)
  have header : packet.read 0 4 =
      [packet 0, packet 1, packet 2, packet 3] := rfl
  rw [header]
  unfold compressTrafficFlow at flowFlag classFlag holds ⊢
  unfold uncompressTrafficFlow
  simp only [flowFlag, classFlag]
  by_cases flow : packet 1 &&& 0x0F = 0 ∧ packet 2 = 0 ∧ packet 3 = 0
  · obtain ⟨lowZero, flow2, flow3⟩ := flow
    rw [lowZero, UInt8.or_zero] at nibbles
    simp only [lowZero, flow2, flow3, and_self, if_true] at holds ⊢
    by_cases class' : packet 0 &&& 0x0F = 0 ∧ packet 1 &&& 0xF0 = 0
    · have vtc := vtc_of_class_zero version class'.1
      have tcflow : packet 1 = 0 := nibbles.symm.trans class'.2
      simp only [if_pos class']
      rw [if_neg (by decide), if_neg (by decide), vtc, tcflow]
      rfl
    · simp only [if_neg class'] at holds ⊢
      have byte : inline 0 = swappedClass (packet 0) (packet 1) :=
        (holds_cons.mp holds).1
      rw [if_neg (by decide), if_pos (by decide), byte, class0, class2,
        nibbles]
      rfl
  · simp only [if_neg flow] at holds ⊢
    by_cases class' : packet 0 &&& 0x0F = 0 ∧ packet 1 &&& 0xF0 = 0
    · have vtc := vtc_of_class_zero version class'.1
      rw [class'.2, UInt8.zero_or] at nibbles
      simp only [if_pos class'] at holds ⊢
      simp only [holds_cons] at holds
      obtain ⟨byte0, byte1, byte2, _⟩ := holds
      simp only [Nat.zero_add] at byte1 byte2
      have shifted : packet 1 >>> 4 = 0 := by
        rw [← (high_nibble (packet 1)).2, class'.2]
        rfl
      have byte : inline 0 = packet 1 := by
        rw [byte0, vtc, shifted, nibbles]
        exact UInt8.zero_or
      have clear := low_nibble_shifted class'.2
      rw [if_pos (by decide), if_neg (by decide), byte, byte1, byte2,
        nibbles, clear, UInt8.or_zero, vtc]
      rfl
    · simp only [if_neg class'] at holds ⊢
      simp only [holds_cons] at holds
      obtain ⟨byte0, byte1, byte2, byte3, _⟩ := holds
      have byte : inline 0 = swappedClass (packet 0) (packet 1) := byte0
      simp only [Nat.zero_add] at byte1 byte2 byte3
      rw [if_pos (by decide), if_pos (by decide), byte, class0, class1,
        byte1, byte2, byte3, nibbles]
      rfl

theorem uncompressNextHeader_compressed
    (flags : iphc0 &&& Iphc.nhC = (compressNextHeader packet).flags)
    (holds : inline.Holds 0 (compressNextHeader packet).inline) :
    uncompressNextHeader iphc0 inline =
      { bytes := if packet 6 = uipProtoUdp then [] else [packet 6]
        consumed := (compressNextHeader packet).inline.length } := by
  unfold compressNextHeader at flags holds ⊢
  unfold uncompressNextHeader
  by_cases udp : packet 6 = uipProtoUdp
  · simp only [if_pos udp] at flags ⊢
    rw [flags, if_neg (by decide)]
    rfl
  · simp only [if_neg udp] at flags holds ⊢
    rw [if_pos flags, (holds_cons.mp holds).1]
    rfl

theorem uncompressHopLimit_compressed
    (flags : iphc0 &&& 0x03 = (compressHopLimit packet).flags)
    (holds : inline.Holds 0 (compressHopLimit packet).inline) :
    uncompressHopLimit iphc0 inline =
      { bytes := [packet 7]
        consumed := (compressHopLimit packet).inline.length } := by
  unfold compressHopLimit at flags holds ⊢
  unfold uncompressHopLimit
  by_cases one : packet 7 = 1
  · simp only [if_pos one] at flags ⊢
    rw [flags, if_pos (by decide), one]
    rfl
  by_cases sixtyFour : packet 7 = 64
  · simp only [if_neg one, if_pos sixtyFour] at flags ⊢
    rw [flags, if_pos (by decide), sixtyFour]
    rfl
  by_cases all : packet 7 = 255
  · simp only [if_neg one, if_neg sixtyFour, if_pos all] at flags ⊢
    rw [flags, if_pos (by decide), all]
    rfl
  · simp only [if_neg one, if_neg sixtyFour, if_neg all]
      at flags holds ⊢
    rw [flags, if_neg (by decide), (holds_cons.mp holds).1]
    rfl

/-! ## Addresses -/

theorem read_address (address : ByteMem) :
    address.read 0 16 = address.read 0 8 ++ address.read 8 8 :=
  ByteMem.read_add address 0 8 8

/-- The mode in which an interface identifier is sent. -/
def iidMode (address : ByteMem) (lladdr : LinkAddr) : UInt8 :=
  if isAddrMacAddrBased address lladdr then 3
  else if isIid16BitCompressable address then 2
  else 1

theorem compressAddr64_flags (bitpos : UInt8) (address : ByteMem)
    (lladdr : LinkAddr) :
    (compressAddr64 bitpos address lladdr).flags =
      iidMode address lladdr <<< bitpos := by
  unfold compressAddr64 iidMode
  split
  · rfl
  · split <;> rfl

theorem iidMode_mem (address : ByteMem) (lladdr : LinkAddr) :
    iidMode address lladdr ∈ ([1, 2, 3] : List UInt8) := by
  unfold iidMode
  split
  · decide
  · split <;> decide

/-- The identifier that a link-layer address stands for. -/
def lladdrIid (lladdr : LinkAddr) : List UInt8 := setAddrIid [] lladdr

variable (memory : ByteMem) {contexts : List AddrContext} {address : ByteMem}

theorem read_iid_of_macBased {lladdr : LinkAddr}
    (based : isAddrMacAddrBased address lladdr = true) :
    address.read 8 8 = lladdrIid lladdr := by
  simp only [isAddrMacAddrBased, decide_eq_true_eq] at based
  rw [ByteMem.read_succ, based.1, based.2]
  rfl

theorem read_iid_of_16BitCompressable
    (compressable : isIid16BitCompressable address = true) :
    address.read 8 8 =
      [0, 0, 0, 0xff, 0xfe, 0, address 14, address 15] := by
  simp only [isIid16BitCompressable, u16IsZero, decide_eq_true_eq]
    at compressable
  obtain ⟨⟨zero8, zero9⟩, zero10, ff11, fe12, zero13⟩ := compressable
  simp only [ByteMem.read_succ, ByteMem.read_zero]
  simp [zero8, zero9, zero10, ff11, fe12, zero13]

/-- A table of `uncompress_addr` for unicast addresses, with the prefix
bytes passed to it and the eight bytes that it fills in from them. -/
inductive UnicastTable : List UInt8 → List UInt8 → List UInt8 → Prop
  | linkLocal : UnicastTable uncLlconf llprefix
      [0xfe, 0x80, 0, 0, 0, 0, 0, 0]
  | context (b0 b1 b2 b3 b4 b5 b6 b7 : UInt8) :
      UnicastTable uncCtxconf [b0, b1, b2, b3, b4, b5, b6, b7]
        [b0, b1, b2, b3, b4, b5, b6, b7]

theorem unicastTable_context (context : AddrContext) :
    UnicastTable uncCtxconf context.prefixBytes.toList
      context.prefixBytes.toList := by
  obtain ⟨⟨bytes⟩, length⟩ := context.prefixBytes
  match bytes, length with
  | [b0, b1, b2, b3, b4, b5, b6, b7], _ =>
      exact .context b0 b1 b2 b3 b4 b5 b6 b7

theorem uncompressAddr_iid {lladdr : LinkAddr}
    {bitpos : UInt8} {conf prefixBytes full : List UInt8}
    (table : UnicastTable conf prefixBytes full)
    (holds : inline.Holds 0
      (compressAddr64 bitpos address lladdr).inline) :
    uncompressAddr prefixBytes
        (conf.getD (iidMode address lladdr).toNat 0) lladdr inline =
      { bytes := full ++ address.read 8 8
        consumed :=
          (compressAddr64 bitpos address lladdr).inline.length } := by
  unfold compressAddr64 at holds ⊢
  unfold iidMode
  by_cases based : isAddrMacAddrBased address lladdr = true
  · simp only [if_pos based, read_iid_of_macBased based]
    cases table <;> rfl
  by_cases short : isIid16BitCompressable address = true
  · simp only [if_neg based, if_pos short,
      read_iid_of_16BitCompressable short] at holds ⊢
    have bytes : inline.read 0 2 = [address 14, address 15] := holds
    cases table <;>
      simp [uncompressAddr, bytes, uncLlconf, uncCtxconf, llprefix]
  · simp only [if_neg based, if_neg short] at holds ⊢
    have bytes : inline.read 0 8 = address.read 8 8 := holds
    cases table <;>
      simp [uncompressAddr, bytes, uncLlconf, uncCtxconf, llprefix]

theorem uncompressAddr_full (prefixBytes : List UInt8)
    (lladdr : LinkAddr) (holds : inline.Holds 0 (address.read 0 16)) :
    uncompressAddr prefixBytes 0x0f lladdr inline =
      { bytes := address.read 0 16, consumed := 16 } := by
  have bytes : inline.read 0 16 = address.read 0 16 := by
    simpa [ByteMem.Holds] using holds
  simp [uncompressAddr, bytes]

theorem read_of_unspecified (unspecified : isAddrUnspecified address = true) :
    address.read 0 16 = List.replicate 16 0 := by
  simp only [isAddrUnspecified, List.all_eq_true, List.mem_range,
    u16IsZero, decide_eq_true_eq] at unspecified
  have zero : ∀ index < 16, address index = 0 := by
    intro index bound
    have pair := unspecified (index / 2) (by omega)
    rcases Nat.mod_two_eq_zero_or_one index with even | odd
    · have position : 2 * (index / 2) = index := by omega
      rw [position] at pair
      exact pair.1
    · have position : 2 * (index / 2) + 1 = index := by omega
      rw [position] at pair
      exact pair.2
  apply List.ext_getElem (by simp)
  intro index _ bound
  rw [List.length_replicate] at bound
  rw [ByteMem.getElem_read, List.getElem_replicate, Nat.zero_add]
  exact zero index bound

/-- Whether bytes 2 to 7 of an address are zero. -/
def prefixTailZero (address : ByteMem) : Bool :=
  u16IsZero address 1 ∧ u16IsZero address 2 ∧ u16IsZero address 3

theorem prefixTailZero_iff (address : ByteMem) :
    prefixTailZero address = true ↔
      u16IsZero address 1 = true ∧ u16IsZero address 2 = true ∧
        u16IsZero address 3 = true := by
  simp [prefixTailZero]

/-- The link-local modes restore the first eight bytes of a link-local
address exactly when the rest of its prefix is zero. -/
theorem linkLocal_prefix_iff (linkLocal : isAddrLinkLocal address = true) :
    [0xfe, 0x80, 0, 0, 0, 0, 0, 0] = address.read 0 8 ↔
      prefixTailZero address = true := by
  simp only [isAddrLinkLocal, decide_eq_true_eq] at linkLocal
  simp only [prefixTailZero, u16IsZero, decide_eq_true_eq,
    ByteMem.read_succ, ByteMem.read_zero, linkLocal]
  simp [eq_comm]
  tauto

/-! ## Source address -/

/-- The context with a number has the prefix of an address. -/
def LeadsToPrefix (contexts : List AddrContext) (number : UInt8)
    (address : ByteMem) : Prop :=
  ∃ context, addrContextLookupByNumber contexts number = some context ∧
    context.prefixBytes.toList = address.read 0 8

/-- The decoder restores the source address of a packet from its encoding
and the byte with the context numbers. -/
def SourceRecovered (contexts : List AddrContext) (packet : ByteMem)
    (numbers : UInt8) : Prop :=
  isAddrUnspecified (srcipaddr packet) = true ∨
    match addrContextLookupByPrefix contexts (srcipaddr packet) with
    | some _ => LeadsToPrefix contexts (numbers >>> 4) (srcipaddr packet)
    | none =>
        isAddrLinkLocal (srcipaddr packet) = true →
          prefixTailZero (destipaddr packet) = true →
            prefixTailZero (srcipaddr packet) = true

/-- A decoded address is missing or differs from an address. -/
def Misses (decoded : Option Decoded) (address : ByteMem)
    (consumed : Nat) : Prop :=
  ∀ result ∈ decoded, result.bytes.length = 16 ∧
    result.bytes ≠ address.read 0 16 ∧ result.consumed = consumed

/-- The prefix that a context number leads to decides whether the address
is restored. -/
theorem map_context_decoded
    {number : UInt8} {address : ByteMem} {consumed : Nat}
    {decode : AddrContext → Decoded}
    (decoded : ∀ context, decode context =
      { bytes := context.prefixBytes.toList ++ address.read 8 8
        consumed := consumed }) :
    (LeadsToPrefix contexts number address →
      (addrContextLookupByNumber contexts number).map decode =
        some { bytes := address.read 0 16, consumed := consumed }) ∧
    (¬ LeadsToPrefix contexts number address →
      Misses ((addrContextLookupByNumber contexts number).map decode)
        address consumed) := by
  constructor
  · rintro ⟨context, found, same⟩
    rw [found, Option.map_some, decoded, same, ← read_address]
  · intro missed result member
    cases found : addrContextLookupByNumber contexts number with
    | none =>
        rw [found] at member
        exact absurd member (by simp)
    | some context =>
        rw [found, Option.map_some, Option.mem_some_iff] at member
        subst member
        rw [decoded]
        refine ⟨by simp, fun same => ?_, rfl⟩
        rw [read_address] at same
        exact missed ⟨context, found,
          (List.append_inj same (by simp)).1⟩

private theorem sam_of_context : ∀ mode ∈ ([1, 2, 3] : List UInt8),
    let flags := (Iphc.cid ||| Iphc.sac ||| mode <<< Iphc.samBit) &&& 0x70
    (flags &&& Iphc.sam11) >>> Iphc.samBit &&& 0x03 = mode ∧
      mode ≠ 0 ∧ flags &&& Iphc.sac ≠ 0 := by
  decide

private theorem sam_of_linkLocal : ∀ mode ∈ ([1, 2, 3] : List UInt8),
    let flags := mode <<< Iphc.samBit &&& 0x70
    (flags &&& Iphc.sam11) >>> Iphc.samBit &&& 0x03 = mode ∧
      ¬ flags &&& Iphc.sac ≠ 0 := by
  decide

theorem uncompressSource_compressed
    {sender : LinkAddr} {iphc1 : UInt8} (numbers : UInt8)
    (flags : iphc1 &&& 0x70 =
      (compressSource contexts sender packet).encoded.flags &&& 0x70)
    (holds : inline.Holds 0
      (compressSource contexts sender packet).encoded.inline) :
    (SourceRecovered contexts packet numbers →
      uncompressSource contexts sender iphc1 numbers inline =
        some
          { bytes := packet.read 8 16
            consumed := (compressSource contexts sender
              packet).encoded.inline.length }) ∧
    (¬ SourceRecovered contexts packet numbers →
      Misses (uncompressSource contexts sender iphc1 numbers inline)
        (srcipaddr packet)
        (compressSource contexts sender packet).encoded.inline.length) :=
  by
  have sacFlag := and_flag flags
    (show (0x70 : UInt8) &&& Iphc.sac = Iphc.sac by decide)
  have samFlag := and_flag flags
    (show (0x70 : UInt8) &&& Iphc.sam11 = Iphc.sam11 by decide)
  have modes := iidMode_mem (srcipaddr packet) sender
  have address : packet.read 8 16 = (srcipaddr packet).read 0 16 := by
    rw [srcipaddr, ByteMem.read_shift]
  rw [address]
  unfold uncompressSource
  unfold SourceRecovered
  unfold compressSource at sacFlag samFlag holds ⊢
  by_cases unspecified : isAddrUnspecified (srcipaddr packet) = true
  · simp only [if_pos unspecified] at sacFlag samFlag ⊢
    refine ⟨fun _ => ?_, fun lost => absurd (.inl unspecified) lost⟩
    rw [sacFlag, samFlag, if_pos (by decide), if_neg (by decide),
      read_of_unspecified unspecified]
    rfl
  simp only [if_neg unspecified] at sacFlag samFlag holds ⊢
  have notUnspecified : ∀ condition : Prop,
      (isAddrUnspecified (srcipaddr packet) = true ∨ condition) ↔
        condition := fun condition =>
    ⟨fun either => either.resolve_left unspecified, .inr⟩
  rw [notUnspecified]
  cases found : addrContextLookupByPrefix contexts (srcipaddr packet) with
  | some context =>
      simp only [found, compressAddr64_flags] at sacFlag samFlag holds ⊢
      obtain ⟨mode, nonzero, isSac⟩ := sam_of_context _ modes
      rw [← sacFlag] at isSac
      rw [← samFlag] at mode
      rw [mode, if_pos isSac, if_pos nonzero]
      exact map_context_decoded fun context =>
        uncompressAddr_iid (unicastTable_context context) holds
  | none =>
      simp only [found] at sacFlag samFlag holds ⊢
      simp only [← prefixTailZero_iff] at sacFlag samFlag holds ⊢
      by_cases guard : isAddrLinkLocal (srcipaddr packet) = true ∧
          prefixTailZero (destipaddr packet) = true
      · simp only [if_pos guard, compressAddr64_flags]
          at sacFlag samFlag holds ⊢
        obtain ⟨mode, notSac⟩ := sam_of_linkLocal _ modes
        rw [← sacFlag] at notSac
        rw [← samFlag] at mode
        rw [mode, if_neg notSac, uncompressAddr_iid .linkLocal holds]
        have prefixes := linkLocal_prefix_iff guard.1
        constructor
        · intro recovered
          rw [prefixes.mpr (recovered guard.1 guard.2), ← read_address]
        · intro lost result member
          rw [Option.mem_some_iff] at member
          subst member
          refine ⟨by simp, fun same => lost fun _ _ => ?_, rfl⟩
          rw [read_address] at same
          exact prefixes.mp (List.append_inj same (by simp)).1
      · simp only [if_neg guard] at sacFlag samFlag holds ⊢
        rw [sacFlag, samFlag, if_neg (by decide)]
        have full := uncompressAddr_full llprefix sender holds
        exact ⟨fun _ => (congrArg some full).trans (by simp),
          fun lost => absurd
            (fun linkLocal tail => absurd ⟨linkLocal, tail⟩ guard) lost⟩

/-! ## Destination address -/

/-- The decoder restores the destination address of a packet from its
encoding and the byte with the context numbers. -/
def DestinationRecovered (contexts : List AddrContext)
    (packet : ByteMem) (numbers : UInt8) : Prop :=
  isAddrMcast (destipaddr packet) = true ∨
    match addrContextLookupByPrefix contexts (destipaddr packet) with
    | some _ =>
        LeadsToPrefix contexts (numbers &&& 0x0f) (destipaddr packet)
    | none => True

def compressMulticast (dest : ByteMem) : Encoded :=
  if isMcastAddrCompressable8 dest then
    { flags := Iphc.m ||| Iphc.dam11, inline := [dest 15] }
  else if isMcastAddrCompressable32 dest then
    { flags := Iphc.m ||| Iphc.dam10
      inline := dest 1 :: dest.read 13 3 }
  else if isMcastAddrCompressable48 dest then
    { flags := Iphc.m ||| Iphc.dam01
      inline := dest 1 :: dest.read 11 5 }
  else { flags := Iphc.m, inline := dest.read 0 16 }

/-- The decoding of a multicast address with a mode. -/
def uncompressMulticast (receiver : LinkAddr) (mode : UInt8)
    (inline : ByteMem) : Decoded :=
  if mode > 0 ∧ mode < 3 then
    let rest := uncompressAddr [0xff, inline 0]
      (uncMxconf.getD mode.toNat 0) receiver (inline.shift 1)
    { rest with consumed := rest.consumed + 1 }
  else
    uncompressAddr [0xff, 0x02] (uncMxconf.getD mode.toNat 0) receiver
      inline

theorem uncompressMulticast_compressed {dest : ByteMem}
    (mcast : isAddrMcast dest = true) (receiver : LinkAddr)
    (holds : inline.Holds 0 (compressMulticast dest).inline) :
    uncompressMulticast receiver
        ((compressMulticast dest).flags &&& 0x03) inline =
      { bytes := dest.read 0 16
        consumed := (compressMulticast dest).inline.length } := by
  have first : dest 0 = 0xFF := by
    simpa [isAddrMcast] using mcast
  unfold compressMulticast at holds ⊢
  by_cases compressable8 : isMcastAddrCompressable8 dest = true
  · simp only [if_pos compressable8] at holds ⊢
    have byte := (holds_cons.mp holds).1
    simp only [isMcastAddrCompressable8, u16IsZero, decide_eq_true_eq]
      at compressable8
    have mode : (Iphc.m ||| Iphc.dam11) &&& 0x03 = 3 := by decide
    rw [uncompressMulticast, mode, if_neg (by decide)]
    simp [uncompressAddr, uncMxconf, ByteMem.read_succ, byte, first,
      compressable8, List.replicate]
  by_cases compressable32 : isMcastAddrCompressable32 dest = true
  · simp only [if_neg compressable8, if_pos compressable32] at holds ⊢
    simp only [isMcastAddrCompressable32, u16IsZero, decide_eq_true_eq]
      at compressable32
    obtain ⟨byte, rest⟩ := holds_cons.mp holds
    have tail : (inline.shift 1).read 0 3 = dest.read 13 3 := by
      rw [ByteMem.read_shift]
      exact rest
    have mode : (Iphc.m ||| Iphc.dam10) &&& 0x03 = 2 := by decide
    rw [uncompressMulticast, mode, if_pos (by decide)]
    simp [uncompressAddr, uncMxconf, tail, ByteMem.read_succ, byte, first,
      compressable32, List.replicate]
  by_cases compressable48 : isMcastAddrCompressable48 dest = true
  · simp only [if_neg compressable8, if_neg compressable32,
      if_pos compressable48] at holds ⊢
    simp only [isMcastAddrCompressable48, u16IsZero, decide_eq_true_eq]
      at compressable48
    obtain ⟨byte, rest⟩ := holds_cons.mp holds
    have tail : (inline.shift 1).read 0 5 = dest.read 11 5 := by
      rw [ByteMem.read_shift]
      exact rest
    have mode : (Iphc.m ||| Iphc.dam01) &&& 0x03 = 1 := by decide
    rw [uncompressMulticast, mode, if_pos (by decide)]
    simp [uncompressAddr, uncMxconf, tail, ByteMem.read_succ, byte, first,
      compressable48, List.replicate]
  · simp only [if_neg compressable8, if_neg compressable32,
      if_neg compressable48] at holds ⊢
    have full := uncompressAddr_full [0xff, 0x02] receiver holds
    rw [ByteMem.length_read]
    exact full

theorem compressMulticast_flags_mem (dest : ByteMem) :
    (compressMulticast dest).flags ∈
      ([0x0B, 0x0A, 0x09, 0x08] : List UInt8) := by
  have listed : ∀ flags ∈ ([Iphc.m ||| Iphc.dam11, Iphc.m ||| Iphc.dam10,
      Iphc.m ||| Iphc.dam01, Iphc.m] : List UInt8),
      flags ∈ ([0x0B, 0x0A, 0x09, 0x08] : List UInt8) := by
    decide
  apply listed
  unfold compressMulticast
  split
  · exact .head _
  · split
    · exact .tail _ (.head _)
    · split
      · exact .tail _ (.tail _ (.head _))
      · exact .tail _ (.tail _ (.tail _ (.head _)))

private theorem dam_of_multicast :
    ∀ flags ∈ ([0x0B, 0x0A, 0x09, 0x08] : List UInt8),
      (flags &&& Iphc.dam11) >>> Iphc.damBit &&& 0x03 = flags &&& 0x03 ∧
        flags &&& Iphc.m ≠ 0 ∧ ¬ flags &&& Iphc.dac ≠ 0 := by
  decide

private theorem dam_of_context : ∀ mode ∈ ([1, 2, 3] : List UInt8),
    let flags := Iphc.dac ||| mode <<< Iphc.damBit
    (flags &&& Iphc.dam11) >>> Iphc.damBit &&& 0x03 = mode ∧
      ¬ flags &&& Iphc.m ≠ 0 ∧ flags &&& Iphc.dac ≠ 0 := by
  decide

private theorem dam_of_linkLocal : ∀ mode ∈ ([1, 2, 3] : List UInt8),
    let flags := mode <<< Iphc.damBit
    (flags &&& Iphc.dam11) >>> Iphc.damBit &&& 0x03 = mode ∧
      ¬ flags &&& Iphc.m ≠ 0 ∧ ¬ flags &&& Iphc.dac ≠ 0 := by
  decide

theorem uncompressDestination_compressed
    {receiver : LinkAddr} {iphc1 : UInt8} (numbers : UInt8)
    (flags : iphc1 &&& 0x0F =
      (compressDestination contexts receiver packet).encoded.flags)
    (holds : inline.Holds 0
      (compressDestination contexts receiver packet).encoded.inline) :
    (DestinationRecovered contexts packet numbers →
      uncompressDestination contexts receiver iphc1 numbers inline =
        some
          { bytes := packet.read 24 16
            consumed := (compressDestination contexts receiver
              packet).encoded.inline.length }) ∧
    (¬ DestinationRecovered contexts packet numbers →
      Misses
        (uncompressDestination contexts receiver iphc1 numbers inline)
        (destipaddr packet)
        (compressDestination contexts receiver
          packet).encoded.inline.length) := by
  have mFlag := and_flag flags
    (show (0x0F : UInt8) &&& Iphc.m = Iphc.m by decide)
  have dacFlag := and_flag flags
    (show (0x0F : UInt8) &&& Iphc.dac = Iphc.dac by decide)
  have damFlag := and_flag flags
    (show (0x0F : UInt8) &&& Iphc.dam11 = Iphc.dam11 by decide)
  have modes := iidMode_mem (destipaddr packet) receiver
  have address : packet.read 24 16 = (destipaddr packet).read 0 16 := by
    rw [destipaddr, ByteMem.read_shift]
  rw [address]
  unfold uncompressDestination
  unfold DestinationRecovered
  unfold compressDestination at mFlag dacFlag damFlag holds ⊢
  by_cases mcast : isAddrMcast (destipaddr packet) = true
  · simp only [if_pos mcast] at mFlag dacFlag damFlag holds ⊢
    refine ⟨fun _ => ?_, fun lost => absurd (.inl mcast) lost⟩
    change iphc1 &&& Iphc.m =
      (compressMulticast (destipaddr packet)).flags &&& Iphc.m at mFlag
    change iphc1 &&& Iphc.dac =
      (compressMulticast (destipaddr packet)).flags &&& Iphc.dac
      at dacFlag
    change iphc1 &&& Iphc.dam11 =
      (compressMulticast (destipaddr packet)).flags &&& Iphc.dam11
      at damFlag
    obtain ⟨mode, isMulticast, noContext⟩ := dam_of_multicast _
      (compressMulticast_flags_mem (destipaddr packet))
    rw [← mFlag] at isMulticast
    rw [← dacFlag] at noContext
    rw [← damFlag] at mode
    rw [if_pos isMulticast, if_neg noContext, mode]
    have decoded := uncompressMulticast_compressed mcast receiver holds
    unfold uncompressMulticast at decoded
    split
    · next inner =>
        rw [if_pos inner] at decoded
        exact congrArg some decoded
    · next inner =>
        rw [if_neg inner] at decoded
        exact congrArg some decoded
  simp only [if_neg mcast] at mFlag dacFlag damFlag holds ⊢
  have notMulticast : ∀ condition : Prop,
      (isAddrMcast (destipaddr packet) = true ∨ condition) ↔
        condition := fun condition =>
    ⟨fun either => either.resolve_left mcast, .inr⟩
  rw [notMulticast]
  cases found : addrContextLookupByPrefix contexts
      (destipaddr packet) with
  | some context =>
      simp only [found, compressAddr64_flags]
        at mFlag dacFlag damFlag holds ⊢
      obtain ⟨mode, unicast, isDac⟩ := dam_of_context _ modes
      rw [← mFlag] at unicast
      rw [← dacFlag] at isDac
      rw [← damFlag] at mode
      rw [mode, if_neg unicast, if_pos isDac]
      exact map_context_decoded fun context =>
        uncompressAddr_iid (unicastTable_context context) holds
  | none =>
      simp only [found, ← prefixTailZero_iff]
        at mFlag dacFlag damFlag holds ⊢
      refine ⟨fun _ => ?_, fun lost => absurd trivial lost⟩
      by_cases guard : isAddrLinkLocal (destipaddr packet) = true ∧
          prefixTailZero (destipaddr packet) = true
      · simp only [if_pos guard, compressAddr64_flags]
          at mFlag dacFlag damFlag holds ⊢
        obtain ⟨mode, unicast, noContext⟩ := dam_of_linkLocal _ modes
        rw [← mFlag] at unicast
        rw [← dacFlag] at noContext
        rw [← damFlag] at mode
        rw [mode, if_neg unicast, if_neg noContext,
          uncompressAddr_iid .linkLocal holds,
          (linkLocal_prefix_iff guard.1).mpr guard.2, ← read_address]
      · simp only [if_neg guard] at mFlag dacFlag damFlag holds ⊢
        rw [mFlag, dacFlag, damFlag, if_neg (by decide),
          if_neg (by decide)]
        exact (congrArg some
          (uncompressAddr_full llprefix receiver holds)).trans (by simp)

/-! ## UDP header -/

theorem get16_eq (index : Nat) :
    get16 memory index =
      (memory index).toNat * 256 + (memory (index + 1)).toNat :=
  word_eq _ _

theorem get16_lt (index : Nat) : get16 memory index < 65536 := by
  have high := (memory index).toNat_lt
  have low := (memory (index + 1)).toNat_lt
  rw [get16_eq]
  omega

theorem set16_get16 (index : Nat) :
    set16 (get16 memory index) = memory.read index 2 := by
  have high := (memory index).toNat_lt
  have low := (memory (index + 1)).toNat_lt
  simp only [set16, ByteMem.read_succ, ByteMem.read_zero,
    List.cons.injEq, and_true, ← UInt8.toNat_inj, UInt8.toNat_ofNat',
    Nat.shiftRight_eq_div_pow, get16_eq]
  omega

private theorem and_fff0 {value : Nat} (bound : value < 65536) :
    value &&& 0xfff0 = value / 16 * 16 := by
  rw [Nat.and_comm]
  exact high_mask_and 4 (show value < 2 ^ 16 from bound) (by decide)

private theorem and_ff00 {value : Nat} (bound : value < 65536) :
    value &&& 0xff00 = value / 256 * 256 := by
  rw [Nat.and_comm]
  exact high_mask_and 8 (show value < 2 ^ 16 from bound) (by decide)

theorem uncompressPorts_compressed
    (holds : inline.Holds 0 (compressPorts packet)) :
    uncompressPorts inline =
        { bytes := packet.read 40 4
          consumed := (compressPorts packet).length } ∧
      inline 0 &&& NhcUdp.mask = NhcUdp.id ∧
      inline 0 &&& NhcUdp.checksumC = 0 := by
  have source := get16_lt packet 40
  have dest := get16_lt packet 42
  have ports : packet.read 40 4 = packet.read 40 2 ++ packet.read 42 2 :=
    ByteMem.read_add packet 40 2 2
  unfold compressPorts at holds ⊢
  unfold uncompressPorts
  simp only [and_fff0 source, and_fff0 dest, and_ff00 source,
    and_ff00 dest] at holds ⊢
  by_cases both : get16 packet 40 / 16 * 16 = udp4BitPortMin ∧
      get16 packet 42 / 16 * 16 = udp4BitPortMin
  · simp only [if_pos both, holds_cons] at holds ⊢
    obtain ⟨first, nibbles, _⟩ := holds
    simp only [udp4BitPortMin] at both nibbles ⊢
    have byte : (inline 1).toNat = (get16 packet 40 - 0xF0B0) * 16 +
        (get16 packet 42 - 0xF0B0) := by
      rw [nibbles, UInt8.toNat_add, UInt8.toNat_ofNat',
        UInt8.toNat_ofNat', Nat.shiftLeft_eq]
      omega
    have high : (inline 1 >>> 4).toNat = (inline 1).toNat / 16 := by
      rw [UInt8.toNat_shiftRight]
      exact Nat.shiftRight_eq_div_pow _ 4
    have low : (inline 1 &&& 0x0F).toNat = (inline 1).toNat % 16 := by
      rw [UInt8.toNat_and]
      exact low_mask_and _ 4
    have sourcePort : 0xF0B0 + (inline 1 >>> 4).toNat =
        get16 packet 40 := by
      omega
    have destPort : 0xF0B0 + (inline 1 &&& 0x0F).toNat =
        get16 packet 42 := by
      omega
    rw [first, sourcePort, destPort, set16_get16, set16_get16, ports]
    exact ⟨rfl, by decide, by decide⟩
  by_cases destOnly : get16 packet 42 / 256 * 256 = udp8BitPortMin
  · simp only [if_neg both, if_pos destOnly, List.cons_append,
      holds_cons] at holds ⊢
    obtain ⟨first, rest⟩ := holds
    obtain ⟨srcport, compressed⟩ := ByteMem.holds_append.mp rest
    have byte : inline 3 =
        UInt8.ofNat (get16 packet 42 - udp8BitPortMin) := by
      rw [ByteMem.length_read] at compressed
      exact (holds_cons.mp compressed).1
    have inlined : inline.read 1 2 = packet.read 40 2 := by
      rw [ByteMem.Holds, ByteMem.length_read] at srcport
      exact srcport
    simp only [udp8BitPortMin] at destOnly byte ⊢
    have destPort : 0xF000 + (inline 3).toNat = get16 packet 42 := by
      rw [byte, UInt8.toNat_ofNat']
      omega
    rw [first, destPort, set16_get16, inlined, ports]
    exact ⟨rfl, by decide, by decide⟩
  by_cases sourceOnly : get16 packet 40 / 256 * 256 = udp8BitPortMin
  · simp only [if_neg both, if_neg destOnly, if_pos sourceOnly,
      List.cons_append, List.nil_append, holds_cons] at holds ⊢
    obtain ⟨first, byte, rest⟩ := holds
    have inlined : inline.read 2 2 = packet.read 42 2 := by
      rw [ByteMem.Holds, ByteMem.length_read] at rest
      exact rest
    simp only [udp8BitPortMin, Nat.zero_add] at sourceOnly byte ⊢
    have sourcePort : 0xF000 + (inline 1).toNat = get16 packet 40 := by
      rw [byte, UInt8.toNat_ofNat']
      omega
    rw [first, sourcePort, set16_get16, inlined, ports]
    exact ⟨rfl, by decide, by decide⟩
  · simp only [if_neg both, if_neg destOnly, if_neg sourceOnly,
      holds_cons] at holds ⊢
    obtain ⟨first, rest⟩ := holds
    have inlined : inline.read 1 4 = packet.read 40 4 := by
      rw [ByteMem.Holds, ByteMem.length_read] at rest
      exact rest
    rw [first, inlined]
    exact ⟨rfl, by decide, by decide⟩

theorem uncompressUdp_compressed (buf : ByteMem)
    (holds : inline.Holds 0 (compressUdp packet)) :
    uncompressUdp inline buf =
      (((buf.write 6 [uipProtoUdp]).write 40 (packet.read 40 4)).write
          46 (packet.read 46 2),
        (compressUdp packet).length, uipUdphLen) := by
  obtain ⟨portsHold, checksum⟩ := ByteMem.holds_append.mp holds
  obtain ⟨ports, dispatch, inlined⟩ :=
    uncompressPorts_compressed portsHold
  rw [ByteMem.Holds, ByteMem.length_read, Nat.zero_add] at checksum
  simp only [uncompressUdp, if_pos dispatch, if_pos inlined, ports,
    checksum]
  rw [compressUdp, List.length_append, ByteMem.length_read]

end Contiki.Sicslowpan
