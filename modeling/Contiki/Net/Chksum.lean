import Contiki.Ip64.Checksums

/-!
# The checksums of uIP

`chksum` and `upper_layer_chksum` of `uip6.c`.  Checksums are in host byte
order here: `uip_htons` of the value that is written to a field stores it in
network byte order.
-/

namespace Contiki.Net.Chksum

open Contiki.Lib Contiki.Lib.OnesComplement
open Contiki.Ip64 (readWord storeWord)

/-- `UIP_PROTO_TCP` -/
def uipProtoTcp : UInt8 := 6
/-- `UIP_PROTO_UDP` -/
def uipProtoUdp : UInt8 := 17
/-- `UIP_PROTO_ICMP6` -/
def uipProtoIcmp6 : UInt8 := 58

/-- `UIP_IPH_LEN` -/
def uipIphLen : Nat := 40

/-- `chksum` of `len` bytes from `dataptr` on. -/
def chksum (sum : UInt16) (data : ByteMem) (dataptr : Nat) : Nat → UInt16
  | 0 => sum
  | 1 =>
      let t := (data dataptr).toUInt16 <<< 8 + 0
      let sum := sum + t
      if sum < t then sum + 1 else sum
  | len + 2 =>
      let t := (data dataptr).toUInt16 <<< 8 +
        (data (dataptr + (1 : Nat))).toUInt16
      let sum := sum + t
      let sum := if sum < t then sum + 1 else sum
      chksum sum data (dataptr + (2 : Nat)) len

/-- `upper_layer_len` for `uip_ext_len`; `buf` starts with the IPv6
header. -/
def upperLayerLen (buf : ByteMem) (extLen : UInt8) : UInt16 :=
  (buf 4).toUInt16 <<< 8 + (buf 5).toUInt16 - extLen.toUInt16

/-- `upper_layer_chksum` for `uip_ext_len` -/
def upperLayerChksum (buf : ByteMem) (extLen : UInt8) (proto : UInt8) :
    UInt16 :=
  let upperLayerLen := upperLayerLen buf extLen
  let sum := upperLayerLen + proto.toUInt16
  let sum := chksum sum buf 8 32
  let sum := chksum sum buf (uipIphLen + extLen.toNat) upperLayerLen.toNat
  if sum = 0 then 0xFFFF else sum

/-- Where the header of a protocol has its checksum: `tcpchksum`, `udpchksum`
or `icmpchksum`. -/
def chksumOffset (proto : UInt8) : Nat :=
  if proto = uipProtoTcp then 16 else if proto = uipProtoUdp then 6 else 2

/-- The address of the checksum in `uip_buf`. -/
def chksumField (extLen : UInt8) (proto : UInt8) : Nat :=
  uipIphLen + extLen.toNat + chksumOffset proto

/-- The complement of the checksum is written to its field. -/
def writeChksum (buf : ByteMem) (extLen : UInt8) (proto : UInt8) : ByteMem :=
  storeWord buf (chksumField extLen proto)
    (~~~ upperLayerChksum buf extLen proto)

variable {buf : ByteMem} {extLen proto : UInt8}

/-! ## Sums of a memory -/

theorem folds_chksum {sum : UInt16} {number : Nat} (folds : Folds sum number)
    (data : ByteMem) (dataptr len : Nat) :
    Folds (chksum sum data dataptr len)
      (number + total (data.read dataptr len)) := by
  induction len using Nat.twoStepInduction generalizing sum number dataptr with
  | zero =>
      exact folds
  | one =>
      have later := folds.addCarry ((data dataptr).toUInt16 <<< 8 +
        (0 : UInt8).toUInt16)
      rw [Ip64.toNat_word] at later
      exact later
  | more len inductionHypothesis _ =>
      have later := inductionHypothesis
        (folds.addCarry ((data dataptr).toUInt16 <<< 8 +
          (data (dataptr + 1)).toUInt16)) (dataptr + 2)
      rw [Ip64.toNat_word, Nat.add_assoc] at later
      exact later

theorem toNat_chksum (sum : UInt16) (data : ByteMem) (dataptr len : Nat) :
    (chksum sum data dataptr len).toNat =
      onesSum (sum.toNat + total (padded (data.read dataptr len))) := by
  have start : Folds sum sum.toNat :=
    ⟨Nat.ModEq.refl _, UInt16.toNat_inj.symm⟩
  rw [total_padded]
  exact (folds_chksum start data dataptr len).toNat_eq

/-- The total of what a checksum covers. -/
def coveredTotal (buf : ByteMem) (extLen proto : UInt8) : Nat :=
  (upperLayerLen buf extLen + proto.toUInt16).toNat +
    total (buf.read 8 32) +
    total (buf.read (uipIphLen + extLen.toNat)
      (upperLayerLen buf extLen).toNat)

theorem upperLayerChksum_spec (buf : ByteMem) (extLen proto : UInt8) :
    (upperLayerChksum buf extLen proto).toNat % 65535 =
      coveredTotal buf extLen proto % 65535 ∧
    0 < (upperLayerChksum buf extLen proto).toNat := by
  have start : Folds (upperLayerLen buf extLen + proto.toUInt16)
      (upperLayerLen buf extLen + proto.toUInt16).toNat :=
    ⟨Nat.ModEq.refl _, UInt16.toNat_inj.symm⟩
  have folds := folds_chksum (folds_chksum start buf 8 32) buf
    (uipIphLen + extLen.toNat) (upperLayerLen buf extLen).toNat
  unfold upperLayerChksum
  dsimp only
  split
  · next isZero =>
      have noTotal : coveredTotal buf extLen proto = 0 :=
        folds.eq_zero_iff.1 isZero
      rw [noTotal]
      decide
  · next notZero =>
      refine ⟨folds.modEq, Nat.pos_of_ne_zero fun isZero => ?_⟩
      exact notZero (UInt16.toNat_inj.1 isZero)

theorem upperLayerChksum_eq_ones_iff (buf : ByteMem) (extLen proto : UInt8) :
    upperLayerChksum buf extLen proto = 0xFFFF ↔
      coveredTotal buf extLen proto % 65535 = 0 := by
  obtain ⟨modEq, positive⟩ := upperLayerChksum_spec buf extLen proto
  have bound := (upperLayerChksum buf extLen proto).toNat_lt
  rw [← UInt16.toNat_inj]
  change _ = 65535 ↔ _
  omega

/-! ## Writing a checksum -/

theorem readWord_toNat (buf : ByteMem) (addr : Nat) :
    (readWord buf addr).toNat = word (buf addr) (buf (addr + 1)) := by
  have highLt := (buf addr).toNat_lt
  have lowLt := (buf (addr + 1)).toNat_lt
  unfold readWord word
  rw [UInt16.toNat_or, UInt16.toNat_shiftLeft, UInt8.toNat_toUInt16,
    UInt8.toNat_toUInt16]
  change (buf addr).toNat <<< 8 % 65536 ||| _ = _
  have fits : (buf addr).toNat <<< 8 < 65536 := by
    rw [Nat.shiftLeft_eq]
    omega
  rw [Nat.mod_eq_of_lt fits, ← Nat.shiftLeft_add_eq_or_of_lt lowLt,
    Nat.shiftLeft_eq]

theorem word_inj {high low first second : UInt8}
    (same : word high low = word first second) :
    high = first ∧ low = second := by
  have lowLt := low.toNat_lt
  have secondLt := second.toNat_lt
  unfold word at same
  exact ⟨UInt8.toNat_inj.1 (by omega), UInt8.toNat_inj.1 (by omega)⟩

theorem storeWord_readWord (buf : ByteMem) (addr : Nat) :
    storeWord buf addr (readWord buf addr) = buf := by
  have bytes := Ip64.wordBytes_word (readWord buf addr)
  rw [readWord_toNat] at bytes
  obtain ⟨isHigh, isLow⟩ := word_inj bytes
  unfold storeWord Ip64.wordBytes
  rw [isHigh, isLow]
  funext address
  exact (ByteMem.write_read_apply buf buf addr 2 address).trans (ite_self _)

theorem chksumOffset_even (proto : UInt8) : chksumOffset proto % 2 = 0 := by
  unfold chksumOffset
  split
  · rfl
  · split <;> rfl

/-- A word in the data counts in the total as it is, and nothing else
changes. -/
theorem coveredTotal_storeWord
    (inside : chksumOffset proto + 2 ≤ (upperLayerLen buf extLen).toNat)
    (value : UInt16) :
    coveredTotal (storeWord buf (chksumField extLen proto) value) extLen
        proto =
      coveredTotal (storeWord buf (chksumField extLen proto) 0) extLen
        proto + value.toNat := by
  have header : ∀ value : UInt16, ∀ addr < uipIphLen,
      storeWord buf (chksumField extLen proto) value addr = buf addr := by
    intro value addr below
    refine Ip64.storeWord_outside (Or.inl ?_)
    unfold chksumField
    omega
  have sameLen : ∀ value : UInt16,
      upperLayerLen (storeWord buf (chksumField extLen proto) value) extLen =
        upperLayerLen buf extLen := by
    intro value
    unfold upperLayerLen
    rw [header value 4 (by decide), header value 5 (by decide)]
  have sameAddresses : ∀ value : UInt16,
      (storeWord buf (chksumField extLen proto) value).read 8 32 =
        buf.read 8 32 := by
    intro value
    exact ByteMem.read_congr fun address _ bound =>
      header value address bound
  unfold coveredTotal
  rw [sameLen, sameLen, sameAddresses, sameAddresses]
  have counted := @Ip64.total_storeWord buf (uipIphLen + extLen.toNat) _ _
    (chksumOffset_even proto) inside value
  unfold chksumField
  rw [counted, ← Nat.add_assoc]

/-- A fresh checksum has all bits set if and only if the field added nothing
to the one that was written. -/
theorem upperLayerChksum_writeChksum_iff
    (inside : chksumOffset proto + 2 ≤ (upperLayerLen buf extLen).toNat) :
    upperLayerChksum (writeChksum buf extLen proto) extLen proto = 0xFFFF ↔
      readWord buf (chksumField extLen proto) = 0 ∨
        readWord buf (chksumField extLen proto) = 0xFFFF := by
  have before := coveredTotal_storeWord inside
    (readWord buf (chksumField extLen proto))
  rw [storeWord_readWord] at before
  have after := coveredTotal_storeWord inside
    (~~~ upperLayerChksum buf extLen proto)
  obtain ⟨modEq, positive⟩ := upperLayerChksum_spec buf extLen proto
  have bound := (upperLayerChksum buf extLen proto).toNat_lt
  have complement : (~~~ upperLayerChksum buf extLen proto).toNat =
      65535 - (upperLayerChksum buf extLen proto).toNat :=
    UInt16.toNat_not _
  have fieldBound :=
    (readWord buf (chksumField extLen proto)).toNat_lt
  rw [upperLayerChksum_eq_ones_iff]
  unfold writeChksum
  rw [after, complement, ← UInt16.toNat_inj, ← UInt16.toNat_inj]
  change _ ↔ _ = 0 ∨ _ = 65535
  omega

/-- `chksum` is the sum in ones' complement of the padded data, and the
complement of `upper_layer_chksum` in the checksum field of the data makes a
fresh one 0xffff if the field was clear, as every caller leaves it, or had
all bits set. -/
theorem chksum_correct :
    (∀ (sum len : UInt16) (data : ByteMem) (dataptr : Nat),
      (chksum sum data dataptr len.toNat).toNat =
        onesSum (sum.toNat + total (padded (data.read dataptr len.toNat)))) ∧
    ∀ (buf : ByteMem) (extLen proto : UInt8),
      chksumOffset proto + 2 ≤ (upperLayerLen buf extLen).toNat →
      (upperLayerChksum (writeChksum buf extLen proto) extLen proto =
          0xFFFF ↔
        readWord buf (chksumField extLen proto) = 0 ∨
          readWord buf (chksumField extLen proto) = 0xFFFF) :=
  ⟨fun sum len data dataptr => toNat_chksum sum data dataptr len.toNat,
    fun _ _ _ inside => upperLayerChksum_writeChksum_iff inside⟩

/-- An ICMPv6 message of 4 bytes with this checksum, between addresses that
are 0. -/
def echoHeader (checksum : UInt8) : ByteMem :=
  ByteMem.ofList (List.replicate 5 0 ++ [4, 58] ++ List.replicate 35 0 ++
    [0, checksum])

theorem echoHeader_correct :
    upperLayerChksum (writeChksum (echoHeader 0) 0 uipProtoIcmp6) 0
      uipProtoIcmp6 = 0xFFFF :=
  (chksum_correct.2 (echoHeader 0) 0 uipProtoIcmp6 (by decide)).2
    (Or.inl (by decide))

/-- With 1 in the field before, the fresh checksum misses it. -/
theorem echoHeader_not_clear :
    ¬ upperLayerChksum (writeChksum (echoHeader 1) 0 uipProtoIcmp6) 0
      uipProtoIcmp6 = 0xFFFF := by
  rw [upperLayerChksum_writeChksum_iff (by decide)]
  decide

end Contiki.Net.Chksum
