import Mathlib.Tactic.IntervalCases
import Contiki.Mac.Frame802154

/-!
# Headers are read as they were written

Each field of a header is read at the place at which it was written, with the
value that was written.
-/

namespace Contiki.Mac

open Contiki.Lib

/-- The fields have no more bits than a header has for them. -/
structure Frame802154.WellFormed (p : Frame802154) : Prop where
  frameType : p.fcf.frameType.toNat < 2 ^ 3
  securityEnabled : p.fcf.securityEnabled.toNat < 2 ^ 1
  framePending : p.fcf.framePending.toNat < 2 ^ 1
  ackRequired : p.fcf.ackRequired.toNat < 2 ^ 1
  destAddrMode : p.fcf.destAddrMode.toNat < 2 ^ 2
  frameVersion : p.fcf.frameVersion.toNat < 2 ^ 2
  srcAddrMode : p.fcf.srcAddrMode.toNat < 2 ^ 2
  securityLevel : p.auxHdr.securityLevel.toNat < 2 ^ 3
  keyIdMode : p.auxHdr.keyIdMode.toNat < 2 ^ 2

/-! ## The frame control field -/

theorem parseFcf_bytes (fcf : Fcf) :
    parseFcf fcf.byte0 fcf.byte1 =
      { frameType := fcf.frameType &&& 7
        securityEnabled := fcf.securityEnabled &&& 1
        framePending := fcf.framePending &&& 1
        ackRequired := fcf.ackRequired &&& 1
        panidCompression := fcf.panidCompression &&& 1
        destAddrMode := fcf.destAddrMode &&& 3
        frameVersion := fcf.frameVersion &&& 3
        srcAddrMode := fcf.srcAddrMode &&& 3 } := by
  rw [parseFcf, Fcf.byte0, Fcf.byte1, Fcf.mk.injEq]
  refine ⟨?_, ?_, ?_, ?_, ?_, ?_, ?_, ?_⟩ <;>
  · apply UInt8.toBitVec_inj.1
    apply BitVec.eq_of_getLsbD_eq
    intro bit bound
    interval_cases bit <;> simp

theorem parseFcf_of_wellFormed {fcf : Fcf}
    (frameType : fcf.frameType.toNat < 2 ^ 3)
    (securityEnabled : fcf.securityEnabled.toNat < 2 ^ 1)
    (framePending : fcf.framePending.toNat < 2 ^ 1)
    (ackRequired : fcf.ackRequired.toNat < 2 ^ 1)
    (panidCompression : fcf.panidCompression.toNat < 2 ^ 1)
    (destAddrMode : fcf.destAddrMode.toNat < 2 ^ 2)
    (frameVersion : fcf.frameVersion.toNat < 2 ^ 2)
    (srcAddrMode : fcf.srcAddrMode.toNat < 2 ^ 2) :
    parseFcf fcf.byte0 fcf.byte1 = fcf := by
  rw [parseFcf_bytes, and_mask_of_lt 3 rfl frameType,
    and_mask_of_lt 1 rfl securityEnabled, and_mask_of_lt 1 rfl framePending,
    and_mask_of_lt 1 rfl ackRequired, and_mask_of_lt 1 rfl panidCompression,
    and_mask_of_lt 2 rfl destAddrMode, and_mask_of_lt 2 rfl frameVersion,
    and_mask_of_lt 2 rfl srcAddrMode]

/-! ## The fields behind it -/

variable (config : FrameConfig) {mode : UInt8} {data : ByteMem} {p : Nat}

theorem parsePid_of_holds {pid : UInt16}
    (holds : data.Holds p (pidBytes pid)) : parsePid data p = pid := by
  have low : data p = pid.toUInt8 := holds.apply 0 (by simp [pidBytes])
  have high : data (p + 1) = (pid >>> 8).toUInt8 :=
    holds.apply 1 (by simp [pidBytes])
  rw [parsePid, low, high]
  have bound := pid.toNat_lt
  apply UInt16.toNat_inj.1
  simp [UInt16.toNat_add, Nat.shiftRight_eq_div_pow, Nat.shiftLeft_eq]
  omega

theorem first_lt_eight : 0 < 8 := by decide

theorem second_lt_eight : 1 < 8 := by decide

theorem index_lt_eight (index : Fin 8) : index.val < 8 := index.isLt

/-- The bytes of an address that its mode sends. -/
def SameAddr (config : FrameConfig) (mode : UInt8)
    (sent parsed : Vector UInt8 8) : Prop :=
  (mode = shortAddrMode →
    getElem parsed 0 first_lt_eight = getElem sent 0 first_lt_eight ∧
    getElem parsed 1 second_lt_eight = getElem sent 1 second_lt_eight ∧
    ∀ index : Fin 8, 2 ≤ index.val → index.val < config.linkaddrSize →
      getElem parsed index (index_lt_eight index) = 0) ∧
  (mode = longAddrMode → parsed = sent)

theorem addrLen_le (mode : UInt8) : addrLen mode ≤ 8 := by
  unfold addrLen
  split
  · decide
  · split <;> decide

theorem length_addrBytes (addr : Vector UInt8 8) (mode : UInt8) :
    (addrBytes addr (addrLen mode)).length = addrLen mode := by
  simp [addrBytes, addrLen_le]

/-- The length of a PAN ID, if there is one, and an address. -/
theorem length_pidAddr (sends : Prop) [Decidable sends] (pid : UInt16)
    (addr : Vector UInt8 8) (mode : UInt8) :
    ((if sends then pidBytes pid else []) ++
      addrBytes addr (addrLen mode)).length =
        (if sends then 2 else 0) + addrLen mode := by
  rw [List.length_append, length_addrBytes]
  congr 1
  split <;> rfl

/-- The bytes of an address are written from the last to the first. -/
theorem byte_of_holds {sent : Vector UInt8 8}
    (holds : data.Holds p (addrBytes sent (addrLen mode))) {index : Nat}
    (bound : index < addrLen mode) :
    data (p + (addrLen mode - 1 - index)) =
      sent.get ⟨index, Nat.lt_of_lt_of_le bound (addrLen_le mode)⟩ := by
  have le := addrLen_le mode
  have inside : index < 8 := Nat.lt_of_lt_of_le bound le
  change _ = sent[index]
  rw [holds.apply (addrLen mode - 1 - index)
    (by rw [length_addrBytes]; omega)]
  simp only [addrBytes, List.getElem_reverse, List.getElem_take,
    Vector.getElem_toList]
  congr 1
  simp only [List.length_take, Vector.length_toList]
  omega

theorem parseAddr_of_holds {sent : Vector UInt8 8} (before : Vector UInt8 8)
    (holds : data.Holds p (addrBytes sent (addrLen mode))) :
    (parseAddr config mode data p before).1 = p + addrLen mode ∧
    SameAddr config mode sent (parseAddr config mode data p before).2 := by
  have byte := @byte_of_holds mode data p sent holds
  unfold parseAddr SameAddr
  by_cases short : mode = shortAddrMode
  · subst short
    rw [if_pos rfl]
    have first := @byte 0 (by decide)
    have second := @byte 1 (by decide)
    change data (p + 1) = sent[0] at first
    change data p = sent[1] at second
    refine ⟨rfl, fun _ => ⟨?_, ?_, ?_⟩, fun long => absurd long (by decide)⟩
    · rw [Vector.getElem_set_ne _ _ (by decide), Vector.getElem_set_self]
      exact first
    · rw [Vector.getElem_set_self]
      exact second
    · intro index above inside
      change (((linkaddrNull config before).set 0 (data (p + 1))).set 1
        (data p))[index.val] = 0
      rw [Vector.getElem_set_ne _ _ (by omega),
        Vector.getElem_set_ne _ _ (by omega)]
      simp [linkaddrNull, inside]
  · rw [if_neg short]
    by_cases long : mode = longAddrMode
    · subst long
      rw [if_pos rfl]
      refine ⟨rfl, fun isShort => absurd isShort short, fun _ => ?_⟩
      ext index bound
      rw [Vector.getElem_ofFn]
      exact congrArg UInt8.toNat (@byte index bound)
    · rw [if_neg long]
      refine ⟨?_, fun isShort => absurd isShort short,
        fun isLong => absurd isLong long⟩
      simp [addrLen, short, long]

theorem length_key (bound : mode.toNat < 2 ^ 2) (notZero : mode ≠ 0) :
    (mode.toNat - 1) * 4 ≤ 8 ∧
      (mode.toNat - 1) * 4 + 1 = getKeyIdLen mode := by
  obtain rfl | rfl | rfl | rfl : mode = 0 ∨ mode = 1 ∨ mode = 2 ∨ mode = 3 := by
    simp only [← UInt8.toNat_inj, UInt8.reduceToNat]
    omega
  · exact absurd rfl notZero
  · decide
  · decide
  · decide

/-- The key identifier that its mode sends. -/
def SameKey (sent parsed : AuxHdr) : Prop :=
  sent.keyIdMode ≠ 0 → parsed.keyIndex = sent.keyIndex ∧
    ∀ index : Fin 8, index.val < (sent.keyIdMode.toNat - 1) * 4 →
      getElem parsed.keySource index (index_lt_eight index) =
        getElem sent.keySource index (index_lt_eight index)

theorem parseKey_of_keyBytes {sent : AuxHdr}
    (bound : sent.keyIdMode.toNat < 2 ^ 2) :
    ∃ key, keyBytes sent = some key ∧
      key.length = getKeyIdLen sent.keyIdMode ∧
      ∀ (data : ByteMem) (p : Nat) (before : AuxHdr),
        before.keyIdMode = sent.keyIdMode → data.Holds p key →
        (parseKey data p before).1 = p + key.length ∧
        SameKey sent (parseKey data p before).2 ∧
        (parseKey data p before).2.keyIdMode = sent.keyIdMode ∧
        (parseKey data p before).2.securityLevel = before.securityLevel ∧
        (parseKey data p before).2.frameCounter = before.frameCounter := by
  by_cases zero : sent.keyIdMode = 0
  · refine ⟨[], by simp [keyBytes, zero], by simp [zero, getKeyIdLen], ?_⟩
    intro data p before same _
    unfold parseKey
    rw [if_neg (by simp [same, zero])]
    exact ⟨rfl, fun notZero => absurd zero notZero, same, rfl, rfl⟩
  · obtain ⟨le, length⟩ := length_key bound zero
    refine ⟨sent.keySource.toList.take ((sent.keyIdMode.toNat - 1) * 4) ++
      [sent.keyIndex], by simp [keyBytes, zero, le], ?_, ?_⟩
    · rw [← length]
      simp [le]
    · intro data p before same holds
      have inside : (sent.keySource.toList.take
          ((sent.keyIdMode.toNat - 1) * 4)).length =
            (sent.keyIdMode.toNat - 1) * 4 := by
        simp [le]
      obtain ⟨source, last⟩ := ByteMem.holds_append.1 holds
      unfold parseKey
      rw [if_pos (by rw [same]; exact zero)]
      refine ⟨?_, fun _ => ⟨?_, fun index below => ?_⟩, same, rfl, rfl⟩
      · rw [same, List.length_append, inside]
        rfl
      · have byte := last.apply 0 (by simp)
        rw [inside] at byte
        dsimp only
        rw [same]
        exact byte
      · have byte := source.apply index.val (by rw [inside]; exact below)
        rw [List.getElem_take, Vector.getElem_toList] at byte
        dsimp only
        rw [same]
        change (Vector.ofFn _)[index.val] = _
        rw [Vector.getElem_ofFn, if_pos below]
        exact byte

/-- The fields of an auxiliary header that the configuration sends. -/
structure SameAux (config : FrameConfig) (sent parsed : AuxHdr) : Prop where
  securityLevel : parsed.securityLevel = sent.securityLevel
  frameCounter : parsed.frameCounter = sent.frameCounter
  keyIdMode : config.usesExplicitKeys → parsed.keyIdMode = sent.keyIdMode
  key : config.usesExplicitKeys → SameKey sent parsed

theorem control_bits (level mode : UInt8) (levelBound : level.toNat < 2 ^ 3)
    (modeBound : mode.toNat < 2 ^ 2) :
    (level ||| mode <<< (3 : UInt8)) &&& (7 : UInt8) = level ∧
      (level ||| mode <<< (3 : UInt8)) >>> (3 : UInt8) &&& (3 : UInt8) =
        mode := by
  have levelMask : level &&& 7 = level := and_mask_of_lt 3 rfl levelBound
  have modeMask : mode &&& 3 = mode := and_mask_of_lt 2 rfl modeBound
  constructor
  · conv_rhs => rw [← levelMask]
    apply UInt8.toBitVec_inj.1
    apply BitVec.eq_of_getLsbD_eq
    intro bit bound
    interval_cases bit <;> simp
  · rw [← levelMask]
    conv_rhs => rw [← modeMask]
    apply UInt8.toBitVec_inj.1
    apply BitVec.eq_of_getLsbD_eq
    intro bit bound
    interval_cases bit <;> simp

theorem counter_of_holds
    {counter : Vector UInt8 4} (holds : data.Holds p counter.toList) :
    (Vector.ofFn fun index : Fin 4 => data (p + index.val)) = counter := by
  ext index bound
  rw [Vector.getElem_ofFn, holds.apply index (by simpa using bound)]
  rfl

theorem parseAux_of_auxBytes {config : FrameConfig} {sent : AuxHdr}
    (levelBound : sent.securityLevel.toNat < 2 ^ 3)
    (modeBound : sent.keyIdMode.toNat < 2 ^ 2)
    (enabled : config.securityLevel) :
    ∃ aux, auxBytes config sent = some aux ∧
      aux.length = 5 + (if config.usesExplicitKeys then
        getKeyIdLen sent.keyIdMode else 0) ∧
      ∀ (data : ByteMem) (p : Nat) (before : Frame802154),
        before.fcf.securityEnabled ≠ 0 → data.Holds p aux →
        (parseAux config data p before).1 = p + aux.length ∧
        SameAux config sent (parseAux config data p before).2.auxHdr ∧
        (parseAux config data p before).2 =
          { before with
            auxHdr := (parseAux config data p before).2.auxHdr } := by
  by_cases explicit : config.usesExplicitKeys = true
  · obtain ⟨key, isKey, length, parses⟩ := parseKey_of_keyBytes modeBound
    refine ⟨(sent.securityLevel ||| sent.keyIdMode <<< (3 : UInt8)) ::
      sent.frameCounter.toList ++ key,
      by simp [auxBytes, explicit, isKey], ?_, ?_⟩
    · simp [explicit, length]
      omega
    · intro data p before securityEnabled holds
      obtain ⟨start, keyHolds⟩ := ByteMem.holds_append.1 holds
      obtain ⟨control, counter⟩ := ByteMem.holds_append.1
        (show data.Holds p ([_] ++ sent.frameCounter.toList) from start)
      have byte : data p =
          (sent.securityLevel ||| sent.keyIdMode <<< (3 : UInt8)) :=
        control.apply 0 (by simp)
      obtain ⟨levelBits, modeBits⟩ := control_bits _ _ levelBound modeBound
      rw [List.length_cons, Vector.length_toList] at keyHolds
      unfold parseAux
      rw [if_pos ⟨enabled, securityEnabled⟩]
      dsimp only
      rw [if_pos explicit, byte, modeBits, levelBits]
      obtain ⟨next, sameKey, mode, level, frameCounter⟩ := parses data (p + 5)
        { before.auxHdr with
          securityLevel := sent.securityLevel
          frameCounter := Vector.ofFn fun index : Fin 4 =>
            data (p + 1 + index.val)
          keyIdMode := sent.keyIdMode } rfl keyHolds
      refine ⟨?_, ⟨level, frameCounter.trans (counter_of_holds counter),
        fun _ => mode, fun _ => sameKey⟩, rfl⟩
      dsimp only
      rw [next]
      simp
      omega
  · refine ⟨sent.securityLevel :: sent.frameCounter.toList,
      by simp [auxBytes, explicit], by simp [explicit], ?_⟩
    intro data p before securityEnabled holds
    obtain ⟨control, counter⟩ := ByteMem.holds_append.1
      (show data.Holds p ([sent.securityLevel] ++ sent.frameCounter.toList)
        from holds)
    have byte : data p = sent.securityLevel := control.apply 0 (by simp)
    unfold parseAux
    rw [if_pos ⟨enabled, securityEnabled⟩]
    dsimp only
    rw [if_neg explicit]
    refine ⟨by simp, ⟨?_, counter_of_holds counter, ?_, ?_⟩, rfl⟩
    · dsimp only
      rw [byte]
      exact and_mask_of_lt 3 rfl levelBound
    · exact fun isExplicit => absurd isExplicit explicit
    · exact fun isExplicit => absurd isExplicit explicit

/-! ## Whole headers -/

/-- The fields that a header has, and what the others are set to. -/
structure SameFields (config : FrameConfig) (sent parsed : Frame802154) :
    Prop where
  fcf : parsed.fcf = sent.fcf
  seq : parsed.seq = sent.seq
  destPid : parsed.destPid =
    if sent.fcf.destAddrMode = 0 then 0 else sent.destPid
  destAddr : SameAddr config sent.fcf.destAddrMode sent.destAddr
    parsed.destAddr
  srcPid : parsed.srcPid =
    if sent.fcf.srcAddrMode = 0 then 0 else sent.srcPid
  srcAddr : SameAddr config sent.fcf.srcAddrMode sent.srcAddr parsed.srcAddr
  auxHdr : config.securityLevel → sent.fcf.securityEnabled ≠ 0 →
    SameAux config sent.auxHdr parsed.auxHdr

def destBytes (p : Frame802154) : List UInt8 :=
  (if p.fcf.destAddrMode ≠ 0 then pidBytes p.destPid else []) ++
    addrBytes p.destAddr (addrLen p.fcf.destAddrMode)

def srcBytes (p : Frame802154) : List UInt8 :=
  (if p.fcf.srcAddrMode ≠ 0 ∧ p.fcf.panidCompression = 0 then
      pidBytes p.srcPid else []) ++
    addrBytes p.srcAddr (addrLen p.fcf.srcAddrMode)

theorem parseDest_of_holds
    {sent before : Frame802154} (sameFcf : before.fcf = sent.fcf)
    (holds : data.Holds p (destBytes sent)) :
    (parseDest config data p before).1 = p + (destBytes sent).length ∧
    (parseDest config data p before).2.destPid =
      (if sent.fcf.destAddrMode = 0 then 0 else sent.destPid) ∧
    SameAddr config sent.fcf.destAddrMode sent.destAddr
      (parseDest config data p before).2.destAddr ∧
    (parseDest config data p before).2 =
      { before with
        destPid := (parseDest config data p before).2.destPid
        destAddr := (parseDest config data p before).2.destAddr } := by
  unfold parseDest destBytes at *
  rw [sameFcf, length_pidAddr]
  by_cases mode : sent.fcf.destAddrMode = 0
  · rw [if_neg (not_not.2 mode), if_neg (not_not.2 mode), if_pos mode, mode]
    exact ⟨rfl, rfl, ⟨fun short => absurd short (by decide),
      fun long => absurd long (by decide)⟩, rfl⟩
  · rw [if_pos mode] at holds
    rw [if_pos mode, if_pos mode, if_neg mode, ← Nat.add_assoc]
    obtain ⟨pid, addr⟩ := ByteMem.holds_append.1 holds
    obtain ⟨next, sameAddr⟩ := parseAddr_of_holds config before.destAddr addr
    exact ⟨next, parsePid_of_holds pid, sameAddr, rfl⟩

theorem parseSrc_of_holds
    {sent before : Frame802154} (sameFcf : before.fcf = sent.fcf)
    (destPid : before.destPid =
      if sent.fcf.destAddrMode = 0 then 0 else sent.destPid)
    (compression : sent.fcf.panidCompression ≠ 0 →
      sent.fcf.destAddrMode ≠ 0 ∧ sent.srcPid = sent.destPid)
    (holds : data.Holds p (srcBytes sent)) :
    (parseSrc config data p before).1 = p + (srcBytes sent).length ∧
    (parseSrc config data p before).2.srcPid =
      (if sent.fcf.srcAddrMode = 0 then 0 else sent.srcPid) ∧
    SameAddr config sent.fcf.srcAddrMode sent.srcAddr
      (parseSrc config data p before).2.srcAddr ∧
    (parseSrc config data p before).2 =
      { before with
        srcPid := (parseSrc config data p before).2.srcPid
        srcAddr := (parseSrc config data p before).2.srcAddr } := by
  unfold parseSrc srcBytes at *
  rw [sameFcf, length_pidAddr, ← Nat.add_assoc]
  by_cases mode : sent.fcf.srcAddrMode = 0
  · have omits : ¬ (sent.fcf.srcAddrMode ≠ 0 ∧
        sent.fcf.panidCompression = 0) := fun both => both.1 mode
    rw [if_neg (not_not.2 mode), if_neg omits, if_pos mode, mode]
    exact ⟨rfl, rfl, ⟨fun short => absurd short (by decide),
      fun long => absurd long (by decide)⟩, rfl⟩
  · rw [if_pos mode, if_neg mode]
    by_cases compressed : sent.fcf.panidCompression = 0
    · have writes : sent.fcf.srcAddrMode ≠ 0 ∧
          sent.fcf.panidCompression = 0 := ⟨mode, compressed⟩
      rw [if_pos writes] at holds ⊢
      rw [if_pos compressed]
      obtain ⟨pid, addr⟩ := ByteMem.holds_append.1 holds
      obtain ⟨next, sameAddr⟩ := parseAddr_of_holds config before.srcAddr addr
      exact ⟨next, parsePid_of_holds pid, sameAddr, rfl⟩
    · have omits : ¬ (sent.fcf.srcAddrMode ≠ 0 ∧
          sent.fcf.panidCompression = 0) := fun both => compressed both.2
      rw [if_neg omits] at holds ⊢
      rw [if_neg compressed]
      obtain ⟨destMode, samePid⟩ := compression compressed
      obtain ⟨next, sameAddr⟩ := parseAddr_of_holds config before.srcAddr
        (show data.Holds p (addrBytes sent.srcAddr
          (addrLen sent.fcf.srcAddrMode)) from holds)
      refine ⟨next, ?_, sameAddr, rfl⟩
      dsimp only
      rw [destPid, if_neg destMode, samePid]

/-- The record that `frame802154_create` leaves. -/
def Frame802154.compressed (p : Frame802154) : Frame802154 :=
  { p with
    fcf := { p.fcf with
      panidCompression := if p.compresses then 1 else 0 } }

theorem compressed_of_wellFormed {p : Frame802154}
    (wellFormed : p.WellFormed) :
    parseFcf p.compressed.fcf.byte0 p.compressed.fcf.byte1 =
      p.compressed.fcf ∧
    (p.compressed.fcf.panidCompression ≠ 0 →
      p.compressed.fcf.destAddrMode ≠ 0 ∧
        p.compressed.srcPid = p.compressed.destPid) := by
  constructor
  · refine parseFcf_of_wellFormed wellFormed.frameType
      wellFormed.securityEnabled wellFormed.framePending
      wellFormed.ackRequired ?_ wellFormed.destAddrMode
      wellFormed.frameVersion wellFormed.srcAddrMode
    unfold Frame802154.compressed
    dsimp only
    split <;> decide
  · intro isCompressed
    have compresses : p.compresses = true := by
      by_contra notCompresses
      simp [Frame802154.compressed, notCompresses] at isCompressed
    have both := of_decide_eq_true compresses
    have destMode : p.fcf.destMode = p.fcf.destAddrMode :=
      and_mask_of_lt 2 rfl wellFormed.destAddrMode
    rw [destMode] at both
    exact ⟨both.1, both.2.2⟩

theorem fieldLen_of_wellFormed {p : Frame802154} (wellFormed : p.WellFormed) :
    fieldLen config p = (p.compressed,
      { destPidLen := if p.compressed.fcf.destAddrMode ≠ 0 then 2 else 0
        destAddrLen := addrLen p.compressed.fcf.destAddrMode
        srcPidLen := if p.compressed.fcf.srcAddrMode ≠ 0 ∧
          p.compressed.fcf.panidCompression = 0 then 2 else 0
        srcAddrLen := addrLen p.compressed.fcf.srcAddrMode
        auxSecLen :=
          if config.securityLevel ∧ p.fcf.securityEnabled ≠ 0 then
            5 + if config.usesExplicitKeys then
              getKeyIdLen p.auxHdr.keyIdMode else 0
          else 0 }) := by
  have destMode : p.fcf.destMode = p.fcf.destAddrMode :=
    and_mask_of_lt 2 rfl wellFormed.destAddrMode
  have srcMode : p.fcf.srcMode = p.fcf.srcAddrMode :=
    and_mask_of_lt 2 rfl wellFormed.srcAddrMode
  have enabled : p.fcf.securityEnabled &&& 1 = p.fcf.securityEnabled :=
    and_mask_of_lt 1 rfl wellFormed.securityEnabled
  have compression : p.compressed.fcf.panidCompression = 0 ↔
      ¬ p.compresses := by
    unfold Frame802154.compressed
    dsimp only
    split <;> simp [*]
  unfold fieldLen
  dsimp only
  rw [destMode, srcMode, enabled]
  simp only [compression]
  rfl

/-- What `frame802154_create` writes, for fields that fit. -/
theorem frame802154Create_of_wellFormed
    {p : Frame802154} (wellFormed : p.WellFormed) :
    ∃ aux, frame802154Create config p = some
        ([p.compressed.fcf.byte0, p.compressed.fcf.byte1, p.compressed.seq] ++
          destBytes p.compressed ++ srcBytes p.compressed ++ aux,
          p.compressed) ∧
      (frame802154Hdrlen config p).1 =
        3 + (destBytes p.compressed).length +
          (srcBytes p.compressed).length + aux.length ∧
      ∀ (data : ByteMem) (next : Nat) (before : Frame802154),
        before.fcf = p.compressed.fcf → data.Holds next aux →
        (parseAux config data next before).1 = next + aux.length ∧
        (config.securityLevel → p.fcf.securityEnabled ≠ 0 →
          SameAux config p.auxHdr
            (parseAux config data next before).2.auxHdr) ∧
        (parseAux config data next before).2 =
          { before with
            auxHdr := (parseAux config data next before).2.auxHdr } := by
  unfold frame802154Create frame802154Hdrlen
  rw [fieldLen_of_wellFormed config wellFormed]
  unfold destBytes srcBytes
  dsimp only
  rw [length_pidAddr, length_pidAddr]
  have pids : ∀ (sends : Prop) [Decidable sends] (pid : UInt16),
      (if (if sends then 2 else 0) = 2 then pidBytes pid else []) =
        if sends then pidBytes pid else [] := by
    intro sends _ pid
    split <;> simp [*]
  rw [pids, pids]
  have auxHdr : p.compressed.auxHdr = p.auxHdr := rfl
  have enabledSame : p.compressed.fcf.securityEnabled =
      p.fcf.securityEnabled := rfl
  by_cases sends : config.securityLevel ∧ p.fcf.securityEnabled ≠ 0
  · obtain ⟨aux, isAux, auxLength, parses⟩ :=
      parseAux_of_auxBytes wellFormed.securityLevel wellFormed.keyIdMode
        sends.1
    refine ⟨aux, ?_, ?_, fun data next before sameFcf holds => ?_⟩
    · rw [if_pos sends, if_pos (by omega), auxHdr, isAux]
      simp
    · rw [if_pos sends, auxLength]
      omega
    · have isEnabled : before.fcf.securityEnabled ≠ 0 := by
        rw [sameFcf, enabledSame]
        exact sends.2
      obtain ⟨ends, same, rest⟩ := parses data next before isEnabled holds
      exact ⟨ends, fun _ _ => same, rest⟩
  · refine ⟨[], ?_, ?_, fun data next before sameFcf _ => ?_⟩
    · rw [if_neg sends, if_neg (by omega)]
      simp
    · rw [if_neg sends]
      simp only [List.length_nil]
      omega
    · have skipped : parseAux config data next before = (next, before) := by
        unfold parseAux
        rw [sameFcf, enabledSame, if_neg sends]
      rw [skipped]
      exact ⟨rfl, fun enabled isEnabled => absurd ⟨enabled, isEnabled⟩ sends,
        rfl⟩

def frameConfig : FrameConfig where
  linkaddrSize := 8
  linkaddrSize_le := Nat.le_refl 8
  securityLevel := true
  usesExplicitKeys := true

/-- A data frame between long addresses in one PAN, with a key source. -/
def dataFrame : Frame802154 where
  destAddr := #v[1, 2, 3, 4, 5, 6, 7, 8]
  srcAddr := #v[9, 10, 11, 12, 13, 14, 15, 16]
  fcf :=
    { frameType := 1
      securityEnabled := 1
      framePending := 0
      ackRequired := 1
      panidCompression := 0
      destAddrMode := longAddrMode
      frameVersion := 1
      srcAddrMode := longAddrMode }
  seq := 7
  destPid := 0xabcd
  srcPid := 0xabcd
  auxHdr :=
    { securityLevel := 5
      keyIdMode := 3
      frameCounter := #v[1, 0, 0, 0]
      keySource := #v[1, 2, 3, 4, 5, 6, 7, 8]
      keyIndex := 1 }
  payload := 0
  payloadLen := 0

/-- Reading a frame gives back all of its record and its payload. -/
def ReturnsRecord (config : FrameConfig) (p : Frame802154)
    (payload : List UInt8) : Prop :=
  ∀ result ∈ frame802154Create config p,
    (frame802154Hdrlen config p).1 = result.1.length ∧
    frame802154Parse config (.ofList (result.1 ++ payload))
        (result.1 ++ payload).length p =
      (result.1.length, { result.2 with
        payload := result.1.length
        payloadLen := payload.length })

instance (config : FrameConfig) (p : Frame802154) (payload : List UInt8) :
    Decidable (ReturnsRecord config p payload) :=
  inferInstanceAs (Decidable (∀ result ∈ _, _))

end Contiki.Mac
