import Mathlib.Logic.Function.Basic
import Mathlib.Tactic.IntervalCases
import Contiki.Lib.Bits

/-!
# The RPL option in the hop-by-hop header

`rpl-ext-header.c` puts the option behind the IPv6 header of the packet in
`uip_buf` and takes the whole hop-by-hop header away again.
-/

namespace Contiki.Rpl

open Contiki.Lib

/-- `UIP_IPH_LEN` -/
def uipIphLen : Nat := 40

/-- `RPL_HDR_OPT_LEN` -/
def rplHdrOptLen : UInt8 := 4

/-- `RPL_HOP_BY_HOP_LEN` -/
def rplHopByHopLen : Nat := 8

/-- `UIP_PROTO_HBHO` -/
def uipProtoHbho : UInt8 := 0

/-- `UIP_EXT_HDR_OPT_RPL` -/
def uipExtHdrOptRpl : UInt8 := 0x63

/-- `RPL_HDR_OPT_DOWN` -/
def rplHdrOptDown : UInt8 := 0x80

/-- `RPL_HDR_OPT_FWD_ERR` -/
def rplHdrOptFwdErr : UInt8 := 0x20

/-- `uip_buf` from the IPv6 header on, `uip_len` and `uip_ext_len`. -/
structure UipBuf where
  buf : ByteMem
  uipLen : UInt16
  uipExtLen : UInt8

/-- What `rpl_update_header_empty` asks of the other modules. -/
structure HeaderEnv where
  /-- `UIP_BUFSIZE` -/
  uipBufsize : Nat
  /-- The rank in the current DAG of an instance that is used and joined. -/
  joinedRank : UInt8 → Option UInt16
  /-- There is a route to the destination. -/
  hasRoute : Bool
  /-- What a No-Path DAO leaves in the buffer. -/
  sendNoPathDao : UipBuf → UipBuf

variable (high low : UInt8) (state : UipBuf)

namespace UipBuf

/-- `memmove` -/
def memmove (state : UipBuf) (target source count : Nat) : UipBuf :=
  { state with buf := state.buf.write target (state.buf.read source count) }

def store (state : UipBuf) (address : Nat) (byte : UInt8) : UipBuf :=
  { state with buf := Function.update state.buf address byte }

/-- `UIP_IP_BUF->proto` -/
def proto (state : UipBuf) : UInt8 := state.buf 6

/-- `UIP_HBHO_BUF->len` -/
def hbhoLen (state : UipBuf) : UInt8 := state.buf (uipIphLen + 1)

/-- `UIP_IP_BUF->len`, in network order. -/
def ipLen (state : UipBuf) : UInt16 :=
  (state.buf 4).toUInt16 <<< 8 ||| (state.buf 5).toUInt16

def packet (state : UipBuf) : List UInt8 :=
  state.buf.read 0 state.uipLen.toNat

/-- Move what follows the IPv6 header and put a hop-by-hop header in front of
it, with the option at `offset`. -/
def insertOption (state : UipBuf) (offset : Nat) : UipBuf :=
  let option := uipIphLen + offset
  let state := state.memmove (uipIphLen + rplHopByHopLen) uipIphLen
    (state.uipLen.toNat - uipIphLen)
  let state := { state with
    buf := state.buf.write uipIphLen (List.replicate rplHopByHopLen 0) }
  let state := state.store uipIphLen state.proto
  let state := state.store 6 uipProtoHbho
  let state := state.store (uipIphLen + 1) (UInt8.ofNat (rplHopByHopLen - 8))
  let state := state.store option uipExtHdrOptRpl
  let state := state.store (option + 1) rplHdrOptLen
  let state := state.store (option + 2) 0
  let state := state.store (option + 3) 0
  (state.store (option + 4) 0).store (option + 5) 0

/-- `set_rpl_opt` -/
def setRplOpt (state : UipBuf) (offset : Nat) : UipBuf :=
  let state := state.insertOption offset
  let state := { state with
    uipLen := state.uipLen + UInt16.ofNat rplHopByHopLen }
  let tempLen := state.buf 5
  let state := state.store 5 (state.buf 5 + (state.hbhoLen + 8))
  if state.buf 5 < tempLen then state.store 4 (state.buf 4 + 1) else state

/-- The flags of the option that is there, or a packet that is to be
dropped. -/
def updateRplOpt (env : HeaderEnv) (state : UipBuf) (offset : Nat)
    (rank : UInt16) : Bool × UipBuf :=
  let option := uipIphLen + offset
  let state := (state.store (option + 4) (rank >>> 8).toUInt8).store
    (option + 5) rank.toUInt8
  let flags := state.buf (option + 2)
  if flags &&& rplHdrOptDown ≠ 0 then
    if env.hasRoute then (false, state)
    else
      (true, env.sendNoPathDao
        (state.store (option + 2) (flags ||| rplHdrOptFwdErr)))
  else if env.hasRoute then
    (false, state.store (option + 2) (flags ||| rplHdrOptDown))
  else (false, state.store (option + 2) (flags &&& ~~~rplHdrOptDown))

/-- `rpl_update_header_empty`, and whether the packet is to be dropped. -/
def rplUpdateHeaderEmpty (env : HeaderEnv) (state : UipBuf) :
    Bool × UipBuf :=
  let lastUipExtLen := state.uipExtLen
  let offset := 2
  let option := uipIphLen + offset
  let restore := fun result : Bool × UipBuf =>
    if result.1 then result
    else (false, { result.2 with uipExtLen := lastUipExtLen })
  let state := { state with uipExtLen := 0 }
  if state.proto = uipProtoHbho then
    if state.hbhoLen ≠ UInt8.ofNat (rplHopByHopLen - 8) then
      restore (false, state)
    else if state.buf option ≠ uipExtHdrOptRpl then restore (false, state)
    else if state.buf (option + 1) ≠ rplHdrOptLen then
      restore (false, state)
    else
      match env.joinedRank (state.buf (option + 3)) with
      | none => (false, state)
      | some rank => restore (state.updateRplOpt env offset rank)
  else if state.uipLen.toNat + rplHopByHopLen > env.uipBufsize then
    restore (false, state)
  else
    (false, { state.setRplOpt offset with
      uipExtLen := lastUipExtLen + UInt8.ofNat rplHopByHopLen })

/-- The fields of the IPv6 header without the hop-by-hop header. -/
def unlinkHbho (state : UipBuf) : UipBuf :=
  let state := state.store 6 (state.buf uipIphLen)
  let tempLen := state.buf 5
  let state := { state with
    uipLen := state.uipLen - (state.hbhoLen.toUInt16 + 8) }
  let state := state.store 5 (state.buf 5 - (state.hbhoLen + 8))
  if state.buf 5 > tempLen then state.store 4 (state.buf 4 - 1) else state

/-- `rpl_remove_header` -/
def rplRemoveHeader (state : UipBuf) : UipBuf :=
  let state := { state with uipExtLen := 0 }
  if state.proto = uipProtoHbho then
    let state := state.unlinkHbho
    -- the next header is taken to come after `RPL_HOP_BY_HOP_LEN` bytes
    state.memmove uipIphLen (uipIphLen + rplHopByHopLen)
      (state.uipLen.toNat - uipIphLen)
  else state

/-! ## The buffer after an insertion -/

/-- The header that `set_rpl_opt` puts in, before the length of the packet is
changed. -/
def withOption (state : UipBuf) : ByteMem := fun address =>
  if address = 6 then uipProtoHbho
  else if address < uipIphLen then state.buf address
  else if address < uipIphLen + rplHopByHopLen then
    [state.proto, 0, uipExtHdrOptRpl, rplHdrOptLen, 0, 0, 0, 0].getD
      (address - uipIphLen) 0
  else if address < state.uipLen.toNat + rplHopByHopLen then
    state.buf (address - rplHopByHopLen)
  else state.buf address

theorem insertOption_buf (isPacket : uipIphLen ≤ state.uipLen.toNat) :
    (state.insertOption 2).buf = state.withOption := by
  funext address
  unfold withOption
  by_cases isProto : address = 6
  · rw [if_pos isProto, isProto]
    rfl
  rw [if_neg isProto]
  by_cases isIp : address < uipIphLen
  · have isBefore : address < 40 := isIp
    rw [if_pos isIp]
    unfold insertOption store memmove uipIphLen rplHopByHopLen
    simp (disch := omega) only [Function.update_of_ne,
      ByteMem.write_of_lt]
  rw [if_neg isIp]
  by_cases isHeader : address < uipIphLen + rplHopByHopLen
  · rw [if_pos isHeader]
    have notBefore : ¬ address < 40 := isIp
    have isInside : address < 48 := isHeader
    interval_cases address <;> rfl
  · rw [if_neg isHeader]
    have isAfter : ¬ address < 48 := isHeader
    have isLong : 40 ≤ state.uipLen.toNat := isPacket
    unfold insertOption store memmove uipIphLen rplHopByHopLen
    simp (disch := omega) only [Function.update_of_ne]
    rw [ByteMem.write_of_ge (by rw [List.length_replicate]; omega)]
    by_cases isMoved : address < state.uipLen.toNat + 8
    · rw [if_pos isMoved]
      have isIndex : 40 + 8 + (address - 48) = address := by omega
      have bound : address - 48 <
          (state.buf.read 40 (state.uipLen.toNat - 40)).length := by
        rw [ByteMem.length_read]
        omega
      have isStored : state.buf.write (40 + 8)
          (state.buf.read 40 (state.uipLen.toNat - 40))
          (40 + 8 + (address - 48)) = _ := ByteMem.write_inside _ bound
      rw [isIndex, ByteMem.getElem_read] at isStored
      rw [isStored]
      congr 1
      omega
    · rw [if_neg isMoved]
      apply ByteMem.write_of_ge
      rw [ByteMem.length_read]
      omega

theorem setRplOpt_eq (isPacket : uipIphLen ≤ state.uipLen.toNat) :
    state.setRplOpt 2 =
      { buf := Function.update (Function.update state.withOption 5
          (state.buf 5 + 8)) 4
          (if state.buf 5 + 8 < state.buf 5 then state.buf 4 + 1
          else state.buf 4)
        uipLen := state.uipLen + 8
        uipExtLen := state.uipExtLen } := by
  have isBuf := insertOption_buf state isPacket
  unfold setRplOpt
  generalize isInserted : state.insertOption 2 = inserted at isBuf
  have isLen : inserted.uipLen = state.uipLen := by
    rw [← isInserted]
    rfl
  have isExtLen : inserted.uipExtLen = state.uipExtLen := by
    rw [← isInserted]
    rfl
  obtain ⟨buf, uipLen, uipExtLen⟩ := inserted
  dsimp only at isBuf isLen isExtLen
  rw [isBuf, isLen, isExtLen]
  by_cases carry : state.buf 5 + 8 < state.buf 5
  · rw [if_pos carry]
    exact if_pos carry
  · rw [if_neg carry]
    have isSame : Function.update (Function.update state.withOption 5
        (state.buf 5 + 8)) 4 (state.buf 4) =
          Function.update state.withOption 5 (state.buf 5 + 8) :=
      Function.update_eq_self 4 _
    rw [isSame]
    exact if_neg carry

/-! ## The buffer after a removal -/

/-- The IPv6 header without a hop-by-hop header of eight bytes. -/
def withoutOption (state : UipBuf) : ByteMem :=
  Function.update (Function.update (Function.update state.buf 6
    (state.buf uipIphLen)) 5 (state.buf 5 - 8)) 4
    (if state.buf 5 - 8 > state.buf 5 then state.buf 4 - 1 else state.buf 4)

/-- The fields of the IPv6 header without a hop-by-hop header of `len`. -/
theorem unlinkHbho_fields (len : UInt8) (isLen : state.hbhoLen = len) :
    state.unlinkHbho =
      let fields : UipBuf :=
        { buf := Function.update (Function.update state.buf 6
            (state.buf uipIphLen)) 5 (state.buf 5 - (len + 8))
          uipLen := state.uipLen - (len.toUInt16 + 8)
          uipExtLen := state.uipExtLen }
      if state.buf 5 - (len + 8) > state.buf 5 then
        fields.store 4 (state.buf 4 - 1)
      else fields := by
  rw [← isLen]
  rfl

theorem unlinkHbho_eq (isShort : state.hbhoLen = 0) :
    state.unlinkHbho =
      { buf := state.withoutOption
        uipLen := state.uipLen - 8
        uipExtLen := state.uipExtLen } := by
  have isSum : ((0 : UInt8).toUInt16 + 8 : UInt16) = 8 := by decide
  have isByte : ((0 : UInt8) + 8) = 8 := by decide
  rw [unlinkHbho_fields state 0 isShort, isSum, isByte]
  dsimp only
  unfold withoutOption
  by_cases borrow : state.buf 5 - 8 > state.buf 5
  · rw [if_pos borrow, if_pos borrow]
    rfl
  · have isSame : Function.update (Function.update (Function.update state.buf
        6 (state.buf uipIphLen)) 5 (state.buf 5 - 8)) 4 (state.buf 4) =
          Function.update (Function.update state.buf 6
            (state.buf uipIphLen)) 5 (state.buf 5 - 8) :=
      Function.update_eq_self 4 _
    rw [if_neg borrow, if_neg borrow, isSame]

theorem rplRemoveHeader_eq
    (isHbho : state.proto = uipProtoHbho) (isShort : state.hbhoLen = 0) :
    state.rplRemoveHeader =
      { buf := state.withoutOption.write uipIphLen
          (state.withoutOption.read (uipIphLen + rplHopByHopLen)
            ((state.uipLen - 8).toNat - uipIphLen))
        uipLen := state.uipLen - 8
        uipExtLen := 0 } := by
  have isUnlinked := unlinkHbho_eq { state with uipExtLen := 0 } isShort
  have isProto : ({ state with uipExtLen := 0 } : UipBuf).proto =
      uipProtoHbho := isHbho
  unfold rplRemoveHeader
  dsimp only
  rw [if_pos isProto, isUnlinked]
  rfl

theorem uipLen_rplRemoveHeader (isHbho : state.proto = uipProtoHbho) :
    state.rplRemoveHeader.uipLen =
      state.uipLen - (state.hbhoLen.toUInt16 + 8) := by
  have isProto : ({ state with uipExtLen := 0 } : UipBuf).proto =
      uipProtoHbho := isHbho
  unfold rplRemoveHeader
  dsimp only
  rw [if_pos isProto]
  have isFields := unlinkHbho_fields { state with uipExtLen := 0 }
    state.hbhoLen rfl
  dsimp only at isFields
  unfold memmove
  dsimp only
  rw [isFields]
  split <;> rfl

/-! ## An insertion and a removal -/

theorem ipHeader_restored
    (isPacket : uipIphLen ≤ state.uipLen.toNat) {address : Nat}
    (isIp : address < uipIphLen) :
    (state.setRplOpt 2).withoutOption address = state.buf address := by
  have isByte : state.buf 5 + 8 - 8 = state.buf 5 := UInt8.add_sub_cancel _ _
  rw [setRplOpt_eq state isPacket]
  by_cases isHigh : address = 4
  · rw [isHigh]
    show (if state.buf 5 + 8 - 8 > state.buf 5 + 8 then
        (if state.buf 5 + 8 < state.buf 5 then state.buf 4 + 1
        else state.buf 4) - 1
      else if state.buf 5 + 8 < state.buf 5 then state.buf 4 + 1
      else state.buf 4) = state.buf 4
    rw [isByte]
    by_cases carry : state.buf 5 + 8 < state.buf 5
    · rw [if_pos carry, if_pos carry, UInt8.add_sub_cancel]
    · rw [if_neg carry, if_neg carry]
  by_cases isLow : address = 5
  · rw [isLow]
    exact isByte
  by_cases isProto : address = 6
  · rw [isProto]
    rfl
  · unfold withoutOption
    simp (disch := assumption) only [Function.update_of_ne]
    unfold withOption
    rw [if_neg isProto, if_pos isIp]

theorem payload_moved
    (isPacket : uipIphLen ≤ state.uipLen.toNat) {address : Nat}
    (notIp : uipIphLen ≤ address) (inPacket : address < state.uipLen.toNat) :
    (state.setRplOpt 2).withoutOption (address + rplHopByHopLen) =
      state.buf address := by
  have isLong : 40 ≤ address := notIp
  rw [setRplOpt_eq state isPacket]
  unfold withoutOption withOption rplHopByHopLen uipIphLen
  simp (disch := omega) only [Function.update_of_ne]
  rw [if_neg (by omega), if_neg (by omega), if_neg (by omega),
    if_pos (by omega), Nat.add_sub_cancel]

/-- `rpl_remove_header` takes away what `set_rpl_opt` has put in. -/
theorem remove_insert
    (isPacket : uipIphLen ≤ state.uipLen.toNat) (extLen : UInt8) :
    let removed := UipBuf.rplRemoveHeader
      { state.setRplOpt 2 with uipExtLen := extLen }
    removed.packet = state.packet ∧ removed.uipLen = state.uipLen := by
  have isHbho : ({ state.setRplOpt 2 with uipExtLen := extLen } :
      UipBuf).proto = uipProtoHbho := by
    rw [setRplOpt_eq state isPacket]
    rfl
  have isShort : ({ state.setRplOpt 2 with uipExtLen := extLen } :
      UipBuf).hbhoLen = 0 := by
    rw [setRplOpt_eq state isPacket]
    rfl
  have isLen : (state.setRplOpt 2).uipLen - 8 = state.uipLen := by
    rw [setRplOpt_eq state isPacket]
    exact UInt16.add_sub_cancel _ _
  dsimp only
  rw [rplRemoveHeader_eq _ isHbho isShort]
  unfold packet
  dsimp only
  rw [isLen]
  refine ⟨?_, rfl⟩
  apply ByteMem.read_congr
  intro address _ inPacket
  rw [Nat.zero_add] at inPacket
  by_cases isIp : address < uipIphLen
  · rw [ByteMem.write_of_lt isIp]
    exact ipHeader_restored state isPacket isIp
  · have notIp : uipIphLen ≤ address := Nat.le_of_not_lt isIp
    have bound : address - uipIphLen < ((state.setRplOpt 2).withoutOption.read
        (uipIphLen + rplHopByHopLen)
        (state.uipLen.toNat - uipIphLen)).length := by
      rw [ByteMem.length_read]
      omega
    have isStored : (state.setRplOpt 2).withoutOption.write uipIphLen
        ((state.setRplOpt 2).withoutOption.read (uipIphLen + rplHopByHopLen)
          (state.uipLen.toNat - uipIphLen))
        (uipIphLen + (address - uipIphLen)) = _ :=
      ByteMem.write_inside _ bound
    have isAddress : uipIphLen + rplHopByHopLen + (address - uipIphLen) =
        address + rplHopByHopLen := by
      omega
    rw [Nat.add_sub_cancel' notIp, ByteMem.getElem_read, isAddress,
      payload_moved state isPacket notIp inPacket] at isStored
    exact isStored

/-! ## The removal of any hop-by-hop header -/

/-- The bytes of the hop-by-hop header, by its length field. -/
def hbhoBytes (state : UipBuf) : Nat :=
  (state.hbhoLen.toNat + 1) * 8

/-- `rpl_remove_header` takes exactly the hop-by-hop header away. -/
structure Removes (state : UipBuf) : Prop where
  uipLen : state.rplRemoveHeader.uipLen.toNat + state.hbhoBytes =
    state.uipLen.toNat
  ipLen : state.rplRemoveHeader.ipLen =
    state.ipLen - UInt16.ofNat state.hbhoBytes
  proto : state.rplRemoveHeader.proto = state.buf uipIphLen
  ipHeader : ∀ address, address < uipIphLen → address ≠ 4 → address ≠ 5 →
    address ≠ 6 → state.rplRemoveHeader.buf address = state.buf address
  payload : state.rplRemoveHeader.buf.read uipIphLen
      (state.uipLen.toNat - uipIphLen - state.hbhoBytes) =
    state.buf.read (uipIphLen + state.hbhoBytes)
      (state.uipLen.toNat - uipIphLen - state.hbhoBytes)

theorem toNat_word :
    (high.toUInt16 <<< 8 ||| low.toUInt16).toNat =
      high.toNat * 256 + low.toNat := by
  have isShift : high.toNat <<< 8 < 2 ^ 16 := by
    have bound := high.toNat_lt
    rw [Nat.shiftLeft_eq]
    omega
  rw [UInt16.toNat_or, UInt16.toNat_shiftLeft, UInt8.toNat_toUInt16,
    UInt8.toNat_toUInt16, ← word_eq]
  congr 1
  exact Nat.mod_eq_of_lt isShift

theorem word_sub_eight :
    (if low - 8 > low then high - 1 else high).toUInt16 <<< 8 |||
        (low - 8).toUInt16 =
      (high.toUInt16 <<< 8 ||| low.toUInt16) - 8 := by
  apply UInt16.toNat_inj.mp
  have isEight : (8 : UInt16).toNat = 8 := rfl
  have isByte : (8 : UInt8).toNat = 8 := rfl
  have highBound := high.toNat_lt
  have lowBound := low.toNat_lt
  rw [toNat_word, UInt16.toNat_sub, toNat_word, isEight]
  by_cases borrow : low - 8 > low
  · rw [if_pos borrow]
    rw [gt_iff_lt, UInt8.lt_iff_toNat_lt, UInt8.toNat_sub] at borrow
    rw [UInt8.toNat_sub, UInt8.toNat_sub]
    have isOne : (1 : UInt8).toNat = 1 := rfl
    omega
  · rw [if_neg borrow]
    rw [gt_iff_lt, UInt8.lt_iff_toNat_lt, UInt8.toNat_sub] at borrow
    rw [UInt8.toNat_sub]
    omega

theorem removes_iff (isHbho : state.proto = uipProtoHbho)
    (inPacket : uipIphLen + state.hbhoBytes ≤ state.uipLen.toNat) :
    state.Removes ↔ state.hbhoLen = 0 := by
  have lenBound := state.hbhoLen.toNat_lt
  constructor
  · intro removes
    have isLen := removes.uipLen
    have isSum : (state.hbhoLen.toUInt16 + 8).toNat =
        state.hbhoLen.toNat + 8 := by
      have isEight : (8 : UInt16).toNat = 8 := rfl
      rw [UInt16.toNat_add, UInt8.toNat_toUInt16, isEight]
      exact Nat.mod_eq_of_lt (by omega)
    unfold hbhoBytes uipIphLen at inPacket
    have isLess : state.hbhoLen.toUInt16 + 8 ≤ state.uipLen := by
      rw [UInt16.le_iff_toNat_le, isSum]
      omega
    rw [uipLen_rplRemoveHeader state isHbho,
      UInt16.toNat_sub_of_le _ _ isLess, isSum] at isLen
    unfold hbhoBytes at isLen
    apply UInt8.toNat_inj.mp
    show state.hbhoLen.toNat = 0
    omega
  · intro isShort
    have isBytes : state.hbhoBytes = 8 := by
      unfold hbhoBytes
      rw [isShort]
      rfl
    rw [isBytes] at inPacket
    unfold uipIphLen at inPacket
    have isLess : (8 : UInt16) ≤ state.uipLen := by
      rw [UInt16.le_iff_toNat_le]
      show 8 ≤ state.uipLen.toNat
      omega
    have isLen : (state.uipLen - 8).toNat = state.uipLen.toNat - 8 :=
      UInt16.toNat_sub_of_le _ _ isLess
    constructor
    · rw [rplRemoveHeader_eq state isHbho isShort, isBytes]
      dsimp only
      omega
    · rw [rplRemoveHeader_eq state isHbho isShort, isBytes]
      exact word_sub_eight (state.buf 4) (state.buf 5)
    · rw [rplRemoveHeader_eq state isHbho isShort]
      rfl
    · intro address isIp notHigh notLow notProto
      rw [rplRemoveHeader_eq state isHbho isShort]
      dsimp only
      rw [ByteMem.write_of_lt isIp]
      unfold withoutOption
      simp (disch := assumption) only [Function.update_of_ne]
    · rw [rplRemoveHeader_eq state isHbho isShort, isBytes, isLen]
      dsimp only
      have isCount : state.uipLen.toNat - 8 - uipIphLen =
          state.uipLen.toNat - uipIphLen - 8 := by omega
      rw [isCount, ByteMem.read_write_of_length
        (ByteMem.length_read _ _ _)]
      apply ByteMem.read_congr
      intro address lower _
      unfold uipIphLen rplHopByHopLen at lower
      unfold withoutOption uipIphLen
      simp (disch := omega) only [Function.update_of_ne]

/-! ## The option in the header -/

/-- A hop-by-hop header with the option is put behind the IPv6 header. -/
structure Inserts (state inserted : UipBuf) : Prop where
  uipLen : inserted.uipLen = state.uipLen + 8
  ipLen : inserted.ipLen = state.ipLen + 8
  proto : inserted.proto = uipProtoHbho
  ipHeader : ∀ address, address < uipIphLen → address ≠ 4 → address ≠ 5 →
    address ≠ 6 → inserted.buf address = state.buf address
  header : inserted.buf.read uipIphLen rplHopByHopLen =
    [state.proto, 0, uipExtHdrOptRpl, rplHdrOptLen, 0, 0, 0, 0]
  payload : inserted.buf.read (uipIphLen + rplHopByHopLen)
      (state.uipLen.toNat - uipIphLen) =
    state.buf.read uipIphLen (state.uipLen.toNat - uipIphLen)

theorem word_add_eight :
    (if low + 8 < low then high + 1 else high).toUInt16 <<< 8 |||
        (low + 8).toUInt16 =
      (high.toUInt16 <<< 8 ||| low.toUInt16) + 8 := by
  apply UInt16.toNat_inj.mp
  have isEight : (8 : UInt16).toNat = 8 := rfl
  have isByte : (8 : UInt8).toNat = 8 := rfl
  have highBound := high.toNat_lt
  have lowBound := low.toNat_lt
  rw [toNat_word, UInt16.toNat_add, toNat_word, isEight]
  by_cases carry : low + 8 < low
  · rw [if_pos carry]
    rw [UInt8.lt_iff_toNat_lt, UInt8.toNat_add] at carry
    rw [UInt8.toNat_add, UInt8.toNat_add]
    have isOne : (1 : UInt8).toNat = 1 := rfl
    omega
  · rw [if_neg carry]
    rw [UInt8.lt_iff_toNat_lt, UInt8.toNat_add] at carry
    rw [UInt8.toNat_add]
    omega

theorem inserts_setRplOpt (isPacket : uipIphLen ≤ state.uipLen.toNat) :
    state.Inserts (state.setRplOpt 2) := by
  rw [setRplOpt_eq state isPacket]
  constructor
  · rfl
  · exact word_add_eight (state.buf 4) (state.buf 5)
  · rfl
  · intro address isIp notHigh notLow notProto
    simp (disch := assumption) only [Function.update_of_ne]
    unfold withOption
    rw [if_neg notProto, if_pos isIp]
  · rfl
  · apply List.ext_getElem
    · rw [ByteMem.length_read, ByteMem.length_read]
    intro index inside _
    rw [ByteMem.length_read] at inside
    rw [ByteMem.getElem_read, ByteMem.getElem_read]
    unfold withOption uipIphLen rplHopByHopLen at *
    simp (disch := omega) only [Function.update_of_ne]
    rw [if_neg (by omega), if_neg (by omega), if_neg (by omega),
      if_pos (by omega)]
    congr 1
    omega

/-- The insertion puts in the header with the option, the removal then
restores the packet, and the removal of a hop-by-hop header is right exactly
if this has eight bytes. -/
theorem rplRemoveHeader_exact (env : HeaderEnv) (state : UipBuf)
    (isPacket : uipIphLen ≤ state.uipLen.toNat) :
    (state.proto ≠ uipProtoHbho →
      state.uipLen.toNat + rplHopByHopLen ≤ env.uipBufsize →
      let inserted := (state.rplUpdateHeaderEmpty env).2
      let restored := inserted.rplRemoveHeader
      state.Inserts inserted ∧ restored.packet = state.packet ∧
        restored.uipLen = state.uipLen ∧ restored.ipLen = state.ipLen) ∧
    (state.proto = uipProtoHbho →
      uipIphLen + state.hbhoBytes ≤ state.uipLen.toNat →
      (state.Removes ↔ state.hbhoLen = 0)) := by
  refine ⟨?_, removes_iff state⟩
  intro notHbho fits
  have notProto : ({ state with uipExtLen := 0 } : UipBuf).proto ≠
      uipProtoHbho := notHbho
  have isUpdated : (state.rplUpdateHeaderEmpty env).2 =
      { UipBuf.setRplOpt { state with uipExtLen := 0 } 2 with
        uipExtLen := state.uipExtLen + UInt8.ofNat rplHopByHopLen } := by
    unfold rplUpdateHeaderEmpty
    dsimp only
    rw [if_neg notProto, if_neg (Nat.not_lt_of_le fits)]
  have restored := remove_insert { state with uipExtLen := 0 } isPacket
    (state.uipExtLen + UInt8.ofNat rplHopByHopLen)
  have inserts : state.Inserts (state.rplUpdateHeaderEmpty env).2 := by
    obtain ⟨uipLen, ipLen, proto, ipHeader, header, payload⟩ :=
      inserts_setRplOpt { state with uipExtLen := 0 } isPacket
    rw [isUpdated]
    exact ⟨uipLen, ipLen, proto, ipHeader, header, payload⟩
  rw [← isUpdated] at restored
  refine ⟨inserts, restored.1, restored.2, ?_⟩
  have isByte (address : Nat) (inPacket : address < state.uipLen.toNat) :
      (state.rplUpdateHeaderEmpty env).2.rplRemoveHeader.buf address =
        state.buf address := by
    have isRead := restored.1
    unfold packet at isRead
    rw [restored.2] at isRead
    apply ByteMem.apply_of_read_eq isRead (Nat.zero_le address)
    rw [Nat.zero_add]
    exact inPacket
  unfold uipIphLen at isPacket
  unfold ipLen
  rw [isByte 4 (by omega), isByte 5 (by omega)]

/-- A packet with a hop-by-hop header of sixteen bytes. -/
def longHbho : UipBuf where
  buf := ByteMem.ofList ([0x60, 0, 0, 0, 0, 16, 0, 64] ++
    List.replicate 32 0 ++ [59, 1, 1, 12] ++ List.replicate 12 0)
  uipLen := 56
  uipExtLen := 0

/-- Nine bytes are taken away from it. -/
theorem longHbho_not_removes :
    longHbho.proto = uipProtoHbho ∧
      uipIphLen + longHbho.hbhoBytes ≤ longHbho.uipLen.toNat ∧
      ¬ longHbho.Removes :=
  ⟨by decide, by decide, fun removes =>
    absurd removes.uipLen (by decide +kernel)⟩

def plainPacket : UipBuf where
  buf := ByteMem.ofList ([0x60, 0, 0, 0, 0, 4, 58, 64] ++
    List.replicate 32 0 ++ [155, 0, 1, 2])
  uipLen := 44
  uipExtLen := 0

def noInstances : HeaderEnv where
  uipBufsize := 1280
  joinedRank := fun _ => none
  hasRoute := false
  sendNoPathDao := id

theorem plainPacket_restored :
    let inserted := (plainPacket.rplUpdateHeaderEmpty noInstances).2
    plainPacket.Inserts inserted ∧
      inserted.rplRemoveHeader.packet = plainPacket.packet :=
  have restored := (rplRemoveHeader_exact noInstances plainPacket
    (by decide)).1 (by decide) (by decide)
  ⟨restored.1, restored.2.1⟩

end UipBuf

end Contiki.Rpl
