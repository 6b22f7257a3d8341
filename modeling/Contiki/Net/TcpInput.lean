import Contiki.Net.Uip6

/-!
# TCP input

The length checks of `uip_process` of `uip6.c`, and what it does with a TCP
segment: the loops over the options of a SYN, and the way of a segment of a
connection to the application.  `buf` starts with the IPv6 header, and the
extension headers were removed.
-/

namespace Contiki.Net.TcpInput

open Contiki.Lib
open Contiki.Net.Uip6 (uipIphLen ipLen uipLen accepts)

/-! ## The length of a packet -/

/-- The length checks of `uip_process` for a packet of `received` bytes, with
`uip_len` after them. -/
def lengthCheck (buf : ByteMem) (received : UInt16) : Option UInt16 :=
  if buf 0 &&& 0xF0 ≠ 0x60 then none
  else if ipLen buf ≤ received.toNat then some (uipLen buf)
  else none

theorem ipLen_lt (buf : ByteMem) : ipLen buf < 65536 := by
  have highLt := (buf 4).toNat_lt
  have lowLt := (buf 5).toNat_lt
  unfold ipLen
  omega

theorem toNat_uipLen (buf : ByteMem) :
    (uipLen buf).toNat = (ipLen buf + 40) % 65536 := UInt16.toNat_ofNat'

/-- The payload alone is compared with the number of received bytes, so
`uip_len` stays inside of them only if the header fits in them as well, or if
the sum wraps. -/
theorem lengthCheck_le_iff (buf : ByteMem) (received : UInt16) :
    (∀ later, lengthCheck buf received = some later → later ≤ received) ↔
      buf 0 &&& 0xF0 ≠ 0x60 ∨ received.toNat < ipLen buf ∨
        ipLen buf + uipIphLen ≤ received.toNat ∨
        65536 ≤ ipLen buf + uipIphLen := by
  have bound := ipLen_lt buf
  have isLen := toNat_uipLen buf
  have receivedLt := received.toNat_lt
  unfold lengthCheck uipIphLen
  split
  · next otherVersion =>
      exact iff_of_true (fun _ absurd => by cases absurd)
        (Or.inl otherVersion)
  · next version =>
      rw [not_not] at version
      split
      · next fits =>
          have onlyLen : (∀ later, some (uipLen buf) = some later →
              later ≤ received) ↔ uipLen buf ≤ received :=
            ⟨fun all => all _ rfl, fun small _ same =>
              Option.some.inj same ▸ small⟩
          rw [onlyLen, UInt16.le_iff_toNat_le, isLen]
          constructor
          · intro small
            omega
          · rintro (other | rest)
            · exact absurd version other
            · omega
      · next short =>
          refine iff_of_true (fun _ absurd => by cases absurd) ?_
          exact Or.inr (Or.inl (Nat.lt_of_not_le short))

/-- A packet of 48 bytes that says it has a payload of 48 bytes. -/
def longPayload : ByteMem := ByteMem.ofList [0x60, 0, 0, 0, 0, 48, 6, 64]

theorem longPayload_not_le : ¬ ∀ later,
    lengthCheck longPayload 48 = some later → later ≤ 48 := by
  rw [lengthCheck_le_iff]
  decide

/-! ## Options -/

/-- `UIP_IPTCPH_LEN` -/
def uipIptcphLen : Nat := 60
/-- `UIP_TCPIP_HLEN` -/
def uipTcpipHlen : Nat := uipIptcphLen

/-- `TCP_OPT_END` -/
def tcpOptEnd : UInt8 := 0
/-- `TCP_OPT_NOOP` -/
def tcpOptNoop : UInt8 := 1
/-- `TCP_OPT_MSS` -/
def tcpOptMss : UInt8 := 2
/-- `TCP_OPT_MSS_LEN` -/
def tcpOptMssLen : UInt8 := 4

/-- `UIP_TCP_BUF->tcpoffset` -/
def tcpoffset (buf : ByteMem) : UInt8 := buf 52

/-- The length of the TCP header in its data offset. -/
def dataOffset (buf : ByteMem) : Nat := (tcpoffset buf >>> 4).toNat * 4

def hasOptions (buf : ByteMem) : Bool := tcpoffset buf &&& 0xF0 > 0x50

/-- The limit of `c` in the loops over the options. -/
def optionsLen (buf : ByteMem) : Nat :=
  ((tcpoffset buf >>> 4).toNat - 5) * 4

/-- Where a loop looks for the parts of the first option. -/
structure OptionPlaces where
  opt : Nat
  length : Nat
  high : Nat
  low : Nat

/-- The places of the loop for a SYN in `found_listen`. -/
def synPlaces : OptionPlaces where
  opt := uipTcpipHlen
  length := uipTcpipHlen + 1
  high := uipTcpipHlen + 2
  low := uipIptcphLen + 3

/-- The places of the loop in `UIP_SYN_SENT`. -/
def synSentPlaces : OptionPlaces where
  opt := uipIptcphLen
  length := uipTcpipHlen + 1
  high := uipTcpipHlen + 2
  low := uipTcpipHlen + 3

/-- The type of the option at `c`. -/
def OptionPlaces.optAt (places : OptionPlaces) (buf : ByteMem)
    (c : UInt8) : UInt8 :=
  buf (places.opt + c.toNat)

/-- The length byte of the option at `c`. -/
def OptionPlaces.lengthAt (places : OptionPlaces) (buf : ByteMem)
    (c : UInt8) : UInt8 :=
  buf (places.length + c.toNat)

/-- A round of an option loop at `c`: its end, with the MSS if there was one,
or the next `c`, an `uint8_t`. -/
def mssStep (places : OptionPlaces) (uipTcpMss : UInt16) (buf : ByteMem)
    (c : UInt8) : Option UInt16 ⊕ UInt8 :=
  if c.toNat < optionsLen buf then
    let opt := places.optAt buf c
    if opt = tcpOptEnd then .inl none
    else if opt = tcpOptNoop then .inr (c + 1)
    else if opt = tcpOptMss ∧ places.lengthAt buf c = tcpOptMssLen then
      let tmp16 := (buf (places.high + c.toNat)).toUInt16 <<< 8 |||
        (buf (places.low + c.toNat)).toUInt16
      .inl (some (if tmp16 > uipTcpMss then uipTcpMss else tmp16))
    else if places.lengthAt buf c = 0 then .inl none
    else .inr (c + places.lengthAt buf c)
  else .inl none

/-- An option loop in at most `fuel` rounds. -/
def mssOptions (places : OptionPlaces) (uipTcpMss : UInt16) (fuel : Nat)
    (buf : ByteMem) : Option (Option UInt16) :=
  if hasOptions buf then Walk.walk (mssStep places uipTcpMss buf) fuel 0
  else some none

/-- The positions that a round at `c` reads. -/
def mssReads (places : OptionPlaces) (buf : ByteMem) (c : UInt8) :
    List Nat :=
  if c.toNat < optionsLen buf then
    let opt := places.optAt buf c
    if opt = tcpOptEnd ∨ opt = tcpOptNoop then [places.opt + c.toNat]
    else if opt = tcpOptMss ∧ places.lengthAt buf c = tcpOptMssLen then
      [places.opt + c.toNat, places.length + c.toNat,
        places.high + c.toNat, places.low + c.toNat]
    else [places.opt + c.toNat, places.length + c.toNat]
  else []

/-- Where the TCP header of a received segment ends. -/
def headerEnd (buf : ByteMem) (uipLen : UInt16) : Nat :=
  min (uipIphLen + dataOffset buf) uipLen.toNat

/-- The loop ends and reads inside of the TCP header. -/
def OptionsRead (places : OptionPlaces) (uipTcpMss : UInt16)
    (buf : ByteMem) (uipLen : UInt16) : Prop :=
  (∃ fuel result, mssOptions places uipTcpMss fuel buf = some result) ∧
    (hasOptions buf → ∀ c,
      Relation.ReflTransGen (Walk.GoesOn (mssStep places uipTcpMss buf)) 0 c →
      ∀ position ∈ mssReads places buf c, position < headerEnd buf uipLen)

/-- The number of bytes that an option takes at least. -/
def optionSize (buf : ByteMem) (c : UInt8) : Nat :=
  let opt := synPlaces.optAt buf c
  if opt = tcpOptEnd ∨ opt = tcpOptNoop then 1
  else if opt = tcpOptMss ∧ synPlaces.lengthAt buf c = tcpOptMssLen then 4
  else 2

/-- The options do not lead back to one of them, and each one that is come to
is inside of the header. -/
def OptionsFit (uipTcpMss : UInt16) (buf : ByteMem) (uipLen : UInt16) :
    Prop :=
  hasOptions buf →
    Walk.Acyclic (mssStep synPlaces uipTcpMss buf) 0 ∧
    ∀ c, Relation.ReflTransGen
        (Walk.GoesOn (mssStep synPlaces uipTcpMss buf)) 0 c →
      c.toNat < optionsLen buf →
        uipIptcphLen + c.toNat + optionSize buf c ≤ headerEnd buf uipLen

variable {buf : ByteMem} {uipLen uipTcpMss : UInt16} {c : UInt8}

theorem mssOptions_ends_iff (options : hasOptions buf) :
    (∃ fuel result,
      mssOptions synPlaces uipTcpMss fuel buf = some result) ↔
      Walk.Acyclic (mssStep synPlaces uipTcpMss buf) 0 := by
  rw [← Walk.ends_iff_acyclic]
  unfold mssOptions Walk.Ends
  simp only [options, if_true]

theorem mssReads_lt_iff (inside : c.toNat < optionsLen buf) (limit : Nat) :
    (∀ position ∈ mssReads synPlaces buf c, position < limit) ↔
      uipIptcphLen + c.toNat + optionSize buf c ≤ limit := by
  unfold mssReads optionSize
  rw [if_pos inside]
  dsimp only
  split
  · rw [List.forall_mem_singleton]
    exact Nat.succ_le_iff.symm
  split
  · simp only [List.mem_cons, List.not_mem_nil, or_false,
      forall_eq_or_imp, forall_eq, synPlaces, uipTcpipHlen]
    omega
  · simp only [List.mem_cons, List.not_mem_nil, or_false,
      forall_eq_or_imp, forall_eq, synPlaces, uipTcpipHlen]
    omega

theorem mssReads_outside (outside : ¬ c.toNat < optionsLen buf) :
    mssReads synPlaces buf c = [] := if_neg outside

theorem optionsRead_iff :
    OptionsRead synPlaces uipTcpMss buf uipLen ↔
      OptionsFit uipTcpMss buf uipLen := by
  unfold OptionsRead OptionsFit
  by_cases options : hasOptions buf
  · rw [mssOptions_ends_iff options]
    simp only [options, forall_const]
    refine and_congr_right fun _ => forall_congr' fun c =>
      imp_congr_right fun _ => ?_
    by_cases inside : c.toNat < optionsLen buf
    · rw [mssReads_lt_iff inside]
      exact ⟨fun fits _ => fits, fun fits => fits inside⟩
    · rw [mssReads_outside inside]
      exact iff_of_true (fun _ absurd => by cases absurd)
        fun absurd => (inside absurd).elim
  · refine iff_of_true ⟨⟨0, none, ?_⟩, ?_⟩ ?_
    · unfold mssOptions
      rw [if_neg options]
    · exact fun absurd => (options absurd).elim
    · exact fun absurd => (options absurd).elim

/-- The length of an option: its length byte, if it has one. -/
def optionLength (buf : ByteMem) (c : UInt8) : Nat :=
  let opt := synPlaces.optAt buf c
  if opt = tcpOptEnd ∨ opt = tcpOptNoop then 1
  else (synPlaces.lengthAt buf c).toNat

theorem optionsLen_le (buf : ByteMem) : optionsLen buf ≤ 40 := by
  have small : (tcpoffset buf >>> 4).toNat ≤ 15 := by
    rw [UInt8.toNat_shiftRight, Nat.shiftRight_eq_div_pow]
    have byte := (tcpoffset buf).toNat_lt
    have four : (4 : UInt8).toNat % 8 = 4 := rfl
    rw [four]
    omega
  unfold optionsLen
  omega

/-- In a segment with the whole TCP header, options that have the length that
they say and end inside of the header fit. -/
theorem optionsFit_of_short
    (whole : uipIphLen + dataOffset buf ≤ uipLen.toNat)
    (short : ∀ c, Relation.ReflTransGen
        (Walk.GoesOn (mssStep synPlaces uipTcpMss buf)) 0 c →
      c.toNat < optionsLen buf →
      optionSize buf c ≤ optionLength buf c ∧
        c.toNat + optionLength buf c ≤ optionsLen buf) :
    OptionsFit uipTcpMss buf uipLen := by
  have few := optionsLen_le buf
  refine fun _ => ⟨?_, fun c reaches inside => ?_⟩
  · refine Walk.acyclic_of_grows UInt8.toNat fun first second reaches
      goesOn => ?_
    unfold Walk.GoesOn mssStep at goesOn
    dsimp only at goesOn
    by_cases inside : first.toNat < optionsLen buf
    · obtain ⟨sized, ends⟩ := short first reaches inside
      rw [if_pos inside] at goesOn
      unfold optionLength at ends
      dsimp only at ends
      split at goesOn
      · cases goesOn
      next notEnd =>
      split at goesOn
      · next isNoop =>
          rw [if_pos (Or.inr isNoop)] at ends
          rw [← Sum.inr.inj goesOn, @toNat_add_of_le first 1 1 rfl
            (by omega)]
          exact Nat.lt_succ_self _
      next notNoop =>
      rw [if_neg fun one => one.elim notEnd notNoop] at ends
      split at goesOn
      · cases goesOn
      split at goesOn
      · cases goesOn
      next notZero =>
      have positive : (synPlaces.lengthAt buf first).toNat ≠ 0 := by
        intro isZero
        exact notZero (UInt8.toNat_inj.mp isZero)
      rw [← Sum.inr.inj goesOn,
        toNat_add_of_le UInt8.ofNat_toNat.symm (by omega)]
      omega
    · rw [if_neg inside] at goesOn
      cases goesOn
  · obtain ⟨sized, ends⟩ := short c reaches inside
    unfold headerEnd
    rw [Nat.min_eq_left whole]
    unfold optionsLen at inside ends
    unfold dataOffset uipIptcphLen uipIphLen
    omega

/-! ## A segment of a connection -/

/-- `TCP_FIN` -/
def tcpFin : UInt8 := 0x01
/-- `TCP_SYN` -/
def tcpSyn : UInt8 := 0x02
/-- `TCP_RST` -/
def tcpRst : UInt8 := 0x04
/-- `TCP_ACK` -/
def tcpAck : UInt8 := 0x10
/-- `TCP_URG` -/
def tcpUrg : UInt8 := 0x20
/-- `TCP_CTL` -/
def tcpCtl : UInt8 := 0x3F

/-- `UIP_TCP_BUF->flags` -/
def tcpFlags (buf : ByteMem) : UInt8 := buf 53

/-- A number of four bytes in network byte order. -/
def long (buf : ByteMem) (addr : Nat) : UInt32 :=
  (buf addr).toUInt32 <<< 24 ||| (buf (addr + (1 : Nat))).toUInt32 <<< 16 |||
    (buf (addr + (2 : Nat))).toUInt32 <<< 8 |||
    (buf (addr + (3 : Nat))).toUInt32

/-- `UIP_TCP_BUF->seqno` -/
def seqno (buf : ByteMem) : UInt32 := long buf 44
/-- `UIP_TCP_BUF->ackno` -/
def ackno (buf : ByteMem) : UInt32 := long buf 48
/-- `UIP_TCP_BUF->urgp` -/
def urgp (buf : ByteMem) : UInt16 :=
  (buf 58).toUInt16 <<< 8 ||| (buf 59).toUInt16

/-- `uip_connr->tcpstateflags & UIP_TS_MASK` -/
inductive TcpState where
  | closed
  | synRcvd
  | synSent
  | established
  | finWait1
  | finWait2
  | closing
  | timeWait
  | lastAck
deriving DecidableEq

/-- What is looked at in `struct uip_conn` on the way to the application. -/
structure UipConn where
  state : TcpState
  /-- `UIP_STOPPED` -/
  stopped : Bool
  rcvNxt : UInt32
  sndNxt : UInt32
  len : UInt16

/-- A `UIP_APPCALL` with the bits of `uip_flags` and `uip_len`. -/
structure AppCall where
  ackdata : Bool
  newdata : Bool
  close : Bool
  abort : Bool
  connected : Bool
  len : UInt16

/-- The segment is a SYN in answer to ours, or ours was lost: its number is
not checked. -/
def SynAgain (conn : UipConn) (buf : ByteMem) : Prop :=
  conn.state = .synSent ∧ tcpFlags buf &&& tcpCtl = tcpSyn ||| tcpAck ∨
    conn.state = .synRcvd ∧ tcpFlags buf &&& tcpCtl = tcpSyn

instance (conn : UipConn) (buf : ByteMem) :
    Decidable (SynAgain conn buf) :=
  inferInstanceAs (Decidable (_ ∨ _))

def Acknowledges (conn : UipConn) (buf : ByteMem) : Prop :=
  tcpFlags buf &&& tcpAck ≠ 0 ∧ conn.len ≠ 0 ∧
    ackno buf = conn.sndNxt + conn.len.toUInt32

instance (conn : UipConn) (buf : ByteMem) :
    Decidable (Acknowledges conn buf) :=
  inferInstanceAs (Decidable (_ ∧ _ ∧ _))

/-- `uip_len` with the length of the data of the segment. -/
def dataLen (buf : ByteMem) (uipLen : UInt16) : UInt16 :=
  uipLen - UInt16.ofNat (dataOffset buf) - UInt16.ofNat uipIphLen

/-- `UIP_ESTABLISHED`, with the length of the data. -/
def established (conn : UipConn) (buf : ByteMem) (dataLen : UInt16) :
    Option AppCall :=
  let ackdata := decide (Acknowledges conn buf)
  if tcpFlags buf &&& tcpFin ≠ 0 ∧ conn.stopped = false then
    if conn.len ≠ 0 ∧ ackdata = false then none
    else some { ackdata := ackdata, newdata := dataLen > 0, close := true
                abort := false, connected := false, len := dataLen }
  else
    -- UIP_URGDATA is 0
    let dataLen := if tcpFlags buf &&& tcpUrg ≠ 0 then dataLen - urgp buf
      else dataLen
    let newdata := decide (dataLen > 0) && !conn.stopped
    if newdata || ackdata then
      some { ackdata := ackdata, newdata := newdata, close := false
             abort := false, connected := false, len := dataLen }
    else none

def plainCall (close abort : Bool) (len : UInt16) : AppCall where
  ackdata := false
  newdata := false
  close := close
  abort := abort
  connected := false
  len := len

/-- `found` of `uip_process` up to the first call of the application. -/
def found (conn : UipConn) (buf : ByteMem) (uipLen : UInt16) :
    Option AppCall :=
  if tcpFlags buf &&& tcpRst ≠ 0 then some (plainCall false true uipLen)
  else
    let dataLen := dataLen buf uipLen
    let ackdata := decide (Acknowledges conn buf)
    if ¬ SynAgain conn buf ∧
        (dataLen > 0 ∨ tcpFlags buf &&& (tcpSyn ||| tcpFin) ≠ 0) ∧
        seqno buf ≠ conn.rcvNxt then none
    else
      match conn.state with
      | .closed => none
      | .synRcvd =>
          if ackdata then
            some { ackdata := false, newdata := dataLen > 0, close := false
                   abort := false, connected := true, len := dataLen }
          else none
      | .synSent =>
          if ackdata ∧ tcpFlags buf &&& tcpCtl = tcpSyn ||| tcpAck then
            some { ackdata := false, newdata := true, close := false
                   abort := false, connected := true, len := 0 }
          else some (plainCall false true dataLen)
      | .established => established conn buf dataLen
      | .finWait1 =>
          if tcpFlags buf &&& tcpFin ≠ 0 then
            some (plainCall true false dataLen)
          else none
      | .finWait2 =>
          if tcpFlags buf &&& tcpFin ≠ 0 then
            some (plainCall true false dataLen)
          else none
      | .closing => none
      | .timeWait => none
      | .lastAck =>
          if ackdata then some (plainCall true false dataLen) else none

/-- New data that reaches the application is behind the headers and inside of
the segment. -/
def DataInside (conn : UipConn) (buf : ByteMem) (uipLen : UInt16) : Prop :=
  ∀ call, found conn buf uipLen = some call → call.newdata = true →
    call.len.toNat ≤ uipLen.toNat - (uipIphLen + dataOffset buf)

def SkipsUrgent (conn : UipConn) (buf : ByteMem) : Prop :=
  conn.state = .established ∧ tcpFlags buf &&& tcpFin = 0 ∧
    tcpFlags buf &&& tcpUrg ≠ 0

instance (conn : UipConn) (buf : ByteMem) :
    Decidable (SkipsUrgent conn buf) :=
  inferInstanceAs (Decidable (_ ∧ _ ∧ _))

/-- What comes before the data: the headers and urgent data. -/
def beforeData (conn : UipConn) (buf : ByteMem) : Nat :=
  uipIphLen + dataOffset buf +
    if SkipsUrgent conn buf then (urgp buf).toNat else 0

/-- The connection takes data from the segment. -/
def TakesData (conn : UipConn) (buf : ByteMem) (uipLen : UInt16) : Prop :=
  tcpFlags buf &&& tcpRst = 0 ∧
    (seqno buf = conn.rcvNxt ∨
      uipLen.toNat = uipIphLen + dataOffset buf ∧
        tcpFlags buf &&& (tcpSyn ||| tcpFin) = 0) ∧
    (conn.state = .synRcvd ∧ Acknowledges conn buf ∨
      conn.state = .established ∧ conn.stopped = false ∧
        (tcpFlags buf &&& tcpFin ≠ 0 →
          conn.len = 0 ∨ Acknowledges conn buf))

/-- What comes before the data is inside of the segment, or the length of
the data wraps to exactly 0. -/
def BeforeFits (conn : UipConn) (buf : ByteMem) (uipLen : UInt16) : Prop :=
  beforeData conn buf ≤ uipLen.toNat ∨
    beforeData conn buf = uipLen.toNat + 65536

/-- `uip_len` behind urgent data that is skipped. -/
def newDataLen (conn : UipConn) (buf : ByteMem) (uipLen : UInt16) : UInt16 :=
  if SkipsUrgent conn buf then dataLen buf uipLen - urgp buf
  else dataLen buf uipLen

variable {conn : UipConn}

theorem dataOffset_le (buf : ByteMem) : dataOffset buf ≤ 60 := by
  have bound := (tcpoffset buf).toNat_lt
  unfold dataOffset
  rw [UInt8.toNat_shiftRight]
  change (tcpoffset buf).toNat >>> 4 * 4 ≤ 60
  rw [Nat.shiftRight_eq_div_pow]
  omega

theorem toNat_dataLen (buf : ByteMem) (uipLen : UInt16) :
    (dataLen buf uipLen).toNat =
      (uipLen.toNat + 65536 - (uipIphLen + dataOffset buf)) % 65536 := by
  have bound := uipLen.toNat_lt
  have offsetLe := dataOffset_le buf
  have isOffset : (UInt16.ofNat (dataOffset buf)).toNat =
      dataOffset buf := by
    rw [UInt16.toNat_ofNat']
    omega
  have isHeader : (UInt16.ofNat uipIphLen).toNat = 40 := rfl
  unfold dataLen uipIphLen
  rw [UInt16.toNat_sub, UInt16.toNat_sub, isOffset]
  change (65536 - 40 + (65536 - dataOffset buf + uipLen.toNat) % 65536) %
    65536 = _
  omega

theorem toNat_newDataLen (conn : UipConn) (buf : ByteMem)
    (uipLen : UInt16) :
    (newDataLen conn buf uipLen).toNat =
      (uipLen.toNat + 131072 - beforeData conn buf) % 65536 := by
  have isLen := toNat_dataLen buf uipLen
  have bound := uipLen.toNat_lt
  have offsetLe := dataOffset_le buf
  have urgentLt := (urgp buf).toNat_lt
  unfold newDataLen beforeData
  unfold uipIphLen at isLen ⊢
  split
  · rw [UInt16.toNat_sub, isLen]
    change (65536 - (urgp buf).toNat + _) % 65536 = _
    omega
  · rw [isLen]
    omega

/-- The length of new data is inside of the segment where what comes before
fits. -/
theorem newDataLen_le_iff (conn : UipConn) (buf : ByteMem)
    (uipLen : UInt16) :
    (newDataLen conn buf uipLen).toNat ≤
        uipLen.toNat - (uipIphLen + dataOffset buf) ↔
      BeforeFits conn buf uipLen := by
  have isLen := toNat_newDataLen conn buf uipLen
  have bound := uipLen.toNat_lt
  have offsetLe := dataOffset_le buf
  have urgentLt := (urgp buf).toNat_lt
  have after : uipIphLen + dataOffset buf ≤ beforeData conn buf := by
    unfold beforeData
    omega
  have few : beforeData conn buf ≤
      uipIphLen + dataOffset buf + (urgp buf).toNat := by
    unfold beforeData
    split <;> omega
  unfold BeforeFits
  rw [isLen]
  unfold uipIphLen at *
  omega

theorem pos_iff_ne_zero (value : UInt16) : value > 0 ↔ value ≠ 0 := by
  change 0 < value ↔ _
  rw [UInt16.lt_iff_toNat_lt, Ne, ← UInt16.toNat_inj]
  exact Nat.pos_iff_ne_zero

theorem dataLen_eq_zero_iff :
    dataLen buf uipLen = 0 ↔
      uipLen.toNat = uipIphLen + dataOffset buf := by
  have isLen := toNat_dataLen buf uipLen
  have bound := uipLen.toNat_lt
  have offsetLe := dataOffset_le buf
  rw [← UInt16.toNat_inj, isLen]
  unfold uipIphLen
  change _ = 0 ↔ _
  omega

theorem not_acknowledges_of_syn
    (isSyn : tcpFlags buf &&& tcpCtl = tcpSyn) :
    ¬ Acknowledges conn buf := by
  rintro ⟨hasAck, -⟩
  refine hasAck ?_
  have isPart : tcpAck = tcpCtl &&& tcpAck := rfl
  rw [isPart, ← UInt8.and_assoc, isSyn]
  rfl

/-- The number of the segment was checked. -/
def InOrder (conn : UipConn) (buf : ByteMem) (uipLen : UInt16) : Prop :=
  seqno buf = conn.rcvNxt ∨
    uipLen.toNat = uipIphLen + dataOffset buf ∧
      tcpFlags buf &&& (tcpSyn ||| tcpFin) = 0

theorem inOrder_iff (notAgain : ¬ SynAgain conn buf) :
    (¬ SynAgain conn buf ∧
      (dataLen buf uipLen > 0 ∨ tcpFlags buf &&& (tcpSyn ||| tcpFin) ≠ 0) ∧
      seqno buf ≠ conn.rcvNxt) ↔ ¬ InOrder conn buf uipLen := by
  unfold InOrder
  rw [← dataLen_eq_zero_iff, pos_iff_ne_zero]
  tauto

theorem established_newdata {call : AppCall}
    (isEstablished : conn.state = .established)
    (isCall : established conn buf (dataLen buf uipLen) = some call)
    (newdata : call.newdata = true) :
    call.len = newDataLen conn buf uipLen ∧ conn.stopped = false ∧
      (tcpFlags buf &&& tcpFin ≠ 0 →
        conn.len = 0 ∨ Acknowledges conn buf) := by
  unfold established at isCall
  dsimp only at isCall
  split at isCall
  · next finishes =>
      split at isCall
      · cases isCall
      · next nothingOpen =>
          cases isCall
          have noUrgent : ¬ SkipsUrgent conn buf :=
            fun skips => finishes.1 skips.2.1
          refine ⟨(if_neg noUrgent).symm, finishes.2, fun _ => ?_⟩
          rw [decide_eq_false_iff_not] at nothingOpen
          tauto
  · next goesOn =>
      generalize isLen : (if tcpFlags buf &&& tcpUrg ≠ 0 then
        dataLen buf uipLen - urgp buf else dataLen buf uipLen) = len
        at isCall
      split at isCall
      · cases isCall
        dsimp only at newdata ⊢
        rw [Bool.and_eq_true, Bool.not_eq_true'] at newdata
        have noFin : tcpFlags buf &&& tcpFin = 0 := by
          by_contra hasFin
          exact goesOn ⟨hasFin, newdata.2⟩
        refine ⟨?_, newdata.2, fun hasFin => absurd noFin hasFin⟩
        rw [← isLen]
        refine if_congr ?_ rfl rfl
        unfold SkipsUrgent
        tauto
      · cases isCall

theorem not_synAgain_of_acknowledges (isState : conn.state = .synRcvd)
    (acknowledged : Acknowledges conn buf) : ¬ SynAgain conn buf := by
  unfold SynAgain
  rw [isState]
  rintro (⟨absurd, -⟩ | ⟨-, isSyn⟩)
  · cases absurd
  · exact not_acknowledges_of_syn isSyn acknowledged

theorem not_synAgain_of_established (isState : conn.state = .established) :
    ¬ SynAgain conn buf := by
  unfold SynAgain
  rw [isState]
  rintro (⟨absurd, -⟩ | ⟨absurd, -⟩) <;> cases absurd

theorem not_skipsUrgent_of_synRcvd (isState : conn.state = .synRcvd) :
    ¬ SkipsUrgent conn buf := by
  unfold SkipsUrgent
  rw [isState]
  rintro ⟨absurd, -⟩
  cases absurd

theorem takesData_of_newdata {call : AppCall}
    (isCall : found conn buf uipLen = some call)
    (newdata : call.newdata = true) :
    call.len = 0 ∨
      TakesData conn buf uipLen ∧ call.len = newDataLen conn buf uipLen := by
  unfold found at isCall
  split at isCall
  · cases isCall
    cases newdata
  · next noReset =>
      rw [not_not] at noReset
      dsimp only at isCall
      split at isCall
      · cases isCall
      · next ordered =>
          cases isState : conn.state with
          | synRcvd =>
              rw [isState] at isCall
              dsimp only at isCall
              split at isCall
              · next acknowledged =>
                  rw [decide_eq_true_eq] at acknowledged
                  cases isCall
                  have notAgain :=
                    not_synAgain_of_acknowledges isState acknowledged
                  have noUrgent := @not_skipsUrgent_of_synRcvd buf conn isState
                  rw [inOrder_iff notAgain, not_not] at ordered
                  exact Or.inr ⟨⟨noReset, ordered,
                    Or.inl ⟨isState, acknowledged⟩⟩,
                    (if_neg noUrgent).symm⟩
              · cases isCall
          | synSent =>
              rw [isState] at isCall
              dsimp only at isCall
              split at isCall
              · cases isCall
                exact Or.inl rfl
              · cases isCall
                cases newdata
          | established =>
              rw [isState] at isCall
              have notAgain := @not_synAgain_of_established buf conn isState
              rw [inOrder_iff notAgain, not_not] at ordered
              obtain ⟨isLen, runs, settled⟩ :=
                established_newdata isState isCall newdata
              exact Or.inr ⟨⟨noReset, ordered,
                Or.inr ⟨isState, runs, settled⟩⟩, isLen⟩
          | closed | closing | timeWait =>
              rw [isState] at isCall
              cases isCall
          | finWait1 | finWait2 | lastAck =>
              rw [isState] at isCall
              dsimp only at isCall
              split at isCall
              · cases isCall
                cases newdata
              · cases isCall

theorem newdata_of_takesData (takes : TakesData conn buf uipLen)
    (notZero : newDataLen conn buf uipLen ≠ 0) :
    ∃ call, found conn buf uipLen = some call ∧ call.newdata = true ∧
      call.len = newDataLen conn buf uipLen := by
  obtain ⟨noReset, ordered, state⟩ := takes
  unfold found
  rw [if_neg (not_not_intro noReset)]
  dsimp only
  obtain ⟨isState, acknowledged⟩ | ⟨isState, runs, settled⟩ := state
  · have notAgain := not_synAgain_of_acknowledges isState acknowledged
    have noUrgent := @not_skipsUrgent_of_synRcvd buf conn isState
    have isLen : newDataLen conn buf uipLen = dataLen buf uipLen :=
      if_neg noUrgent
    rw [if_neg (by rw [inOrder_iff notAgain]; exact not_not_intro ordered),
      isState]
    dsimp only
    rw [if_pos (decide_eq_true acknowledged)]
    rw [isLen] at notZero ⊢
    exact ⟨_, rfl, decide_eq_true ((pos_iff_ne_zero _).2 notZero), rfl⟩
  · have notAgain := @not_synAgain_of_established buf conn isState
    rw [if_neg (by rw [inOrder_iff notAgain]; exact not_not_intro ordered),
      isState]
    dsimp only
    unfold established
    dsimp only
    by_cases finishes : tcpFlags buf &&& tcpFin ≠ 0
    · have noUrgent : ¬ SkipsUrgent conn buf :=
        fun skips => finishes skips.2.1
      have isLen : newDataLen conn buf uipLen = dataLen buf uipLen :=
        if_neg noUrgent
      have nothingOpen : ¬ (conn.len ≠ 0 ∧
          decide (Acknowledges conn buf) = false) := by
        rw [decide_eq_false_iff_not]
        have := settled finishes
        tauto
      rw [if_pos ⟨finishes, runs⟩, if_neg nothingOpen]
      rw [isLen] at notZero ⊢
      exact ⟨_, rfl, decide_eq_true ((pos_iff_ne_zero _).2 notZero), rfl⟩
    · have isLen : (if tcpFlags buf &&& tcpUrg ≠ 0 then
          dataLen buf uipLen - urgp buf else dataLen buf uipLen) =
            newDataLen conn buf uipLen := by
        unfold newDataLen SkipsUrgent
        refine if_congr ?_ rfl rfl
        tauto
      have newdata : (decide (newDataLen conn buf uipLen > 0) &&
          !conn.stopped) = true := by
        rw [runs, decide_eq_true ((pos_iff_ne_zero _).2 notZero)]
        rfl
      rw [if_neg fun both => finishes both.1, isLen, newdata,
        Bool.true_or, if_pos rfl]
      exact ⟨_, rfl, rfl, rfl⟩

theorem dataInside_iff :
    DataInside conn buf uipLen ↔
      (TakesData conn buf uipLen → BeforeFits conn buf uipLen) := by
  constructor
  · intro inside takes
    rw [← newDataLen_le_iff]
    by_cases isZero : newDataLen conn buf uipLen = 0
    · rw [isZero]
      exact Nat.zero_le _
    · obtain ⟨call, isCall, newdata, isLen⟩ :=
        newdata_of_takesData takes isZero
      rw [← isLen]
      exact inside call isCall newdata
  · intro fits call isCall newdata
    obtain isZero | ⟨takes, isLen⟩ := takesData_of_newdata isCall newdata
    · rw [isZero]
      exact Nat.zero_le _
    · rw [isLen, newDataLen_le_iff]
      exact fits takes

/-- A received segment is handled well: both loops over its options end and
read inside of its TCP header, and the length of the data that reaches the
application did not wrap. -/
def SegmentHandled (uipTcpMss : UInt16) (conn : UipConn) (buf : ByteMem)
    (uipLen : UInt16) : Prop :=
  OptionsRead synPlaces uipTcpMss buf uipLen ∧
    OptionsRead synSentPlaces uipTcpMss buf uipLen ∧
    DataInside conn buf uipLen

/-- The options have to fit in the header and not to lead back, and the
headers and urgent data have to fit in a segment of which data is taken:
neither is checked. -/
theorem segmentHandled_iff (uipTcpMss : UInt16) (conn : UipConn)
    (buf : ByteMem) (uipLen : UInt16) :
    SegmentHandled uipTcpMss conn buf uipLen ↔
      OptionsFit uipTcpMss buf uipLen ∧
        (TakesData conn buf uipLen → BeforeFits conn buf uipLen) := by
  have samePlaces : synSentPlaces = synPlaces := rfl
  unfold SegmentHandled
  rw [samePlaces, optionsRead_iff, dataInside_iff]
  tauto

/-- A segment comes to `found_listen`, with a connection for it, or to a
connection. -/
inductive Target where
  | listener
  | connection (conn : UipConn)

/-- The loop of `found_listen` runs. -/
def Target.Listens (target : Target) (buf : ByteMem) : Prop :=
  target = .listener ∧ tcpFlags buf &&& tcpCtl = tcpSyn

/-- The loop of `UIP_SYN_SENT` runs. -/
def Target.Connects (target : Target) (buf : ByteMem) : Prop :=
  ∃ conn, target = .connection conn ∧ conn.state = .synSent ∧
    Acknowledges conn buf ∧ tcpFlags buf &&& tcpCtl = tcpSyn ||| tcpAck

/-- What `uip_process` does with a received segment: the loop that it runs
over the options ends and reads inside of the TCP header, and the length of
the data that reaches the application did not wrap. -/
structure ReceivedHandled (uipTcpMss : UInt16) (target : Target)
    (buf : ByteMem) (uipLen : UInt16) : Prop where
  listens : target.Listens buf → OptionsRead synPlaces uipTcpMss buf uipLen
  connects : target.Connects buf →
    OptionsRead synSentPlaces uipTcpMss buf uipLen
  data : ∀ conn, target = .connection conn → DataInside conn buf uipLen

/-- Only the options of a SYN to a listener, and of its answer, have to
fit. -/
theorem receivedHandled_iff (uipTcpMss : UInt16) (target : Target)
    (buf : ByteMem) (uipLen : UInt16) :
    ReceivedHandled uipTcpMss target buf uipLen ↔
      (target.Listens buf ∨ target.Connects buf →
        OptionsFit uipTcpMss buf uipLen) ∧
      ∀ conn, target = .connection conn → TakesData conn buf uipLen →
        BeforeFits conn buf uipLen := by
  have samePlaces : synSentPlaces = synPlaces := rfl
  constructor
  · rintro ⟨listens, connects, data⟩
    rw [samePlaces, optionsRead_iff] at connects
    rw [optionsRead_iff] at listens
    refine ⟨fun runs => runs.elim listens connects, fun conn isTarget => ?_⟩
    rw [← dataInside_iff]
    exact data conn isTarget
  · rintro ⟨options, data⟩
    refine ⟨fun listens => ?_, fun connects => ?_, fun conn isTarget => ?_⟩
    · rw [optionsRead_iff]
      exact options (Or.inl listens)
    · rw [samePlaces, optionsRead_iff]
      exact options (Or.inr connects)
    · rw [dataInside_iff]
      exact data conn isTarget

/-- A segment of 64 bytes with the options no-operation and one of 255
bytes. -/
def wrappingOptions : ByteMem :=
  ByteMem.ofList (List.replicate 52 0 ++ [0x60, 2] ++ List.replicate 6 0 ++
    [1, 5, 255, 0])

theorem wrappingOptions_goesOn (uipTcpMss : UInt16) :
    Walk.GoesOn (mssStep synPlaces uipTcpMss wrappingOptions) 0 1 ∧
      Walk.GoesOn (mssStep synPlaces uipTcpMss wrappingOptions) 1 0 :=
  ⟨rfl, rfl⟩

/-- The second option leads back to the first one. -/
theorem wrappingOptions_not_handled : ¬ ∀ (uipTcpMss : UInt16)
    (conn : UipConn), SegmentHandled uipTcpMss conn wrappingOptions 64 := by
  intro handled
  obtain ⟨ends, -⟩ := (handled 1220 ⟨.established, false, 0, 0, 0⟩).1
  obtain ⟨first, second⟩ := wrappingOptions_goesOn 1220
  have acyclic := (mssOptions_ends_iff (by decide)).1 ends
  exact acyclic 0 Relation.ReflTransGen.refl
    ((Relation.TransGen.single first).tail second)

end Contiki.Net.TcpInput
