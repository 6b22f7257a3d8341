import Mathlib.Data.FinEnum
import Contiki.Lib.Bits
import Contiki.Lib.Walk

/-!
# Extension headers

`uip_process` of `uip6.c` for a received packet, from the IPv6 header to the
upper-layer protocol, with `ext_hdr_options_process` for the options of a
header.
-/

namespace Contiki.Net.Uip6

open Contiki.Lib

/-- `UIP_IPH_LEN` -/
def uipIphLen : Nat := 40

/-- `UIP_PROTO_TCP` -/
def uipProtoTcp : UInt8 := 6
/-- `UIP_PROTO_UDP` -/
def uipProtoUdp : UInt8 := 17
/-- `UIP_PROTO_ICMP6` -/
def uipProtoIcmp6 : UInt8 := 58
/-- `UIP_PROTO_HBHO` -/
def uipProtoHbho : UInt8 := 0
/-- `UIP_PROTO_DESTO` -/
def uipProtoDesto : UInt8 := 60
/-- `UIP_PROTO_ROUTING` -/
def uipProtoRouting : UInt8 := 43

/-- `UIP_EXT_HDR_OPT_PAD1` -/
def uipExtHdrOptPad1 : UInt8 := 0
/-- `UIP_EXT_HDR_OPT_PADN` -/
def uipExtHdrOptPadn : UInt8 := 1
/-- `UIP_EXT_HDR_OPT_RPL` -/
def uipExtHdrOptRpl : UInt8 := 0x63

/-- `UIP_EXT_HDR_BITMAP_HBHO` -/
def bitmapHbho : UInt8 := 0x01
/-- `UIP_EXT_HDR_BITMAP_DESTO1` -/
def bitmapDesto1 : UInt8 := 0x02
/-- `UIP_EXT_HDR_BITMAP_ROUTING` -/
def bitmapRouting : UInt8 := 0x04
/-- `UIP_EXT_HDR_BITMAP_DESTO2` -/
def bitmapDesto2 : UInt8 := 0x40

/-- The configuration and what the other modules know. -/
structure Uip6Env where
  /-- `UIP_CONF_ROUTER` -/
  confRouter : Bool
  /-- `UIP_CONF_IPV6_RPL` -/
  confIpv6Rpl : Bool
  /-- `UIP_TCP` -/
  uipTcp : Bool
  /-- `UIP_UDP` -/
  uipUdp : Bool
  /-- The rank in the current DAG of an instance that is used and joined. -/
  joinedRank : UInt8 → Option UInt16
  /-- The destination of the packet is this node. -/
  isForMe : ByteMem → Bool

/-! ## Options -/

/-- The end of `ext_hdr_options_process`: 0 with the packet, 1 or 2. -/
inductive OptionsResult where
  | proceed (buf : ByteMem)
  | discard
  | error

/-- `uip_is_addr_mcast` of the destination. -/
def isMulticast (buf : ByteMem) : Bool := buf 24 = 0xFF

/-- The length of the extension header at `base`. -/
def extHdrBytes (buf : ByteMem) (base : Nat) : Nat :=
  (buf (base + (1 : Nat))).toNat * 8 + 8

/-- `rpl_verify_header` for the option at `option` of the header at `base`;
without a result it returns 1.  A first rank error is only marked. -/
def rplVerifyHeader (env : Uip6Env) (buf : ByteMem) (base option : Nat) :
    Option ByteMem :=
  if buf (base + (1 : Nat)) ≠ 0 then none
  else if buf option ≠ uipExtHdrOptRpl then none
  else if buf (option + (1 : Nat)) ≠ 4 then none
  else
    match env.joinedRank (buf (option + (3 : Nat))) with
    | none => none
    | some rank =>
        let flags := buf (option + (2 : Nat))
        if flags &&& 0x20 ≠ 0 then none
        else
          let down : Bool := flags &&& 0x80 ≠ 0
          let senderRank := (buf (option + (4 : Nat))).toUInt16 <<< 8 |||
            (buf (option + (5 : Nat))).toUInt16
          let senderCloser : Bool := senderRank < rank
          if down ≠ senderCloser then
            if flags &&& 0x40 ≠ 0 then none
            else some (Function.update buf (option + (2 : Nat))
              (flags ||| 0x40))
          else some buf

/-- The loop of `ext_hdr_options_process` at `uip_ext_opt_offset`: its end or
the next offset. -/
def optionStep (env : Uip6Env) (buf : ByteMem) (base : Nat)
    (offset : UInt8) : OptionsResult ⊕ UInt8 :=
  let option := base + offset.toNat
  if offset.toNat < extHdrBytes buf base then
    let type := buf option
    if type = uipExtHdrOptPad1 then .inr (offset + 1)
    else if type = uipExtHdrOptPadn then
      .inr (offset + (buf (option + (1 : Nat)) + 2))
    else if type = uipExtHdrOptRpl then
      if env.confIpv6Rpl then
        match rplVerifyHeader env buf base option with
        | none => .inl .discard
        | some buf => .inl (.proceed buf)
      else .inl (.proceed buf)
    else if type &&& 0xC0 = 0 then
      .inr (offset + (buf (option + (1 : Nat)) + 2))
    else if type &&& 0xC0 = 0x40 then .inl .discard
    else if type &&& 0xC0 = 0xC0 ∧ isMulticast buf then .inl .discard
    else .inl .error
  else .inl (.proceed buf)

/-- `ext_hdr_options_process` in at most `fuel` rounds. -/
def extHdrOptionsProcess (env : Uip6Env) (fuel : Nat) (buf : ByteMem)
    (base : Nat) : Option OptionsResult :=
  Walk.walk (optionStep env buf base) fuel 2

/-! ## Headers -/

/-- The variables of the header loop: `uip_buf` from the IPv6 header on, the
position of `uip_next_hdr`, `uip_ext_len` and `uip_ext_bitmap`.  The lengths
of the headers that were passed are not in the source. -/
structure ExtState where
  buf : ByteMem
  nextHdr : Nat
  extLen : UInt8
  bitmap : UInt8
  passed : List Nat

/-- The end of the header loop. -/
inductive Outcome where
  /-- `tcp_input`, `udp_input` or `icmp6_input` -/
  | upper (state : ExtState)
  /-- `drop` or `send` -/
  | gone

namespace ExtState

/-- `*uip_next_hdr` -/
def next (state : ExtState) : UInt8 := state.buf state.nextHdr

/-- The position of `UIP_EXT_BUF`. -/
def base (state : ExtState) : Nat := uipIphLen + state.extLen.toNat

/-- The header is passed; `uip_ext_len` is a `uint8_t`. -/
def pass (state : ExtState) (buf : ByteMem) : ExtState where
  buf := buf
  nextHdr := state.base
  extLen := UInt8.ofNat (state.extLen.toNat + extHdrBytes buf state.base)
  bitmap := state.bitmap
  passed := state.passed ++ [extHdrBytes buf state.base]

/-- The header is noted in `uip_ext_bitmap`. -/
def mark (state : ExtState) (bit : UInt8) : ExtState :=
  { state with bitmap := state.bitmap ||| bit }

/-- A header with options, in at most `fuel` rounds. -/
def optionsHeader (env : Uip6Env) (fuel : Nat) (state : ExtState) :
    Option Outcome ⊕ ExtState :=
  match extHdrOptionsProcess env fuel state.buf state.base with
  | none => .inl none
  | some (.proceed buf) => .inr (state.pass buf)
  | some .discard => .inl (some .gone)
  | some .error => .inl (some .gone)

/-- `*uip_next_hdr` is an upper-layer protocol. -/
def isUpper (env : Uip6Env) (state : ExtState) : Bool :=
  env.uipTcp ∧ state.next = uipProtoTcp ∨
    env.uipUdp ∧ state.next = uipProtoUdp ∨ state.next = uipProtoIcmp6

/-- The bit of the options header that is next, unless it comes too often. -/
def optionsBit (state : ExtState) : Option UInt8 :=
  if state.next = uipProtoHbho then
    if state.bitmap &&& bitmapHbho ≠ 0 then none else some bitmapHbho
  else if state.next = uipProtoDesto then
    if state.bitmap &&& bitmapDesto1 ≠ 0 then
      if state.bitmap &&& bitmapDesto2 ≠ 0 then none else some bitmapDesto2
    else some bitmapDesto1
  else none

def headerStep (env : Uip6Env) (fuel : Nat) (state : ExtState) :
    Option Outcome ⊕ ExtState :=
  if state.isUpper env then .inl (some (.upper state))
  else
    match state.optionsBit with
    | some bit => (state.mark bit).optionsHeader env fuel
    | none =>
        if state.next = uipProtoRouting then
          if state.bitmap &&& bitmapRouting ≠ 0 then .inl (some .gone)
          -- the number of segments left
          else if state.buf (state.base + (3 : Nat)) > 0 then
            .inl (some .gone)
          else .inr ((state.mark bitmapRouting).pass state.buf)
        else .inl (some .gone)

def headerLoop (env : Uip6Env) (fuel : Nat) (state : ExtState) :
    Option Outcome :=
  (Walk.walk (headerStep env fuel) fuel state).join

end ExtState

/-- The length of the packet in its IPv6 header. -/
def ipLen (buf : ByteMem) : Nat := (buf 4).toNat * 256 + (buf 5).toNat

/-- `uip_len` after the length was checked. -/
def uipLen (buf : ByteMem) : UInt16 := UInt16.ofNat (ipLen buf + uipIphLen)

def accepts (buf : ByteMem) (received : UInt16) : Bool :=
  buf 0 &&& 0xF0 = 0x60 ∧ ipLen buf ≤ received.toNat ∧ buf 8 ≠ 0xFF

def startState (buf : ByteMem) : ExtState where
  buf := buf
  nextHdr := 6
  extLen := 0
  bitmap := 0
  passed := []

/-- `uip_process` up to the header loop.  A router looks at the hop-by-hop
header first. -/
def enter (env : Uip6Env) (fuel : Nat) (buf : ByteMem) (received : UInt16) :
    Option Outcome ⊕ ExtState :=
  let start := startState buf
  if ¬ accepts buf received then .inl (some .gone)
  else if env.confRouter ∧ start.next = uipProtoHbho then
    match (start.mark bitmapHbho).optionsHeader env fuel with
    | .inl outcome => .inl outcome
    | .inr state =>
        if env.isForMe state.buf then .inr state else .inl (some .gone)
  else if env.isForMe buf then .inr start
  else .inl (some .gone)

/-- `uip_process` for a packet of `received` bytes, with both loops in at most
`fuel` rounds. -/
def uipProcess (env : Uip6Env) (fuel : Nat) (buf : ByteMem)
    (received : UInt16) : Option Outcome :=
  match enter env fuel buf received with
  | .inl outcome => outcome
  | .inr state => state.headerLoop env fuel

end Contiki.Net.Uip6
