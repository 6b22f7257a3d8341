import Mathlib.Logic.Function.Basic

/-!
# The SLIP driver

`core/dev/slip.c` receives packets from a serial line.  The interrupt puts the
bytes into a cyclic buffer, and the process of the driver takes the packets
from it when it is polled.
-/

namespace Contiki.Dev

/-- `SLIP_END` -/
def slipEnd : UInt8 := 192

/-- `SLIP_ESC` -/
def slipEsc : UInt8 := 219

/-- `SLIP_ESC_END` -/
def slipEscEnd : UInt8 := 220

/-- `SLIP_ESC_ESC` -/
def slipEscEsc : UInt8 := 221

/-- The bytes that stand for a byte of a packet. -/
def slipEscape (byte : UInt8) : List UInt8 :=
  if byte = slipEnd then [slipEsc, slipEscEnd]
  else if byte = slipEsc then [slipEsc, slipEscEsc]
  else [byte]

/-- The bytes that `slip_write` sends. -/
def slipWrite (packet : List UInt8) : List UInt8 :=
  slipEnd :: packet.flatMap slipEscape ++ [slipEnd]

structure SlipConfig where
  /-- `UIP_BUFSIZE - UIP_LLH_LEN`, the space for a packet that is taken. -/
  blen : Nat
  /-- `SLIP_CONF_ANSWER_MAC_REQUEST` -/
  answerMacRequest : Bool
  deriving DecidableEq

/-- `RX_BUFSIZE` -/
def SlipConfig.rxBufsize (config : SlipConfig) : Nat :=
  config.blen + 16

inductive SlipState where
  /-- There are two packets, and incoming data is dropped. -/
  | twopackets
  | ok
  | esc
  | rubbish
  deriving DecidableEq

/-- The variables of the receiver.  The bytes from `begin` to `endPos` are in
use, and there is a packet from `begin` to `pktEnd` if these differ. -/
structure Slip where
  state : SlipState
  begin : Nat
  endPos : Nat
  pktEnd : Nat
  rxbuf : Nat → UInt8

namespace Slip

/-- `rxbuf_init` -/
def rxbufInit (slip : Slip) : Slip :=
  { slip with begin := 0, endPos := 0, pktEnd := 0, state := .ok }

/-- The receiver when the process has been started. -/
def start : Slip :=
  rxbufInit
    { state := .twopackets, begin := 0, endPos := 0, pktEnd := 0
      rxbuf := fun _ => 0 }

/-- A request that is answered instead of taking a packet. -/
def requested (config : SlipConfig) (slip : Slip) : Bool :=
  if slip.rxbuf slip.begin = 67 then
    -- the six bytes of "CLIENT"
    slip.begin < slip.endPos && 6 ≤ slip.endPos - slip.begin &&
      (List.range' slip.begin 6).map slip.rxbuf = [67, 76, 73, 69, 78, 84]
  else
    -- the bytes '?' and 'M'
    config.answerMacRequest && slip.rxbuf slip.begin = 63 &&
      slip.begin < slip.endPos && 2 ≤ slip.endPos - slip.begin &&
      slip.rxbuf (slip.begin + 1) = 77

/-- The buffer without the bytes of a request. -/
def clearRequest (slip : Slip) : Slip :=
  let length := if slip.rxbuf slip.begin = 67 then 6 else 2
  { slip with
    rxbuf := fun cell =>
      if slip.begin ≤ cell ∧ cell < slip.begin + length then 0
      else slip.rxbuf cell }

/-- The packet that is copied to the buffer of the caller; nothing is copied
if it is too long. -/
def taken (config : SlipConfig) (slip : Slip) : List UInt8 :=
  if slip.begin < slip.pktEnd then
    let len := slip.pktEnd - slip.begin
    if config.blen < len then []
    else (List.range' slip.begin len).map slip.rxbuf
  else
    let len := (config.rxBufsize - slip.begin) + slip.pktEnd
    if config.blen < len then []
    else
      (List.range' slip.begin (config.rxBufsize - slip.begin)).map
          slip.rxbuf ++
        (List.range' 0 slip.pktEnd).map slip.rxbuf

/-- `slip_poll_handler`: the receiver, and the bytes whose number it
returns. -/
def slipPollHandler (config : SlipConfig) (slip : Slip) :
    Slip × List UInt8 :=
  if slip.requested config then (slip.clearRequest.rxbufInit, [])
  else if slip.begin ≠ slip.pktEnd then
    let outbuf := slip.taken config
    let slip := { slip with begin := slip.pktEnd }
    if slip.state = .twopackets then
      -- it is assumed that no bytes were lost
      ({ slip with pktEnd := slip.endPos, state := .ok }, outbuf)
    else (slip, outbuf)
  else (slip, [])

/-- The end of `slip_input_byte`, which stores a byte. -/
def addChar (config : SlipConfig) (slip : Slip) (c : UInt8) : Slip :=
  let next := if slip.endPos + 1 = config.rxBufsize then 0 else slip.endPos + 1
  if next = slip.begin then
    -- the buffer is full, and what is there of the packet is removed
    { slip with state := .rubbish, endPos := slip.pktEnd }
  else
    { slip with
      rxbuf := Function.update slip.rxbuf slip.endPos c
      endPos := next }

/-- `slip_input_byte` -/
def slipInputByte (config : SlipConfig) (slip : Slip) (c : UInt8) : Slip :=
  match slip.state with
  | .rubbish =>
      if c = slipEnd then { slip with state := .ok } else slip
  | .twopackets => slip
  | .esc =>
      if c = slipEscEnd then addChar config { slip with state := .ok } slipEnd
      else if c = slipEscEsc then
        addChar config { slip with state := .ok } slipEsc
      else { slip with state := .rubbish, endPos := slip.pktEnd }
  | .ok =>
      if c = slipEsc then { slip with state := .esc }
      else if c = slipEnd then
        if slip.endPos ≠ slip.pktEnd then
          if slip.begin = slip.pktEnd then
            { slip with pktEnd := slip.endPos }
          else { slip with state := .twopackets }
        else slip
      else addChar config slip c

end Slip

end Contiki.Dev
