import Contiki.Sicslowpan.Iphc

/-!
# Receiving frames

`input` of `sicslowpan.c` with header compression HC06, fragmentation and
priority for new packets.  One call takes the frame in the packet buffer and
the state of the reassembly, and returns the next state and the packet that
was handed to `tcpip_input`, if any.
-/

namespace Contiki.Sicslowpan

open Contiki.Lib

/-- `struct timer`. -/
structure Timer where
  start : UInt32
  interval : UInt32

/-- `timer_expired`. -/
def Timer.expired (timer : Timer) (clockTime : UInt32) : Bool :=
  timer.interval < clockTime - timer.start + 1

/-- What is configured at a node.  The size of a datagram has eleven bits in
a fragment header; the largest `UIP_BUFSIZE` of a platform is 1280. -/
structure Node where
  contexts : List AddrContext
  uipBufsize : Nat
  uipBufsize_lt : uipBufsize < 2048
  /-- `SICSLOWPAN_REASS_MAXAGE * CLOCK_SECOND` -/
  reassMaxage : UInt32

/-- `sizeof(sicslowpan_buf)`, that of the member `u8`. -/
def Node.sizeofBuf (node : Node) : Nat := node.uipBufsize

/-- A frame in the packet buffer, its addresses and the time of the call. -/
structure Received where
  packetbuf : ByteMem
  datalen : Nat
  sender : LinkAddr
  receiver : LinkAddr
  clockTime : UInt32

/-- The reassembly state. -/
structure State where
  sicslowpanBuf : ByteMem
  sicslowpanLen : Nat
  processedIpInLen : Nat
  reassTag : Nat
  fragSender : LinkAddr
  reassTimer : Timer

def dispatchIpv6 : UInt8 := 0x41
def dispatchFrag1 : Nat := 0xc0
def dispatchFragn : Nat := 0xe0
def ipv6HdrLen : Nat := 1
def frag1HdrLen : Nat := 4
def fragnHdrLen : Nat := 5

/-- The fragmentation header; all fields are zero if there is none. -/
structure FragHeader where
  fragSize : Nat
  fragOffset : Nat
  fragTag : Nat
  packetbufHdrLen : Nat
  isFragment : Bool
  firstFragment : Bool

def fragHeader (packetbuf : ByteMem) : FragHeader :=
  let dispatch := (get16 packetbuf 0 &&& 0xf800) >>> 8
  let fragSize := get16 packetbuf 0 &&& 0x07ff
  let fragTag := get16 packetbuf 2
  if dispatch = dispatchFrag1 then
    { fragSize := fragSize
      fragOffset := 0
      fragTag := fragTag
      packetbufHdrLen := frag1HdrLen
      isFragment := true
      firstFragment := true }
  else if dispatch = dispatchFragn then
    { fragSize := fragSize
      fragOffset := (packetbuf 4).toNat
      fragTag := fragTag
      packetbufHdrLen := fragnHdrLen
      isFragment := true
      firstFragment := false }
  else
    { fragSize := 0
      fragOffset := 0
      fragTag := 0
      packetbufHdrLen := 0
      isFragment := false
      firstFragment := false }

def State.cancel (state : State) : State :=
  { state with sicslowpanLen := 0, processedIpInLen := 0 }

def cancelExpired (received : Received) (state : State) : State :=
  if state.reassTimer.expired received.clockTime then state.cancel
  else state

/-- `last_fragment`. -/
def lastFragment (header : FragHeader) (received : Received)
    (state : State) : Bool :=
  header.isFragment ∧ ¬ header.firstFragment ∧
    (header.fragSize : Int) ≤
      (state.processedIpInLen : Int) + received.datalen -
        header.packetbufHdrLen

/-- `PRIORITIZE_NEW_PACKETS`. -/
def prioritizeNewPackets (header : FragHeader) (received : Received)
    (state : State) : State :=
  if ¬ header.isFragment then state.cancel
  else if state.processedIpInLen > 0 ∧ header.firstFragment ∧
      state.fragSender ≠ received.sender then state.cancel
  else state

/-- Check the frame against the ongoing reassembly, or start one; nothing if
the frame is dropped. -/
def accept (node : Node) (header : FragHeader) (received : Received)
    (state : State) : Option State :=
  if state.processedIpInLen > 0 then
    if (header.fragSize > 0 ∧
        (header.fragSize ≠ state.sicslowpanLen ∨
          state.reassTag ≠ header.fragTag ∨
          state.fragSender ≠ received.sender)) ∨
        header.fragSize = 0 then none
    else some state
  else if header.fragSize > 0 ∧ header.fragSize ≤ node.uipBufsize then
    if header.isFragment ∧ ¬ header.firstFragment then none
    else
      some { state with
        sicslowpanLen := header.fragSize
        reassTag := header.fragTag
        fragSender := received.sender
        reassTimer :=
          { start := received.clockTime, interval := node.reassMaxage } }
  else some state

/-- Process the next dispatch and headers; nothing if the dispatch is
unknown. -/
def uncompressHeaders (node : Node) (header : FragHeader)
    (received : Received) (buf : ByteMem) : Option Uncompressed :=
  let hdrLen := header.packetbufHdrLen
  if hdrLen = fragnHdrLen then
    some { buf := buf, packetbufHdrLen := hdrLen, uncompHdrLen := 0 }
  else if received.packetbuf hdrLen &&& 0xe0 = dispatchIphc then
    some (uncompressHdrHc06 node.contexts received.sender
      received.receiver received.packetbuf received.datalen hdrLen
      header.fragSize buf)
  else if received.packetbuf hdrLen = dispatchIpv6 then
    some
      { buf := buf.write 0
          (received.packetbuf.read (hdrLen + ipv6HdrLen) uipIphLen)
        packetbufHdrLen := hdrLen + ipv6HdrLen + uipIphLen
        uncompHdrLen := uipIphLen }
  else none

/-- Copy the payload behind the headers, or to the offset of the fragment;
nothing if the header is longer than the frame or the buffer too small. -/
def copyPayload (node : Node) (header : FragHeader)
    (received : Received) (headers : Uncompressed) : Option ByteMem :=
  if received.datalen < headers.packetbufHdrLen then none
  else
    let payloadLen := received.datalen - headers.packetbufHdrLen
    let position := headers.uncompHdrLen + header.fragOffset <<< 3
    if position + payloadLen > node.sizeofBuf then none
    else
      some (headers.buf.write position
        (received.packetbuf.read headers.packetbufHdrLen payloadLen))

/-- Update the lengths, and hand over the packet if it is complete. -/
def complete (header : FragHeader) (last : Bool)
    (payloadLen uncompHdrLen : Nat) (state : State) :
    State × Option (List UInt8) :=
  let state :=
    if header.fragSize > 0 then
      let processed := state.processedIpInLen +
        if header.firstFragment then uncompHdrLen else 0
      { state with
        processedIpInLen :=
          if last then header.fragSize
          else (processed + payloadLen) % 65536 }
    else
      { state with sicslowpanLen := (payloadLen + uncompHdrLen) % 65536 }
  if state.processedIpInLen = 0 ∨
      state.processedIpInLen = state.sicslowpanLen then
    (state.cancel,
      some (state.sicslowpanBuf.read 0 state.sicslowpanLen))
  else (state, none)

/-- `input` for a frame that was not dropped: decompress the headers, copy
the payload and update the lengths. -/
def process (node : Node) (header : FragHeader) (received : Received)
    (last : Bool) (state : State) : State × Option (List UInt8) :=
  match uncompressHeaders node header received state.sicslowpanBuf with
  | none => (state, none)
  | some headers =>
      let state := { state with sicslowpanBuf := headers.buf }
      match copyPayload node header received headers with
      | none => (state, none)
      | some buf =>
          complete header last
            (received.datalen - headers.packetbufHdrLen)
            headers.uncompHdrLen { state with sicslowpanBuf := buf }

/-- `input`. -/
def input (node : Node) (received : Received) (state : State) :
    State × Option (List UInt8) :=
  let state := cancelExpired received state
  let header := fragHeader received.packetbuf
  let last := lastFragment header received state
  let state := prioritizeNewPackets header received state
  match accept node header received state with
  | none => (state, none)
  | some state => process node header received last state

/-- The states and the packets of a sequence of frames. -/
def inputAll (node : Node) : List Received → State →
    State × List (Option (List UInt8))
  | [], state => (state, [])
  | received :: rest, state =>
      let step := input node received state
      let tail := inputAll node rest step.1
      (tail.1, step.2 :: tail.2)

end Contiki.Sicslowpan
