import Contiki.Sicslowpan.Input

/-!
# Sending packets

`output` of `sicslowpan.c`: the headers are compressed, and a packet that
does not fit into one frame is sent as a first fragment with the headers and
further fragments with payload only.
-/

namespace Contiki.Sicslowpan

open Contiki.Lib

/-- What `output` learns from the layers below: the header length of the
framer, the overhead of the link-layer security, the number of free queue
buffers, and for each frame whether a queue buffer was allocated and whether
its transmission succeeded. -/
structure Link where
  macMaxPayload : Int
  framerLength : Int
  llsecOverhead : Int
  queuebufNumfree : Int
  compressionThreshold : Nat
  allocated : Nat → Bool
  transmitted : Nat → Bool

/-- `max_payload`. -/
def Link.maxPayload (link : Link) : Int :=
  link.macMaxPayload -
    (if link.framerLength < 0 then 21 else link.framerLength) -
    link.llsecOverhead

/-- `compress_hdr_ipv6`. -/
def compressHdrIpv6 (packet : ByteMem) : Compressed :=
  { header := dispatchIpv6 :: packet.read 0 uipIphLen
    uncompHdrLen := uipIphLen }

/-- The headers that a packet of length `uipLen` is sent with. -/
def compressHdr (link : Link) (contexts : List AddrContext)
    (uipLladdr dest : LinkAddr) (packet : ByteMem) (uipLen : Nat) :
    Compressed :=
  if uipLen ≥ link.compressionThreshold then
    compressHdrHc06 contexts uipLladdr dest packet
  else compressHdrIpv6 packet

/-- The frames that were sent, and whether `output` returned 1. -/
structure Sent where
  frames : List (List UInt8)
  accepted : Bool

/-- A fragment payload: a multiple of eight bytes. -/
def fragmentPayload (maxPayload : Int) (packetbufHdrLen : Nat) : Int :=
  (maxPayload - packetbufHdrLen) / 8 * 8

/-- The first fragment: dispatch and size, tag, headers and payload. -/
def frag1 (uipLen : Nat) (myTag : UInt16) (header payload : List UInt8) :
    List UInt8 :=
  set16 (dispatchFrag1 <<< 8 ||| uipLen) ++ set16 myTag.toNat ++ header ++
    payload

/-- A further fragment: dispatch and size, tag, offset and payload. -/
def fragn (uipLen : Nat) (myTag : UInt16) (offset : Nat)
    (payload : List UInt8) : List UInt8 :=
  set16 (dispatchFragn <<< 8 ||| uipLen) ++ set16 myTag.toNat ++
    [UInt8.ofNat offset] ++ payload

/-- Send one fragment; the next ones are dropped where there is no queue
buffer for it or its transmission failed. -/
def sendFragment (link : Link) (index : Nat) (frame : List UInt8)
    (next : Option Sent) : Option Sent :=
  if ¬ link.allocated index then
    some { frames := [], accepted := false }
  else if ¬ link.transmitted index then
    some { frames := [frame], accepted := false }
  else next.map fun sent => { sent with frames := frame :: sent.frames }

/-- The loop over the following fragments.  It makes no progress, and gives
nothing, if no payload fits into a fragment. -/
def sendFragments (link : Link) (packet : ByteMem)
    (uipLen : Nat) (myTag : UInt16) (payloadLen : Nat) :
    Nat → Nat → Nat → Option Sent
  | 0, _, _ => none
  | fuel + 1, index, processed =>
      if processed < uipLen then
        let payloadLen' :=
          if uipLen - processed < payloadLen then uipLen - processed
          else payloadLen
        sendFragment link index
          (fragn uipLen myTag (processed >>> 3)
            (packet.read processed payloadLen'))
          (sendFragments link packet uipLen myTag payloadLen fuel
            (index + 1) (processed + payloadLen'))
      else some { frames := [], accepted := true }

/-- Whether the packet is too large for a single frame. -/
def needsFragments (link : Link) (compressed : Compressed)
    (uipLen : Nat) : Bool :=
  (uipLen : Int) - compressed.uncompHdrLen >
    link.maxPayload - compressed.header.length

def sendFragmented (link : Link) (packet : ByteMem)
    (compressed : Compressed) (uipLen : Nat) (myTag : UInt16) :
    Option Sent :=
  let estimatedFragments :=
    (uipLen : Int).tdiv (link.macMaxPayload - fragnHdrLen) + 1
  if link.queuebufNumfree - 1 < estimatedFragments then
    some { frames := [], accepted := false }
  else
    let first := fragmentPayload link.maxPayload
      (compressed.header.length + frag1HdrLen)
    let rest := fragmentPayload link.maxPayload fragnHdrLen
    -- a negative length is no length for memcpy
    if first < 0 ∨ rest < 0 then none
    else
      sendFragment link 0
        (frag1 uipLen myTag compressed.header
          (packet.read compressed.uncompHdrLen first.toNat))
        (sendFragments link packet uipLen myTag rest.toNat (uipLen + 1) 1
          (first.toNat + compressed.uncompHdrLen))

/-- `output`, for the packet of length `uipLen` in the IP buffer.  It gives
nothing where the source does not return. -/
def output (link : Link) (contexts : List AddrContext)
    (uipLladdr dest : LinkAddr) (packet : ByteMem) (uipLen : Nat)
    (myTag : UInt16) : Option Sent :=
  let compressed := compressHdr link contexts uipLladdr dest packet uipLen
  if needsFragments link compressed uipLen then
    sendFragmented link packet compressed uipLen myTag
  else
    some
      { frames := [compressed.header ++ packet.read compressed.uncompHdrLen
          (uipLen - compressed.uncompHdrLen)]
        accepted := true }

end Contiki.Sicslowpan
