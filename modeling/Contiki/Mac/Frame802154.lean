import Contiki.Lib.Bits

/-!
# IEEE 802.15.4 headers

`frame802154_create` writes the header of a frame and `frame802154_parse`
reads it.  Which fields a header has, and how long they are, is decided by the
frame control field.
-/

namespace Contiki.Mac

open Contiki.Lib

/-- The constants that the headers depend on. -/
structure FrameConfig where
  /-- `LINKADDR_SIZE` -/
  linkaddrSize : Nat
  linkaddrSize_le : linkaddrSize ≤ 8
  /-- `LLSEC802154_SECURITY_LEVEL` is not zero. -/
  securityLevel : Bool
  /-- `LLSEC802154_USES_EXPLICIT_KEYS` -/
  usesExplicitKeys : Bool

/-- `FRAME802154_SHORTADDRMODE` -/
def shortAddrMode : UInt8 := 2

/-- `FRAME802154_LONGADDRMODE` -/
def longAddrMode : UInt8 := 3

/-- `frame802154_fcf_t` -/
structure Fcf where
  frameType : UInt8
  securityEnabled : UInt8
  framePending : UInt8
  ackRequired : UInt8
  panidCompression : UInt8
  destAddrMode : UInt8
  frameVersion : UInt8
  srcAddrMode : UInt8
  deriving DecidableEq

/-- `frame802154_aux_hdr_t` -/
structure AuxHdr where
  securityLevel : UInt8
  keyIdMode : UInt8
  frameCounter : Vector UInt8 4
  keySource : Vector UInt8 8
  keyIndex : UInt8
  deriving DecidableEq

/-- `frame802154_t`; `payload` is an index into the frame. -/
structure Frame802154 where
  destAddr : Vector UInt8 8
  srcAddr : Vector UInt8 8
  fcf : Fcf
  seq : UInt8
  destPid : UInt16
  srcPid : UInt16
  auxHdr : AuxHdr
  payload : Nat
  payloadLen : Int
  deriving DecidableEq

/-! ## Writing a header -/

/-- `field_length_t` -/
structure FieldLength where
  destPidLen : Nat
  destAddrLen : Nat
  srcPidLen : Nat
  srcAddrLen : Nat
  auxSecLen : Nat

/-- `addr_len` -/
def addrLen (mode : UInt8) : Nat :=
  if mode = shortAddrMode then 2
  else if mode = longAddrMode then 8
  else 0

/-- `get_key_id_len` -/
def getKeyIdLen (keyIdMode : UInt8) : Nat :=
  if keyIdMode = 1 then 1
  else if keyIdMode = 2 then 5
  else if keyIdMode = 3 then 9
  else 0

/-- The address modes that a header has. -/
def Fcf.destMode (fcf : Fcf) : UInt8 := fcf.destAddrMode &&& 3

def Fcf.srcMode (fcf : Fcf) : UInt8 := fcf.srcAddrMode &&& 3

def Frame802154.compresses (p : Frame802154) : Bool :=
  p.fcf.destMode ≠ 0 ∧ p.fcf.srcMode ≠ 0 ∧ p.srcPid = p.destPid

/-- `field_len` -/
def fieldLen (config : FrameConfig) (p : Frame802154) :
    Frame802154 × FieldLength :=
  let compresses := p.compresses
  ({ p with
      fcf := { p.fcf with panidCompression := if compresses then 1 else 0 } },
    { destPidLen := if p.fcf.destMode ≠ 0 then 2 else 0
      destAddrLen := addrLen p.fcf.destMode
      srcPidLen := if p.fcf.srcMode ≠ 0 ∧ ¬ compresses then 2 else 0
      srcAddrLen := addrLen p.fcf.srcMode
      auxSecLen :=
        if config.securityLevel ∧ p.fcf.securityEnabled &&& 1 ≠ 0 then
          5 + if config.usesExplicitKeys then getKeyIdLen p.auxHdr.keyIdMode
            else 0
        else 0 })

/-- `frame802154_hdrlen` -/
def frame802154Hdrlen (config : FrameConfig) (p : Frame802154) :
    Nat × Frame802154 :=
  let (p, flen) := fieldLen config p
  (3 + flen.destPidLen + flen.destAddrLen + flen.srcPidLen +
    flen.srcAddrLen + flen.auxSecLen, p)

def Fcf.byte0 (fcf : Fcf) : UInt8 :=
  (fcf.frameType &&& (7 : UInt8)) |||
    (fcf.securityEnabled &&& (1 : UInt8)) <<< (3 : UInt8) |||
    (fcf.framePending &&& (1 : UInt8)) <<< (4 : UInt8) |||
    (fcf.ackRequired &&& (1 : UInt8)) <<< (5 : UInt8) |||
    (fcf.panidCompression &&& (1 : UInt8)) <<< (6 : UInt8)

def Fcf.byte1 (fcf : Fcf) : UInt8 :=
  (fcf.destAddrMode &&& (3 : UInt8)) <<< (2 : UInt8) |||
    (fcf.frameVersion &&& (3 : UInt8)) <<< (4 : UInt8) |||
    (fcf.srcAddrMode &&& (3 : UInt8)) <<< (6 : UInt8)

def pidBytes (pid : UInt16) : List UInt8 :=
  [pid.toUInt8, (pid >>> 8).toUInt8]

def addrBytes (addr : Vector UInt8 8) (length : Nat) : List UInt8 :=
  (addr.toList.take length).reverse

/-- The key identifier in the auxiliary header, unless it has more bytes than
there are. -/
def keyBytes (auxHdr : AuxHdr) : Option (List UInt8) :=
  if auxHdr.keyIdMode = 0 then some []
  else
    let c := (auxHdr.keyIdMode.toNat - 1) * 4
    if c ≤ 8 then some (auxHdr.keySource.toList.take c ++ [auxHdr.keyIndex])
    else none

def auxBytes (config : FrameConfig) (auxHdr : AuxHdr) :
    Option (List UInt8) :=
  if config.usesExplicitKeys then
    (keyBytes auxHdr).map fun key =>
      (auxHdr.securityLevel ||| auxHdr.keyIdMode <<< (3 : UInt8)) ::
        auxHdr.frameCounter.toList ++ key
  else some (auxHdr.securityLevel :: auxHdr.frameCounter.toList)

/-- `frame802154_create`: the bytes of the header.  There are none when the
key source would be read beyond its end. -/
def frame802154Create (config : FrameConfig) (p : Frame802154) :
    Option (List UInt8 × Frame802154) := do
  let (p, flen) := fieldLen config p
  let aux ← if flen.auxSecLen ≠ 0 then auxBytes config p.auxHdr else some []
  some ([p.fcf.byte0, p.fcf.byte1, p.seq] ++
    (if flen.destPidLen = 2 then pidBytes p.destPid else []) ++
    addrBytes p.destAddr flen.destAddrLen ++
    (if flen.srcPidLen = 2 then pidBytes p.srcPid else []) ++
    addrBytes p.srcAddr flen.srcAddrLen ++ aux, p)

/-! ## Reading a header -/

/-- The frame control field of two bytes. -/
def parseFcf (byte0 byte1 : UInt8) : Fcf where
  frameType := byte0 &&& (7 : UInt8)
  securityEnabled := byte0 >>> (3 : UInt8) &&& (1 : UInt8)
  framePending := byte0 >>> (4 : UInt8) &&& (1 : UInt8)
  ackRequired := byte0 >>> (5 : UInt8) &&& (1 : UInt8)
  panidCompression := byte0 >>> (6 : UInt8) &&& (1 : UInt8)
  destAddrMode := byte1 >>> (2 : UInt8) &&& (3 : UInt8)
  frameVersion := byte1 >>> (4 : UInt8) &&& (3 : UInt8)
  srcAddrMode := byte1 >>> (6 : UInt8) &&& (3 : UInt8)

def parsePid (data : ByteMem) (p : Nat) : UInt16 :=
  (data p).toUInt16 + (data (p + 1)).toUInt16 <<< (8 : UInt16)

/-- `linkaddr_copy` from `linkaddr_null`. -/
def linkaddrNull (config : FrameConfig) (addr : Vector UInt8 8) :
    Vector UInt8 8 :=
  Vector.ofFn fun index =>
    if index.val < config.linkaddrSize then 0 else addr[index]

/-- An address, and the place behind it. -/
def parseAddr (config : FrameConfig) (mode : UInt8) (data : ByteMem)
    (p : Nat) (addr : Vector UInt8 8) : Nat × Vector UInt8 8 :=
  if mode = shortAddrMode then
    (p + 2, ((linkaddrNull config addr).set 0 (data (p + 1))).set 1 (data p))
  else if mode = longAddrMode then
    (p + 8, Vector.ofFn fun c => data (p + (7 - c.val)))
  else (p, addr)

def parseDest (config : FrameConfig) (data : ByteMem) (p : Nat)
    (pf : Frame802154) : Nat × Frame802154 :=
  if pf.fcf.destAddrMode ≠ 0 then
    let (next, addr) :=
      parseAddr config pf.fcf.destAddrMode data (p + 2) pf.destAddr
    (next, { pf with destPid := parsePid data p, destAddr := addr })
  else
    (p, { pf with
      destAddr := linkaddrNull config pf.destAddr
      destPid := 0 })

def parseSrc (config : FrameConfig) (data : ByteMem) (p : Nat)
    (pf : Frame802154) : Nat × Frame802154 :=
  if pf.fcf.srcAddrMode ≠ 0 then
    let (p, pid) :=
      if pf.fcf.panidCompression = 0 then (p + 2, parsePid data p)
      else (p, pf.destPid)
    let (next, addr) :=
      parseAddr config pf.fcf.srcAddrMode data p pf.srcAddr
    (next, { pf with srcPid := pid, srcAddr := addr })
  else
    (p, { pf with
      srcAddr := linkaddrNull config pf.srcAddr
      srcPid := 0 })

def parseKey (data : ByteMem) (p : Nat) (auxHdr : AuxHdr) : Nat × AuxHdr :=
  if auxHdr.keyIdMode ≠ 0 then
    let c := (auxHdr.keyIdMode.toNat - 1) * 4
    (p + c + 1, { auxHdr with
      keySource := Vector.ofFn fun index =>
        if index.val < c then data (p + index.val)
        else auxHdr.keySource[index]
      keyIndex := data (p + c) })
  else (p, auxHdr)

def parseAux (config : FrameConfig) (data : ByteMem) (p : Nat)
    (pf : Frame802154) : Nat × Frame802154 :=
  if config.securityLevel ∧ pf.fcf.securityEnabled ≠ 0 then
    let auxHdr := { pf.auxHdr with
      securityLevel := data p &&& (7 : UInt8)
      frameCounter := Vector.ofFn fun index => data (p + 1 + index.val) }
    if config.usesExplicitKeys then
      let (next, auxHdr) := parseKey data (p + 5)
        { auxHdr with keyIdMode := data p >>> (3 : UInt8) &&& (3 : UInt8) }
      (next, { pf with auxHdr := auxHdr })
    else (p + 5, { pf with auxHdr := auxHdr })
  else (p, pf)

/-- `frame802154_parse` -/
def frame802154Parse (config : FrameConfig) (data : ByteMem) (len : Nat)
    (pf : Frame802154) : Nat × Frame802154 :=
  if len < 3 then (0, pf)
  else
    let pf := { pf with fcf := parseFcf (data 0) (data 1), seq := data 2 }
    let (p, pf) := parseDest config data 3 pf
    let (p, pf) := parseSrc config data p pf
    let (c, pf) := parseAux config data p pf
    let pf := { pf with payloadLen := len - c, payload := c }
    (if c > len then 0 else c, pf)

end Contiki.Mac
