import Contiki.Net.Packetbuf

/-!
# CCM*

`core/net/llsec/ccm-star.c` computes a message integrity code over the packet
buffer and adds a key stream to its data.
-/

namespace Contiki.Llsec

open Contiki.Lib
open Contiki.Net

/-- A block of `AES_128_BLOCK_SIZE` bytes. -/
abbrev Block := Vector UInt8 16

/-- The bytes of a block in memory. -/
def Block.toMem (block : Block) : ByteMem :=
  ByteMem.ofList block.toList

/-- The block in memory at an address. -/
def Block.ofMem (memory : ByteMem) : Block :=
  Vector.ofFn fun i => memory i.val

/-- The attributes of the packet buffer that link-layer security uses. -/
inductive LlsecAttr where
  | securityLevel
  | frameCounterBytes01
  | frameCounterBytes23
  deriving DecidableEq

/-- The link-layer addresses of the packet buffer. -/
inductive LlsecAddr where
  | sender
  | receiver
  deriving DecidableEq

/-- The packet buffer with the attributes and addresses of link-layer
security. -/
abbrev Frame := Packetbuf LlsecAttr LlsecAddr

/-- `LLSEC802154_SECURITY_LEVEL` and `LINKADDR_SIZE`. -/
structure LlsecConfig where
  securityLevel : UInt16
  linkaddrSize : Nat

namespace LlsecConfig

/-- `LLSEC802154_MIC_LENGTH` -/
def micLength (config : LlsecConfig) : Nat :=
  let level := config.securityLevel.toNat % 4
  if level = 0 then 0 else 2 <<< level

/-- `LLSEC802154_USES_ENCRYPTION`, which is `WITH_ENCRYPTION` of
noncoresec. -/
def usesEncryption (config : LlsecConfig) : Bool :=
  config.securityLevel.toNat.testBit 2

end LlsecConfig

/-- `CCM_STAR_AUTH_FLAGS` -/
def ccmStarAuthFlags (aLen micLen : Nat) : UInt8 :=
  UInt8.ofNat ((if aLen ≠ 0 then 1 <<< 6 else 0) |||
    ((micLen - 2) >>> 1) <<< 3 ||| 1)

/-- `CCM_STAR_ENCRYPTION_FLAGS` -/
def ccmStarEncryptionFlags : UInt8 := 1

/-- `set_nonce` -/
def setNonce (attrs : LlsecAttr → UInt16) (flags : UInt8)
    (extendedSourceAddress : ByteMem) (counter : UInt8) : Block :=
  let high := attrs .frameCounterBytes23
  let low := attrs .frameCounterBytes01
  Block.ofMem <| ByteMem.ofList <|
    flags :: extendedSourceAddress.read 0 8 ++
      [(high >>> (8 : UInt16)).toUInt8, high.toUInt8,
        (low >>> (8 : UInt16)).toUInt8, low.toUInt8,
        (attrs .securityLevel).toUInt8, 0, counter]

section Cipher

variable (encrypt : Block → Block)

/-- `ctr_step` -/
def ctrStep (attrs : LlsecAttr → UInt16) (extendedSourceAddress : ByteMem)
    (pos : Nat) (mAndResult : ByteMem) (mLen : Nat) (counter : UInt8) :
    ByteMem :=
  let a := (encrypt (setNonce attrs ccmStarEncryptionFlags
    extendedSourceAddress counter)).toMem
  fun address =>
    if pos ≤ address ∧ address < pos + 16 ∧ address < mLen then
      mAndResult address ^^^ a (address - pos)
    else mAndResult address

/-- The bytes of a message are added to a block from a position on. -/
def addBytes (x : Block) (message : ByteMem) (pos len start : Nat) : Block :=
  Vector.ofFn fun i =>
    if start ≤ i.val ∧ pos + (i.val - start) < len then
      x.get i ^^^ message (pos + (i.val - start))
    else x.get i

/-- `x[1] = x[1] ^ a_len` -/
def addLength (x : Block) (aLen : Nat) : Block :=
  Vector.ofFn fun i =>
    if i.val = 1 then x.get i ^^^ UInt8.ofNat aLen else x.get i

/-- A `while` loop of `mic` over the blocks of a message; `pos` is an
`uint8_t`. When it has not ended after 17 tests, `pos` has come back to where
it was, and the loop never ends. -/
def micLoop (message : ByteMem) (len : Nat) : Nat → Nat → Block →
    Option Block
  | 0, _, _ => none
  | tests + 1, pos, x =>
      if pos < len then
        micLoop message len tests ((pos + 16) % 256)
          (encrypt (addBytes x message pos len 0))
      else some x

/-- `mic` without its end: the block before the key stream is added. -/
def authenticate (attrs : LlsecAttr → UInt16)
    (extendedSourceAddress a m : ByteMem) (aLen mLen micLen : Nat) :
    Option Block :=
  let x := encrypt (setNonce attrs (ccmStarAuthFlags aLen micLen)
    extendedSourceAddress (UInt8.ofNat mLen))
  let header :=
    if aLen ≠ 0 then
      micLoop encrypt a aLen 17 14
        (encrypt (addBytes (addLength x aLen) a 0 aLen 2))
    else some x
  header.bind (micLoop encrypt m mLen 17 0)

/-- `mic`: the bytes at `result`. -/
def mic (config : LlsecConfig) (buf : Frame)
    (extendedSourceAddress : ByteMem) : Option (List UInt8) :=
  let shallEncrypt := config.usesEncryption &&
    (buf.attrs .securityLevel).toNat.testBit 2
  let aLen := if shallEncrypt then buf.hdrlen % 256 else buf.totlen % 256
  let mLen := if shallEncrypt then buf.buflen % 256 else 0
  let a := buf.packetbuf.shift buf.hdrptr
  (authenticate encrypt buf.attrs extendedSourceAddress a (a.shift aLen)
    aLen mLen config.micLength).map fun x =>
      (ctrStep encrypt buf.attrs extendedSourceAddress 0 x.toMem 16 0).read 0
        config.micLength

/-- The `while` loop of `ctr`; see `micLoop` for the number of tests. -/
def ctrLoop (attrs : LlsecAttr → UInt16) (extendedSourceAddress : ByteMem)
    (mLen : Nat) : Nat → Nat → UInt8 → ByteMem → Option ByteMem
  | 0, _, _, _ => none
  | tests + 1, pos, counter, m =>
      if pos < mLen then
        ctrLoop attrs extendedSourceAddress mLen tests ((pos + 16) % 256)
          (counter + 1)
          (ctrStep encrypt attrs extendedSourceAddress pos m mLen counter)
      else some m

/-- `ctr` -/
def ctr (buf : Frame) (extendedSourceAddress : ByteMem) : Option Frame :=
  (ctrLoop encrypt buf.attrs extendedSourceAddress (buf.buflen % 256) 17 0 1
    (buf.packetbuf.shift buf.dataptr)).map fun m =>
      { buf with
        packetbuf := fun address =>
          if address < buf.dataptr then buf.packetbuf address
          else m (address - buf.dataptr) }

end Cipher

end Contiki.Llsec
