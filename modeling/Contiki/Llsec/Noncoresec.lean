import Contiki.Llsec.CcmStar
import Contiki.Net.NbrTable

/-!
# Link-layer security without a core

`core/net/llsec/noncoresec/noncoresec.c` with `anti-replay.c`: frames are
secured with a network-wide key, and the counters of the senders are kept in
a neighbour table whose items are locked.
-/

namespace Contiki.Llsec

open Contiki.Lib
open Contiki.Net

/-- `struct anti_replay_info` -/
structure AntiReplayInfo where
  lastBroadcastCounter : Nat
  lastUnicastCounter : Nat
  deriving DecidableEq

namespace AntiReplayInfo

/-- `anti_replay_init_info` for the received counter. -/
def init (receivedCounter : Nat) : AntiReplayInfo where
  lastBroadcastCounter := receivedCounter
  lastUnicastCounter := receivedCounter

/-- `anti_replay_was_replayed` -/
def wasReplayed (info : AntiReplayInfo) (broadcast : Bool)
    (receivedCounter : Nat) : Bool × AntiReplayInfo :=
  if broadcast then
    if receivedCounter ≤ info.lastBroadcastCounter then (true, info)
    else (false, { info with lastBroadcastCounter := receivedCounter })
  else
    if receivedCounter ≤ info.lastUnicastCounter then (true, info)
    else (false, { info with lastUnicastCounter := receivedCounter })

end AntiReplayInfo

/-- `anti_replay_get_counter` -/
def antiReplayGetCounter (buf : Frame) : Nat :=
  (buf.attrs .frameCounterBytes01).toNat +
    65536 * (buf.attrs .frameCounterBytes23).toNat

/-- `packetbuf_addr`, as a link-layer address. -/
def linkaddr (config : LlsecConfig) (buf : Frame) (type : LlsecAddr) :
    List UInt8 :=
  (buf.addrs type).read 0 config.linkaddrSize

/-- `packetbuf_holds_broadcast` -/
def holdsBroadcast (config : LlsecConfig) (buf : Frame) : Bool :=
  linkaddr config buf .receiver = List.replicate config.linkaddrSize 0

/-- `get_extended_address`; the template is that of a little-endian
machine. -/
def getExtendedAddress (config : LlsecConfig) (addr : List UInt8) :
    ByteMem :=
  if config.linkaddrSize = 2 then
    ByteMem.ofList ([0x00, 0x00, 0x00, 0xFF, 0xFE, 0x00] ++ addr)
  else ByteMem.ofList addr

/-- What the items of the neighbour tables hold: the table of anti-replay
information, and the tables of the other modules. -/
structure TableData (maxNeighbors : Nat) (Others : Type) where
  antiReplayTable : Fin maxNeighbors → AntiReplayInfo
  others : Others

variable {maxNeighbors : Nat} {Table Others : Type}

abbrev NodeTables (maxNeighbors : Nat) (Table Others : Type) :=
  NbrTables maxNeighbors Table (List UInt8) (TableData maxNeighbors Others)

namespace NodeTables

def info (tables : NodeTables maxNeighbors Table Others)
    (item : Fin maxNeighbors) : AntiReplayInfo :=
  tables.client.antiReplayTable item

/-- The anti-replay information in an item is set. -/
def setInfo (tables : NodeTables maxNeighbors Table Others)
    (item : Fin maxNeighbors) (info : AntiReplayInfo) :
    NodeTables maxNeighbors Table Others :=
  { tables with
    client := { tables.client with
      antiReplayTable := fun other =>
        if other = item then info
        else tables.client.antiReplayTable other } }

end NodeTables

section Noncoresec

variable (config : LlsecConfig) (encrypt : Block → Block)

/-- `on_frame_created`, which returns 1. -/
def onFrameCreated (nodeAddr : List UInt8) (buf : Frame) : Option Frame :=
  let dataLen := buf.buflen % 256
  (mic encrypt config buf (getExtendedAddress config nodeAddr)).bind
    fun result =>
      let buf : Frame := { buf with
        packetbuf := buf.packetbuf.write (buf.dataptr + dataLen) result }
      let encrypted :=
        if config.usesEncryption then
          ctr encrypt buf (getExtendedAddress config nodeAddr)
        else some buf
      encrypted.map fun buf =>
        { buf with buflen := dataLen + config.micLength }

/-- The tests of `input` before it looks at the data. -/
def isForUs (nodeAddr : List UInt8) (buf : Frame) : Bool :=
  buf.attrs .securityLevel = config.securityLevel ∧
    linkaddr config buf .sender ≠ nodeAddr

/-- `packetbuf_set_datalen(packetbuf_datalen() - LLSEC802154_MIC_LENGTH)` -/
def cutMic (buf : Frame) : Frame :=
  { buf with
    buflen := (buf.buflen + (65536 - config.micLength)) % 65536 }

/-- The middle of `input`: the frame without its code, decrypted, and whether
the code is the right one. -/
def unsecure (buf : Frame) : Option (Frame × Bool) :=
  let sender := getExtendedAddress config (linkaddr config buf .sender)
  let cut := cutMic config buf
  let decrypted :=
    if config.usesEncryption then ctr encrypt cut sender else some cut
  decrypted.bind fun buf =>
    (mic encrypt config buf sender).map fun generatedMic =>
      (buf, generatedMic =
        buf.packetbuf.read (buf.dataptr + buf.buflen) config.micLength)

variable (modules : Tables maxNeighbors Table (List UInt8)
  (TableData maxNeighbors Others)) (antiReplayTable : Table)

/-- The end of `input`: whether the frame is passed to the upper layer. -/
def antiReplay (buf : Frame) (tables : NodeTables maxNeighbors Table Others) :
    NodeTables maxNeighbors Table Others × Bool :=
  let sender := linkaddr config buf .sender
  let counter := antiReplayGetCounter buf
  match tables.nbrTableGetFromLladdr modules antiReplayTable
      (some sender) with
  | none =>
      match tables.nbrTableAddLladdr modules antiReplayTable
          (some sender) with
      | (none, tables) => (tables, false)
      | (some item, tables) =>
          let (locked, tables) :=
            tables.nbrTableLock antiReplayTable (some item)
          if locked then
            (NodeTables.setInfo tables item (.init counter), true)
          else
            ((tables.nbrTableRemove antiReplayTable (some item)).2, false)
  | some item =>
      let (replayed, info) := (NodeTables.info tables item).wasReplayed
        (holdsBroadcast config buf) counter
      if replayed then (tables, false)
      else (NodeTables.setInfo tables item info, true)

/-- `input`: the tables, the packet buffer, and whether it is passed to the
upper layer. -/
def input (nodeAddr : List UInt8)
    (tables : NodeTables maxNeighbors Table Others) (buf : Frame) :
    Option (NodeTables maxNeighbors Table Others × Frame × Bool) :=
  if isForUs config nodeAddr buf then
    (unsecure config encrypt buf).map fun (buf, authentic) =>
      if authentic then
        let (tables, passed) :=
          antiReplay config modules antiReplayTable buf tables
        (tables, buf, passed)
      else (tables, buf, false)
  else some (tables, buf, false)

end Noncoresec

end Contiki.Llsec
