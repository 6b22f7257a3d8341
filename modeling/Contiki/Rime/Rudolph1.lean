import Mathlib.Algebra.Group.Nat.Defs

/-!
# Dissemination of files

`core/net/rime/rudolph1.c` sends a file in chunks to every node of a network.
The sender disseminates the chunks with trickle; a node that misses a chunk
asks its neighbours for it, and any of them may send it.
-/

namespace Contiki.Rime.Rudolph1

/-- `RUDOLPH1_DATASIZE` -/
def datasize : Nat := 64

/-- `LT`: the difference is negative as a `signed char`. -/
def lt (a b : UInt8) : Bool :=
  (a - b).toInt8 < 0

/-- The offset of a chunk, an `int` of `intBits` bits. -/
def offset (intBits : Nat) (chunk : UInt16) : Int :=
  Int.bmod (chunk.toNat * datasize : Nat) (2 ^ intBits)

/-- `struct rudolph1_conn` -/
structure Conn where
  /-- Whether the timer `t` is set. -/
  timer : Bool
  chunk : UInt16
  highestChunkHeard : UInt16
  version : UInt8
  nacks : UInt8
  deriving DecidableEq

inductive Flag where
  | none
  | newfile
  | lastchunk
  deriving DecidableEq

/-- A call of `write_chunk`. -/
structure WriteChunk where
  offset : Int
  flag : Flag
  data : List UInt8
  deriving DecidableEq

/-- `struct rudolph1_datapacket`, with the bytes that `datalen` counts, and
the header of a negative acknowledgement. -/
inductive Packet where
  | data (version : UInt8) (chunk : UInt16) (data : List UInt8)
  | nack (version : UInt8) (chunk : UInt16)
  deriving DecidableEq

/-! ## The file of a node

`write_chunk` and `read_chunk` belong to the application, which keeps the
chunks in a file. -/

/-- `read_chunk`: nothing is read before the start of the file. -/
def readChunk (file : List UInt8) (offset : Int) : List UInt8 :=
  if offset < 0 then [] else (file.drop offset.toNat).take datasize

/-- `write_chunk`: a new file is empty, and a gap is filled with zeros. -/
def writeChunk (file : List UInt8) (write : WriteChunk) : List UInt8 :=
  let file := if write.flag = .newfile then [] else file
  if 0 < write.data.length ∧ 0 ≤ write.offset then
    let start := write.offset.toNat
    file.take start ++ List.replicate (start - file.length) 0 ++
      write.data ++ file.drop (start + write.data.length)
  else file

/-! ## Packets -/

/-- `read_data` -/
def readData (intBits : Nat) (file : List UInt8) (chunk : UInt16) :
    List UInt8 :=
  readChunk file (offset intBits chunk)

/-- `format_data` -/
def formatData (intBits : Nat) (conn : Conn) (file : List UInt8)
    (chunk : UInt16) : Packet :=
  .data conn.version chunk (readData intBits file chunk)

/-- `write_data` -/
def writeData (intBits : Nat) (chunk : UInt16) (data : List UInt8) :
    List WriteChunk :=
  (if chunk = 0 then
    [{ offset := 0, flag := .newfile, data := [] }]
  else []) ++
  if data.length < datasize then
    [{ offset := offset intBits chunk, flag := .lastchunk, data }]
  else [{ offset := offset intBits chunk, flag := .none, data }]

/-- `send_nack` -/
def sendNack (conn : Conn) : Packet :=
  .nack conn.version conn.chunk

/-- What a node does with a packet. -/
structure Handled where
  conn : Conn
  writes : List WriteChunk
  sent : List Packet
  deriving DecidableEq

/-- `handle_data` for a chunk of the current version, up to its second
look at `highest_chunk_heard`. -/
def handleChunk (intBits : Nat) (conn : Conn) (chunk : UInt16)
    (data : List UInt8) : Handled :=
  if chunk = conn.chunk then
    { conn :=
        { conn with
          highestChunkHeard :=
            if conn.highestChunkHeard < conn.chunk then conn.chunk
            else conn.highestChunkHeard
          chunk := conn.chunk + 1 }
      writes := writeData intBits chunk data
      sent := [] }
  else if conn.chunk < chunk then
    { conn := { conn with highestChunkHeard := chunk }
      writes := []
      sent := [sendNack conn] }
  else { conn, writes := [], sent := [] }

/-- `handle_data` -/
def handleData (intBits : Nat) (conn : Conn) (version : UInt8)
    (chunk : UInt16) (data : List UInt8) : Handled :=
  if lt conn.version version then
    let conn := { conn with version, highestChunkHeard := 0, chunk := 0 }
    if chunk ≠ 0 then
      { conn, writes := [], sent := [sendNack conn] }
    else
      { conn := { conn with chunk := 1 }
        writes := writeData intBits 0 data
        sent := [] }
  else if version = conn.version then
    let handled := handleChunk intBits conn chunk data
    -- a higher chunk number has been heard
    if chunk < handled.conn.highestChunkHeard then
      { handled with sent := handled.sent ++ [sendNack handled.conn] }
    else handled
  else { conn, writes := [], sent := [] }

/-- `recv_trickle` -/
def recvTrickle (intBits : Nat) (conn : Conn) : Packet → Handled
  | .data version chunk data => handleData intBits conn version chunk data
  | .nack _ _ => { conn, writes := [], sent := [] }

/-- `recv_ipolite` -/
def recvIpolite (intBits : Nat) (conn : Conn) (file : List UInt8)
    (packet : Packet) : Handled :=
  let conn := { conn with nacks := conn.nacks + 1 }
  match packet with
  | .nack version chunk =>
      if version = conn.version then
        if chunk < conn.chunk then
          { conn, writes := []
            sent := [formatData intBits conn file chunk] }
        else { conn, writes := [], sent := [] }
      else if lt version conn.version then
        { conn, writes := [], sent := [formatData intBits conn file 0] }
      else { conn, writes := [], sent := [] }
  | .data version chunk data => handleData intBits conn version chunk data

/-- `send_next_packet` -/
def sendNextPacket (intBits : Nat) (conn : Conn) (file : List UInt8) :
    Conn × List Packet :=
  if conn.nacks = 0 then
    ({ conn with
       timer := (readData intBits file conn.chunk).length = datasize
       highestChunkHeard := conn.chunk
       chunk := conn.chunk + 1
       nacks := 0 },
      [formatData intBits conn file conn.chunk])
  else ({ conn with timer := true, nacks := 0 }, [])

/-- `rudolph1_open`, for a connection of static storage. -/
def rudolph1Open : Conn where
  timer := false
  chunk := 0
  highestChunkHeard := 0
  version := 0
  nacks := 0

/-- `rudolph1_send` -/
def rudolph1Send (intBits : Nat) (conn : Conn) (file : List UInt8) :
    Conn × List Packet :=
  let conn :=
    { conn with version := conn.version + 1, chunk := 0,
                highestChunkHeard := 0 }
  ({ conn with timer := true, chunk := conn.chunk + 1 },
    [formatData intBits conn file 0])

end Contiki.Rime.Rudolph1
