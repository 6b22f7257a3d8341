import Contiki.Lib.ByteMem

/-!
# The packet buffer

`core/net/packetbuf.c`.  The header of an outgoing packet ends where the data
area begins, and the header of an incoming packet is cut off the data.
-/

namespace Contiki.Net

open Contiki.Lib

/-- `PACKETBUF_SIZE` -/
def packetbufSize : Nat := 128

/-- `PACKETBUF_HDR_SIZE` -/
def packetbufHdrSize : Nat := 48

/-- The packet buffer with its attributes and its addresses, which are
indexed by `Attr` and `Addr`. -/
structure Packetbuf (Attr Addr : Type) where
  packetbuf : ByteMem
  hdrptr : Nat
  bufptr : Nat
  buflen : Nat
  attrs : Attr → UInt16
  /-- The bytes of the addresses. -/
  addrs : Addr → ByteMem

namespace Packetbuf

variable {Attr Addr : Type}

/-- `packetbuf_dataptr`, as an index of `packetbuf`. -/
def dataptr (buf : Packetbuf Attr Addr) : Nat :=
  buf.bufptr + packetbufHdrSize

/-- `packetbuf_hdrlen` -/
def hdrlen (buf : Packetbuf Attr Addr) : Nat :=
  let hdrlen := packetbufHdrSize - buf.hdrptr
  if hdrlen ≠ 0 then hdrlen else buf.bufptr % 256

/-- `packetbuf_totlen` -/
def totlen (buf : Packetbuf Attr Addr) : Nat :=
  (buf.hdrlen + buf.buflen) % 65536

/-- `packetbuf_hdralloc` -/
def hdralloc (buf : Packetbuf Attr Addr) (size : Nat) :
    Option (Packetbuf Attr Addr) :=
  if size ≤ buf.hdrptr ∧ buf.totlen + size ≤ packetbufSize then
    some { buf with hdrptr := buf.hdrptr - size }
  else none

/-- `packetbuf_hdrreduce` -/
def hdrreduce (buf : Packetbuf Attr Addr) (size : Nat) :
    Option (Packetbuf Attr Addr) :=
  if buf.buflen < size then none
  else
    some
      { buf with bufptr := buf.bufptr + size, buflen := buf.buflen - size }

/-- The bytes between `packetbuf_dataptr` and the end of the data. -/
def data (buf : Packetbuf Attr Addr) : List UInt8 :=
  buf.packetbuf.read buf.dataptr buf.buflen

/-- The bytes that `packetbuf_copyto` copies: the header and the data. -/
def contents (buf : Packetbuf Attr Addr) : List UInt8 :=
  buf.packetbuf.read buf.hdrptr (packetbufHdrSize - buf.hdrptr) ++ buf.data

end Packetbuf

end Contiki.Net
