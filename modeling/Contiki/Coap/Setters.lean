import Contiki.Coap.Message

/-!
# Filling a CoAP packet

The functions `coap_init_message`, `coap_set_token`, `coap_set_header_*` and
`coap_set_payload` of `er-coap.c`.  Each setter returns the packet and its
return value.  `SetterCall` names one call with its arguments, so that a
packet built by any sequence of calls is `build config type code mid calls`.
-/

namespace Contiki.Coap

open Contiki.Lib

/-- A zero-terminated C string together with the memory behind it. -/
structure CString where
  chars : List UInt8
  chars_ne_zero : ∀ char ∈ chars, char ≠ 0
  /-- The memory that follows the terminating zero. -/
  after : ByteMem

namespace CString

/-- The bytes from the first character on. -/
def toMem (string : CString) : ByteMem := fun index =>
  if index < string.chars.length then string.chars.getD index 0
  else if index = string.chars.length then 0
  else string.after (index - string.chars.length - 1)

/-- `while(string[0] == char) ++string;` -/
def skip (string : CString) (char : UInt8) : CString where
  chars := string.chars.dropWhile (· == char)
  chars_ne_zero := fun found member =>
    string.chars_ne_zero found
      ((List.dropWhile_suffix (· == char)).subset member)
  after := string.after

/-- `string + count` for a `count` within the string. -/
def advance (string : CString) (count : Nat) : CString where
  chars := string.chars.drop count
  chars_ne_zero := fun found member =>
    string.chars_ne_zero found (List.mem_of_mem_drop member)
  after := string.after

/-- `strchr(string, char)` as an index. -/
def strchr (string : CString) (char : UInt8) : Option Nat :=
  string.chars.findIdx? (· == char)

def strlen (string : CString) : Nat := string.chars.length

end CString

/-- The type of a packet under construction: its pointers are addresses of
application memory, given by the bytes found there. -/
abbrev SentPacket := CoapPacket ByteMem

/-- The null pointer of a packet under construction is never read. -/
def nullString : ByteMem := fun _ => 0

/-- `coap_init_message`. -/
def coapInitMessage (type : CoapMessageType) (code : UInt8)
    (mid : UInt16) : SentPacket :=
  { CoapPacket.zero nullString with
    type := type
    code := code
    mid := mid }

/-- `coap_set_token`; the length argument is the length of the list. -/
def coapSetToken (packet : SentPacket) (token : List UInt8) :
    SentPacket × Nat :=
  let kept := token.take (min coapTokenLen token.length)
  ({ packet with token := kept }, kept.length)

/-- `coap_set_header_content_format`. -/
def coapSetHeaderContentFormat (config : CoapConfig)
    (packet : SentPacket) (format : Nat) : SentPacket × Nat :=
  (setOption { packet with contentFormat := config.toUnsigned format }
    CoapOption.contentFormat.number, 1)

/-- `coap_set_header_accept`. -/
def coapSetHeaderAccept (config : CoapConfig)
    (packet : SentPacket) (accept : Nat) : SentPacket × Nat :=
  (setOption { packet with accept := config.toUnsigned accept }
    CoapOption.accept.number, 1)

/-- `coap_set_header_max_age`. -/
def coapSetHeaderMaxAge (packet : SentPacket) (age : UInt32) :
    SentPacket × Nat :=
  (setOption { packet with maxAge := age } CoapOption.maxAge.number, 1)

/-- `coap_set_header_etag`. -/
def coapSetHeaderEtag (packet : SentPacket) (etag : List UInt8) :
    SentPacket × Nat :=
  let kept := etag.take (min coapEtagLen etag.length)
  (setOption { packet with etag := kept } CoapOption.etag.number,
    kept.length)

/-- `coap_set_header_if_match`. -/
def coapSetHeaderIfMatch (packet : SentPacket) (etag : List UInt8) :
    SentPacket × Nat :=
  let kept := etag.take (min coapEtagLen etag.length)
  (setOption { packet with ifMatch := kept } CoapOption.ifMatch.number,
    kept.length)

/-- `coap_set_header_if_none_match`. -/
def coapSetHeaderIfNoneMatch (packet : SentPacket) : SentPacket × Nat :=
  (setOption packet CoapOption.ifNoneMatch.number, 1)

/-- `coap_set_header_proxy_uri`. -/
def coapSetHeaderProxyUri (packet : SentPacket) (uri : CString) :
    SentPacket × Nat :=
  (setOption
    { packet with proxyUri := uri.toMem, proxyUriLen := uri.strlen }
    CoapOption.proxyUri.number, uri.strlen)

/-- `coap_set_header_uri_host`. -/
def coapSetHeaderUriHost (packet : SentPacket) (host : CString) :
    SentPacket × Nat :=
  (setOption
    { packet with uriHost := host.toMem, uriHostLen := host.strlen }
    CoapOption.uriHost.number, host.strlen)

/-- The character `/`. -/
def slash : UInt8 := 47
/-- The character `?`. -/
def questionMark : UInt8 := 63
/-- The character `&`. -/
def ampersand : UInt8 := 38

/-- `coap_set_header_uri_path`. -/
def coapSetHeaderUriPath (packet : SentPacket) (path : CString) :
    SentPacket × Nat :=
  let path := path.skip slash
  (setOption
    { packet with uriPath := path.toMem, uriPathLen := path.strlen }
    CoapOption.uriPath.number, path.strlen)

/-- `coap_set_header_uri_query`. -/
def coapSetHeaderUriQuery (packet : SentPacket) (query : CString) :
    SentPacket × Nat :=
  let query := query.skip questionMark
  (setOption
    { packet with uriQuery := query.toMem, uriQueryLen := query.strlen }
    CoapOption.uriQuery.number, query.strlen)

/-- `coap_set_header_location_query`. -/
def coapSetHeaderLocationQuery (packet : SentPacket) (query : CString) :
    SentPacket × Nat :=
  let query := query.skip questionMark
  (setOption
    { packet with
      locationQuery := query.toMem
      locationQueryLen := query.strlen }
    CoapOption.locationQuery.number, query.strlen)

/-- `coap_set_header_location_path`, which splits off a query. -/
def coapSetHeaderLocationPath (packet : SentPacket) (path : CString) :
    SentPacket × Nat :=
  let path := path.skip slash
  let packet :=
    match path.strchr questionMark with
    | some query =>
        { (coapSetHeaderLocationQuery packet
            (path.advance (query + (1 : Nat)))).1 with
          locationPathLen := query }
    | none => { packet with locationPathLen := path.strlen }
  let packet := { packet with locationPath := path.toMem }
  (if packet.locationPathLen > 0 then
      setOption packet CoapOption.locationPath.number
    else packet,
    packet.locationPathLen)

/-- `coap_set_header_observe`. -/
def coapSetHeaderObserve (packet : SentPacket) (observe : UInt32) :
    SentPacket × Nat :=
  (setOption { packet with observe := observe }
    CoapOption.observe.number, 1)

/-- The argument check that both block setters make. -/
def blockRejected (num : UInt32) (size : UInt16) : Bool :=
  size < 16 || size > 2048 || num > 0x0FFFFF

/-- `coap_set_header_block2`. -/
def coapSetHeaderBlock2 (packet : SentPacket) (num : UInt32)
    (more : UInt8) (size : UInt16) : SentPacket × Nat :=
  if blockRejected num size then (packet, 0)
  else
    (setOption
      { packet with
        block2Num := num
        block2More := if more ≠ 0 then 1 else 0
        block2Size := size }
      CoapOption.block2.number, 1)

/-- `coap_set_header_block1`. -/
def coapSetHeaderBlock1 (packet : SentPacket) (num : UInt32)
    (more : UInt8) (size : UInt16) : SentPacket × Nat :=
  if blockRejected num size then (packet, 0)
  else
    (setOption
      { packet with
        block1Num := num
        block1More := more
        block1Size := size }
      CoapOption.block1.number, 1)

/-- `coap_set_header_size2`. -/
def coapSetHeaderSize2 (packet : SentPacket) (size : UInt32) :
    SentPacket × Nat :=
  (setOption { packet with size2 := size } CoapOption.size2.number, 1)

/-- `coap_set_header_size1`. -/
def coapSetHeaderSize1 (packet : SentPacket) (size : UInt32) :
    SentPacket × Nat :=
  (setOption { packet with size1 := size } CoapOption.size1.number, 1)

/-- `coap_set_payload`. -/
def coapSetPayload (config : CoapConfig) (packet : SentPacket)
    (payload : ByteMem) (length : Nat) : SentPacket × Nat :=
  let kept := min config.restMaxChunkSize length
  ({ packet with payload := payload, payloadLen := kept }, kept)

/-- One call of a setter. -/
inductive SetterCall where
  | token (token : List UInt8)
  | contentFormat (format : Nat)
  | accept (accept : Nat)
  | maxAge (age : UInt32)
  | etag (etag : List UInt8)
  | ifMatch (etag : List UInt8)
  | ifNoneMatch
  | proxyUri (uri : CString)
  | uriHost (host : CString)
  | uriPath (path : CString)
  | uriQuery (query : CString)
  | locationPath (path : CString)
  | locationQuery (query : CString)
  | observe (observe : UInt32)
  | block2 (num : UInt32) (more : UInt8) (size : UInt16)
  | block1 (num : UInt32) (more : UInt8) (size : UInt16)
  | size2 (size : UInt32)
  | size1 (size : UInt32)
  | payload (payload : ByteMem) (length : Nat)

def SetterCall.apply (config : CoapConfig) (packet : SentPacket) :
    SetterCall → SentPacket
  | .token bytes => (coapSetToken packet bytes).1
  | .contentFormat format =>
      (coapSetHeaderContentFormat config packet format).1
  | .accept format => (coapSetHeaderAccept config packet format).1
  | .maxAge age => (coapSetHeaderMaxAge packet age).1
  | .etag bytes => (coapSetHeaderEtag packet bytes).1
  | .ifMatch bytes => (coapSetHeaderIfMatch packet bytes).1
  | .ifNoneMatch => (coapSetHeaderIfNoneMatch packet).1
  | .proxyUri uri => (coapSetHeaderProxyUri packet uri).1
  | .uriHost host => (coapSetHeaderUriHost packet host).1
  | .uriPath path => (coapSetHeaderUriPath packet path).1
  | .uriQuery query => (coapSetHeaderUriQuery packet query).1
  | .locationPath path => (coapSetHeaderLocationPath packet path).1
  | .locationQuery query => (coapSetHeaderLocationQuery packet query).1
  | .observe value => (coapSetHeaderObserve packet value).1
  | .block2 num more size => (coapSetHeaderBlock2 packet num more size).1
  | .block1 num more size => (coapSetHeaderBlock1 packet num more size).1
  | .size2 size => (coapSetHeaderSize2 packet size).1
  | .size1 size => (coapSetHeaderSize1 packet size).1
  | .payload bytes length =>
      (coapSetPayload config packet bytes length).1

/-- The packet that `coap_init_message` and a sequence of setter calls
build. -/
def build (config : CoapConfig) (type : CoapMessageType) (code : UInt8)
    (mid : UInt16) (calls : List SetterCall) : SentPacket :=
  calls.foldl (fun packet call => call.apply config packet)
    (coapInitMessage type code mid)

end Contiki.Coap
