import Contiki.Llsec.Noncoresec
import Contiki.Net.NbrTableRuns

/-!
# The round trip of a secured frame

A frame that is secured by one node is authentic at another one with the same
key, and its data is decrypted to what it was.
-/

namespace Contiki.Llsec

open Contiki.Lib
open Contiki.Net

section Cipher

variable (encrypt : Block → Block)

/-! ## The integrity code -/

theorem addBytes_congr {x : Block} {message other : ByteMem}
    {pos len start : Nat}
    (same : ∀ index < len, message index = other index) :
    addBytes x message pos len start = addBytes x other pos len start := by
  unfold addBytes
  congr 1
  funext i
  split
  case isTrue inside => rw [same _ inside.2]
  case isFalse => rfl

theorem micLoop_congr {message other : ByteMem} {len : Nat}
    (same : ∀ index < len, message index = other index)
    (tests pos : Nat) (x : Block) :
    micLoop encrypt message len tests pos x =
      micLoop encrypt other len tests pos x := by
  induction tests generalizing pos x with
  | zero => rfl
  | succ tests inductionHypothesis =>
      rw [micLoop, micLoop, addBytes_congr same]
      split
      case isTrue => exact inductionHypothesis _ _
      case isFalse => rfl

variable (config : LlsecConfig) (attrs : LlsecAttr → UInt16)

/-- The code depends on the bytes of the header and the message only. -/
theorem authenticate_congr
    (extendedSourceAddress : ByteMem) {a m a' m' : ByteMem}
    {aLen mLen : Nat} (micLen : Nat)
    (sameHeader : ∀ index < aLen, a index = a' index)
    (sameMessage : ∀ index < mLen, m index = m' index) :
    authenticate encrypt attrs extendedSourceAddress a m aLen mLen micLen =
      authenticate encrypt attrs extendedSourceAddress a' m' aLen mLen
        micLen := by
  have loop : micLoop encrypt m mLen 17 0 = micLoop encrypt m' mLen 17 0 :=
    funext fun x => micLoop_congr encrypt sameMessage 17 0 x
  unfold authenticate
  dsimp only
  rw [loop, addBytes_congr sameHeader]
  split
  case isTrue => rw [micLoop_congr encrypt sameHeader]
  case isFalse => rfl

theorem micLoop_isSome (message : ByteMem) {len : Nat} (short : len ≤ 240)
    {tests pos : Nat} (enough : len ≤ pos + 16 * (tests - 1))
    (some : 0 < tests) (x : Block) :
    (micLoop encrypt message len tests pos x).isSome := by
  induction tests generalizing pos x with
  | zero => cases some
  | succ tests inductionHypothesis =>
      rw [micLoop]
      split
      case isTrue below =>
        have next : (pos + 16) % 256 = pos + 16 := by omega
        rw [next]
        exact inductionHypothesis (by omega) (by omega) _
      case isFalse => rfl

theorem authenticate_isSome
    (extendedSourceAddress a m : ByteMem) {aLen mLen : Nat} (micLen : Nat)
    (shortHeader : aLen ≤ 240) (shortMessage : mLen ≤ 240) :
    (authenticate encrypt attrs extendedSourceAddress a m aLen mLen
      micLen).isSome := by
  have loop : ∀ x, (micLoop encrypt m mLen 17 0 x).isSome :=
    micLoop_isSome encrypt m shortMessage (by omega) (by decide)
  unfold authenticate
  dsimp only
  split
  case isTrue =>
    have header := micLoop_isSome encrypt a shortHeader
      (show aLen ≤ 14 + 16 * (17 - 1) by omega) (by decide)
      (encrypt (addBytes (addLength (encrypt (setNonce attrs
        (ccmStarAuthFlags aLen micLen) extendedSourceAddress
        (UInt8.ofNat mLen))) aLen) a 0 aLen 2))
    rcases Option.isSome_iff_exists.mp header with ⟨x, isHeader⟩
    rw [isHeader]
    exact loop x
  case isFalse => exact loop _

/-- The packet buffer holds a header and a payload behind it, in one piece. -/
structure Lays (buf : Frame) (header payload : List UInt8) : Prop where
  hdrlen : buf.hdrlen = header.length
  buflen : buf.buflen = payload.length
  dataptr : buf.dataptr = buf.hdrptr + header.length
  holds : buf.packetbuf.Holds buf.hdrptr (header ++ payload)

theorem mic_eq_of_lays {buf other : Frame}
    {header payload : List UInt8} (extendedSourceAddress : ByteMem)
    (lays : Lays buf header payload) (laysOther : Lays other header payload)
    (attrs : other.attrs = buf.attrs)
    (short : header.length + payload.length < 256) :
    mic encrypt config buf extendedSourceAddress =
      mic encrypt config other extendedSourceAddress := by
  have same : ∀ index < header.length + payload.length,
      buf.packetbuf (buf.hdrptr + index) =
        other.packetbuf (other.hdrptr + index) := by
    intro index inside
    have within : index < (header ++ payload).length := by
      rwa [List.length_append]
    rw [lays.holds.apply index within, laysOther.holds.apply index within]
  have hdrlen : other.hdrlen = buf.hdrlen :=
    laysOther.hdrlen.trans lays.hdrlen.symm
  have buflen : other.buflen = buf.buflen :=
    laysOther.buflen.trans lays.buflen.symm
  have totlen : other.totlen = buf.totlen := by
    rw [Packetbuf.totlen, hdrlen, buflen, Packetbuf.totlen]
  unfold mic
  rw [attrs, hdrlen, buflen, totlen]
  dsimp only
  refine congrArg (Option.map _) (authenticate_congr encrypt _ _ _ ?_ ?_)
  · intro index inside
    refine same index ?_
    split at inside
    case isTrue =>
      rw [lays.hdrlen] at inside
      omega
    case isFalse =>
      rw [Packetbuf.totlen, lays.hdrlen, lays.buflen] at inside
      omega
  · intro index inside
    split at inside
    case isTrue encrypted =>
      rw [if_pos encrypted]
      rw [lays.buflen] at inside
      have place := same (buf.hdrlen % 256 + index) (by
        rw [lays.hdrlen]
        omega)
      simpa [Nat.add_assoc] using place
    case isFalse => exact absurd inside (Nat.not_lt_zero _)

theorem mic_isSome {buf : Frame}
    {header payload : List UInt8} (extendedSourceAddress : ByteMem)
    (lays : Lays buf header payload)
    (short : header.length + payload.length ≤ 240) :
    ∃ code, mic encrypt config buf extendedSourceAddress = some code ∧
      code.length = config.micLength := by
  have hdrlen : buf.hdrlen % 256 ≤ 240 := by
    rw [lays.hdrlen]
    omega
  have totlen : buf.totlen % 256 ≤ 240 := by
    rw [Packetbuf.totlen, lays.hdrlen, lays.buflen]
    omega
  have buflen : buf.buflen % 256 ≤ 240 := by
    rw [lays.buflen]
    omega
  unfold mic
  dsimp only
  rcases Option.isSome_iff_exists.mp
    (@authenticate_isSome encrypt buf.attrs extendedSourceAddress
      (buf.packetbuf.shift buf.hdrptr)
      ((buf.packetbuf.shift buf.hdrptr).shift
        (if config.usesEncryption &&
            (buf.attrs .securityLevel).toNat.testBit 2 then
          buf.hdrlen % 256 else buf.totlen % 256))
      (if config.usesEncryption &&
          (buf.attrs .securityLevel).toNat.testBit 2 then
        buf.hdrlen % 256 else buf.totlen % 256)
      (if config.usesEncryption &&
          (buf.attrs .securityLevel).toNat.testBit 2 then
        buf.buflen % 256 else 0)
      config.micLength
      (by split <;> assumption) (by split <;> omega)) with ⟨x, isBlock⟩
  rw [isBlock]
  exact ⟨_, rfl, by simp⟩

/-! ## The key stream -/

/-- The byte of the key stream for a byte of the message. -/
def keyStream (attrs : LlsecAttr → UInt16) (extendedSourceAddress : ByteMem)
    (index : Nat) : UInt8 :=
  (encrypt (setNonce attrs ccmStarEncryptionFlags extendedSourceAddress
    (UInt8.ofNat (1 + index / 16)))).toMem (index % 16)

/-- `ctr` adds the key stream to the bytes of the message. -/
theorem ctrLoop_spec
    (extendedSourceAddress : ByteMem) {mLen : Nat} (short : mLen ≤ 240)
    {tests block : Nat} (enough : mLen ≤ 16 * (block + (tests - 1)))
    (some_ : 0 < tests) (m : ByteMem) :
    ctrLoop encrypt attrs extendedSourceAddress mLen tests (16 * block)
        (UInt8.ofNat (1 + block)) m =
      some fun address =>
        if 16 * block ≤ address ∧ address < mLen then
          m address ^^^
            keyStream encrypt attrs extendedSourceAddress address
        else m address := by
  induction tests generalizing block m with
  | zero => cases some_
  | succ tests inductionHypothesis =>
      rw [ctrLoop]
      by_cases more : 16 * block < mLen
      case neg =>
        rw [if_neg more]
        congr 1
        funext address
        rw [if_neg (by omega)]
      case pos =>
        have nextPos : (16 * block + 16) % 256 = 16 * (block + 1) := by omega
        have nextCounter : UInt8.ofNat (1 + block) + 1 =
            UInt8.ofNat (1 + (block + 1)) := by
          exact (UInt8.ofNat_add (1 + block) 1).symm
        rw [if_pos more, nextPos, nextCounter,
          inductionHypothesis (by omega) (by omega)]
        congr 1
        funext address
        unfold ctrStep
        by_cases here : 16 * block ≤ address ∧
            address < 16 * block + 16 ∧ address < mLen
        case pos =>
          have quotient : address / 16 = block := by omega
          have remainder : address % 16 = address - 16 * block := by omega
          rw [if_pos here, if_neg (by omega), if_pos (by omega), keyStream,
            quotient, remainder]
        case neg =>
          rw [if_neg here]
          by_cases later : 16 * (block + 1) ≤ address ∧ address < mLen
          case pos => rw [if_pos later, if_pos (by omega)]
          case neg => rw [if_neg later, if_neg (by omega)]

/-- `ctr` changes the data of the packet buffer only. -/
theorem ctr_eq {buf : Frame} (extendedSourceAddress : ByteMem)
    (short : buf.buflen ≤ 240) :
    ctr encrypt buf extendedSourceAddress =
      some { buf with
        packetbuf := fun address =>
          if buf.dataptr ≤ address ∧
              address < buf.dataptr + buf.buflen then
            buf.packetbuf address ^^^ keyStream encrypt buf.attrs
              extendedSourceAddress (address - buf.dataptr)
          else buf.packetbuf address } := by
  have length : buf.buflen % 256 = buf.buflen :=
    Nat.mod_eq_of_lt (by omega)
  have loop := @ctrLoop_spec encrypt buf.attrs extendedSourceAddress
    buf.buflen short 17 0 (by omega) (by decide)
    (buf.packetbuf.shift buf.dataptr)
  have first : UInt8.ofNat (1 + 0) = 1 := rfl
  rw [Nat.mul_zero, first] at loop
  unfold ctr
  rw [length, loop, Option.map_some]
  congr 2
  funext address
  by_cases below : address < buf.dataptr
  case pos => rw [if_pos below, if_neg (by omega)]
  case neg =>
    have place : buf.dataptr + (address - buf.dataptr) = address := by omega
    dsimp only
    rw [if_neg below, ByteMem.shift_apply, place]
    by_cases inside : address < buf.dataptr + buf.buflen
    case pos => rw [if_pos (by omega), if_pos (by omega)]
    case neg => rw [if_neg (by omega), if_neg (by omega)]

/-! ## Securing and unsecuring -/

theorem LlsecConfig.micLength_le : config.micLength ≤ 16 := by
  have level : config.securityLevel.toNat % 4 < 4 := Nat.mod_lt _ (by decide)
  have sizes : ∀ level < 4, (if level = 0 then 0 else 2 <<< level) ≤ 16 := by
    decide
  exact sizes _ level

variable (config : LlsecConfig)

/-- What is added to the bytes of the data: the key stream when frames are
encrypted. -/
def mask (attrs : LlsecAttr → UInt16) (extendedSourceAddress : ByteMem)
    (index : Nat) : UInt8 :=
  if config.usesEncryption then
    keyStream encrypt attrs extendedSourceAddress index
  else 0

theorem crypt_eq {buf : Frame} (extendedSourceAddress : ByteMem)
    (short : buf.buflen ≤ 240) :
    (if config.usesEncryption then ctr encrypt buf extendedSourceAddress
      else some buf) =
      some { buf with
        packetbuf := fun address =>
          if buf.dataptr ≤ address ∧
              address < buf.dataptr + buf.buflen then
            buf.packetbuf address ^^^ mask encrypt config buf.attrs
              extendedSourceAddress (address - buf.dataptr)
          else buf.packetbuf address } := by
  unfold mask
  split
  case isTrue => exact ctr_eq encrypt extendedSourceAddress short
  case isFalse =>
    have same : (fun address =>
        if buf.dataptr ≤ address ∧
            address < buf.dataptr + buf.buflen then
          buf.packetbuf address ^^^ 0
        else buf.packetbuf address) = buf.packetbuf := by
      funext address
      rw [UInt8.xor_zero, ite_self]
    rw [same]

/-- A frame for `on_frame_created`: it is compact, its security level is the
configured one, and the code fits the packet buffer with it. -/
structure Outgoing (sent : Frame) : Prop where
  compact : sent.bufptr = 0
  hdrptr : sent.hdrptr ≤ packetbufHdrSize
  level : sent.attrs .securityLevel = config.securityLevel
  room : packetbufHdrSize - sent.hdrptr + sent.buflen + config.micLength ≤
    packetbufSize

def header (sent : Frame) : List UInt8 :=
  sent.packetbuf.read sent.hdrptr (packetbufHdrSize - sent.hdrptr)

variable {config}

variable {sent : Frame}

theorem Outgoing.length_header (outgoing : Outgoing config sent) :
    sent.hdrptr + (header sent).length = packetbufHdrSize := by
  have inside := outgoing.hdrptr
  rw [header, ByteMem.length_read]
  omega

theorem Outgoing.dataptr (outgoing : Outgoing config sent) :
    sent.dataptr = packetbufHdrSize := by
  rw [Packetbuf.dataptr, outgoing.compact, Nat.zero_add]

theorem Outgoing.lays (outgoing : Outgoing config sent) :
    Lays sent (header sent) sent.data where
  hdrlen := by
    rw [header, ByteMem.length_read, Packetbuf.hdrlen, outgoing.compact]
    split
    case isTrue => rfl
    case isFalse empty => omega
  buflen := (ByteMem.length_read _ _ _).symm
  dataptr := outgoing.dataptr.trans outgoing.length_header.symm
  holds := by
    rw [ByteMem.holds_append, outgoing.length_header, ← outgoing.dataptr]
    exact ⟨by simp [ByteMem.Holds, header],
      by simp [ByteMem.Holds, Packetbuf.data]⟩

theorem Outgoing.short (outgoing : Outgoing config sent) :
    (header sent).length + sent.data.length + config.micLength ≤
      packetbufSize := by
  have room := outgoing.room
  rwa [header, Packetbuf.data, ByteMem.length_read, ByteMem.length_read]

/-- The secured frame: its data is masked, and the code follows it. -/
def secured (senderAddr code : List UInt8) (sent : Frame) : Frame :=
  { sent with
    packetbuf := fun address =>
      if packetbufHdrSize ≤ address ∧
          address < packetbufHdrSize + sent.buflen then
        sent.packetbuf address ^^^ mask encrypt config sent.attrs
          (getExtendedAddress config senderAddr)
          (address - packetbufHdrSize)
      else sent.packetbuf.write (packetbufHdrSize + sent.buflen) code address
    buflen := sent.buflen + config.micLength }

theorem onFrameCreated_eq (outgoing : Outgoing config sent)
    (senderAddr : List UInt8) :
    ∃ code, mic encrypt config sent (getExtendedAddress config senderAddr) =
        some code ∧
      code.length = config.micLength ∧
      onFrameCreated config encrypt senderAddr sent =
        some (@secured encrypt config senderAddr code sent) := by
  have short := outgoing.short
  have size : packetbufSize = 128 := rfl
  have buflen := outgoing.lays.buflen
  rcases mic_isSome encrypt config (getExtendedAddress config senderAddr)
    outgoing.lays (by omega) with ⟨code, isCode, length⟩
  refine ⟨code, isCode, length, ?_⟩
  have dataLen : sent.buflen % 256 = sent.buflen :=
    Nat.mod_eq_of_lt (by omega)
  unfold onFrameCreated
  dsimp only
  rw [isCode, Option.bind_some, dataLen, outgoing.dataptr]
  rw [crypt_eq encrypt config (getExtendedAddress config senderAddr)
    (show Packetbuf.buflen _ ≤ 240 by dsimp only; omega), Option.map_some]
  unfold secured
  have data : Packetbuf.dataptr { sent with
      packetbuf := sent.packetbuf.write (packetbufHdrSize + sent.buflen)
        code } = packetbufHdrSize := outgoing.dataptr
  rw [data]
  congr 2
  funext address
  dsimp only
  split
  case isTrue inside => rw [ByteMem.write_of_lt inside.2]
  case isFalse => rfl

variable (config)

/-- A node receives a frame: it gets the bytes that were sent, the header has
been cut off, and the attributes and the sender have been read from it. -/
structure Carries (senderAddr : List UInt8) (created received : Frame) :
    Prop where
  holds : received.packetbuf.Holds packetbufHdrSize created.contents
  hdrptr : received.hdrptr = packetbufHdrSize
  bufptr : received.bufptr = packetbufHdrSize - created.hdrptr
  buflen : received.buflen = created.buflen
  attrs : received.attrs = created.attrs
  sender : linkaddr config received .sender = senderAddr

variable {config}

theorem Carries.apply {sent received : Frame} {senderAddr code : List UInt8}
    (outgoing : Outgoing config sent)
    (carries : Carries config senderAddr
      (@secured encrypt config senderAddr code sent) received)
    {index : Nat}
    (inside : index <
      (header sent).length + sent.buflen + config.micLength) :
    received.packetbuf (packetbufHdrSize + index) =
      (@secured encrypt config senderAddr code sent).packetbuf
        (sent.hdrptr + index) := by
  have lengthHeader := outgoing.length_header
  have contents : (@secured encrypt config senderAddr code sent).contents =
      (@secured encrypt config senderAddr code sent).packetbuf.read
        sent.hdrptr
        ((header sent).length + (sent.buflen + config.micLength)) := by
    have dataptr :
        (@secured encrypt config senderAddr code sent).dataptr =
          sent.hdrptr + (header sent).length :=
      outgoing.lays.dataptr
    have headerLength : packetbufHdrSize - sent.hdrptr =
        (header sent).length := by
      rw [header, ByteMem.length_read]
    rw [Packetbuf.contents, Packetbuf.data, dataptr, ByteMem.read_add]
    change ByteMem.read _ sent.hdrptr (packetbufHdrSize - sent.hdrptr) ++
      _ = _
    rw [headerLength]
    rfl
  have holds := carries.holds
  rw [contents] at holds
  rw [holds.apply index (by rw [ByteMem.length_read]; omega),
    ByteMem.getElem_read]

/-- The frame that `input` passes on. -/
def unsecured (senderAddr : List UInt8) (received : Frame) (buflen : Nat) :
    Frame :=
  { received with
    packetbuf := fun address =>
      if received.dataptr ≤ address ∧
          address < received.dataptr + buflen then
        received.packetbuf address ^^^ mask encrypt config received.attrs
          (getExtendedAddress config senderAddr)
          (address - received.dataptr)
      else received.packetbuf address
    buflen := buflen }

theorem Carries.lays {sent received : Frame} {senderAddr code : List UInt8}
    (outgoing : Outgoing config sent)
    (carries : Carries config senderAddr
      (@secured encrypt config senderAddr code sent) received) :
    Lays (@unsecured encrypt config senderAddr received sent.buflen)
      (header sent) sent.data := by
  have lengthHeader := outgoing.length_header
  have short := outgoing.short
  have size : packetbufSize = 128 := rfl
  have length : (header sent).length = packetbufHdrSize - sent.hdrptr := by
    rw [header, ByteMem.length_read]
  have buflen := outgoing.lays.buflen
  have bufptr : received.bufptr = (header sent).length :=
    carries.bufptr.trans length.symm
  have dataptr : received.dataptr =
      packetbufHdrSize + (header sent).length := by
    rw [Packetbuf.dataptr, bufptr, Nat.add_comm]
  have attrs : received.attrs = sent.attrs := carries.attrs
  constructor
  case hdrlen =>
    change (if packetbufHdrSize - received.hdrptr ≠ 0 then _ else
      received.bufptr % 256) = _
    rw [carries.hdrptr, Nat.sub_self, if_neg (by simp), bufptr]
    exact Nat.mod_eq_of_lt (by omega)
  case buflen => exact buflen
  case dataptr =>
    change received.dataptr = received.hdrptr + _
    rw [carries.hdrptr, dataptr]
  case holds =>
    change ByteMem.Holds _ received.hdrptr _
    rw [carries.hdrptr]
    apply ByteMem.read_eq_iff.mpr
    intro index bound
    rw [List.length_append] at bound
    rw [← outgoing.lays.holds.apply index
      (by rw [List.length_append]; exact bound)]
    have sentByte := @Carries.apply encrypt config sent received senderAddr
      code outgoing carries index (by omega)
    unfold unsecured
    dsimp only
    rw [dataptr, sentByte, attrs]
    unfold secured
    dsimp only
    by_cases isData : (header sent).length ≤ index
    case pos =>
      have offset : packetbufHdrSize + index -
          (packetbufHdrSize + (header sent).length) =
            sent.hdrptr + index - packetbufHdrSize := by omega
      rw [if_pos (by omega), if_pos (by omega), offset, UInt8.xor_assoc,
        UInt8.xor_self, UInt8.xor_zero]
    case neg =>
      rw [if_neg (by omega), if_neg (by omega),
        ByteMem.write_of_lt (by omega)]

theorem Carries.unsecure {sent received : Frame}
    {senderAddr code : List UInt8} (outgoing : Outgoing config sent)
    (isCode : mic encrypt config sent (getExtendedAddress config senderAddr) =
      some code)
    (length : code.length = config.micLength)
    (carries : Carries config senderAddr
      (@secured encrypt config senderAddr code sent) received) :
    Llsec.unsecure config encrypt received =
      some (@unsecured encrypt config senderAddr received sent.buflen,
        true) := by
  have lengthHeader := outgoing.length_header
  have short := outgoing.short
  have size : packetbufSize = 128 := rfl
  have headerLength : (header sent).length =
      packetbufHdrSize - sent.hdrptr := by
    rw [header, ByteMem.length_read]
  have lays := Carries.lays encrypt outgoing carries
  have buflen := outgoing.lays.buflen
  have attrs : received.attrs = sent.attrs := carries.attrs
  have dataptr : received.dataptr =
      packetbufHdrSize + (header sent).length := by
    rw [Packetbuf.dataptr, carries.bufptr, Nat.add_comm, headerLength]
    rfl
  have cut : cutMic config received =
      { received with buflen := sent.buflen } := by
    have total : received.buflen = sent.buflen + config.micLength :=
      carries.buflen
    unfold cutMic
    rw [total]
    congr 1
    omega
  unfold Llsec.unsecure
  dsimp only
  rw [cut, carries.sender,
    crypt_eq encrypt config (getExtendedAddress config senderAddr)
      (show Packetbuf.buflen _ ≤ 240 by dsimp only; omega),
    Option.bind_some]
  change Option.map _ (mic encrypt config
    (@unsecured encrypt config senderAddr received sent.buflen) _) = _
  rw [← mic_eq_of_lays encrypt config _ outgoing.lays lays attrs (by omega),
    isCode, Option.map_some]
  have codeRead : code = ByteMem.read
      (@unsecured encrypt config senderAddr received sent.buflen).packetbuf
      (received.dataptr + sent.buflen) config.micLength := by
    rw [← length]
    apply Eq.symm
    apply ByteMem.read_eq_iff.mpr
    intro index bound
    have place : received.dataptr + sent.buflen + index = packetbufHdrSize +
        ((header sent).length + sent.buflen + index) := by
      rw [dataptr]
      omega
    have sentPlace : sent.hdrptr +
        ((header sent).length + sent.buflen + index) =
          packetbufHdrSize + sent.buflen + index := by omega
    unfold unsecured
    dsimp only
    rw [if_neg (by omega), place, Carries.apply encrypt outgoing carries
      (by omega), sentPlace]
    unfold secured
    dsimp only
    rw [if_neg (by omega), ByteMem.write_inside index bound]
  change some (_, decide (code = ByteMem.read
    (@unsecured encrypt config senderAddr received sent.buflen).packetbuf
    (received.dataptr + sent.buflen) config.micLength)) = _
  rw [decide_eq_true codeRead]
  rfl

end Cipher

/-! ## Anti-replay -/

section AntiReplay

variable (config : LlsecConfig) {maxNeighbors : Nat} {Table Others : Type}
  (modules : Tables maxNeighbors Table (List UInt8)
    (TableData maxNeighbors Others)) (antiReplayTable : Table)

def AntiReplayInfo.last (info : AntiReplayInfo) (broadcast : Bool) : Nat :=
  if broadcast then info.lastBroadcastCounter else info.lastUnicastCounter

/-- A frame is not a replay: its counter is above the last one of its sender,
or its sender is new and there is an item for it. -/
def Admits (tables : NodeTables maxNeighbors Table Others) (buf : Frame) :
    Prop :=
  let sender := some (linkaddr config buf .sender)
  match tables.nbrTableGetFromLladdr modules antiReplayTable sender with
  | none =>
      ((tables.nbrTableAddLladdr modules antiReplayTable sender).1.isSome :
        Prop)
  | some item =>
      (NodeTables.info tables item).last (holdsBroadcast config buf) <
        antiReplayGetCounter buf

theorem AntiReplayInfo.wasReplayed_iff (info : AntiReplayInfo)
    (broadcast : Bool) (counter : Nat) :
    (info.wasReplayed broadcast counter).1 = true ↔
      counter ≤ info.last broadcast := by
  unfold wasReplayed last
  cases broadcast
  case false =>
    by_cases old : counter ≤ info.lastUnicastCounter <;> simp [old]
  case true =>
    by_cases old : counter ≤ info.lastBroadcastCounter <;> simp [old]

theorem antiReplay_iff (tables : NodeTables maxNeighbors Table Others)
    (buf : Frame) :
    (antiReplay config modules antiReplayTable buf tables).2 = true ↔
      Admits config modules antiReplayTable tables buf := by
  unfold antiReplay Admits
  dsimp only
  cases isItem : tables.nbrTableGetFromLladdr modules antiReplayTable
      (some (linkaddr config buf .sender)) with
  | none =>
      cases isAdded : tables.nbrTableAddLladdr modules antiReplayTable
          (some (linkaddr config buf .sender)) with
      | mk item added =>
          cases item with
          | none => simp
          | some item => simp [NbrTables.nbrTableLock, NbrTables.nbrSetBit]
  | some item =>
      have isReplay := (NodeTables.info tables item).wasReplayed_iff
        (holdsBroadcast config buf) (antiReplayGetCounter buf)
      dsimp only
      rw [← Nat.not_le, ← isReplay]
      split
      case isTrue replayed => simp [replayed]
      case isFalse fresh => simp [fresh]

end AntiReplay

/-! ## The round trip -/

section RoundTrip

variable {config : LlsecConfig} {maxNeighbors : Nat} {Table Others : Type}
  (modules : Tables maxNeighbors Table (List UInt8)
    (TableData maxNeighbors Others)) (antiReplayTable : Table)

/-- A secured frame as the framer of a receiver leaves it. -/
def delivered (senderAddr : List UInt8) (created : Frame) : Frame where
  packetbuf := fun address =>
    created.contents.getD (address - packetbufHdrSize) 0
  hdrptr := packetbufHdrSize
  bufptr := packetbufHdrSize - created.hdrptr
  buflen := created.buflen
  attrs := created.attrs
  addrs := fun _ => ByteMem.ofList senderAddr

theorem delivered_carries {senderAddr : List UInt8}
    (size : senderAddr.length = config.linkaddrSize) (created : Frame) :
    Carries config senderAddr created (delivered senderAddr created) where
  holds := ByteMem.read_eq_iff.mpr fun index bound => by
    simp [delivered, bound]
  hdrptr := rfl
  bufptr := rfl
  buflen := rfl
  attrs := rfl
  sender := by
    rw [linkaddr, ← size]
    exact ByteMem.read_ofList senderAddr

/-- `input` restores the data of a secured frame and passes it up unless it
is a replay. -/
theorem Carries.input (encrypt : Block → Block) {sent received : Frame}
    {senderAddr code : List UInt8} (outgoing : Outgoing config sent)
    (isCode : mic encrypt config sent (getExtendedAddress config senderAddr) =
      some code)
    (length : code.length = config.micLength)
    (carries : Carries config senderAddr
      (@secured encrypt config senderAddr code sent) received)
    {receiverAddr : List UInt8} (other : senderAddr ≠ receiverAddr)
    (tables : NodeTables maxNeighbors Table Others) :
    ∃ later restored passed,
      Llsec.input config encrypt modules antiReplayTable receiverAddr tables
        received = some (later, restored, passed) ∧
      restored.data = sent.data ∧
      (passed = true ↔
        Admits config modules antiReplayTable tables received) := by
  have lays := Carries.lays encrypt outgoing carries
  have forUs : isForUs config receiverAddr received = true := by
    apply decide_eq_true
    rw [carries.attrs, carries.sender]
    exact ⟨outgoing.level, other⟩
  have admits := antiReplay_iff config modules antiReplayTable tables
    (@unsecured encrypt config senderAddr received sent.buflen)
  refine ⟨(antiReplay config modules antiReplayTable (@unsecured encrypt config
      senderAddr received sent.buflen) tables).1,
    @unsecured encrypt config senderAddr received sent.buflen, _, ?_, ?_,
    admits⟩
  · unfold Llsec.input
    rw [if_pos forUs, Carries.unsecure encrypt outgoing isCode length carries,
      Option.map_some]
    rfl
  · rw [Packetbuf.data, lays.dataptr, lays.buflen]
    exact (ByteMem.holds_append.mp lays.holds).2

/-- A frame that a node secures is authentic at every other node with the same
key, its data is restored byte for byte, and it is passed up unless the
anti-replay information forbids it. -/
theorem secured_roundTrip {Key : Type} (aes : Key → Block → Block) (key : Key)
    {sent : Frame} (outgoing : Outgoing config sent)
    {senderAddr receiverAddr : List UInt8}
    (other : senderAddr ≠ receiverAddr) :
    ∃ created,
      onFrameCreated config (aes key) senderAddr sent = some created ∧
      ∀ received, Carries config senderAddr created received →
      ∀ tables : NodeTables maxNeighbors Table Others,
        ∃ later restored passed,
          Llsec.input config (aes key) modules antiReplayTable receiverAddr
            tables received = some (later, restored, passed) ∧
          restored.data = sent.data ∧
          (passed = true ↔
            Admits config modules antiReplayTable tables received) := by
  rcases onFrameCreated_eq (aes key) outgoing senderAddr with
    ⟨code, isCode, length, isCreated⟩
  refine ⟨_, isCreated, ?_⟩
  intro received carries tables
  exact Carries.input modules antiReplayTable (aes key) outgoing isCode length
    carries other tables

/-- A cipher that adds a key to the bytes of a block. -/
def addKey (key : UInt8) (block : Block) : Block :=
  Vector.ofFn fun i => block.get i ^^^ key

/-- Encryption with a code of four bytes, and short addresses. -/
def shortConfig : LlsecConfig where
  securityLevel := 5
  linkaddrSize := 2

def ownTables : Tables 1 Unit (List UInt8) (TableData 1 Unit) where
  linkaddrNull := [0, 0]
  clear := fun _ _ client =>
    { client with antiReplayTable := fun _ => .init 0 }
  callback := fun _ _ tables => tables
  own := fun table _ tables => NbrTables.OwnItems.refl table tables

/-- The table of anti-replay information is registered. -/
def bootstrapped : NodeTables 1 Unit Unit :=
  (NbrTables.nbrTableRegister
    (NbrTables.initial [] ⟨fun _ => .init 0, ()⟩) () false).2

/-- The first frame of a node, with a header of two bytes and one byte of
data. -/
def firstFrame : Frame where
  packetbuf := fun address => UInt8.ofNat address
  hdrptr := 46
  bufptr := 0
  buflen := 1
  attrs := fun attr =>
    match attr with
    | .securityLevel => 5
    | .frameCounterBytes01 => 1
    | .frameCounterBytes23 => 0
  addrs := fun _ => ByteMem.ofList []

theorem firstFrame_outgoing : Outgoing shortConfig firstFrame where
  compact := rfl
  hdrptr := by decide
  level := rfl
  room := by decide

theorem firstFrame_passed :
    ∃ created later restored,
      onFrameCreated shortConfig (addKey 7) [1, 0] firstFrame =
        some created ∧
      Llsec.input shortConfig (addKey 7) ownTables () [2, 0] bootstrapped
        (delivered [1, 0] created) = some (later, restored, true) ∧
      restored.data = firstFrame.data := by
  rcases @secured_roundTrip shortConfig 1 Unit Unit ownTables () UInt8 addKey 7
    firstFrame firstFrame_outgoing [1, 0] [2, 0] (by decide) with
      ⟨created, isCreated, restores⟩
  rcases restores (delivered [1, 0] created) (delivered_carries rfl created)
    bootstrapped with ⟨later, restored, passed, isInput, data, admits⟩
  have isNew : Admits shortConfig ownTables () bootstrapped
      (delivered [1, 0] created) := by
    have unknown : bootstrapped.nbrTableGetFromLladdr ownTables ()
        (some [1, 0]) = none := by decide +kernel
    have sender : linkaddr shortConfig (delivered [1, 0] created) .sender =
        [1, 0] := rfl
    unfold Admits
    rw [sender]
    dsimp only
    rw [unknown]
    change (bootstrapped.nbrTableAddLladdr ownTables ()
      (some [1, 0])).1.isSome = true
    decide +kernel
  rw [admits.mpr isNew] at isInput
  exact ⟨created, later, restored, isCreated, isInput, data⟩

def received : NodeTables 1 Unit Unit :=
  NodeTables.setInfo (bootstrapped.nbrTableAddLladdr ownTables ()
    (some [1, 0])).2 ⟨0, Nat.one_pos⟩ (.init 1)

/-- A secured frame is not passed up again. -/
theorem firstFrame_notPassed :
    ¬ ∀ sent, Outgoing shortConfig sent →
      ∃ created,
        onFrameCreated shortConfig (addKey 7) [1, 0] sent = some created ∧
        ∀ frame, Carries shortConfig [1, 0] created frame →
        ∀ tables : NodeTables 1 Unit Unit, ∃ later restored,
          Llsec.input shortConfig (addKey 7) ownTables () [2, 0] tables
            frame = some (later, restored, true) ∧
          restored.data = sent.data := by
  intro always
  rcases always firstFrame firstFrame_outgoing with
    ⟨created, isCreated, accepts⟩
  rcases onFrameCreated_eq (addKey 7) firstFrame_outgoing [1, 0] with
    ⟨code, isCode, length, isSecured⟩
  have same := Option.some.inj (isCreated.symm.trans isSecured)
  rw [same] at accepts
  have carries := @delivered_carries shortConfig [1, 0] rfl
    (@secured (addKey 7) shortConfig [1, 0] code firstFrame)
  rcases accepts _ carries received with ⟨later, restored, isPassed, _⟩
  rcases Carries.input ownTables () (addKey 7) firstFrame_outgoing isCode
    length carries (show [1, 0] ≠ [2, 0] by decide) received with
      ⟨_, _, passed, isInput, _, admits⟩
  have isTrue : passed = true := by
    have outcome := Option.some.inj (isInput.symm.trans isPassed)
    exact congrArg (fun result => result.2.2) outcome
  have known : received.nbrTableGetFromLladdr ownTables () (some [1, 0]) =
      some ⟨0, Nat.one_pos⟩ := by decide +kernel
  have sender : linkaddr shortConfig (delivered [1, 0]
      (@secured (addKey 7) shortConfig [1, 0] code firstFrame)) .sender =
        [1, 0] := rfl
  have isNew := admits.mp isTrue
  unfold Admits at isNew
  rw [sender] at isNew
  dsimp only at isNew
  rw [known] at isNew
  revert isNew
  change ¬ 1 < 1
  decide

end RoundTrip

end Contiki.Llsec
