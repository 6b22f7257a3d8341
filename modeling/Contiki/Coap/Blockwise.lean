import Contiki.Coap.Engine
import Contiki.Coap.InPlace

/-!
# Slices of a representation

What `coap_receive` answers to a request for a block when the resource does
not know blocks.
-/

namespace Contiki.Coap

open Contiki.Lib

variable {size : Nat}

/-! ## The requested block -/

def block2Fields (packet : ReceivedPacket) : BlockFields where
  num := packet.block2Num
  more := packet.block2More
  size := packet.block2Size
  offset := packet.block2Offset

theorem ofNumber_eq_some {option : CoapOption} {number : Nat}
    (known : CoapOption.ofNumber? number = some option) :
    option.number = number := by
  have found := List.find?_some known
  simpa using found

variable (value : UInt32) (config : CoapConfig)

theorem block2_coapParseOption (state : ParseState)
    {number : Nat} (current length : Nat) :
    (number = CoapOption.block2.number → ∃ value,
      block2Fields (coapParseOption config state number current
        length).2.packet = parseBlock value) ∧
    (number ≠ CoapOption.block2.number →
      block2Fields (coapParseOption config state number current
        length).2.packet = block2Fields state.packet) ∧
    (coapParseOption config state number current length).2.packet.options =
      state.packet.options := by
  unfold coapParseOption
  cases known : CoapOption.ofNumber? number with
  | none =>
      refine ⟨?_, ?_, ?_⟩
      · rintro rfl
        cases known
      · intro _
        dsimp only
        split
        · rfl
        · rfl
      · dsimp only
        split
        · rfl
        · rfl
  | some option =>
      have isNumber := ofNumber_eq_some known
      cases option
      case block2 =>
        exact ⟨fun _ => ⟨_, rfl⟩, fun different => absurd isNumber.symm
          different, rfl⟩
      all_goals
        exact ⟨fun same => absurd (isNumber.trans same) (by decide),
          fun _ => rfl, rfl⟩

/-- The Block2 option of a packet has the fields of a value. -/
def Block2Parsed (packet : ReceivedPacket) : Prop :=
  isOption packet CoapOption.block2.number = true →
    ∃ value, block2Fields packet = parseBlock value

theorem block2Parsed_coapParseOptions
    (dataLen : Nat) (fuel : Nat) {state : ParseState}
    (current optionNumber : Nat) (parsed : Block2Parsed state.packet) :
    Block2Parsed (coapParseOptions config dataLen fuel state current
      optionNumber).2.packet := by
  induction fuel generalizing state current optionNumber with
  | zero =>
      exact parsed
  | succ fuel inductionHypothesis =>
      by_cases inside : current < dataLen
      · by_cases payload : state.memory current &&& 0xF0 = 0xF0
        · rw [coapParseOptions_payload config dataLen fuel state inside
            payload]
          exact parsed
        · rw [coapParseOptions_option config dataLen fuel state inside
            payload]
          have kept : Block2Parsed (optionResult config state current
              optionNumber).2.packet := by
            obtain ⟨isBlock2, isOther, options⟩ := @block2_coapParseOption
              config (optionState config state current optionNumber)
              (nextNumber config state.memory current optionNumber)
              (coapParseOptionHeader config state.memory current).value
              (coapParseOptionHeader config state.memory
                current).optionLength
            intro isSet
            by_cases same : nextNumber config state.memory current
                optionNumber = CoapOption.block2.number
            · exact isBlock2 same
            · have before : isOption state.packet
                  CoapOption.block2.number = true := by
                rw [← isOption_setOption_of_ne state.packet same]
                unfold isOption at isSet ⊢
                unfold optionResult at isSet
                rw [options] at isSet
                exact isSet
              obtain ⟨value, fields⟩ := parsed before
              exact ⟨value, (isOther same).trans fields⟩
          split
          · next status after isResult =>
              rw [isResult] at kept
              exact kept
          · next after isResult =>
              rw [isResult] at kept
              exact inductionHypothesis _ _ kept
      · rw [coapParseOptions_done config dataLen (fuel + 1) state
          (Nat.le_of_not_lt inside)]
        exact parsed

/-- The fields of the Block2 option of a parsed message are those of its
value. -/
theorem block2Parsed_coapParseMessage
    (data : ByteMem) (dataLen : Nat) (coapErrorMessage : String) :
    Block2Parsed (coapParseMessage config data dataLen
      coapErrorMessage).2.packet := by
  have unset : ∀ token, Block2Parsed
      { coapParseHeader data with token := token } := by
    intro token isSet
    have never : isOption ({ coapParseHeader data with token := token } :
        ReceivedPacket) CoapOption.block2.number = false := by
      unfold isOption
      change ((List.replicate optionsLength (0 : UInt8)).getD _ 0 &&& _ !=
        0) = false
      decide
    rw [never] at isSet
    cases isSet
  unfold coapParseMessage
  dsimp only
  split
  · exact unset _
  · exact block2Parsed_coapParseOptions config dataLen dataLen _ _
      (unset _)

theorem toNat_and_low : (value &&& 0x07).toNat =
    value.toNat % 8 := by
  rw [UInt32.toNat_and]
  exact Nat.and_two_pow_sub_one_eq_mod _ 3

theorem toNat_parseBlock_num :
    (parseBlock value).num.toNat = value.toNat / 16 := by
  unfold parseBlock
  dsimp only
  rw [UInt32.toNat_shiftRight]
  change value.toNat >>> 4 = _
  rw [Nat.shiftRight_eq_div_pow]

theorem toNat_parseBlock_size :
    (parseBlock value).size.toNat = 16 * 2 ^ (value.toNat % 8) := by
  have low := toNat_and_low value
  have exponent : value.toNat % 8 < 8 := Nat.mod_lt _ (by decide)
  have power : 2 ^ (value.toNat % 8) ≤ 2 ^ 7 :=
    Nat.pow_le_pow_right (by decide) (by omega)
  unfold parseBlock
  dsimp only
  rw [UInt16.toNat_shiftLeft, UInt32.toNat_toUInt16, low,
    Nat.mod_eq_of_lt (show value.toNat % 8 < 2 ^ 16 by omega),
    Nat.mod_eq_of_lt (show value.toNat % 8 < 16 by omega)]
  change (16 <<< (value.toNat % 8)) % 2 ^ 16 = _
  rw [Nat.shiftLeft_eq, Nat.mod_eq_of_lt (by omega)]

theorem toNat_parseBlock_offset :
    (parseBlock value).offset.toNat =
      (parseBlock value).num.toNat * (parseBlock value).size.toNat %
        2 ^ 32 := by
  have low := toNat_and_low value
  have high : (value &&& ~~~(0x0000000F : UInt32)).toNat =
      value.toNat / 16 * 16 := by
    rw [UInt32.toNat_and, Nat.and_comm]
    refine (high_mask_and 4 value.toNat_lt (by decide)).trans ?_
    omega
  rw [toNat_parseBlock_num, toNat_parseBlock_size]
  unfold parseBlock
  dsimp only
  rw [UInt32.toNat_shiftLeft, low, high, Nat.mod_eq_of_lt
    (show value.toNat % 8 < 32 by omega), Nat.shiftLeft_eq, Nat.mul_assoc]

/-! ## The slice -/

/-- What a resource that does not know blocks leaves: a body in the buffer
that it is given, which is the packet of the transaction behind the room for
the header, and an unchanged offset. -/
structure Unaware (config : CoapConfig) (message : ReceivedPacket)
    (served : Served size) (packet : ByteMem) (body : List UInt8) :
    Prop where
  accepted : served.accepted = true
  status : served.status = statusNoError
  newOffset : served.newOffset = (blockRequest config message).newOffset
  place : served.response.payload = packet.shift config.coapMaxHeaderSize
  isBody : served.response.payload.read 0 served.response.payloadLen = body
  fits : body.length ≤ config.restMaxChunkSize
  noBlock2 :
    isOption served.response CoapOption.block2.number = false
  options : served.response.options.length = optionsLength

def prepareResponse (config : CoapConfig) (message : ReceivedPacket)
    (served : Served size) : Prepared :=
  if served.accepted ∧ served.status = statusNoError then
    handleBlockwise config message (blockRequest config message) served
  else
    { status := served.status
      coapErrorMessage := served.coapErrorMessage
      response := served.response }

/-- The message that `coap_serialize_message` makes of a response in the
packet of the transaction, where the payload begins at an offset in the
body. -/
def messageBytes (config : CoapConfig) (response : SentPacket)
    (offset : Nat) (packet : ByteMem) : List UInt8 :=
  let after := coapSerializeInPlace config response
    (config.coapMaxHeaderSize + offset) packet
  after.buffer.read 0 after.length

/-- The response is an error, or cannot be serialized. -/
def IsError (prepared : Prepared) (bytes : List UInt8) : Prop :=
  prepared.status ≠ statusNoError ∨
    statusBadRequest ≤ prepared.response.code ∨ bytes = []

/-- The payload of the message is the block of the body that the Block2 option
says, as a client decodes it. -/
def SlicesBody (response : SentPacket) (bytes body : List UInt8) : Prop :=
  isOption response CoapOption.block2.number = true ∧
    let fields := parseBlock (blockValue response.block2Num
      response.block2More response.block2Size)
    bytes = serializedHeader response ++ 0xFF ::
        (body.drop (fields.num.toNat * fields.size.toNat)).take
          fields.size.toNat ∧
      (fields.more ≠ 0 ↔
        (fields.num.toNat + 1) * fields.size.toNat < body.length)

/-- The response with the Block2 option for the requested block. -/
def blockResponse (config : CoapConfig) (message : ReceivedPacket)
    (served : Served size) : SentPacket :=
  (coapSetHeaderBlock2 served.response message.block2Num
    (if served.response.payloadLen - message.block2Offset.toNat >
      (blockRequest config message).size.toNat then 1 else 0)
    (blockRequest config message).size).1

/-- The length of the header before the payload marker. -/
def blockHeaderLen (config : CoapConfig) (message : ReceivedPacket)
    (served : Served size) : Nat :=
  (serializedHeader (blockResponse config message served)).length

/-- The marker does not take the place of another byte of the body. -/
def MarkerApart (config : CoapConfig) (message : ReceivedPacket)
    (served : Served size) (body : List UInt8) : Prop :=
  blockHeaderLen config message served < config.coapMaxHeaderSize ∨
    0 < message.block2Offset.toNat ∨ body.head? = some 0xFF

/-- The block is an error anyway, or its number can be encoded, its size is a
chunk or the body fits in the largest power of two in a chunk, and there is
room for the payload marker. -/
def BlockAgrees (config : CoapConfig) (message : ReceivedPacket)
    (served : Served size) (body : List UInt8) : Prop :=
  (isOption message CoapOption.block1.number = true ∧
      isOption served.response CoapOption.block1.number = false) ∨
    statusBadRequest ≤ served.response.code ∨
    body.length ≤ message.block2Offset.toNat ∨
    served.response.code ≠ 0 ∧
      (config.coapMaxHeaderSize < blockHeaderLen config message served ∨
        message.block2Num.toNat ≤ 0xFFFFF ∧ 16 ≤ config.restMaxChunkSize ∧
          (message.block2Size.toNat ≤ config.restMaxChunkSize ∨
            body.length ≤ 2 ^ config.restMaxChunkSize.log2) ∧
          MarkerApart config message served body)

theorem take_read (memory : ByteMem) (offset count kept : Nat) :
    (memory.read offset count).take kept =
      memory.read offset (min count kept) := by
  apply List.ext_getElem
  · simp [Nat.min_comm]
  · intro index _ _
    simp

theorem code_coapSetHeaderBlock2 (packet : SentPacket) (num : UInt32)
    (more : UInt8) (blockSize : UInt16) :
    (coapSetHeaderBlock2 packet num more blockSize).1.code =
      packet.code := by
  unfold coapSetHeaderBlock2
  split
  · rfl
  · rfl

/-- The response with the requested block of the body. -/
def slicedResponse (config : CoapConfig) (message : ReceivedPacket)
    (served : Served size) : SentPacket :=
  (coapSetPayload config (blockResponse config message served)
    (served.response.payload.shift message.block2Offset.toNat)
    (min (served.response.payloadLen - message.block2Offset.toNat)
      (blockRequest config message).size.toNat)).1

theorem length_coapSerializeHeader_le (packet : SentPacket) :
    (coapSerializeHeader packet).length ≤
      (serializedHeader packet).length := by
  unfold serializedHeader
  split
  · exact Nat.le_refl _
  · simp only [List.length_append, Nat.add_assoc]
    exact Nat.le_add_right _ _

theorem messageBytes_eq_nil_iff
    (response : SentPacket) (offset : Nat) (packet : ByteMem) :
    messageBytes config response offset packet = [] ↔
      response.code ≠ 0 ∧
        config.coapMaxHeaderSize < (serializedHeader response).length := by
  have positive : 4 ≤ (serializedHeader response).length :=
    length_coapSerializeHeader_le response
  unfold messageBytes coapSerializeInPlace
  dsimp only
  rw [List.eq_nil_iff_length_eq_zero, ByteMem.length_read]
  split
  · next empty =>
      exact iff_of_false (by dsimp only; omega) fun long => long.1 empty
  · next notEmpty =>
      split
      · exact iff_of_false (by dsimp only; omega) fun long => by omega
      · exact iff_of_true rfl ⟨notEmpty, by omega⟩

theorem messageBytes_of_empty {response : SentPacket}
    (empty : response.code = 0) (offset : Nat) (packet : ByteMem) :
    messageBytes config response offset packet =
      serializedHeader response := by
  unfold messageBytes coapSerializeInPlace
  dsimp only
  rw [if_pos empty]
  dsimp only
  rw [ByteMem.read_write_self]

/-- The message with the requested block: the marker takes the place of the
first byte of the body when the header fills the room before it. -/
theorem messageBytes_slicedResponse {config : CoapConfig}
    {message : ReceivedPacket} {served : Served size} {packet : ByteMem}
    {body : List UInt8}
    (unaware : Unaware config message served packet body)
    (notEmpty : served.response.code ≠ 0)
    (short : blockHeaderLen config message served ≤
      config.coapMaxHeaderSize)
    (inside : message.block2Offset.toNat < body.length)
    (positive : 0 < (blockRequest config message).size.toNat)
    (small : (blockRequest config message).size.toNat ≤
      config.restMaxChunkSize) :
    ∃ first rest, (body.drop message.block2Offset.toNat).take
        (blockRequest config message).size.toNat = first :: rest ∧
      messageBytes config (slicedResponse config message served)
          message.block2Offset.toNat packet =
        serializedHeader (slicedResponse config message served) ++ 0xFF ::
          (if blockHeaderLen config message served =
              config.coapMaxHeaderSize + message.block2Offset.toNat then
            0xFF
          else first) :: rest := by
  have length : served.response.payloadLen = body.length := by
    rw [← unaware.isBody, ByteMem.length_read]
  have isCode : (slicedResponse config message served).code =
      served.response.code := code_coapSetHeaderBlock2 _ _ _ _
  obtain ⟨count, isCount⟩ : ∃ count, min config.restMaxChunkSize
      (min (served.response.payloadLen - message.block2Offset.toNat)
        (blockRequest config message).size.toNat) = count + 1 :=
    Nat.exists_eq_add_one_of_ne_zero (by omega)
  refine ⟨packet (config.coapMaxHeaderSize + message.block2Offset.toNat),
    packet.read (config.coapMaxHeaderSize + message.block2Offset.toNat + 1)
      count, ?_, ?_⟩
  · have kept : min (served.response.payloadLen -
        message.block2Offset.toNat)
          (blockRequest config message).size.toNat = count + 1 := by
      omega
    rw [← unaware.isBody, unaware.place, ByteMem.drop_read, Nat.zero_add,
      ByteMem.read_shift, take_read,
      kept, ByteMem.read_succ]
  · exact @read_coapSerializeInPlace config
      (slicedResponse config message served) packet
      (by rw [isCode]; exact notEmpty) short _ (Nat.le_add_right _ _) count
      isCount

theorem slicesBody_iff {config : CoapConfig} {message : ReceivedPacket}
    {served : Served size} {packet : ByteMem} {body : List UInt8}
    (unaware : Unaware config message served packet body)
    (accepted : blockRejected message.block2Num
      (blockRequest config message).size = false)
    (payload : List UInt8) :
    SlicesBody (slicedResponse config message served)
        (serializedHeader (slicedResponse config message served) ++
          0xFF :: payload) body ↔
      payload = (body.drop (message.block2Num.toNat *
            2 ^ (blockRequest config message).size.toNat.log2)).take
          (2 ^ (blockRequest config message).size.toNat.log2) ∧
        ((blockRequest config message).size.toNat <
            body.length - message.block2Offset.toNat ↔
          (message.block2Num.toNat + 1) *
            2 ^ (blockRequest config message).size.toNat.log2 <
              body.length) := by
  have length : served.response.payloadLen = body.length := by
    rw [← unaware.isBody, ByteMem.length_read]
  obtain ⟨numBound, lower, upper⟩ := blockBounds_of_not_rejected accepted
  have decoded := fun more =>
    @parseBlock_blockValue message.block2Num more
      (blockRequest config message).size numBound lower upper
  have isSet : isOption (setOption served.response
      CoapOption.block2.number) CoapOption.block2.number = true := by
    apply isOption_setOption_self
    rw [unaware.options]
    decide
  have rejects : ¬ blockRejected message.block2Num
      (blockRequest config message).size = true := by
    rw [accepted]
    exact Bool.false_ne_true
  unfold SlicesBody
  dsimp only
  rw [List.append_cancel_left_eq, List.cons.injEq,
    and_iff_right (rfl : (0xFF : UInt8) = 0xFF)]
  unfold slicedResponse blockResponse coapSetHeaderBlock2
  rw [if_neg rejects]
  unfold coapSetPayload setOption
  unfold isOption setOption at isSet
  dsimp only
  unfold isOption
  rw [and_iff_right isSet]
  obtain ⟨isNum, isMore, isSize, -⟩ := decoded _
  rw [isNum, isSize, isMore, length]
  refine and_congr_right fun _ => iff_congr ?_ Iff.rfl
  split
  · next more =>
      rw [if_pos (by decide)]
      exact iff_of_true (by decide) more
  · next noMore =>
      rw [if_neg (by decide)]
      exact iff_of_false (by decide) noMore

/-- What `coap_receive` prepares for a block of an unaware resource. -/
theorem handleBlockwise_unaware {config : CoapConfig}
    {message : ReceivedPacket} {served : Served size} {packet : ByteMem}
    {body : List UInt8}
    (unaware : Unaware config message served packet body)
    (requested : isOption message CoapOption.block2.number = true)
    (noBlock1 : ¬ (isOption message CoapOption.block1.number = true ∧
      isOption served.response CoapOption.block1.number = false))
    (inside : message.block2Offset.toNat < body.length) :
    handleBlockwise config message (blockRequest config message) served =
      { status := served.status
        coapErrorMessage := served.coapErrorMessage
        response := slicedResponse config message served } := by
  have length : served.response.payloadLen = body.length := by
    rw [← unaware.isBody, ByteMem.length_read]
  have newOffset := unaware.newOffset
  have keptPayload : ∀ num more blockSize,
      (coapSetHeaderBlock2 served.response num more blockSize).1.payload =
        served.response.payload := by
    intro num more blockSize
    unfold coapSetHeaderBlock2
    split
    · rfl
    · rfl
  unfold handleBlockwise slicedResponse blockResponse
  dsimp only
  rw [if_neg (by simpa using fun isSet _ => by simpa [isSet] using noBlock1),
    if_pos requested]
  unfold blockRequest at newOffset ⊢
  rw [if_pos requested] at newOffset ⊢
  dsimp only at newOffset ⊢
  rw [if_pos newOffset, if_neg (by omega), keptPayload]

theorem isError_of_code (message : ReceivedPacket)
    (block : BlockRequest) {served : Served size}
    (bad : statusBadRequest ≤ served.response.code) (bytes : List UInt8) :
    IsError (handleBlockwise config message block served) bytes := by
  refine Or.inr (Or.inl ?_)
  unfold handleBlockwise
  dsimp only
  split
  · exact bad
  split
  · split
    · split
      · exact (by decide : statusBadRequest ≤ statusBadOption)
      · exact le_of_le_of_eq bad (code_coapSetHeaderBlock2 _ _ _ _).symm
    · split
      · exact le_of_le_of_eq bad (code_coapSetHeaderBlock2 _ _ _ _).symm
      · exact le_of_le_of_eq bad (code_coapSetHeaderBlock2 _ _ _ _).symm
  · split
    · exact le_of_le_of_eq bad (code_coapSetHeaderBlock2 _ _ _ _).symm
    · exact bad

theorem isError_of_outOfScope {config : CoapConfig}
    {message : ReceivedPacket} {served : Served size} {packet : ByteMem}
    {body : List UInt8}
    (unaware : Unaware config message served packet body)
    (requested : isOption message CoapOption.block2.number = true)
    (outside : body.length ≤ message.block2Offset.toNat)
    (bytes : List UInt8) :
    IsError (handleBlockwise config message (blockRequest config message)
      served) bytes := by
  have length : served.response.payloadLen = body.length := by
    rw [← unaware.isBody, ByteMem.length_read]
  have newOffset := unaware.newOffset
  unfold blockRequest at newOffset
  rw [if_pos requested] at newOffset
  unfold handleBlockwise blockRequest
  dsimp only
  split
  · exact Or.inl (by decide : statusNotImplemented ≠ statusNoError)
  · dsimp only
    rw [if_pos (by omega)]
    exact Or.inr (Or.inl (by decide : statusBadRequest ≤ statusBadOption))

theorem toNat_offset_of_encodable {value : UInt32}
    (encodable : (parseBlock value).num.toNat ≤ 0xFFFFF) :
    (parseBlock value).offset.toNat =
      (parseBlock value).num.toNat * (parseBlock value).size.toNat := by
  have exponent : value.toNat % 8 < 8 := Nat.mod_lt _ (by decide)
  have power : 2 ^ (value.toNat % 8) ≤ 2 ^ 7 :=
    Nat.pow_le_pow_right (by decide) (by omega)
  have isSize := toNat_parseBlock_size value
  have sizeBound : (parseBlock value).size.toNat ≤ 2048 := by omega
  have noWrap : (parseBlock value).num.toNat * (parseBlock value).size.toNat
      ≤ 0xFFFFF * 2048 := Nat.mul_le_mul encodable sizeBound
  rw [toNat_parseBlock_offset, Nat.mod_eq_of_lt (by omega)]

/-- The condition for the slice itself: the requested block is a block of the
size in the option. -/
theorem slice_arithmetic {config : CoapConfig} {value : UInt32}
    {body : List UInt8} (fits : body.length ≤ config.restMaxChunkSize)
    (encodable : (parseBlock value).num.toNat ≤ 0xFFFFF)
    (inside : (parseBlock value).offset.toNat < body.length) :
    ((body.drop (parseBlock value).offset.toNat).take
          (min (parseBlock value).size.toNat config.restMaxChunkSize) =
        (body.drop ((parseBlock value).num.toNat *
          2 ^ (min (parseBlock value).size.toNat
            config.restMaxChunkSize).log2)).take
          (2 ^ (min (parseBlock value).size.toNat
            config.restMaxChunkSize).log2) ∧
      (min (parseBlock value).size.toNat config.restMaxChunkSize <
          body.length - (parseBlock value).offset.toNat ↔
        ((parseBlock value).num.toNat + 1) *
          2 ^ (min (parseBlock value).size.toNat
            config.restMaxChunkSize).log2 < body.length)) ↔
    (parseBlock value).size.toNat ≤ config.restMaxChunkSize ∨
      body.length ≤ 2 ^ config.restMaxChunkSize.log2 := by
  have isSize := toNat_parseBlock_size value
  have offset := toNat_offset_of_encodable encodable
  by_cases chunk : (parseBlock value).size.toNat ≤ config.restMaxChunkSize
  · have isPower : 2 ^ (parseBlock value).size.toNat.log2 =
        (parseBlock value).size.toNat := by
      rw [isSize, show 16 * 2 ^ (value.toNat % 8) =
        2 ^ (4 + value.toNat % 8) by rw [Nat.pow_add], Nat.log2_two_pow]
    refine iff_of_true ?_ (Or.inl chunk)
    rw [Nat.min_eq_left chunk, isPower, offset, Nat.succ_mul]
    exact ⟨rfl, by omega⟩
  · have zero : (parseBlock value).num.toNat = 0 := by
      by_contra positive
      have large := Nat.le_mul_of_pos_left (parseBlock value).size.toNat
        (Nat.pos_of_ne_zero positive)
      omega
    have short : 2 ^ config.restMaxChunkSize.log2 ≤
        config.restMaxChunkSize := by
      apply Nat.log2_self_le
      omega
    rw [Nat.min_eq_right (by omega), offset, zero]
    simp only [Nat.zero_mul, List.drop_zero, Nat.sub_zero, Nat.zero_add,
      Nat.one_mul]
    constructor
    · rintro ⟨-, more⟩
      exact Or.inr (by omega)
    · rintro (small | whole)
      · exact absurd small chunk
      · rw [List.take_of_length_le fits, List.take_of_length_le whole]
        exact ⟨rfl, by omega⟩

theorem head?_of_take {body rest : List UInt8} {first : UInt8} {kept : Nat}
    (isTaken : body.take kept = first :: rest) :
    body.head? = some first := by
  cases body with
  | nil =>
      rw [List.take_nil] at isTaken
      cases isTaken
  | cons head tail =>
      cases kept with
      | zero =>
          cases isTaken
      | succ kept =>
          exact congrArg some (List.cons.inj isTaken).1

/-- The message with the requested block is missing or carries the block that
its Block2 option says exactly when the request meets the condition. -/
theorem slicedResponse_iff {config : CoapConfig}
    {message : ReceivedPacket} {value : UInt32} {served : Served size}
    {packet : ByteMem} {body : List UInt8}
    (unaware : Unaware config message served packet body)
    (requested : isOption message CoapOption.block2.number = true)
    (fields : block2Fields message = parseBlock value)
    (inside : message.block2Offset.toNat < body.length) :
    let bytes := messageBytes config (slicedResponse config message served)
      message.block2Offset.toNat packet
    (bytes = [] ∨
      SlicesBody (slicedResponse config message served) bytes body) ↔
      served.response.code ≠ 0 ∧
        (config.coapMaxHeaderSize < blockHeaderLen config message served ∨
          message.block2Num.toNat ≤ 0xFFFFF ∧
            16 ≤ config.restMaxChunkSize ∧
            (message.block2Size.toNat ≤ config.restMaxChunkSize ∨
              body.length ≤ 2 ^ config.restMaxChunkSize.log2) ∧
            MarkerApart config message served body) := by
  intro bytes
  have isNum : message.block2Num = (parseBlock value).num :=
    congrArg BlockFields.num fields
  have isSize : message.block2Size = (parseBlock value).size :=
    congrArg BlockFields.size fields
  have isOffset : message.block2Offset = (parseBlock value).offset :=
    congrArg BlockFields.offset fields
  have isCode : (slicedResponse config message served).code =
      served.response.code := code_coapSetHeaderBlock2 _ _ _ _
  have noMessage := messageBytes_eq_nil_iff config
    (slicedResponse config message served) message.block2Offset.toNat packet
  change bytes = [] ↔ _ ∧ _ < blockHeaderLen config message served
    at noMessage
  rw [isCode] at noMessage
  by_cases empty : served.response.code = 0
  · refine iff_of_false ?_ fun agrees => agrees.1 empty
    rintro (none | ⟨-, carries, -⟩)
    · exact (noMessage.mp none).1 empty
    · have header := messageBytes_of_empty config (isCode.trans empty)
        message.block2Offset.toNat packet
      have lengths := congrArg List.length (header.symm.trans carries)
      rw [List.length_append, List.length_cons] at lengths
      omega
  rw [and_iff_right empty]
  by_cases long :
      config.coapMaxHeaderSize < blockHeaderLen config message served
  · exact iff_of_true (Or.inl (noMessage.mpr ⟨empty, long⟩)) (Or.inl long)
  rw [or_iff_right fun none => long (noMessage.mp none).2,
    or_iff_right long]
  have blockSize : (blockRequest config message).size.toNat =
      min (parseBlock value).size.toNat config.restMaxChunkSize := by
    have bound := (parseBlock value).size.toNat_lt
    unfold blockRequest
    rw [if_pos requested, UInt16.toNat_ofNat', isSize]
    exact Nat.mod_eq_of_lt (by omega)
  have sizes := toNat_parseBlock_size value
  have power : 1 ≤ 2 ^ (value.toNat % 8) ∧ 2 ^ (value.toNat % 8) ≤ 2 ^ 7 :=
    ⟨Nat.one_le_two_pow, Nat.pow_le_pow_right (by decide) (by omega)⟩
  cases rejects : blockRejected message.block2Num
      (blockRequest config message).size with
  | true =>
      refine iff_of_false ?_ ?_
      · rintro ⟨isSet, -⟩
        unfold slicedResponse blockResponse coapSetHeaderBlock2 at isSet
        rw [if_pos rejects] at isSet
        have noBlock2 := unaware.noBlock2
        unfold isOption at isSet noBlock2
        rw [show (coapSetPayload config served.response _ _).1.options =
          served.response.options from rfl, noBlock2] at isSet
        cases isSet
      · rintro ⟨encodable, chunk, -⟩
        unfold blockRejected at rejects
        simp only [Bool.or_eq_true, decide_eq_true_eq,
          UInt16.lt_iff_toNat_lt, UInt32.lt_iff_toNat_lt, gt_iff_lt,
          blockSize] at rejects
        change (_ < 16 ∨ 2048 < _) ∨ 0xFFFFF < _ at rejects
        omega
  | false =>
      obtain ⟨encodable, lower, -⟩ := blockBounds_of_not_rejected rejects
      obtain ⟨first, rest, isFirst, isBytes⟩ :=
        messageBytes_slicedResponse unaware empty (Nat.not_lt.mp long)
          inside (by omega) (by rw [blockSize]; exact Nat.min_le_right _ _)
      rw [show bytes = _ from isBytes, slicesBody_iff unaware rejects,
        and_iff_right encodable,
        and_iff_right (show 16 ≤ config.restMaxChunkSize by omega)]
      by_cases apart : MarkerApart config message served body
      · have isPayload : (if blockHeaderLen config message served =
            config.coapMaxHeaderSize + message.block2Offset.toNat then
              (0xFF : UInt8) else first) = first := by
          split
          · next fills =>
              have atStart : message.block2Offset.toNat = 0 := by omega
              rw [atStart] at isFirst
              obtain room | behind | same := apart
              · omega
              · omega
              · exact Option.some.inj
                  (same.symm.trans (head?_of_take isFirst))
          · rfl
        rw [isPayload, ← isFirst, and_iff_left apart, isOffset, isSize]
        rw [isOffset] at inside
        rw [isNum] at encodable ⊢
        rw [blockSize, slice_arithmetic unaware.fits encodable inside]
      · refine iff_of_false ?_ fun agrees => apart agrees.2
        rintro ⟨same, -⟩
        unfold MarkerApart at apart
        rw [not_or, not_or] at apart
        obtain ⟨fills, atStart, different⟩ := apart
        rw [isOffset] at atStart same
        rw [isNum] at encodable same
        have zero : (parseBlock value).num.toNat = 0 := by
          by_contra positive
          have large := Nat.le_mul_of_pos_left
            (parseBlock value).size.toNat (Nat.pos_of_ne_zero positive)
          rw [toNat_offset_of_encodable encodable] at atStart
          omega
        rw [if_pos (by omega), zero, Nat.zero_mul, List.drop_zero] at same
        exact different (head?_of_take same.symm)

/-- The answer to a request for a block of a body is an error or the block
that its Block2 option says exactly when the request meets the condition. -/
theorem prepareResponse_slices_iff {config : CoapConfig} {data : ByteMem}
    {dataLen : Nat} {coapErrorMessage : String} {parsed : ParseState}
    (isParsed : coapParseMessage config data dataLen coapErrorMessage =
      (.noError, parsed))
    (requested : isOption parsed.packet CoapOption.block2.number = true)
    {served : Served size} {packet : ByteMem} {body : List UInt8}
    (unaware : Unaware config parsed.packet served packet body) :
    let prepared := prepareResponse config parsed.packet served
    let bytes := messageBytes config prepared.response
      parsed.packet.block2Offset.toNat packet
    (IsError prepared bytes ∨ SlicesBody prepared.response bytes body) ↔
      BlockAgrees config parsed.packet served body := by
  have isBlock := block2Parsed_coapParseMessage config data dataLen
    coapErrorMessage
  rw [isParsed] at isBlock
  obtain ⟨value, fields⟩ := isBlock requested
  unfold BlockAgrees prepareResponse
  dsimp only
  rw [if_pos ⟨unaware.accepted, unaware.status⟩]
  by_cases bad : statusBadRequest ≤ served.response.code
  · exact iff_of_true (Or.inl (isError_of_code _ _ _ bad _))
      (Or.inr (Or.inl bad))
  by_cases noBlock1 : isOption parsed.packet CoapOption.block1.number =
      true ∧ isOption served.response CoapOption.block1.number = false
  · refine iff_of_true (Or.inl (Or.inl ?_)) (Or.inl noBlock1)
    unfold handleBlockwise
    dsimp only
    rw [if_pos ⟨noBlock1.1, UInt8.not_le.1 bad, by simp [noBlock1.2]⟩]
    exact (by decide : statusNotImplemented ≠ statusNoError)
  by_cases inside : parsed.packet.block2Offset.toNat < body.length
  · rw [handleBlockwise_unaware unaware requested noBlock1 inside,
      or_iff_right noBlock1, or_iff_right bad,
      or_iff_right (Nat.not_le.2 inside)]
    refine (or_congr_left ?_).trans
      (slicedResponse_iff unaware requested fields inside)
    have noError : ¬ served.status ≠ statusNoError :=
      not_not_intro unaware.status
    have goodCode : ¬ statusBadRequest ≤
        (slicedResponse config parsed.packet served).code := fun code =>
      bad (le_of_le_of_eq code (code_coapSetHeaderBlock2 _ _ _ _))
    unfold IsError
    rw [or_iff_right noError, or_iff_right goodCode]
  · rw [Nat.not_lt] at inside
    exact iff_of_true
      (Or.inl (isError_of_outOfScope unaware requested inside _))
      (Or.inr (Or.inr (Or.inl inside)))

instance (response : SentPacket) (bytes body : List UInt8) :
    Decidable (SlicesBody response bytes body) :=
  inferInstanceAs (Decidable (_ = true ∧ _ = _ ∧ (_ ↔ _)))

instance (prepared : Prepared) (bytes : List UInt8) :
    Decidable (IsError prepared bytes) :=
  inferInstanceAs (Decidable (_ ∨ _))

/-- A GET request with the value of a Block2 option. -/
def getBlock (value : UInt8) : ByteMem :=
  ByteMem.ofList [0x40, 1, 0, 7, 0xD1, 10, value]

/-- The packet of a transaction with a body behind the room for the header. -/
def bodyPacket (config : CoapConfig) (body : List UInt8) : ByteMem :=
  ByteMem.write (fun _ => 0) config.coapMaxHeaderSize body

/-- A resource that answers with a body. -/
def serveBody (config : CoapConfig) (message : ReceivedPacket)
    (body : List UInt8) : Served 1 where
  accepted := true
  status := statusNoError
  coapErrorMessage := ""
  response := (coapSetPayload config (initResponse message 0).1
    ((bodyPacket config body).shift config.coapMaxHeaderSize)
    body.length).1
  newOffset := (blockRequest config message).newOffset
  operations := []

/-- The second block of 16 bytes of a body of 20 bytes. -/
theorem prepareResponse_slices_getBlock :
    let parsed := (coapParseMessage .erConf (getBlock 0x10) 7 "").2
    let prepared := prepareResponse .erConf parsed.packet
      (serveBody .erConf parsed.packet (List.replicate 20 5))
    let bytes := messageBytes .erConf prepared.response
      parsed.packet.block2Offset.toNat
      (bodyPacket .erConf (List.replicate 20 5))
    SlicesBody prepared.response bytes (List.replicate 20 5) := by
  have isParsed : coapParseMessage .erConf (getBlock 0x10) 7 "" =
      (.noError, (coapParseMessage .erConf (getBlock 0x10) 7 "").2) :=
    Prod.ext (by decide +kernel) rfl
  have unaware : Unaware .erConf
      (coapParseMessage .erConf (getBlock 0x10) 7 "").2.packet
      (serveBody .erConf (coapParseMessage .erConf (getBlock 0x10) 7
        "").2.packet (List.replicate 20 5))
      (bodyPacket .erConf (List.replicate 20 5)) (List.replicate 20 5) :=
    ⟨rfl, rfl, rfl, rfl, by decide +kernel, by decide, by decide +kernel,
      by decide +kernel⟩
  have either := (prepareResponse_slices_iff isParsed (by decide +kernel)
    unaware).2 (Or.inr (Or.inr (Or.inr ⟨by decide +kernel,
      Or.inr ⟨by decide +kernel, by decide, Or.inl (by decide +kernel),
        Or.inr (Or.inl (by decide +kernel))⟩⟩)))
  exact either.resolve_left (by decide +kernel)

/-- A chunk size that is no power of two. -/
def chunk100 : CoapConfig where
  uintBits := 32
  coapMaxHeaderSize := 62
  restMaxChunkSize := 100
  uintBits_ge := sixteen_le_bits
  uintBits_le := bits_le_thirtyTwo
  coapMaxPacketSize_lt := by decide

/-- The first block of 128 bytes of a body of 80 bytes is sent whole as a
block of 64 bytes. -/
theorem getBlock_notSliced :
    ∃ parsed, coapParseMessage chunk100 (getBlock 0x03) 7 "" =
        (.noError, parsed) ∧
      isOption parsed.packet CoapOption.block2.number = true ∧
      Unaware chunk100 parsed.packet
        (serveBody chunk100 parsed.packet (List.replicate 80 5))
        (bodyPacket chunk100 (List.replicate 80 5))
        (List.replicate 80 5) ∧
      let prepared := prepareResponse chunk100 parsed.packet
        (serveBody chunk100 parsed.packet (List.replicate 80 5))
      let bytes := messageBytes chunk100 prepared.response
        parsed.packet.block2Offset.toNat
        (bodyPacket chunk100 (List.replicate 80 5))
      ¬ IsError prepared bytes ∧
        ¬ SlicesBody prepared.response bytes (List.replicate 80 5) :=
  ⟨(coapParseMessage chunk100 (getBlock 0x03) 7 "").2,
    Prod.ext (by decide +kernel) rfl, by decide +kernel,
    ⟨rfl, rfl, rfl, rfl, by decide +kernel, by decide, by decide +kernel,
      by decide +kernel⟩, by decide +kernel, by decide +kernel⟩

end Contiki.Coap
