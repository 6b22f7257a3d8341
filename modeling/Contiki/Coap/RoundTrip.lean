import Contiki.Coap.OptionRoundTrip

/-!
# The round trip of a CoAP message

The parser inverts the serializer.  `Progress` is the invariant of the option
loop between the options: those that the loop has passed have arrived, and
those ahead are still unset.
-/

namespace Contiki.Coap

open Contiki.Lib

/-- The state of the loop in front of the options `todo`. -/
structure Progress (sent : SentPacket) (first : ParseState)
    (todo : List CoapOption) (current : Nat) (state : ParseState) :
    Prop where
  header : packetHeader state.packet = packetHeader first.packet
  room : state.packet.options.length = optionsLength
  memory : ∀ address, current ≤ address →
    state.memory address = first.memory address
  unset : ∀ option ∈ todo, isOption state.packet option.number = false
  fresh : ∀ option ∈ todo, (stringOf option state.packet).2 = 0
  bits : ∀ option, option ∉ todo →
    isOption state.packet option.number = isOption sent option.number
  strings : ∀ option, (stringOf option state.packet).2 ≠ 0 →
    (stringOf option state.packet).1 +
      (stringOf option state.packet).2 ≤ current
  content : ∀ option, option ∉ todo →
    isOption sent option.number = true → option.kind ≠ .proxy →
      Recoverable sent option →
        receivedContent state option =
          (sentContent sent option).transmitted

/-- The value of an option depends on the memory only through its string. -/
theorem content_congr {packet : ReceivedPacket} {option : CoapOption}
    (notProxy : option.kind ≠ .proxy)
    {first second : Nat → Nat → List UInt8}
    (same : first (stringOf option packet).1 (stringOf option packet).2 =
      second (stringOf option packet).1 (stringOf option packet).2) :
    packet.content first option = packet.content second option := by
  cases option <;> first
    | rfl
    | exact congrArg OptionContent.bytes same
    | exact absurd rfl notProxy

section Step

variable {sent : SentPacket} {first before after : ParseState}
  {option : CoapOption} {todo : List CoapOption} {start finish : Nat}

theorem Progress.skip
    (progress : Progress sent first (option :: todo) start before)
    (notSet : isOption sent option.number = false) :
    Progress sent first todo start before where
  header := progress.header
  room := progress.room
  memory := progress.memory
  unset := fun other member =>
    progress.unset other (List.mem_cons_of_mem _ member)
  fresh := fun other member =>
    progress.fresh other (List.mem_cons_of_mem _ member)
  bits := by
    intro other passed
    by_cases same : other = option
    · subst same
      rw [notSet]
      exact progress.unset other List.mem_cons_self
    · exact progress.bits other (by simp [same, passed])
  strings := progress.strings
  content := by
    intro other passed isSet
    have different : other ≠ option := by
      rintro rfl
      rw [notSet] at isSet
      exact absurd isSet (by decide)
    exact progress.content other (by simp [different, passed]) isSet

theorem Progress.step
    (progress : Progress sent first (option :: todo) start before)
    (ahead : option ∉ todo) (ordered : start ≤ finish)
    (isSet : isOption sent option.number = true)
    (done : GroupDone sent option start before finish after) :
    Progress sent first todo finish after where
  header := done.only.header.trans progress.header
  room := done.only.options.trans progress.room
  memory := fun address behind =>
    (done.only.memory address (.inr behind)).trans
      (progress.memory address (by omega))
  unset := by
    intro other member
    have different : other ≠ option := fun same => ahead (same ▸ member)
    rw [done.only.bits other different]
    exact progress.unset other (List.mem_cons_of_mem _ member)
  fresh := by
    intro other member
    have different : other ≠ option := fun same => ahead (same ▸ member)
    rw [done.only.string other different]
    exact progress.fresh other (List.mem_cons_of_mem _ member)
  bits := by
    intro other passed
    by_cases same : other = option
    · subst same
      rw [done.isSet, isSet]
    · rw [done.only.bits other same]
      exact progress.bits other (by simp [same, passed])
  strings := by
    intro other nonempty
    by_cases same : other = option
    · subst same
      exact done.stringEnd nonempty
    · rw [done.only.string other same] at nonempty ⊢
      exact Nat.le_trans (progress.strings other nonempty) ordered
  content := by
    intro other passed otherSet notProxy recoverable
    by_cases same : other = option
    · subst same
      exact done.content recoverable
    · rw [← progress.content other (by simp [same, passed]) otherSet
        notProxy recoverable, receivedContent, receivedContent,
        done.only.content other same]
      apply content_congr notProxy
      -- the strings parsed before lie in front of this option
      apply ByteMem.read_congr
      intro address lower upper
      have stringEnd := progress.strings other (by omega)
      exact done.only.memory address (.inl (by omega))

end Step

variable (config : CoapConfig)

theorem coapParseOptions_serialized
    {sent : SentPacket} (wellFormed : WellFormed config sent)
    (noProxy : ∀ option : CoapOption,
      isOption sent option.number = true → option.kind ≠ .proxy)
    {first : ParseState} {dataLen : Nat} (fuel : Nat) (todo : List CoapOption)
    (sorted : (todo.map CoapOption.number).Pairwise (· < ·))
    {start previous : Nat} {before : ParseState}
    (ordered : ∀ option ∈ todo, previous ≤ option.number)
    (progress : Progress sent first todo start before) (finish : Nat)
    (finishAt :
      finish = start + (serializeOptions sent todo previous).length)
    (small : finish < start + 65536) (inside : finish ≤ dataLen)
    (enough : dataLen ≤ start + fuel)
    (stored : first.memory.read start
        (serializeOptions sent todo previous).length =
      serializeOptions sent todo previous) :
    ∃ fuel' after number,
      coapParseOptions config dataLen fuel before start previous =
          coapParseOptions config dataLen fuel' after finish number ∧
        dataLen ≤ finish + fuel' ∧
        Progress sent first [] finish after := by
  induction todo generalizing start previous fuel before with
  | nil =>
      rw [serializeOptions, List.length_nil, Nat.add_zero] at finishAt
      subst finishAt
      exact ⟨fuel, before, previous, rfl, enough, progress⟩
  | cons option todo inductionHypothesis =>
      rw [List.map_cons, List.pairwise_cons] at sorted
      have later : ∀ other ∈ todo, option.number ≤ other.number :=
        fun other member => Nat.le_of_lt
          (sorted.1 other.number (List.mem_map_of_mem member))
      cases isSet : isOption sent option.number with
      | false =>
          simp only [serializeOptions, isSet, Bool.false_eq_true,
            if_false] at finishAt stored
          exact inductionHypothesis _ sorted.2
            (fun other member =>
              ordered other (List.mem_cons_of_mem _ member))
            (progress.skip isSet) finishAt small enough stored
      | true =>
          simp only [serializeOptions, isSet, if_true,
            List.length_append] at finishAt stored
          rw [ByteMem.read_add] at stored
          obtain ⟨optionStored, restStored⟩ :=
            List.append_inj stored (by simp)
          have sameMemory : before.memory.read start
                (serializeSetOption sent option previous).length =
              first.memory.read start
                (serializeSetOption sent option previous).length :=
            ByteMem.read_congr fun address lower _ =>
              progress.memory address lower
          obtain ⟨middle, after, iteration, enough, done⟩ :=
            coapParseOptions_group wellFormed (noProxy option isSet)
              isSet progress.room
              (progress.fresh option List.mem_cons_self)
              (ordered option List.mem_cons_self) rfl (by omega)
              (by omega) enough (sameMemory.trans optionStored)
          have ahead : option ∉ todo := fun member =>
            Nat.lt_irrefl _
              (sorted.1 option.number (List.mem_map_of_mem member))
          rw [iteration]
          exact inductionHypothesis _ sorted.2 later
            (progress.step ahead (Nat.le_add_right _ _) isSet done)
            (by omega) (by omega) enough restStored

/-! ## The whole message -/

/-- A parsed packet says what the packet that was sent says.  The strings in
parts are compared where they can be put together from their parts. -/
structure SameMessage (sent : SentPacket) (state : ParseState) :
    Prop where
  type : state.packet.type = sent.type
  code : state.packet.code = sent.code
  mid : state.packet.mid = sent.mid
  token : state.packet.token = sent.token
  payload :
    state.memory.read state.packet.payload state.packet.payloadLen =
      sent.payload.read 0 sent.payloadLen
  options : ∀ option : CoapOption,
    isOption state.packet option.number = isOption sent option.number
  content : ∀ option : CoapOption,
    isOption sent option.number = true → Recoverable sent option →
      receivedContent state option =
        (sentContent sent option).transmitted

private theorem firstByte_decoded :
    ∀ type ∈ [CoapMessageType.con, .non, .ack, .rst],
      ∀ tokenLen < 9,
        let first := serializedFirstByte type tokenLen
        (0xC0 &&& first) >>> 6 = 1 ∧
          CoapMessageType.ofByte ((0x30 &&& first) >>> 4) = type ∧
          min coapTokenLen (0x0F &&& first).toNat = tokenLen := by
  decide

private theorem mid_decoded (mid : UInt16) :
    (mid >>> 8).toUInt8.toUInt16 <<< 8 ||| mid.toUInt8.toUInt16 =
      mid := by
  have bound := mid.toNat_lt
  rw [← UInt16.toNat_inj, UInt16.toNat_or, UInt16.toNat_shiftLeft,
    UInt8.toNat_toUInt16, UInt8.toNat_toUInt16, UInt16.toNat_toUInt8,
    UInt16.toNat_toUInt8, UInt16.toNat_shiftRight]
  change ((mid.toNat >>> 8 % 256) <<< 8 % 65536) ||| mid.toNat % 256 = _
  have high : mid.toNat >>> 8 % 256 = mid.toNat / 256 := by omega
  rw [high, Nat.mod_eq_of_lt (by omega),
    ← Nat.shiftLeft_add_eq_or_of_lt (by omega), Nat.shiftLeft_eq]
  omega

theorem coapParseHeader_encoded {sent : SentPacket} {data : ByteMem}
    (token : sent.token.length ≤ coapTokenLen)
    (stored : data.read 0 4 = coapSerializeHeader sent) :
    (0xC0 &&& data 0) >>> 6 = 1 ∧
      parsedTokenLen data = sent.token.length ∧
      packetHeader (coapParseHeader data) =
        (sent.type, sent.code, sent.mid,
          List.replicate sent.token.length 0, 0) := by
  have listed : sent.type ∈ [CoapMessageType.con, .non, .ack, .rst] := by
    cases sent.type <;> decide
  have decoded := firstByte_decoded sent.type listed sent.token.length
    (Nat.lt_succ_of_le token)
  simp only [coapSerializeHeader, ByteMem.read_succ, ByteMem.read_zero,
    List.cons.injEq, and_true] at stored
  obtain ⟨first, code, high, low⟩ := stored
  have tokenLen : parsedTokenLen data = sent.token.length := by
    rw [parsedTokenLen, first]
    exact decoded.2.2
  refine ⟨first ▸ decoded.1, tokenLen, ?_⟩
  simp only [packetHeader, coapParseHeader, CoapPacket.zero, tokenLen]
  rw [first, code, high, low, decoded.2.1, mid_decoded]

theorem coapParseOptions_payload_encoded {config : CoapConfig}
    {sent : SentPacket} {first state : ParseState}
    {current dataLen fuel : Nat} (number : Nat)
    (progress : Progress sent first [] current state)
    (bound : sent.payloadLen ≤ config.restMaxChunkSize)
    (fresh : state.packet.payloadLen = 0)
    (dataLenAt : dataLen = current +
      ((if sent.payloadLen ≠ 0 then [0xFF] else []) ++
        sent.payload.read 0 sent.payloadLen : List UInt8).length)
    (enough : dataLen ≤ current + fuel)
    (stored : first.memory.read current (dataLen - current) =
      (if sent.payloadLen ≠ 0 then [0xFF] else []) ++
        sent.payload.read 0 sent.payloadLen) :
    ∃ after, coapParseOptions config dataLen fuel state current number =
        (.noError, after) ∧
      after.memory.read after.packet.payload after.packet.payloadLen =
        sent.payload.read 0 sent.payloadLen ∧
      after.packet.type = state.packet.type ∧
      after.packet.code = state.packet.code ∧
      after.packet.mid = state.packet.mid ∧
      after.packet.token = state.packet.token ∧
      (∀ option : CoapOption, isOption after.packet option.number =
        isOption state.packet option.number) ∧
      (∀ option : CoapOption, option.kind ≠ .proxy →
        receivedContent after option = receivedContent state option) := by
  by_cases empty : sent.payloadLen = 0
  · simp only [empty, ne_eq, not_true_eq_false, if_false,
      List.nil_append, ByteMem.read_zero, List.length_nil,
      Nat.add_zero] at dataLenAt ⊢
    refine ⟨state, coapParseOptions_done config dataLen fuel state
      (by omega), ?_, rfl, rfl, rfl, rfl, fun _ => rfl, fun _ _ => rfl⟩
    rw [fresh, ByteMem.read_zero]
  · have positive : sent.payloadLen ≠ 0 := empty
    simp only [if_pos positive, List.length_append,
      List.length_singleton, ByteMem.length_read] at dataLenAt
    rw [if_pos positive,
      show dataLen - current = sent.payloadLen + 1 by omega,
      ByteMem.read_succ, List.singleton_append, List.cons.injEq] at stored
    obtain ⟨marker, payload⟩ := stored
    have sameMemory := progress.memory
    obtain ⟨rest, rfl⟩ : ∃ rest, fuel = rest + 1 := ⟨fuel - 1, by omega⟩
    have isMarker : state.memory current &&& 0xF0 = 0xF0 := by
      rw [sameMemory current (Nat.le_refl _), marker]
      decide
    refine ⟨_, coapParseOptions_payload config dataLen rest state
      (by omega) isMarker, ?_, rfl, rfl, rfl, rfl, fun _ => rfl, ?_⟩
    · have fits := config.coapMaxPacketSize_lt
      have length : (dataLen - (current + 1)) % 65536 =
          sent.payloadLen := by
        omega
      simp only [coapParsePayload, length,
        if_neg (show ¬ sent.payloadLen > config.restMaxChunkSize by
          omega)]
      rw [ByteMem.read_write_disjoint (.inl (Nat.le_refl _)), ← payload]
      exact ByteMem.read_congr fun address lower _ =>
        sameMemory address (by omega)
    · intro option notProxy
      have sameFields : ∀ load : Nat → Nat → List UInt8,
          (coapParsePayload config
            { state with reads := state.reads ++ [current] }
            dataLen current).packet.content load option =
              state.packet.content load option := by
        intro load
        cases option <;> rfl
      rw [receivedContent, receivedContent, sameFields]
      apply content_congr notProxy
      apply ByteMem.read_congr
      intro address _ upper
      -- the terminating zero lies behind the payload
      have stringEnd := progress.strings option (by omega)
      exact ByteMem.write_of_lt (by omega)

theorem progress_tokenState (sent : SentPacket) (data : ByteMem)
    (coapErrorMessage : String) (start : Nat) :
    Progress sent (tokenState data coapErrorMessage) CoapOption.all start
      (tokenState data coapErrorMessage) where
  header := rfl
  room := List.length_replicate
  memory := fun _ _ => rfl
  unset := fun option _ => isOption_zero (0 : Nat) option.number
  fresh := fun option _ => by cases option <;> rfl
  bits := fun option absent =>
    absurd (CoapOption.mem_all option) absent
  strings := fun option nonempty => by
    cases option <;> exact absurd rfl nonempty
  content := fun option absent =>
    absurd (CoapOption.mem_all option) absent

theorem coapParseMessage_of_wellFormed {config : CoapConfig}
    {sent : SentPacket} (wellFormed : WellFormed config sent)
    (notEmpty : sent.code ≠ 0)
    (noProxyUri : isOption sent CoapOption.proxyUri.number = false)
    {bytes : List UInt8}
    (serialized : coapSerializeMessage config sent = .ok bytes)
    (fits : bytes.length ≤ config.coapMaxPacketSize)
    {data : ByteMem} (stored : data.read 0 bytes.length = bytes)
    (coapErrorMessage : String) :
    (coapParseMessage config data bytes.length coapErrorMessage).1 =
        .noError ∧
      SameMessage sent
        (coapParseMessage config data bytes.length
          coapErrorMessage).2 := by
  have noProxy : ∀ option : CoapOption,
      isOption sent option.number = true → option.kind ≠ .proxy := by
    intro option isSet
    have scheme := wellFormed.proxyScheme
    cases option <;> first
      | exact OptionKind.noConfusion
      | simp_all
  simp only [coapSerializeMessage, if_neg notEmpty] at serialized
  split at serialized
  case isFalse => exact absurd serialized (by simp)
  have bytesAre := (Except.ok.inj serialized).symm
  -- the datagram is a header, a token, options, and a payload
  rw [List.append_assoc, List.append_assoc, List.append_assoc]
    at bytesAre
  generalize optionsAre : serializeOptions sent CoapOption.all 0 = options
    at bytesAre
  generalize payloadIs :
    (if sent.payloadLen ≠ 0 then [0xFF] else []) ++
      sent.payload.read 0 sent.payloadLen = payload at bytesAre
  have length : bytes.length = 4 + (sent.token.length +
      (options.length + payload.length)) := by
    rw [bytesAre, List.length_append, List.length_append,
      List.length_append]
    rfl
  rw [length, bytesAre, ByteMem.read_add] at stored
  obtain ⟨header, stored⟩ := List.append_inj stored (by
    rw [ByteMem.length_read]
    rfl)
  rw [ByteMem.read_add] at stored
  obtain ⟨token, stored⟩ := List.append_inj stored (by simp)
  rw [ByteMem.read_add] at stored
  obtain ⟨optionsStored, payloadStored⟩ :=
    List.append_inj stored (by simp)
  have small := config.coapMaxPacketSize_lt
  rw [CoapConfig.coapMaxPacketSize, length] at fits
  -- the header and the token
  obtain ⟨version, tokenLen, headerFields⟩ :=
    coapParseHeader_encoded wellFormed.token header
  rw [coapParseMessage_version_one config bytes.length coapErrorMessage
    version, tokenLen]
  -- the options
  obtain ⟨fuel, middle, number, iteration, enough, progress⟩ :=
    coapParseOptions_serialized config wellFormed noProxy bytes.length
      CoapOption.all (by decide) (fun _ _ => Nat.zero_le _)
      (progress_tokenState sent data coapErrorMessage
        (coapHeaderLen + sent.token.length))
      (coapHeaderLen + sent.token.length + options.length)
      (by rw [optionsAre]) (by omega)
      (show _ ≤ bytes.length by simp only [coapHeaderLen]; omega)
      (by omega)
      (by rw [optionsAre, ← Nat.zero_add coapHeaderLen]
          exact optionsStored)
  rw [iteration]
  -- the payload
  have fields : packetHeader middle.packet =
      (sent.type, sent.code, sent.mid, sent.token, 0) := by
    rw [progress.header]
    simp only [packetHeader, Prod.mk.injEq] at headerFields ⊢
    obtain ⟨type, code, mid, _, payloadLen⟩ := headerFields
    refine ⟨type, code, mid, ?_, payloadLen⟩
    rw [tokenState, tokenLen]
    exact token
  simp only [packetHeader, Prod.mk.injEq] at fields
  obtain ⟨type, code, mid, sameToken, payloadLen⟩ := fields
  have rest : bytes.length -
      (coapHeaderLen + sent.token.length + options.length) =
        payload.length := by
    rw [length]
    simp only [coapHeaderLen]
    omega
  obtain ⟨after, final, payload, afterType, afterCode, afterMid,
      afterToken, afterBits, afterContent⟩ :=
    coapParseOptions_payload_encoded number progress wellFormed.payload
      payloadLen
      (by
        rw [payloadIs, length]
        simp only [coapHeaderLen]
        omega)
      enough
      (by
        rw [payloadIs, rest]
        rw [Nat.zero_add] at payloadStored
        exact payloadStored)
  rw [final]
  refine ⟨rfl, ?_⟩
  exact
    { type := afterType.trans type
      code := afterCode.trans code
      mid := afterMid.trans mid
      token := afterToken.trans sameToken
      payload := payload
      options := fun option => (afterBits option).trans
        (progress.bits option List.not_mem_nil)
      content := fun option isSet recoverable =>
        (afterContent option (noProxy option isSet)).trans
          (progress.content option List.not_mem_nil isSet
            (noProxy option isSet) recoverable) }

theorem SetterCall.apply_code (packet : SentPacket) (call : SetterCall) :
    (call.apply config packet).code = packet.code := by
  cases call with
  | locationPath path =>
      simp only [SetterCall.apply, coapSetHeaderLocationPath]
      split <;> split <;> rfl
  | block2 num more size =>
      simp only [SetterCall.apply, coapSetHeaderBlock2]
      split <;> rfl
  | block1 num more size =>
      simp only [SetterCall.apply, coapSetHeaderBlock1]
      split <;> rfl
  | _ =>
      rfl

theorem build_code (type : CoapMessageType)
    (code : UInt8) (mid : UInt16) (calls : List SetterCall) :
    (build config type code mid calls).code = code := by
  have run : ∀ (calls : List SetterCall) (packet : SentPacket),
      (calls.foldl (fun packet call => call.apply config packet)
        packet).code = packet.code := by
    intro calls
    induction calls with
    | nil =>
        exact fun _ => rfl
    | cons call calls inductionHypothesis =>
        exact fun packet => (inductionHypothesis _).trans
          (call.apply_code config packet)
  exact run calls _

/-- Parsing the serialization of a packet recovers it, for every packet that
the setters build with a code and without a Proxy-Uri. -/
theorem coapParseMessage_coapSerializeMessage (config : CoapConfig)
    (type : CoapMessageType) (code : UInt8) (mid : UInt16)
    (calls : List SetterCall)
    (notEmpty : code ≠ 0)
    (noProxyUri : isOption (build config type code mid calls)
      CoapOption.proxyUri.number = false)
    {bytes : List UInt8}
    (serialized : coapSerializeMessage config
      (build config type code mid calls) = .ok bytes)
    (fits : bytes.length ≤ config.coapMaxPacketSize)
    {data : ByteMem} (stored : data.read 0 bytes.length = bytes)
    (coapErrorMessage : String) :
    (coapParseMessage config data bytes.length coapErrorMessage).1 =
        .noError ∧
      SameMessage (build config type code mid calls)
        (coapParseMessage config data bytes.length
          coapErrorMessage).2 :=
  coapParseMessage_of_wellFormed
    (wellFormed_build config type code mid calls)
    (by rw [build_code]; exact notEmpty) noProxyUri serialized fits
    stored coapErrorMessage

/-- A request with a token, a path with an empty segment, a block option and
a payload. -/
def sampleRequest : List SetterCall :=
  [.token [1, 2, 3],
    .uriPath ⟨[47, 97, 47, 47, 98], by simp, fun _ => 0⟩,
    .maxAge 300,
    .block1 5 1 64,
    .payload (ByteMem.ofList [9, 8, 7]) 3]

def sampleDatagram : List UInt8 :=
  [67, 1, 18, 52, 1, 2, 3, 177, 97, 2, 47, 98, 50, 1, 44, 209, 0, 90,
    255, 9, 8, 7]

theorem coapParseMessage_sampleRequest :
    let parsed := coapParseMessage .erConf (ByteMem.ofList sampleDatagram)
      sampleDatagram.length ""
    parsed.1 = .noError ∧
      SameMessage (build .erConf .con 1 0x1234 sampleRequest) parsed.2 :=
  coapParseMessage_coapSerializeMessage .erConf .con 1 0x1234
    sampleRequest (by decide) (by decide) rfl (by decide)
    (ByteMem.read_ofList _) ""

/-- The status and the packet that arrive for a packet that was built. -/
def transmit (config : CoapConfig) (sent : SentPacket) :
    Except String (CoapStatus × ParseState) :=
  (coapSerializeMessage config sent).map fun bytes =>
    coapParseMessage config (ByteMem.ofList bytes) bytes.length ""

/-- Three packets that do not arrive as they were built: one with a
Proxy-Uri, one with the code of an empty message, and one with a block size
that is no power of two. -/
theorem transmit_not_identity :
    (transmit .erConf (build .erConf .con 1 7
      [.proxyUri ⟨[97], by simp, fun _ => 0⟩])).map Prod.fst =
        .ok .proxyingNotSupported ∧
    (transmit .erConf (build .erConf .con 0 7 [.maxAge 300])).map
        (fun parsed => isOption parsed.2.packet
          CoapOption.maxAge.number) = .ok false ∧
    (transmit .erConf (build .erConf .con 1 7 [.block2 0 0 100])).map
        (fun parsed => parsed.2.packet.block2Size) = .ok 64 := by
  refine ⟨rfl, rfl, rfl⟩

end Contiki.Coap
