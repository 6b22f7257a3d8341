import Contiki.Coap.Build

/-!
# The round trip of one option

`OptionContent` is the value of an option apart from where its bytes lie, and
`GroupDone` says what the option loop of the parser does over everything that
the serializer wrote for one option.  An option is written as one part, or as
one part for each segment of its string; `Merging` is the invariant of the
loop between the parts.
-/

namespace Contiki.Coap

open Contiki.Lib

/-! ## Option values -/

/-- The value of an option. -/
inductive OptionContent where
  | int (value : Nat)
  | bytes (bytes : List UInt8)
  | block (num : UInt32) (more : Bool) (size offset : Nat)
  | empty
  deriving DecidableEq

variable {Pointer : Type}

/-- The value of an option in a packet, where `load` reads a string. -/
def CoapPacket.content (packet : CoapPacket Pointer)
    (load : Pointer → Nat → List UInt8) : CoapOption → OptionContent
  | .ifMatch => .bytes packet.ifMatch
  | .uriHost => .bytes (load packet.uriHost packet.uriHostLen)
  | .etag => .bytes packet.etag
  | .ifNoneMatch => .empty
  | .observe => .int packet.observe.toNat
  | .uriPort => .int packet.uriPort.toNat
  | .locationPath =>
      .bytes (load packet.locationPath packet.locationPathLen)
  | .uriPath => .bytes (load packet.uriPath packet.uriPathLen)
  | .contentFormat => .int packet.contentFormat
  | .maxAge => .int packet.maxAge.toNat
  | .uriQuery => .bytes (load packet.uriQuery packet.uriQueryLen)
  | .accept => .int packet.accept
  | .locationQuery =>
      .bytes (load packet.locationQuery packet.locationQueryLen)
  | .block2 =>
      .block packet.block2Num (packet.block2More != 0)
        packet.block2Size.toNat packet.block2Offset.toNat
  | .block1 =>
      .block packet.block1Num (packet.block1More != 0)
        packet.block1Size.toNat packet.block1Offset.toNat
  | .size2 => .int packet.size2.toNat
  | .proxyUri => .bytes (load packet.proxyUri packet.proxyUriLen)
  | .proxyScheme => .bytes (load packet.proxyScheme packet.proxySchemeLen)
  | .size1 => .int packet.size1.toNat

/-- A block size is transmitted as the largest power of two in it, and the
offset is that of the block with this size. -/
def OptionContent.transmitted : OptionContent → OptionContent
  | .block num more size _ =>
      .block num more (2 ^ size.log2) (num.toNat * 2 ^ size.log2)
  | content => content

/-- The value of an option in a packet under construction. -/
def sentContent (packet : SentPacket) (option : CoapOption) :
    OptionContent :=
  packet.content (fun string length => string.read 0 length) option

/-- The value of an option after parsing. -/
def receivedContent (state : ParseState) (option : CoapOption) :
    OptionContent :=
  state.packet.content state.memory.read option

/-- The separator of the options that are written in parts. -/
def CoapOption.separator? : CoapOption → Option UInt8
  | .locationPath => some slash
  | .uriPath => some slash
  | .uriQuery => some ampersand
  | .locationQuery => some ampersand
  | _ => none

/-- A string that is written in parts can be put together from them. -/
def Recoverable (packet : SentPacket) (option : CoapOption) : Prop :=
  ∀ separator ∈ option.separator?, ∀ bytes,
    sentContent packet option = .bytes bytes → Separable separator bytes

/-! ## The parts of an option -/

/-- The value that an integer option is written with. -/
def sentInt (packet : SentPacket) : CoapOption → UInt32
  | .observe => packet.observe
  | .uriPort => packet.uriPort.toUInt32
  | .contentFormat => UInt32.ofNat packet.contentFormat
  | .maxAge => packet.maxAge
  | .accept => UInt32.ofNat packet.accept
  | .block2 =>
      blockValue packet.block2Num packet.block2More packet.block2Size
  | .block1 =>
      blockValue packet.block1Num packet.block1More packet.block1Size
  | .size2 => packet.size2
  | .size1 => packet.size1
  | _ => 0

/-- The values of the options that are written for one option. -/
def sentParts (packet : SentPacket) : CoapOption → List (List UInt8)
  | .ifMatch => [packet.ifMatch]
  | .etag => [packet.etag]
  | .uriHost => [packet.uriHost.read 0 packet.uriHostLen]
  | .proxyUri => [packet.proxyUri.read 0 packet.proxyUriLen]
  | .proxyScheme => [packet.proxyScheme.read 0 packet.proxySchemeLen]
  | .locationPath =>
      stringParts packet.locationPath packet.locationPathLen slash
        (packet.locationPathLen + 2) 0 0
  | .uriPath =>
      stringParts packet.uriPath packet.uriPathLen slash
        (packet.uriPathLen + 2) 0 0
  | .uriQuery =>
      stringParts packet.uriQuery packet.uriQueryLen ampersand
        (packet.uriQueryLen + 2) 0 0
  | .locationQuery =>
      stringParts packet.locationQuery packet.locationQueryLen ampersand
        (packet.locationQueryLen + 2) 0 0
  | option => [intOptionBytes (sentInt packet option)]

private theorem serializeInt_eq (number currentNumber : Nat)
    (value : UInt32) :
    coapSerializeIntOption number currentNumber value =
      encodeParts number currentNumber [intOptionBytes value] := by
  simp [coapSerializeIntOption, encodeParts, length_intOptionBytes]

private theorem serializeWhole_eq (number currentNumber : Nat)
    (array : ByteMem) (length : Nat) :
    coapSerializeArrayOption number currentNumber array length 0 =
      encodeParts number currentNumber [array.read 0 length] := by
  simp [coapSerializeArrayOption, encodeParts]

private theorem serializeSplit_eq (number currentNumber : Nat)
    (array : ByteMem) (length : Nat) {splitChar : UInt8}
    (split : splitChar ≠ 0) :
    coapSerializeArrayOption number currentNumber array length
        splitChar =
      encodeParts number currentNumber
        (stringParts array length splitChar (length + 2) 0 0) := by
  rw [coapSerializeArrayOption, if_pos split, serializeParts_eq]

theorem serializeSetOption_eq (packet : SentPacket)
    (option : CoapOption) (currentNumber : Nat) :
    serializeSetOption packet option currentNumber =
      encodeParts option.number currentNumber
        (sentParts packet option) := by
  have slashSplit : slash ≠ 0 := by decide
  have ampersandSplit : ampersand ≠ 0 := by decide
  cases option
  case ifNoneMatch =>
    simp only [serializeSetOption, sentParts, sentInt, serializeInt_eq,
      Nat.sub_self]
    rfl
  all_goals
    simp only [serializeSetOption, sentParts, sentInt, serializeInt_eq,
      serializeWhole_eq, serializeSplit_eq _ _ _ _ slashSplit,
      serializeSplit_eq _ _ _ _ ampersandSplit, ByteMem.read_ofList]

theorem sentParts_ne_nil (packet : SentPacket) (option : CoapOption) :
    sentParts packet option ≠ [] := by
  have split : ∀ (array : ByteMem) (length : Nat) (separator : UInt8),
      stringParts array length separator (length + 2) 0 0 ≠ [] :=
    fun array length separator =>
      stringParts_ne_nil array length separator _ (Nat.zero_le _)
        (by omega)
  cases option <;> first | exact split _ _ _ | exact List.cons_ne_nil _ _

/-! ## What parsing one option leaves alone -/

/-- The fields outside the options that the parser sets before the first
option. -/
def packetHeader (packet : CoapPacket Pointer) :
    CoapMessageType × UInt8 × UInt16 × List UInt8 × Nat :=
  (packet.type, packet.code, packet.mid, packet.token, packet.payloadLen)

/-- Two packets that differ in the fields of one option only. -/
structure SameButFields (option : CoapOption)
    (before after : ReceivedPacket) : Prop where
  header : packetHeader after = packetHeader before
  options : after.options = before.options
  content : ∀ other, other ≠ option → ∀ load : Nat → Nat → List UInt8,
    after.content load other = before.content load other
  string : ∀ other, other ≠ option →
    stringOf other after = stringOf other before

variable (sent : SentPacket) (config : CoapConfig) (option : CoapOption)

theorem sameButFields_storeInt (value : UInt32) (packet : ReceivedPacket) :
    SameButFields option packet (storeInt config option value packet)
    where
  header := by cases option <;> rfl
  options := by cases option <;> rfl
  content := by
    intro other different load
    cases option <;> first
      | rfl
      | (cases other <;> first | rfl | exact absurd rfl different)
  string := by
    intro other _
    cases option <;> first | rfl | (cases other <;> rfl)

theorem sameButFields_storeBytes
    (bytes : List UInt8) (packet : ReceivedPacket) :
    SameButFields option packet (storeBytes option bytes packet) where
  header := by cases option <;> rfl
  options := by cases option <;> rfl
  content := by
    intro other different load
    cases option <;> first
      | rfl
      | (cases other <;> first | rfl | exact absurd rfl different)
  string := by
    intro other _
    cases option <;> first | rfl | (cases other <;> rfl)

theorem sameButFields_storeString
    (pointer length : Nat) (packet : ReceivedPacket) :
    SameButFields option packet
      (storeString option pointer length packet) where
  header := by cases option <;> rfl
  options := by cases option <;> rfl
  content := by
    intro other different load
    cases option <;> first
      | rfl
      | (cases other <;> first | rfl | exact absurd rfl different)
  string := by
    intro other different
    cases option <;> first
      | rfl
      | (cases other <;> first | rfl | exact absurd rfl different)

/-- Parsing the part of the datagram from `start` to `finish` concerned one
option only. -/
structure OnlyOption (option : CoapOption) (start : Nat)
    (before : ParseState) (finish : Nat) (after : ParseState) : Prop where
  header : packetHeader after.packet = packetHeader before.packet
  options : after.packet.options.length = before.packet.options.length
  bits : ∀ other, other ≠ option →
    isOption after.packet other.number =
      isOption before.packet other.number
  content : ∀ other, other ≠ option → ∀ load : Nat → Nat → List UInt8,
    after.packet.content load other = before.packet.content load other
  string : ∀ other, other ≠ option →
    stringOf other after.packet = stringOf other before.packet
  memory : ∀ address, address < start ∨ finish ≤ address →
    after.memory address = before.memory address

namespace OnlyOption

variable {option : CoapOption} {start middle finish : Nat}
  {before between after : ParseState}

theorem refl (option : CoapOption) (start : Nat)
    (state : ParseState) : OnlyOption option start state start state where
  header := rfl
  options := rfl
  bits := fun _ _ => rfl
  content := fun _ _ _ => rfl
  string := fun _ _ => rfl
  memory := fun _ _ => rfl

theorem trans {middle : Nat}
    (first : OnlyOption option start before middle between)
    (second : OnlyOption option start between finish after)
    (ordered : middle ≤ finish) :
    OnlyOption option start before finish after where
  header := second.header.trans first.header
  options := second.options.trans first.options
  bits := fun other different =>
    (second.bits other different).trans (first.bits other different)
  content := fun other different load =>
    (second.content other different load).trans
      (first.content other different load)
  string := fun other different =>
    (second.string other different).trans (first.string other different)
  memory := fun address outside =>
    (second.memory address outside).trans
      (first.memory address (by omega))

theorem of_fields
    (same : SameButFields option (setOption before.packet option.number)
      after.packet)
    (memory : ∀ address, address < start ∨ finish ≤ address →
      after.memory address = before.memory address) :
    OnlyOption option start before finish after where
  header := same.header
  options := by
    rw [same.options, length_options_setOption]
  bits := by
    intro other different
    have bit : isOption after.packet other.number =
        isOption (setOption before.packet option.number)
          other.number := by
      rw [isOption, isOption, same.options]
    rw [bit]
    exact isOption_setOption_of_ne _ fun equal =>
      different (CoapOption.number_injective equal).symm
  content := by
    intro other different load
    rw [same.content other different load]
    cases other <;> rfl
  string := by
    intro other different
    rw [same.string other different]
    cases other <;> rfl
  memory := memory

end OnlyOption

/-- The loop has parsed all parts of an option. -/
structure GroupDone (sent : SentPacket) (option : CoapOption)
    (start : Nat) (before : ParseState) (finish : Nat)
    (after : ParseState) : Prop where
  only : OnlyOption option start before finish after
  isSet : isOption after.packet option.number = true
  stringEnd : (stringOf option after.packet).2 ≠ 0 →
    (stringOf option after.packet).1 +
      (stringOf option after.packet).2 ≤ finish
  content : Recoverable sent option →
    receivedContent after option =
      (sentContent sent option).transmitted

/-! ## Parsing one option -/

/-- How the parser treats the value of an option. -/
inductive OptionKind where
  | int
  | bytes
  | flag
  | whole
  | parts (separator : UInt8)
  | proxy
  deriving DecidableEq

def CoapOption.kind : CoapOption → OptionKind
  | .etag | .ifMatch => .bytes
  | .ifNoneMatch => .flag
  | .uriHost => .whole
  | .locationPath | .uriPath => .parts slash
  | .uriQuery | .locationQuery => .parts ampersand
  | .proxyUri | .proxyScheme => .proxy
  | _ => .int

/-- The state after the `switch` for an option. -/
def received (config : CoapConfig) (option : CoapOption)
    (state : ParseState) (current length : Nat) : ParseState :=
  match option.kind with
  | .int => state.intOption current length (storeInt config option)
  | .bytes => state.byteOption current length (storeBytes option)
  | .flag =>
      { state with packet := { state.packet with ifNoneMatch := 1 } }
  | .whole =>
      { state with
        packet := storeString option current length state.packet }
  | .parts separator =>
      state.multiOption current length separator (stringOf option)
        (storeString option)
  | .proxy => state

theorem coapParseOption_received
    {option : CoapOption} (notProxy : option.kind ≠ .proxy)
    (state : ParseState) (current length : Nat) :
    coapParseOption config state option.number current length =
      (none, received config option state current length) := by
  cases option <;> first | rfl | exact absurd rfl notProxy

theorem coapParseOptions_encoded (fuel : Nat)
    {dataLen current previous : Nat} {option : CoapOption}
    {state : ParseState} {part : List UInt8} (notProxy : option.kind ≠ .proxy)
    (ordered : previous ≤ option.number) (partBound : part.length < 65536)
    (inside : current < dataLen)
    (stored :
      state.memory.read current
          (coapSetOptionHeader (option.number - previous)
            part.length).length =
        coapSetOptionHeader (option.number - previous) part.length) :
    ∃ opened : ParseState,
      opened.packet = setOption state.packet option.number ∧
        opened.memory = state.memory ∧
        coapParseOptions config dataLen (fuel + 1) state current
            previous =
          coapParseOptions config dataLen fuel
            (received config option opened
              (current + (coapSetOptionHeader (option.number - previous)
                part.length).length) part.length)
            (current + (coapSetOptionHeader (option.number - previous)
              part.length).length + part.length)
            option.number := by
  have small : option.number < 65536 :=
    Nat.lt_of_le_of_lt option.number_le (by decide)
  obtain ⟨notPayload, delta, length, value⟩ :=
    coapParseOptionHeader_encoded config (by omega) partBound stored
  have number : nextNumber config state.memory current previous =
      option.number := by
    rw [nextNumber, delta, Nat.add_sub_cancel' ordered,
      config.toUnsigned_of_lt small]
  refine ⟨optionState config state current previous, ?_, rfl, ?_⟩
  · rw [optionState, number]
  · rw [coapParseOptions_option config dataLen fuel state inside
      notPayload, optionResult, number, length, value,
      coapParseOption_received config notProxy, optionEnd, length, value]

theorem content_block {num : UInt32} {size : UInt16}
    (bounds : BlockBounds num size) (more : UInt8) (offset : Nat) :
    OptionContent.block (parseBlock (blockValue num more size)).num
        ((parseBlock (blockValue num more size)).more != 0)
        (parseBlock (blockValue num more size)).size.toNat
        (parseBlock (blockValue num more size)).offset.toNat =
      (OptionContent.block num (more != 0) size.toNat
        offset).transmitted := by
  obtain ⟨sameNum, sameMore, sameSize, sameOffset⟩ :=
    parseBlock_blockValue more bounds.num bounds.lower bounds.upper
  have flag : ((parseBlock (blockValue num more size)).more != 0) =
      (more != 0) := by
    rw [Bool.eq_iff_iff, bne_iff_ne, bne_iff_ne]
    exact sameMore
  rw [OptionContent.transmitted, sameNum, flag, sameSize, sameOffset]

theorem content_storeInt {config : CoapConfig} {sent : SentPacket}
    (wellFormed : WellFormed config sent) {option : CoapOption}
    (kind : option.kind = .int)
    (isSet : isOption sent option.number = true)
    (packet : ReceivedPacket) (load : Nat → Nat → List UInt8) :
    (storeInt config option (sentInt sent option) packet).content load
        option =
      (sentContent sent option).transmitted := by
  have unsigned : ∀ value < 2 ^ config.uintBits,
      config.toUnsigned (UInt32.ofNat value).toNat = value := by
    intro value bound
    have wide : 2 ^ config.uintBits ≤ 2 ^ 32 :=
      Nat.pow_le_pow_right (by decide) config.uintBits_le
    rw [UInt32.toNat_ofNat_of_lt' (Nat.lt_of_lt_of_le bound wide)]
    exact Nat.mod_eq_of_lt bound
  cases option
  case contentFormat =>
    exact congrArg OptionContent.int
      (unsigned _ wellFormed.contentFormat)
  case accept =>
    exact congrArg OptionContent.int (unsigned _ wellFormed.accept)
  case uriPort =>
    simp [storeInt, sentInt, CoapPacket.content, sentContent,
      OptionContent.transmitted]
  case block2 =>
    exact content_block (wellFormed.block2 isSet) _ _
  case block1 =>
    exact content_block (wellFormed.block1 isSet) _ _
  all_goals first | rfl | exact absurd kind (by decide)

theorem isOption_setOption_option (packet : ReceivedPacket)
    (option : CoapOption)
    (room : packet.options.length = optionsLength) :
    isOption (setOption packet option.number) option.number = true := by
  apply isOption_setOption_self
  rw [room]
  cases option <;> decide

/-- An option written as a single part, whose value ends up in the fields of
the option. -/
theorem groupDone_of_fields {option : CoapOption}
    (start finish : Nat) {before opened : ParseState} (after : ParseState)
    (openedPacket :
      opened.packet = setOption before.packet option.number)
    (openedMemory : opened.memory = before.memory)
    (room : before.packet.options.length = optionsLength)
    (fields : SameButFields option opened.packet after.packet)
    (memory : after.memory = opened.memory)
    (stringEnd : (stringOf option after.packet).2 ≠ 0 →
      (stringOf option after.packet).1 +
        (stringOf option after.packet).2 ≤ finish)
    (content : receivedContent after option =
      (sentContent sent option).transmitted) :
    GroupDone sent option start before finish after where
  only := by
    apply OnlyOption.of_fields
    · rw [← openedPacket]
      exact fields
    · intro address _
      rw [memory, openedMemory]
  isSet := by
    rw [isOption, fields.options, openedPacket]
    exact isOption_setOption_option _ _ room
  stringEnd := stringEnd
  content := fun _ => content

theorem stringOf_eq_zero {option : CoapOption}
    (kind : option.kind = .int ∨ option.kind = .bytes ∨
      option.kind = .flag) (packet : ReceivedPacket) :
    stringOf option packet = (0, 0) := by
  cases option <;> first | rfl | exact absurd kind (by decide)

theorem groupDone_received {config : CoapConfig} {sent : SentPacket}
    (wellFormed : WellFormed config sent) {option : CoapOption}
    (notProxy : option.kind ≠ .proxy)
    (single : ∀ separator, option.kind ≠ .parts separator)
    (isSet : isOption sent option.number = true)
    {start value : Nat} {before opened : ParseState} {part : List UInt8}
    (parts : sentParts sent option = [part])
    (openedPacket :
      opened.packet = setOption before.packet option.number)
    (openedMemory : opened.memory = before.memory)
    (room : before.packet.options.length = optionsLength)
    (stored : opened.memory.read value part.length = part) :
    GroupDone sent option start before (value + part.length)
      (received config option opened value part.length) := by
  have finish := fun fields memory stringEnd content =>
    groupDone_of_fields sent start (value + part.length)
      (received config option opened value part.length)
      openedPacket openedMemory room fields memory stringEnd content
  cases kind : option.kind with
  | proxy =>
      exact absurd kind notProxy
  | parts separator =>
      exact absurd kind (single separator)
  | int =>
      have encoded : part = intOptionBytes (sentInt sent option) := by
        cases option <;> first
          | exact (List.singleton_inj.mp parts).symm
          | exact absurd kind (by decide)
      have after : received config option opened value part.length =
          opened.intOption value part.length
            (storeInt config option) := by
        simp only [received, kind]
      have decoded :
          coapParseIntOption opened.memory value part.length =
            sentInt sent option := by
        subst encoded
        exact coapParseIntOption_encoded stored
      apply finish
      · rw [after]
        exact sameButFields_storeInt config option _ _
      · rw [after]
        rfl
      · rw [stringOf_eq_zero (.inl kind)]
        exact fun _ => Nat.zero_le _
      · rw [after]
        simp only [receivedContent, ParseState.intOption, decoded]
        exact content_storeInt wellFormed kind isSet _ _
  | bytes =>
      have after : received config option opened value part.length =
          opened.byteOption value part.length (storeBytes option) := by
        simp only [received, kind]
      have kept : min coapEtagLen part.length = part.length := by
        apply Nat.min_eq_right
        cases option <;> first
          | exact absurd kind (by decide)
          | (rw [← List.singleton_inj.mp parts]
             first | exact wellFormed.etag | exact wellFormed.ifMatch)
      apply finish
      · rw [after]
        exact sameButFields_storeBytes option _ _
      · rw [after]
        rfl
      · rw [stringOf_eq_zero (.inr (.inl kind))]
        exact fun _ => Nat.zero_le _
      · rw [after]
        simp only [receivedContent, ParseState.byteOption, kept, stored]
        cases option <;> first
          | exact absurd kind (by decide)
          | (rw [← List.singleton_inj.mp parts]; rfl)
  | flag =>
      have isFlag : option = .ifNoneMatch := by
        cases option <;> first | rfl | exact absurd kind (by decide)
      subst isFlag
      apply finish
      · exact
          { header := rfl
            options := rfl
            content := by
              intro other _ load
              cases other <;> rfl
            string := by
              intro other _
              cases other <;> rfl }
      · rfl
      · exact fun _ => Nat.zero_le _
      · rfl
  | whole =>
      have isHost : option = .uriHost := by
        cases option <;> first | rfl | exact absurd kind (by decide)
      subst isHost
      apply finish
      · exact sameButFields_storeString .uriHost _ _ _
      · rfl
      · exact fun _ => Nat.le_refl _
      · rw [← List.singleton_inj.mp parts] at stored ⊢
        exact congrArg OptionContent.bytes stored

/-! ## Parsing the parts of a string -/

/-- The state of the loop between the parts of one string option. -/
structure Merging (option : CoapOption) (start : Nat)
    (before : ParseState) (current : Nat) (state : ParseState)
    (merged : List UInt8) : Prop where
  only : OnlyOption option start before current state
  length : (stringOf option state.packet).2 = merged.length
  loaded : state.memory.read (stringOf option state.packet).1
    merged.length = merged
  inside : merged ≠ [] → start ≤ (stringOf option state.packet).1
  stringEnd : merged ≠ [] →
    (stringOf option state.packet).1 + merged.length ≤ current

theorem stringOf_storeString {option : CoapOption} {separator : UInt8}
    (kind : option.kind = .parts separator) (pointer length : Nat)
    (packet : ReceivedPacket) :
    stringOf option (storeString option pointer length packet) =
      (pointer, length) := by
  cases option <;> first | rfl | cases kind

theorem coapMergeMultiOption_eq {memory : ByteMem}
    {pointer value : Nat} {merged part : List UInt8}
    (separator : UInt8)
    (loaded : memory.read pointer merged.length = merged)
    (stored : memory.read value part.length = part)
    (before : merged ≠ [] → pointer + merged.length < value) :
    let result := coapMergeMultiOption memory pointer merged.length
      value part.length separator
    result.dstLen = (mergePart separator merged part).length ∧
      result.memory.read result.dst
        (mergePart separator merged part).length =
          mergePart separator merged part ∧
      (merged = [] → result.dst = value ∧ result.memory = memory) ∧
      (merged ≠ [] → result.dst = pointer ∧
        ∀ address, address < pointer ∨ value + part.length ≤ address →
          result.memory address = memory address) := by
  by_cases empty : merged = []
  · subst empty
    simp [coapMergeMultiOption, mergePart, stored]
  · have positive : merged.length > 0 := List.length_pos_iff.mpr empty
    have ordered := before empty
    simp only [coapMergeMultiOption, if_pos positive, mergePart,
      if_neg empty]
    have partRead : (memory.write (pointer + merged.length)
        [separator]).read value part.length = part := by
      rw [ByteMem.read_write_disjoint (.inr (by
        simp only [List.length_singleton]
        omega)), stored]
    rw [partRead]
    refine ⟨by simp; omega, ?_, fun none => absurd none empty,
      fun _ => ⟨trivial, ?_⟩⟩
    · rw [List.length_append, List.length_cons, ByteMem.read_add]
      congr 1
      · rw [ByteMem.read_write_disjoint (.inl (by omega)),
          ByteMem.read_write_disjoint (.inl (by omega)), loaded]
      · rw [ByteMem.read_succ]
        congr 1
        · rw [ByteMem.write_of_lt (by omega)]
          exact ByteMem.write_inside 0 (by simp)
        · rw [Nat.add_assoc]
          exact ByteMem.read_write_self _ _ _
    · intro address outside
      rw [ByteMem.write_outside (by omega), ByteMem.write_outside (by
        simp only [List.length_singleton]
        omega)]

theorem merging_step {config : CoapConfig} {option : CoapOption}
    {separator : UInt8} (kind : option.kind = .parts separator)
    {start current value : Nat} {before state opened : ParseState}
    {merged part : List UInt8}
    (merging : Merging option start before current state merged)
    (started : start ≤ current) (advanced : current < value)
    (openedPacket : opened.packet = setOption state.packet option.number)
    (openedMemory : opened.memory = state.memory)
    (stored : opened.memory.read value part.length = part) :
    Merging option start before (value + part.length)
      (received config option opened value part.length)
      (mergePart separator merged part) := by
  have sameString : stringOf option opened.packet =
      ((stringOf option state.packet).1, merged.length) := by
    rw [openedPacket, ← merging.length]
    cases option <;> rfl
  obtain ⟨dstLen, loaded, empty, nonempty⟩ :=
    coapMergeMultiOption_eq separator (openedMemory ▸ merging.loaded)
      stored (fun nonempty =>
        Nat.lt_of_le_of_lt (merging.stringEnd nonempty) advanced)
  have after : received config option opened value part.length =
      opened.multiOption value part.length separator (stringOf option)
        (storeString option) := by
    simp only [received, kind]
  rw [after]
  simp only [ParseState.multiOption, sameString]
  generalize coapMergeMultiOption opened.memory
    (stringOf option state.packet).1 merged.length value part.length
    separator = result at dstLen loaded empty nonempty ⊢
  have memory : ∀ address,
      address < start ∨ value + part.length ≤ address →
        result.memory address = state.memory address := by
    intro address outside
    rw [← openedMemory]
    by_cases isEmpty : merged = []
    · rw [(empty isEmpty).2]
    · have inside := merging.inside isEmpty
      exact (nonempty isEmpty).2 address (by omega)
  constructor
  · apply merging.only.trans _
      (show current ≤ value + part.length by omega)
    apply OnlyOption.of_fields
    · rw [← openedPacket]
      exact sameButFields_storeString option _ _ _
    · exact memory
  · simp only [stringOf_storeString kind]
    exact dstLen
  · simp only [stringOf_storeString kind]
    exact loaded
  · intro _
    simp only [stringOf_storeString kind]
    by_cases isEmpty : merged = []
    · rw [(empty isEmpty).1]
      omega
    · rw [(nonempty isEmpty).1]
      exact merging.inside isEmpty
  · intro _
    simp only [stringOf_storeString kind]
    by_cases isEmpty : merged = []
    · rw [(empty isEmpty).1, mergePart, if_pos isEmpty]
    · have stringEnd := merging.stringEnd isEmpty
      rw [(nonempty isEmpty).1, mergePart, if_neg isEmpty,
        List.length_append, List.length_cons]
      omega

theorem received_options (state : ParseState) (current length : Nat) :
    (received config option state current length).packet.options =
      state.packet.options := by
  cases option <;> rfl

theorem length_encodeParts_pos (number current : Nat)
    (part : List UInt8) (parts : List (List UInt8)) :
    0 < (encodeParts number current (part :: parts)).length := by
  simp only [encodeParts, coapSetOptionHeader, List.length_append,
    List.length_cons]
  omega

/-- The encoding of a part splits into its header, its value and the other
parts. -/
theorem encodeParts_stored {memory : ByteMem}
    {number previous current : Nat} {part : List UInt8}
    {parts : List (List UInt8)}
    (stored : memory.read current
        (encodeParts number previous (part :: parts)).length =
      encodeParts number previous (part :: parts)) :
    let header := coapSetOptionHeader (number - previous) part.length
    memory.read current header.length = header ∧
      memory.read (current + header.length) part.length = part ∧
      memory.read (current + header.length + part.length)
          (encodeParts number number parts).length =
        encodeParts number number parts := by
  rw [encodeParts, List.append_assoc, List.length_append,
    List.length_append, ByteMem.read_add] at stored
  obtain ⟨header, rest⟩ := List.append_inj stored (by simp)
  rw [ByteMem.read_add] at rest
  obtain ⟨value, others⟩ := List.append_inj rest (by simp)
  exact ⟨header, value, others⟩

theorem coapParseOptions_part
    (dataLen fuel : Nat) {option : CoapOption} {separator : UInt8}
    (kind : option.kind = .parts separator) {start : Nat}
    {before : ParseState}
    (room : before.packet.options.length = optionsLength)
    {part : List UInt8} {current previous : Nat}
    {state : ParseState} {merged : List UInt8}
    (merging : Merging option start before current state merged)
    (started : start ≤ current) (ordered : previous ≤ option.number)
    (small : part.length < 65536) (inside : current < dataLen) {value : Nat}
    (valueAt : value = current +
      (coapSetOptionHeader (option.number - previous)
        part.length).length)
    (header : before.memory.read current
        (coapSetOptionHeader (option.number - previous)
          part.length).length =
      coapSetOptionHeader (option.number - previous) part.length)
    (stored : before.memory.read value part.length = part) :
    ∃ after,
      coapParseOptions config dataLen (fuel + 1) state current previous =
          coapParseOptions config dataLen fuel after
            (value + part.length) option.number ∧
        Merging option start before (value + part.length) after
          (mergePart separator merged part) ∧
        isOption after.packet option.number = true := by
  have notProxy : option.kind ≠ .proxy := by
    rw [kind]
    exact OptionKind.noConfusion
  have sameMemory : ∀ address count, current ≤ address →
      state.memory.read address count =
        before.memory.read address count := fun address count behind =>
    ByteMem.read_congr fun index lower _ =>
      merging.only.memory index (.inr (by omega))
  obtain ⟨opened, openedPacket, openedMemory, iteration⟩ :=
    coapParseOptions_encoded config fuel notProxy ordered small
      inside ((sameMemory current _ (Nat.le_refl _)).trans header)
  rw [← valueAt] at iteration
  have advanced : current < value := by
    rw [valueAt, coapSetOptionHeader, List.length_cons]
    omega
  refine ⟨_, iteration, ?_, ?_⟩
  · apply merging_step kind merging started advanced openedPacket
      openedMemory
    rw [openedMemory, sameMemory value _ (by omega), stored]
  · rw [isOption, received_options, openedPacket]
    exact isOption_setOption_option _ _
      (merging.only.options.trans room)

theorem length_encodeParts (number current : Nat) (part : List UInt8)
    (parts : List (List UInt8)) :
    (encodeParts number current (part :: parts)).length =
      (coapSetOptionHeader (number - current) part.length).length +
        part.length + (encodeParts number number parts).length := by
  simp only [encodeParts, List.length_append]

theorem coapParseOptions_moreParts {dataLen : Nat}
    {option : CoapOption} {separator : UInt8}
    (kind : option.kind = .parts separator) {start : Nat}
    {before : ParseState}
    (room : before.packet.options.length = optionsLength)
    (parts : List (List UInt8)) {current fuel : Nat} {state : ParseState}
    {merged : List UInt8}
    (merging : Merging option start before current state merged)
    (isSet : isOption state.packet option.number = true)
    (started : start ≤ current) {finish : Nat}
    (finishAt : finish = current +
      (encodeParts option.number option.number parts).length)
    (small : finish < current + 65536) (inside : finish ≤ dataLen)
    (enough : dataLen ≤ current + fuel)
    (stored : before.memory.read current
        (encodeParts option.number option.number parts).length =
      encodeParts option.number option.number parts) :
    ∃ fuel' after,
      coapParseOptions config dataLen fuel state current option.number =
          coapParseOptions config dataLen fuel' after finish
            option.number ∧
        dataLen ≤ finish + fuel' ∧
        Merging option start before finish after
          (parts.foldl (mergePart separator) merged) ∧
        isOption after.packet option.number = true := by
  induction parts generalizing current fuel state merged with
  | nil =>
      rw [encodeParts, List.length_nil, Nat.add_zero] at finishAt
      subst finishAt
      exact ⟨fuel, state, rfl, enough, merging, isSet⟩
  | cons part parts inductionHypothesis =>
      obtain ⟨header, value, others⟩ := encodeParts_stored stored
      have length := length_encodeParts option.number option.number part
        parts
      have positive := length_encodeParts_pos option.number
        option.number part parts
      have headerPositive : 0 < (coapSetOptionHeader
          (option.number - option.number) part.length).length :=
        Nat.zero_lt_succ _
      obtain ⟨rest, fuelRest⟩ : ∃ rest, fuel = rest + 1 :=
        ⟨fuel - 1, by omega⟩
      obtain ⟨middle, iteration, merged, isSet⟩ :=
        coapParseOptions_part config dataLen rest kind
          room merging started (Nat.le_refl _) (by omega) (by omega)
          rfl header value
      rw [fuelRest, iteration, List.foldl_cons]
      exact inductionHypothesis merged isSet (by omega) (by omega)
        (by omega) (by omega) others

theorem coapParseOptions_parts {dataLen : Nat}
    {option : CoapOption} {separator : UInt8}
    (kind : option.kind = .parts separator) {start : Nat}
    {before : ParseState}
    (room : before.packet.options.length = optionsLength)
    {parts : List (List UInt8)} (nonempty : parts ≠ []) {previous fuel : Nat}
    (fresh : (stringOf option before.packet).2 = 0)
    (ordered : previous ≤ option.number) {finish : Nat}
    (finishAt : finish = start +
      (encodeParts option.number previous parts).length)
    (small : finish < start + 65536) (inside : finish ≤ dataLen)
    (enough : dataLen ≤ start + fuel)
    (stored : before.memory.read start
        (encodeParts option.number previous parts).length =
      encodeParts option.number previous parts) :
    ∃ fuel' after,
      coapParseOptions config dataLen fuel before start previous =
          coapParseOptions config dataLen fuel' after finish
            option.number ∧
        dataLen ≤ finish + fuel' ∧
        Merging option start before finish after
          (parts.foldl (mergePart separator) []) ∧
        isOption after.packet option.number = true := by
  obtain ⟨part, parts, rfl⟩ := List.exists_cons_of_ne_nil nonempty
  have merging : Merging option start before start before [] :=
    { only := OnlyOption.refl option start before
      length := fresh
      loaded := rfl
      inside := fun none => absurd rfl none
      stringEnd := fun none => absurd rfl none }
  obtain ⟨header, value, others⟩ := encodeParts_stored stored
  have length := length_encodeParts option.number previous part parts
  have positive := length_encodeParts_pos option.number previous part
    parts
  have headerPositive : 0 < (coapSetOptionHeader
      (option.number - previous) part.length).length :=
    Nat.zero_lt_succ _
  obtain ⟨rest, rfl⟩ : ∃ rest, fuel = rest + 1 := ⟨fuel - 1, by omega⟩
  obtain ⟨middle, iteration, merged, isSet⟩ :=
    coapParseOptions_part config dataLen rest kind
      room merging (Nat.le_refl _) ordered (by omega) (by omega)
      rfl header value
  rw [iteration, List.foldl_cons]
  exact coapParseOptions_moreParts config kind room parts merged isSet
    (by omega) (by omega) (by omega) inside (by omega) others

/-! ## Parsing all parts of an option -/

theorem sentContent_parts {option : CoapOption}
    {separator : UInt8} (kind : option.kind = .parts separator) :
    ∃ array length,
      sentContent sent option = .bytes (array.read 0 length) ∧
        sentParts sent option =
          stringParts array length separator (length + 2) 0 0 ∧
        option.separator? = some separator := by
  cases option <;> first
    | (cases kind; exact ⟨_, _, rfl, rfl, rfl⟩)
    | cases kind

theorem sentParts_single {option : CoapOption}
    (single : ∀ separator, option.kind ≠ .parts separator) :
    ∃ part, sentParts sent option = [part] := by
  cases option <;> first
    | exact ⟨_, rfl⟩
    | exact absurd rfl (single _)

theorem receivedContent_parts {state : ParseState}
    {option : CoapOption} {separator : UInt8}
    (kind : option.kind = .parts separator) :
    receivedContent state option =
      .bytes (state.memory.read (stringOf option state.packet).1
        (stringOf option state.packet).2) := by
  cases option <;> first | rfl | cases kind

theorem coapParseOptions_group {config : CoapConfig} {sent : SentPacket}
    (wellFormed : WellFormed config sent) {option : CoapOption}
    (notProxy : option.kind ≠ .proxy)
    (isSet : isOption sent option.number = true)
    {dataLen start previous fuel : Nat} {before : ParseState}
    (room : before.packet.options.length = optionsLength)
    (fresh : (stringOf option before.packet).2 = 0)
    (ordered : previous ≤ option.number) {finish : Nat}
    (finishAt : finish = start +
      (serializeSetOption sent option previous).length)
    (small : finish < start + 65536) (inside : finish ≤ dataLen)
    (enough : dataLen ≤ start + fuel)
    (stored : before.memory.read start
        (serializeSetOption sent option previous).length =
      serializeSetOption sent option previous) :
    ∃ fuel' after,
      coapParseOptions config dataLen fuel before start previous =
          coapParseOptions config dataLen fuel' after finish
            option.number ∧
        dataLen ≤ finish + fuel' ∧
        GroupDone sent option start before finish after := by
  rw [serializeSetOption_eq] at finishAt stored
  by_cases split : ∃ separator, option.kind = .parts separator
  · obtain ⟨separator, kind⟩ := split
    obtain ⟨fuel', after, iteration, enough', merging, isSet'⟩ :=
      coapParseOptions_parts config kind room
        (sentParts_ne_nil sent option) fresh ordered finishAt small inside
        enough stored
    refine ⟨fuel', after, iteration, enough', merging.only, isSet',
      ?_, ?_⟩
    · rw [merging.length]
      intro nonempty
      exact merging.stringEnd fun empty =>
        nonempty (by rw [empty]; rfl)
    · intro recoverable
      obtain ⟨array, length, content, parts, separated⟩ :=
        sentContent_parts sent kind
      have separable := recoverable separator separated _ content
      have merged := merge_stringParts separable
      rw [← parts] at merged
      have loaded := merging.loaded
      have mergedLength := merging.length
      rw [merged] at loaded mergedLength
      rw [receivedContent_parts kind, mergedLength, loaded, content]
      rfl
  · have single : ∀ separator, option.kind ≠ .parts separator :=
      fun separator kind => split ⟨separator, kind⟩
    obtain ⟨part, parts⟩ := sentParts_single sent single
    rw [parts] at finishAt stored
    have positive := length_encodeParts_pos option.number previous part []
    obtain ⟨header, value, _⟩ := encodeParts_stored stored
    have length := length_encodeParts option.number previous part []
    rw [encodeParts, List.length_nil, Nat.add_zero] at length
    obtain ⟨rest, rfl⟩ : ∃ rest, fuel = rest + 1 := ⟨fuel - 1, by omega⟩
    obtain ⟨opened, openedPacket, openedMemory, iteration⟩ :=
      coapParseOptions_encoded config rest notProxy ordered
        (by omega) (show start < dataLen by omega) header
    have headerPositive : 0 < (coapSetOptionHeader
        (option.number - previous) part.length).length :=
      Nat.zero_lt_succ _
    have finishSum : finish = start +
        (coapSetOptionHeader (option.number - previous)
          part.length).length + part.length := by
      omega
    rw [iteration, ← finishSum]
    refine ⟨rest, _, rfl, by omega, ?_⟩
    rw [finishSum]
    exact groupDone_received wellFormed notProxy single isSet parts
      openedPacket openedMemory room (openedMemory ▸ value)

end Contiki.Coap
