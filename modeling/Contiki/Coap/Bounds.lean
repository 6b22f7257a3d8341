import Contiki.Coap.Parse

/-!
# Memory safety of the CoAP parser

`InBounds` says that a run of the parser stayed inside the datagram and the
option bitmap.  `DatagramFits` is a grammar of the datagrams for which it
does: each option header is complete, its number has a bit in the bitmap, and
the part of its value that the parser uses is there.

The parser compares its position with the end of the datagram only between
two options, so that it leaves the datagram exactly on the inputs outside
this grammar.
-/

namespace Contiki.Coap

open Contiki.Lib

/-- The pointers of a parsed packet with their lengths. -/
def ranges (packet : ReceivedPacket) : List (Nat × Nat) :=
  [(packet.proxyUri, packet.proxyUriLen),
    (packet.proxyScheme, packet.proxySchemeLen),
    (packet.uriHost, packet.uriHostLen),
    (packet.locationPath, packet.locationPathLen),
    (packet.locationQuery, packet.locationQueryLen),
    (packet.uriPath, packet.uriPathLen),
    (packet.uriQuery, packet.uriQueryLen),
    (packet.payload, packet.payloadLen)]

/-- Every recorded range ends at or before a position. -/
def RangesEndBy (packet : ReceivedPacket) (position : Nat) : Prop :=
  ∀ range ∈ ranges packet, range.1 + range.2 ≤ position

/-- A run of the parser read only bytes of the datagram, recorded only
ranges within it, and accessed only bytes of the option bitmap. -/
structure InBounds (state : ParseState) (dataLen : Nat) : Prop where
  reads : ∀ offset ∈ state.reads, offset < dataLen
  ranges : RangesEndBy state.packet dataLen
  bitmap : ∀ index ∈ state.bitmapAccesses, index < optionsLength

/-! ## The datagrams that fit -/

/-- Split the extension of a nibble off the rest of a datagram. -/
def extendNibble? (config : CoapConfig) (x : Nat) :
    List UInt8 → Option (Nat × List UInt8)
  | rest =>
      if x = 13 then
        match rest with
        | extension :: rest =>
            some (config.toUnsigned (x + extension.toNat), rest)
        | [] => none
      else if x = 14 then
        match rest with
        | high :: low :: rest =>
            some (config.toUnsigned
              (x + 255 + high.toNat <<< 8 + low.toNat), rest)
        | _ => none
      else some (x, rest)

/-- Split an option header into the delta, the length and the bytes from the
option value on. -/
def optionHeader? (config : CoapConfig) (first : UInt8)
    (rest : List UInt8) : Option (Nat × Nat × List UInt8) :=
  (extendNibble? config (first.toNat >>> 4) rest).bind fun delta =>
    (extendNibble? config (first.toNat &&& 0x0F) delta.2).map
      fun length => (delta.1, length.1, length.2)

/-- The number of bytes of an option value that the parser copies or points
to. -/
def valueNeeded (optionNumber length : Nat) : Nat :=
  match CoapOption.ofNumber? optionNumber with
  | some .etag => min coapEtagLen length
  | some .ifMatch => min coapEtagLen length
  | some .ifNoneMatch => 0
  | some .proxyUri => 0
  | some .proxyScheme => 0
  | some _ => length
  | none => 0

/-- The options at which the parser stops: those of a proxy and unknown
critical ones. -/
def endsParser (optionNumber : Nat) : Bool :=
  match CoapOption.ofNumber? optionNumber with
  | some .proxyUri => true
  | some .proxyScheme => true
  | some _ => false
  | none => optionNumber &&& 1 ≠ 0

/-- The option number has a bit in the bitmap of the packet. -/
def inBitmap (optionNumber : Nat) : Prop :=
  optionNumber / optionMapSize < optionsLength

/-- The options and the payload of a datagram after an option with the given
number are complete as far as the parser uses them. -/
inductive OptionsFit (config : CoapConfig) : Nat → List UInt8 → Prop
  | nil {number : Nat} : OptionsFit config number []
  | payload {number : Nat} {first : UInt8} {rest : List UInt8} :
      first &&& 0xF0 = 0xF0 →
      OptionsFit config number (first :: rest)
  | final {number delta length : Nat} {first : UInt8}
      {rest value : List UInt8} :
      first &&& 0xF0 ≠ 0xF0 →
      optionHeader? config first rest = some (delta, length, value) →
      inBitmap (config.toUnsigned (number + delta)) →
      endsParser (config.toUnsigned (number + delta)) = true →
      OptionsFit config number (first :: rest)
  | option {number delta length : Nat} {first : UInt8}
      {rest value : List UInt8} :
      first &&& 0xF0 ≠ 0xF0 →
      optionHeader? config first rest = some (delta, length, value) →
      inBitmap (config.toUnsigned (number + delta)) →
      endsParser (config.toUnsigned (number + delta)) = false →
      valueNeeded (config.toUnsigned (number + delta)) length ≤
        value.length →
      OptionsFit config (config.toUnsigned (number + delta))
        (value.drop length) →
      OptionsFit config number (first :: rest)

/-- A datagram has a complete header and, in version 1, a complete token and
fitting options. -/
def DatagramFits (config : CoapConfig) (bytes : List UInt8) : Prop :=
  coapHeaderLen ≤ bytes.length ∧
    ((0xC0 &&& ByteMem.ofList bytes 0) >>> 6 = 1 →
      coapHeaderLen + parsedTokenLen (ByteMem.ofList bytes) ≤
          bytes.length ∧
        OptionsFit config 0
          (bytes.drop
            (coapHeaderLen + parsedTokenLen (ByteMem.ofList bytes))))

/-! ## Option headers -/

section Header

variable (config : CoapConfig) (memory : ByteMem)

theorem extendNibble_next_ge (x current : Nat) :
    current ≤ (extendNibble config memory x current).next := by
  unfold extendNibble
  split
  · simp
  · split <;> simp

theorem extendNibble_reads (x current : Nat) :
    (extendNibble config memory x current).reads =
      List.range' current
        ((extendNibble config memory x current).next - current) := by
  unfold extendNibble
  split
  · simp
  · split
    · simp [List.range'_succ]
    · simp

theorem extendNibble?_read (x : Nat) {current dataLen : Nat}
    (inside : current ≤ dataLen) :
    extendNibble? config x (memory.read current (dataLen - current)) =
      if (extendNibble config memory x current).next ≤ dataLen then
        some ((extendNibble config memory x current).value,
          memory.read (extendNibble config memory x current).next
            (dataLen - (extendNibble config memory x current).next))
      else none := by
  unfold extendNibble? extendNibble
  by_cases short : x = 13
  · simp only [short, if_true]
    rcases Nat.lt_or_ge current dataLen with more | finished
    · rw [show dataLen - current = (dataLen - (current + 1)) + 1 by omega]
      simp [ByteMem.read_succ, show current + 1 ≤ dataLen by omega]
    · rw [show dataLen - current = 0 by omega]
      simp [show ¬ current + 1 ≤ dataLen by omega]
  · simp only [short, if_false]
    by_cases long : x = 14
    · simp only [long, if_true]
      rcases Nat.lt_or_ge (current + 1) dataLen with more | finished
      · rw [show dataLen - current =
          (dataLen - (current + 2)) + 1 + 1 by omega]
        simp [ByteMem.read_succ, show current + 2 ≤ dataLen by omega]
      · have tooShort : ¬ current + 2 ≤ dataLen := by omega
        rcases Nat.lt_or_ge current dataLen with one | none
        · rw [show dataLen - current = 0 + 1 by omega]
          simp [ByteMem.read_succ, tooShort]
        · rw [show dataLen - current = 0 by omega]
          simp [tooShort]
    · simp [long, inside]

private theorem range'_append_of_le {first middle last : Nat}
    (left : first ≤ middle) (right : middle ≤ last) :
    List.range' first (middle - first) ++
        List.range' middle (last - middle) =
      List.range' first (last - first) := by
  have joined := List.range'_append_1
    (s := first) (m := middle - first) (n := last - middle)
  rw [show first + (middle - first) = middle by omega,
    show middle - first + (last - middle) = last - first by omega] at joined
  exact joined

theorem coapParseOptionHeader_value_gt (current : Nat) :
    current < (coapParseOptionHeader config memory current).value := by
  have first := extendNibble_next_ge config memory
    ((memory current).toNat >>> 4) (current + 1)
  have second := extendNibble_next_ge config memory
    ((memory current).toNat &&& 0x0F)
    (extendNibble config memory ((memory current).toNat >>> 4)
      (current + 1)).next
  simp only [coapParseOptionHeader]
  omega

/-- The header bytes read after the first one are the bytes up to the option
value. -/
theorem coapParseOptionHeader_reads (current : Nat) :
    (coapParseOptionHeader config memory current).reads =
      List.range' (current + 1)
        ((coapParseOptionHeader config memory current).value -
          (current + 1)) := by
  have first := extendNibble_next_ge config memory
    ((memory current).toNat >>> 4) (current + 1)
  have second := extendNibble_next_ge config memory
    ((memory current).toNat &&& 0x0F)
    (extendNibble config memory ((memory current).toNat >>> 4)
      (current + 1)).next
  simp only [coapParseOptionHeader, extendNibble_reads]
  exact range'_append_of_le first second

theorem optionHeader?_read {current dataLen : Nat}
    (inside : current < dataLen) :
    optionHeader? config (memory current)
        (memory.read (current + 1) (dataLen - (current + 1))) =
      if (coapParseOptionHeader config memory current).value ≤ dataLen then
        some ((coapParseOptionHeader config memory current).optionDelta,
          (coapParseOptionHeader config memory current).optionLength,
          memory.read (coapParseOptionHeader config memory current).value
            (dataLen -
              (coapParseOptionHeader config memory current).value))
      else none := by
  rw [optionHeader?, extendNibble?_read config memory _ inside]
  by_cases deltaInside :
      (extendNibble config memory ((memory current).toNat >>> 4)
        (current + 1)).next ≤ dataLen
  · rw [if_pos deltaInside, Option.bind_some,
      extendNibble?_read config memory _ deltaInside]
    simp only [coapParseOptionHeader, Nat.succ_eq_add_one]
    split
    next lengthInside => simp [lengthInside]
    next lengthOutside => simp [lengthOutside]
  · have second := extendNibble_next_ge config memory
      ((memory current).toNat &&& 0x0F)
      (extendNibble config memory ((memory current).toNat >>> 4)
        (current + 1)).next
    have lengthOutside :
        ¬ (coapParseOptionHeader config memory current).value ≤
          dataLen := by
      simp only [coapParseOptionHeader]
      omega
    rw [if_neg deltaInside, if_neg lengthOutside, Option.bind_none]

end Header

/-! ## Option values -/

section Value

variable {state : ParseState} {start current length dataLen : Nat}

/-- What one option does to a state whose ranges end by `start`: the ranges
end by the end of the option and the memory behind it is unchanged. -/
structure OptionEffect (before after : ParseState)
    (optionEnd dataLen : Nat) : Prop where
  inBounds : InBounds after dataLen
  rangesEnd : RangesEndBy after.packet optionEnd
  memory : ∀ address, optionEnd ≤ address →
    after.memory address = before.memory address

private theorem forall_range'_lt {first count bound : Nat} :
    (∀ offset ∈ List.range' first count, offset < bound) ↔
      count = 0 ∨ first + count ≤ bound := by
  constructor
  · intro all
    rcases Nat.eq_zero_or_pos count with empty | positive
    · exact Or.inl empty
    · have last := all (first + count - 1)
        (List.mem_range'_1.mpr ⟨by omega, by omega⟩)
      exact Or.inr (by omega)
  · intro fits offset member
    have bounds := List.mem_range'_1.mp member
    omega

/-- Appending block reads keeps a state in bounds exactly when the block
does. -/
private theorem reads_append_iff {reads : List Nat} {first count : Nat}
    (inside : ∀ offset ∈ reads, offset < dataLen) :
    (∀ offset ∈ reads ++ List.range' first count, offset < dataLen) ↔
      count = 0 ∨ first + count ≤ dataLen := by
  rw [← forall_range'_lt]
  constructor
  · intro all offset member
    exact all offset (List.mem_append_right reads member)
  · intro block offset member
    rcases List.mem_append.mp member with old | new
    · exact inside offset old
    · exact block offset new

theorem RangesEndBy.mono {packet : ReceivedPacket} {first second : Nat}
    (ends : RangesEndBy packet first) (le : first ≤ second) :
    RangesEndBy packet second := fun range member =>
  Nat.le_trans (ends range member) le

theorem intOption_effect
    {store : UInt32 → ReceivedPacket → ReceivedPacket}
    (sameRanges : ∀ value packet, ranges (store value packet) =
      ranges packet)
    (inBounds : InBounds state dataLen)
    (ends : RangesEndBy state.packet start) (before : start < current)
    (fits : current + length ≤ dataLen) :
    OptionEffect state (state.intOption current length store)
      (current + length) dataLen where
  inBounds :=
    { reads := (reads_append_iff inBounds.reads).mpr (Or.inr fits)
      ranges := by
        simpa [RangesEndBy, ParseState.intOption, sameRanges] using
          inBounds.ranges
      bitmap := inBounds.bitmap }
  rangesEnd := by
    have ends := ends.mono (show start ≤ current + length by omega)
    simpa [RangesEndBy, ParseState.intOption, sameRanges] using ends
  memory := fun _ _ => rfl

theorem intOption_outside
    {store : UInt32 → ReceivedPacket → ReceivedPacket}
    (inBounds : InBounds state dataLen)
    (outside : dataLen < current + length) (inside : current ≤ dataLen) :
    ¬ InBounds (state.intOption current length store) dataLen := by
  intro after
  have fits := (reads_append_iff inBounds.reads).mp after.reads
  omega

theorem byteOption_effect
    {store : List UInt8 → ReceivedPacket → ReceivedPacket}
    (sameRanges : ∀ bytes packet, ranges (store bytes packet) =
      ranges packet)
    (inBounds : InBounds state dataLen)
    (ends : RangesEndBy state.packet start) (before : start < current)
    (fits : current + min coapEtagLen length ≤ dataLen) :
    OptionEffect state (state.byteOption current length store)
      (current + length) dataLen where
  inBounds :=
    { reads := (reads_append_iff inBounds.reads).mpr (Or.inr fits)
      ranges := by
        simpa [RangesEndBy, ParseState.byteOption, sameRanges] using
          inBounds.ranges
      bitmap := inBounds.bitmap }
  rangesEnd := by
    have ends := ends.mono (show start ≤ current + length by omega)
    simpa [RangesEndBy, ParseState.byteOption, sameRanges] using ends
  memory := fun _ _ => rfl

theorem byteOption_outside
    {store : List UInt8 → ReceivedPacket → ReceivedPacket}
    (inBounds : InBounds state dataLen)
    (outside : dataLen < current + min coapEtagLen length)
    (inside : current ≤ dataLen) :
    ¬ InBounds (state.byteOption current length store) dataLen := by
  intro after
  have fits := (reads_append_iff inBounds.reads).mp after.reads
  omega

section Multi

variable {separator : UInt8} {string : ReceivedPacket → Nat × Nat}
  {store : Nat → Nat → ReceivedPacket → ReceivedPacket}

/-- A string of the packet is one of the recorded ranges, and storing it
changes no other range. -/
structure StoresRange (string : ReceivedPacket → Nat × Nat)
    (store : Nat → Nat → ReceivedPacket → ReceivedPacket) : Prop where
  recorded : ∀ packet, string packet ∈ ranges packet
  stored : ∀ first count packet,
    (first, count) ∈ ranges (store first count packet)
  others : ∀ first count packet range,
    range ∈ ranges (store first count packet) →
      range = (first, count) ∨ range ∈ ranges packet

private theorem merged_end
    (stores : StoresRange string store)
    (ends : RangesEndBy state.packet start) (before : start < current) :
    (coapMergeMultiOption state.memory (string state.packet).1
        (string state.packet).2 current length separator).dst +
      (coapMergeMultiOption state.memory (string state.packet).1
        (string state.packet).2 current length separator).dstLen ≤
      current + length := by
  have oldEnd := ends _ (stores.recorded state.packet)
  unfold coapMergeMultiOption
  split
  · simp only
    omega
  · simp

theorem multiOption_effect
    (stores : StoresRange string store)
    (inBounds : InBounds state dataLen)
    (ends : RangesEndBy state.packet start) (before : start < current)
    (fits : current + length ≤ dataLen) :
    OptionEffect state
      (state.multiOption current length separator string store)
      (current + length) dataLen := by
  have rangesEnd : RangesEndBy
      (state.multiOption current length separator string store).packet
      (current + length) := by
    intro range member
    rcases stores.others _ _ _ range member with merged | old
    · subst range
      exact merged_end stores ends before
    · have oldEnd := ends range old
      omega
  refine ⟨⟨?_, rangesEnd.mono fits, inBounds.bitmap⟩, rangesEnd, ?_⟩
  · unfold ParseState.multiOption coapMergeMultiOption
    split
    · exact (reads_append_iff inBounds.reads).mpr (Or.inr fits)
    · simpa using inBounds.reads
  · intro address behind
    have oldEnd := ends _ (stores.recorded state.packet)
    unfold ParseState.multiOption coapMergeMultiOption
    split
    · simp only
      rw [ByteMem.write_of_ge (by simp; omega),
        ByteMem.write_of_ge (by simp; omega)]
    · rfl

theorem multiOption_outside
    (stores : StoresRange string store)
    (inBounds : InBounds state dataLen)
    (outside : dataLen < current + length) (inside : current ≤ dataLen) :
    ¬ InBounds
      (state.multiOption current length separator string store)
      dataLen := by
  intro after
  by_cases empty : (string state.packet).2 > 0
  · have reads := after.reads
    simp only [ParseState.multiOption, coapMergeMultiOption, if_pos empty]
      at reads
    have fits := (reads_append_iff inBounds.reads).mp reads
    omega
  · have recorded := after.ranges (current, length) (by
      simp only [ParseState.multiOption, coapMergeMultiOption,
        if_neg empty]
      exact stores.stored current length state.packet)
    simp only at recorded
    omega

end Multi

/-- The options whose value is recorded as a string of the datagram. -/
def isString : CoapOption → Bool
  | .uriHost | .uriPath | .uriQuery | .locationPath | .locationQuery => true
  | _ => false

theorem string_storesRange {option : CoapOption}
    (string : isString option = true) :
    StoresRange (stringOf option) (storeString option) where
  recorded := fun packet => by
    cases option <;> first | contradiction | simp [ranges, stringOf]
  stored := fun first count packet => by
    cases option <;> first | contradiction | simp [ranges, storeString]
  others := fun first count packet range member => by
    cases option <;>
      first
      | contradiction
      | simp only [ranges, storeString, List.mem_cons] at member ⊢
        tauto

theorem ranges_storeInt (config : CoapConfig) (option : CoapOption)
    (value : UInt32) (packet : ReceivedPacket) :
    ranges (storeInt config option value packet) = ranges packet := by
  cases option <;> rfl

theorem ranges_storeBytes (option : CoapOption)
    (bytes : List UInt8) (packet : ReceivedPacket) :
    ranges (storeBytes option bytes packet) = ranges packet := by
  cases option <;> rfl

theorem uriHost_effect
    (inBounds : InBounds state dataLen)
    (ends : RangesEndBy state.packet start) (before : start < current)
    (fits : current + length ≤ dataLen) :
    OptionEffect state
      { state with
        packet := storeString .uriHost current length state.packet }
      (current + length) dataLen := by
  have stores : StoresRange (stringOf .uriHost) (storeString .uriHost) :=
    string_storesRange rfl
  have rangesEnd : RangesEndBy
      (storeString .uriHost current length state.packet)
      (current + length) := by
    intro range member
    rcases stores.others _ _ _ range member with host | old
    · subst range
      exact Nat.le_refl _
    · have oldEnd := ends range old
      omega
  exact
    { inBounds := ⟨inBounds.reads, rangesEnd.mono fits, inBounds.bitmap⟩
      rangesEnd := rangesEnd
      memory := fun _ _ => rfl }

theorem unusedValue_effect {after : ParseState}
    (sameReads : after.reads = state.reads)
    (sameRanges : ranges after.packet = ranges state.packet)
    (sameBitmap : after.bitmapAccesses = state.bitmapAccesses)
    (sameMemory : after.memory = state.memory)
    (inBounds : InBounds state dataLen)
    (ends : RangesEndBy state.packet start) (before : start < current) :
    OptionEffect state after (current + length) dataLen where
  inBounds :=
    { reads := sameReads ▸ inBounds.reads
      ranges := by
        simpa [RangesEndBy, sameRanges] using inBounds.ranges
      bitmap := sameBitmap ▸ inBounds.bitmap }
  rangesEnd := by
    have ends := ends.mono (show start ≤ current + length by omega)
    simpa [RangesEndBy, sameRanges] using ends
  memory := fun _ _ => by rw [sameMemory]

variable (config : CoapConfig) {optionNumber : Nat}

theorem coapParseOption_status :
    (coapParseOption config state optionNumber current length).1.isSome =
      endsParser optionNumber := by
  unfold coapParseOption endsParser
  cases CoapOption.ofNumber? optionNumber with
  | none =>
      simp only
      split <;> simp_all
  | some option =>
      cases option <;> rfl

theorem valueNeeded_le (optionNumber length : Nat) :
    valueNeeded optionNumber length ≤ length := by
  unfold valueNeeded
  split <;> omega

/-- The value of an option at which the parser stops is not used. -/
theorem valueNeeded_of_endsParser (length : Nat)
    (ends : endsParser optionNumber = true) :
    valueNeeded optionNumber length = 0 := by
  unfold endsParser at ends
  unfold valueNeeded
  cases known : CoapOption.ofNumber? optionNumber with
  | none =>
      rfl
  | some option =>
      rw [known] at ends
      cases option <;> first | rfl | cases ends

/-- An option whose needed value bytes are inside the datagram keeps the
parser in bounds. -/
theorem coapParseOption_effect
    (inBounds : InBounds state dataLen)
    (ends : RangesEndBy state.packet start) (before : start < current)
    (fits : current + valueNeeded optionNumber length ≤ dataLen) :
    OptionEffect state
      (coapParseOption config state optionNumber current length).2
      (current + length) dataLen := by
  unfold coapParseOption
  unfold valueNeeded at fits
  cases known : CoapOption.ofNumber? optionNumber with
  | none =>
      simp only
      split <;>
        exact unusedValue_effect rfl rfl rfl rfl inBounds ends before
  | some option =>
      rw [known] at fits
      cases option with
      | ifNoneMatch | proxyUri | proxyScheme =>
          exact unusedValue_effect rfl rfl rfl rfl inBounds ends before
      | etag | ifMatch =>
          exact byteOption_effect (ranges_storeBytes _) inBounds ends before
            fits
      | uriHost =>
          exact uriHost_effect inBounds ends before fits
      | uriPath | uriQuery | locationPath | locationQuery =>
          exact multiOption_effect (string_storesRange rfl) inBounds ends
            before fits
      | _ =>
          exact intOption_effect (ranges_storeInt config _) inBounds ends
            before fits

/-- An option whose needed value bytes are not all inside the datagram takes
the parser out of bounds. -/
theorem coapParseOption_outside
    (inBounds : InBounds state dataLen) (inside : current ≤ dataLen)
    (outside : dataLen < current + valueNeeded optionNumber length) :
    ¬ InBounds
      (coapParseOption config state optionNumber current length).2
      dataLen := by
  unfold coapParseOption
  unfold valueNeeded at outside
  cases known : CoapOption.ofNumber? optionNumber with
  | none =>
      rw [known] at outside
      simp only at outside
      omega
  | some option =>
      rw [known] at outside
      cases option with
      | ifNoneMatch | proxyUri | proxyScheme =>
          simp only at outside
          omega
      | etag | ifMatch =>
          exact byteOption_outside inBounds outside inside
      | uriHost =>
          intro after
          have recorded := after.ranges (current, length)
            ((string_storesRange rfl).stored current length state.packet)
          simp only at recorded outside
          omega
      | uriPath | uriQuery | locationPath | locationQuery =>
          exact multiOption_outside (string_storesRange rfl) inBounds
            outside inside
      | _ =>
          exact intOption_outside inBounds outside inside

theorem coapParseOption_log :
    (∀ offset ∈ state.reads, offset ∈
      (coapParseOption config state optionNumber current
        length).2.reads) ∧
    (coapParseOption config state optionNumber current
      length).2.bitmapAccesses = state.bitmapAccesses := by
  unfold coapParseOption
  cases CoapOption.ofNumber? optionNumber with
  | none =>
      simp only
      split <;> exact ⟨fun _ member => member, rfl⟩
  | some option =>
      cases option with
      | ifNoneMatch | proxyUri | proxyScheme | uriHost =>
          exact ⟨fun _ member => member, rfl⟩
      | _ =>
          exact ⟨fun _ member => List.mem_append_left _ member, rfl⟩

end Value

/-! ## The option loop -/

section Loop

variable (config : CoapConfig) (dataLen : Nat)

theorem optionResult_log (state : ParseState)
    (current optionNumber : Nat) :
    (∀ offset ∈ (optionState config state current optionNumber).reads,
      offset ∈
        (optionResult config state current optionNumber).2.reads) ∧
    (optionResult config state current optionNumber).2.bitmapAccesses =
      (optionState config state current
        optionNumber).bitmapAccesses :=
  coapParseOption_log config

theorem coapParseOptions_log (fuel : Nat) (state : ParseState)
    (current optionNumber : Nat) :
    (∀ offset ∈ state.reads, offset ∈
      (coapParseOptions config dataLen fuel state current
        optionNumber).2.reads) ∧
    (∀ index ∈ state.bitmapAccesses, index ∈
      (coapParseOptions config dataLen fuel state current
        optionNumber).2.bitmapAccesses) := by
  induction fuel generalizing state current optionNumber with
  | zero =>
      exact ⟨fun _ member => member, fun _ member => member⟩
  | succ fuel inductionHypothesis =>
      rcases Nat.lt_or_ge current dataLen with inside | done
      · by_cases payload : state.memory current &&& 0xF0 = 0xF0
        · rw [coapParseOptions_payload config dataLen fuel state inside
            payload]
          exact ⟨fun _ member => List.mem_append_left _ member,
            fun _ member => member⟩
        · rw [coapParseOptions_option config dataLen fuel state inside
            payload]
          have step := optionResult_log config state current optionNumber
          have oldReads : ∀ offset ∈ state.reads, offset ∈
              (optionState config state current optionNumber).reads :=
            fun _ member =>
              List.mem_append_left _ (List.mem_append_left _ member)
          have oldBitmap : ∀ index ∈ state.bitmapAccesses, index ∈
              (optionState config state current
                optionNumber).bitmapAccesses :=
            fun _ member => List.mem_append_left _ member
          split
          next status after result =>
            rw [result] at step
            exact ⟨fun _ member => step.1 _ (oldReads _ member),
              fun _ member => step.2 ▸ oldBitmap _ member⟩
          next after result =>
            rw [result] at step
            have rest := inductionHypothesis after
              (optionEnd config state.memory current)
              (nextNumber config state.memory current optionNumber)
            exact
              ⟨fun _ member => rest.1 _ (step.1 _ (oldReads _ member)),
                fun _ member =>
                  rest.2 _ (step.2 ▸ oldBitmap _ member)⟩
      · rw [coapParseOptions_done config dataLen _ state done]
        exact ⟨fun _ member => member, fun _ member => member⟩

theorem coapParseOptions_optionLog (fuel : Nat) (state : ParseState)
    {current : Nat} (optionNumber : Nat) (inside : current < dataLen)
    (notPayload : state.memory current &&& 0xF0 ≠ 0xF0) :
    (∀ offset ∈ (optionState config state current optionNumber).reads,
      offset ∈ (coapParseOptions config dataLen (fuel + 1) state current
        optionNumber).2.reads) ∧
    (∀ index ∈
        (optionState config state current optionNumber).bitmapAccesses,
      index ∈ (coapParseOptions config dataLen (fuel + 1) state current
        optionNumber).2.bitmapAccesses) := by
  rw [coapParseOptions_option config dataLen fuel state inside notPayload]
  have step := optionResult_log config state current optionNumber
  split
  next status after result =>
    rw [result] at step
    exact ⟨step.1, fun _ member => step.2 ▸ member⟩
  next after result =>
    rw [result] at step
    have rest := coapParseOptions_log config dataLen fuel after
      (optionEnd config state.memory current)
      (nextNumber config state.memory current optionNumber)
    exact ⟨fun _ member => rest.1 _ (step.1 _ member),
      fun _ member => rest.2 _ (step.2 ▸ member)⟩

section Step

variable {config dataLen} {state : ParseState}
  {current optionNumber : Nat}

theorem coapParseOptions_header_outside (fuel : Nat)
    (inside : current < dataLen)
    (notPayload : state.memory current &&& 0xF0 ≠ 0xF0)
    (outside : dataLen <
      (coapParseOptionHeader config state.memory current).value) :
    ¬ InBounds (coapParseOptions config dataLen (fuel + 1) state current
      optionNumber).2 dataLen := by
  intro after
  have logged := (coapParseOptions_optionLog config dataLen fuel state
    optionNumber inside notPayload).1
  have readOutside : dataLen ∈
      (optionState config state current optionNumber).reads := by
    apply List.mem_append_right
    rw [coapParseOptionHeader_reads]
    exact List.mem_range'_1.mpr ⟨by omega, by omega⟩
  have bound := after.reads dataLen (logged dataLen readOutside)
  omega

theorem coapParseOptions_bitmap_outside (fuel : Nat)
    (inside : current < dataLen)
    (notPayload : state.memory current &&& 0xF0 ≠ 0xF0)
    (outside : ¬ inBitmap
      (nextNumber config state.memory current optionNumber)) :
    ¬ InBounds (coapParseOptions config dataLen (fuel + 1) state current
      optionNumber).2 dataLen := by
  intro after
  have logged := (coapParseOptions_optionLog config dataLen fuel state
    optionNumber inside notPayload).2
  exact outside (after.bitmap _ (logged _
    (List.mem_append_right _ (List.mem_singleton.mpr rfl))))

theorem optionState_inBounds
    (inBounds : InBounds state dataLen) (inside : current < dataLen)
    (headerInside :
      (coapParseOptionHeader config state.memory current).value ≤ dataLen)
    (known : inBitmap
      (nextNumber config state.memory current optionNumber)) :
    InBounds (optionState config state current optionNumber) dataLen where
  reads := by
    intro offset member
    rcases List.mem_append.mp member with before | header
    · rcases List.mem_append.mp before with old | first
      · exact inBounds.reads offset old
      · rw [List.mem_singleton.mp first]
        exact inside
    · rw [coapParseOptionHeader_reads] at header
      have bounds := List.mem_range'_1.mp header
      omega
  ranges := inBounds.ranges
  bitmap := by
    intro index member
    rcases List.mem_append.mp member with old | new
    · exact inBounds.bitmap index old
    · rw [List.mem_singleton.mp new]
      exact known

end Step

theorem coapParsePayload_inBounds {state : ParseState} {current : Nat}
    (inBounds : InBounds state dataLen) (inside : current < dataLen) :
    InBounds (coapParsePayload config state dataLen current)
      dataLen where
  reads := inBounds.reads
  bitmap := inBounds.bitmap
  ranges := by
    intro range member
    have old : range ∈ ranges state.packet →
        range.1 + range.2 ≤ dataLen := inBounds.ranges range
    have short : (dataLen - (current + 1)) % 65536 ≤
        dataLen - (current + 1) := Nat.mod_le _ _
    simp only [ranges, coapParsePayload, List.mem_cons, List.not_mem_nil,
      or_false] at member old
    rcases member with same | same | same | same | same | same | same |
      payload
    case inr.inr.inr.inr.inr.inr.inr =>
      subst range
      simp only
      split <;> omega
    all_goals exact old (by tauto)

/-- The option loop stays in bounds exactly when the rest of the datagram
fits. -/
theorem coapParseOptions_inBounds_iff (fuel : Nat) {state : ParseState}
    {current optionNumber : Nat} (enough : dataLen ≤ current + fuel)
    (inBounds : InBounds state dataLen)
    (ends : RangesEndBy state.packet current) :
    InBounds (coapParseOptions config dataLen fuel state current
        optionNumber).2 dataLen ↔
      OptionsFit config optionNumber
        (state.memory.read current (dataLen - current)) := by
  induction fuel generalizing state current optionNumber with
  | zero =>
      have empty : dataLen - current = 0 := by omega
      rw [empty]
      exact ⟨fun _ => .nil, fun _ => inBounds⟩
  | succ fuel inductionHypothesis =>
      rcases Nat.lt_or_ge current dataLen with inside | done
      swap
      · have empty : dataLen - current = 0 := by omega
        rw [empty, coapParseOptions_done config dataLen _ state done]
        exact ⟨fun _ => .nil, fun _ => inBounds⟩
      have split : state.memory.read current (dataLen - current) =
          state.memory current ::
            state.memory.read (current + 1) (dataLen - (current + 1)) := by
        rw [show dataLen - current =
          (dataLen - (current + 1)) + 1 by omega]
        rfl
      rw [split]
      by_cases payload : state.memory current &&& 0xF0 = 0xF0
      · rw [coapParseOptions_payload config dataLen fuel state inside
          payload]
        have readInside : InBounds
            { state with reads := state.reads ++ [current] } dataLen :=
          { inBounds with
            reads := by
              intro offset member
              rcases List.mem_append.mp member with old | new
              · exact inBounds.reads offset old
              · rw [List.mem_singleton.mp new]
                exact inside }
        exact ⟨fun _ => .payload payload, fun _ =>
          coapParsePayload_inBounds config dataLen readInside inside⟩
      have header := optionHeader?_read config state.memory inside
      rcases Nat.lt_or_ge dataLen
          (coapParseOptionHeader config state.memory current).value with
        outside | headerInside
      · constructor
        · intro after
          exact absurd after
            (coapParseOptions_header_outside fuel inside payload outside)
        · intro fits
          rw [if_neg (by omega)] at header
          cases fits <;> simp_all
      rw [if_pos headerInside] at header
      by_cases known : inBitmap
          (nextNumber config state.memory current optionNumber)
      swap
      · constructor
        · intro after
          exact absurd after
            (coapParseOptions_bitmap_outside fuel inside payload known)
        · intro fits
          cases fits <;> simp_all [nextNumber]
      have stateInBounds :=
        optionState_inBounds inBounds inside headerInside known
      have before := coapParseOptionHeader_value_gt config state.memory
        current
      have status :
          (optionResult config state current optionNumber).1.isSome =
            endsParser (nextNumber config state.memory current
              optionNumber) :=
        coapParseOption_status config
      rw [coapParseOptions_option config dataLen fuel state inside
        payload]
      by_cases valueInside :
          (coapParseOptionHeader config state.memory current).value +
              valueNeeded
                (nextNumber config state.memory current optionNumber)
                (coapParseOptionHeader config state.memory
                  current).optionLength ≤ dataLen
      · have effect := coapParseOption_effect config stateInBounds
          (show RangesEndBy (optionState config state current
            optionNumber).packet current from ends) before valueInside
        change OptionEffect _
          (optionResult config state current optionNumber).2
          (optionEnd config state.memory current) dataLen at effect
        split
        next status' after result =>
          rw [result] at status effect
          exact ⟨fun _ => .final payload header known status.symm,
            fun _ => effect.inBounds⟩
        next after result =>
          rw [result] at status effect
          have advanced :
              dataLen ≤ optionEnd config state.memory current + fuel := by
            simp only [optionEnd]
            omega
          rw [inductionHypothesis advanced effect.inBounds
            effect.rangesEnd]
          have sameRest : after.memory.read
                (optionEnd config state.memory current)
                (dataLen - optionEnd config state.memory current) =
              (state.memory.read
                (coapParseOptionHeader config state.memory current).value
                (dataLen - (coapParseOptionHeader config state.memory
                  current).value)).drop
                (coapParseOptionHeader config state.memory
                  current).optionLength := by
            rw [ByteMem.drop_read, Nat.sub_sub]
            exact ByteMem.read_congr fun address lower _ =>
              effect.memory address lower
          rw [sameRest]
          constructor
          · intro rest
            exact .option payload header known status.symm
              (by simp only [ByteMem.length_read, nextNumber] at *; omega)
              rest
          · intro fits
            cases fits <;> simp_all [nextNumber]
      · have outside : ¬ InBounds
            (optionResult config state current optionNumber).2 dataLen :=
          coapParseOption_outside config stateInBounds headerInside
            (Nat.lt_of_not_le valueInside)
        have needed := valueNeeded_le
          (nextNumber config state.memory current optionNumber)
          (coapParseOptionHeader config state.memory current).optionLength
        split
        next status' after result =>
          rw [result] at status
          have unused := valueNeeded_of_endsParser
            (coapParseOptionHeader config state.memory
              current).optionLength status.symm
          omega
        next after result =>
          rw [result] at status outside
          rw [coapParseOptions_done config dataLen _ after
            (by simp only [optionEnd]; omega)]
          constructor
          · intro inBounds
            exact absurd inBounds outside
          · intro fits
            cases fits <;> simp_all [nextNumber]
            omega

end Loop

/-! ## The whole datagram -/

/-- The parser stays inside a datagram and the option bitmap exactly on the
datagrams that fit. -/
theorem coapParseMessage_inBounds_iff (config : CoapConfig)
    (data : ByteMem) (dataLen : Nat) (coapErrorMessage : String) :
    InBounds
        (coapParseMessage config data dataLen coapErrorMessage).2
        dataLen ↔
      DatagramFits config (data.read 0 dataLen) := by
  have emptyRanges : ∀ position,
      RangesEndBy (coapParseHeader data) position := by
    intro position range member
    simp only [ranges, coapParseHeader, CoapPacket.zero, List.mem_cons,
      List.not_mem_nil, or_false, or_self] at member
    subst range
    exact Nat.zero_le position
  rcases Nat.lt_or_ge dataLen coapHeaderLen with short | headerInside
  · -- The four header bytes are read before the length is looked at.
    constructor
    · intro after
      have headerRead : 3 ∈
          (coapParseMessage config data dataLen
            coapErrorMessage).2.reads := by
        unfold coapParseMessage
        simp only
        split
        · simp
        · exact (coapParseOptions_log config dataLen dataLen _ _ _).1 3
            (List.mem_append_left _ (by simp))
      have bound := after.reads 3 headerRead
      simp only [coapHeaderLen] at short
      omega
    · rintro ⟨complete, _⟩
      rw [ByteMem.length_read] at complete
      omega
  have firstByte : ByteMem.ofList (data.read 0 dataLen) 0 = data 0 := by
    simp only [coapHeaderLen] at headerInside
    simp [ByteMem.ofList, List.getD_eq_getElem?_getD,
      show 0 < dataLen by omega]
  have sameTokenLen :
      parsedTokenLen (ByteMem.ofList (data.read 0 dataLen)) =
        parsedTokenLen data := by
    rw [parsedTokenLen, firstByte, parsedTokenLen]
  unfold DatagramFits
  rw [firstByte, sameTokenLen, ByteMem.length_read, ByteMem.drop_read]
  by_cases version : (0xC0 &&& data 0) >>> 6 = 1
  swap
  · have result : coapParseMessage config data dataLen coapErrorMessage =
        (.badRequest,
          { packet := coapParseHeader data
            memory := data
            coapErrorMessage := "CoAP version must be 1"
            reads := [0, 1, 2, 3]
            bitmapAccesses := [] }) := by
      unfold coapParseMessage
      exact if_pos version
    rw [result]
    refine ⟨fun _ => ⟨headerInside, fun same => absurd same version⟩,
      fun _ => ?_⟩
    refine ⟨?_, emptyRanges dataLen, by simp⟩
    intro offset member
    simp only [coapHeaderLen, List.mem_cons, List.not_mem_nil,
      or_false] at headerInside member
    omega
  have result := coapParseMessage_version_one config dataLen
    coapErrorMessage version
  rw [result]
  rcases Nat.lt_or_ge dataLen (coapHeaderLen + parsedTokenLen data) with
    outside | tokenInside
  · -- The token is copied whatever the length of the datagram.
    constructor
    · intro after
      have tokenRead : dataLen ∈
          (tokenState data coapErrorMessage).reads := by
        apply List.mem_append_right
        exact List.mem_range'_1.mpr ⟨headerInside, outside⟩
      have bound := after.reads dataLen
        ((coapParseOptions_log config dataLen dataLen _ _ _).1 dataLen
          tokenRead)
      omega
    · rintro ⟨_, complete⟩
      have inside := (complete version).1
      omega
  · have tokenInBounds :
        InBounds (tokenState data coapErrorMessage) dataLen := by
      refine ⟨?_, emptyRanges dataLen, by simp [tokenState]⟩
      intro offset member
      rcases List.mem_append.mp member with header | token
      · simp only [coapHeaderLen, List.mem_cons, List.not_mem_nil,
          or_false] at headerInside header
        omega
      · have bounds := List.mem_range'_1.mp token
        omega
    rw [coapParseOptions_inBounds_iff config dataLen dataLen (by omega)
      tokenInBounds (emptyRanges _)]
    simp only [version, true_implies, Nat.zero_add]
    exact ⟨fun fits => ⟨headerInside, tokenInside, fits⟩,
      fun fits => fits.2.2⟩

/-- A datagram of seven bytes whose only option has the number 60268: the
parser writes a bit far behind the bitmap. -/
def farOption : List UInt8 :=
  [0x40, 0x01, 0x00, 0x00, 0xE0, 0xEA, 0x5F]

theorem coapParseMessage_farOption_not_inBounds :
    ¬ InBounds (coapParseMessage .erConf (ByteMem.ofList farOption)
      farOption.length "").2 farOption.length := by
  intro inBounds
  have accessed : 7533 ∈ (coapParseMessage .erConf
      (ByteMem.ofList farOption) farOption.length "").2.bitmapAccesses := by
    decide
  exact absurd (inBounds.bitmap 7533 accessed) (by decide)

end Contiki.Coap
