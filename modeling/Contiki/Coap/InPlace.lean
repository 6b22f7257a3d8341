import Contiki.Coap.Build

/-!
# Serializing into the buffer that holds the payload

`coap_serialize_message` when `payload` points into `buffer`, as it does for
a transaction: the handler of a resource fills the buffer from
`COAP_MAX_HEADER_SIZE` on.  Positions are distances from `buffer`.
-/

namespace Contiki.Coap

open Contiki.Lib

/-- The buffer after `coap_serialize_message`, the positions written, the
packet length that it returns, and `coap_error_message` if it sets it. -/
structure InPlace where
  buffer : ByteMem
  writes : List Nat
  length : Nat
  coapErrorMessage : Option String

def serializedHeader (packet : SentPacket) : List UInt8 :=
  if packet.code = 0 then coapSerializeHeader packet
  else
    coapSerializeHeader packet ++ packet.token ++
      serializeOptions packet CoapOption.all 0

/-- `coap_serialize_message` for a `payload` that is a position in
`buffer`. -/
def coapSerializeInPlace (config : CoapConfig) (packet : SentPacket)
    (payload : Nat) (buffer : ByteMem) : InPlace :=
  let header := serializedHeader packet
  let buffer := buffer.write 0 header
  let writes := List.range' 0 header.length
  -- empty packet, dont need to do more stuff
  if packet.code = 0 then
    { buffer := buffer
      writes := writes
      length := header.length
      coapErrorMessage := none }
  else if header.length ≤ config.coapMaxHeaderSize then
    let marker : List UInt8 := if packet.payloadLen ≠ 0 then [0xFF] else []
    let buffer := buffer.write header.length marker
    let option := header.length + marker.length
    -- memmove
    { buffer :=
        buffer.write option (buffer.read payload packet.payloadLen)
      writes := writes ++ List.range' header.length marker.length ++
        List.range' option packet.payloadLen
      length := option + packet.payloadLen
      coapErrorMessage := none }
  else
    { buffer := buffer
      writes := writes
      length := 0
      coapErrorMessage :=
        some "Serialized header exceeds COAP_MAX_HEADER_SIZE" }

namespace InPlace

/-- The message is the header and, behind the marker, the payload. -/
def KeepsPayload (packet : SentPacket) (payload : List UInt8)
    (after : InPlace) : Prop :=
  after.buffer.read 0 after.length =
    serializedHeader packet ++
      (if payload ≠ [] then 0xFF :: payload else [])

/-- Nothing is written behind `COAP_MAX_PACKET_SIZE` bytes. -/
def WritesInside (config : CoapConfig) (after : InPlace) : Prop :=
  ∀ position ∈ after.writes, position < config.coapMaxPacketSize

end InPlace

variable {config : CoapConfig} {packet : SentPacket} {buffer : ByteMem}

/-- The payload that the handler of a resource left in the buffer. -/
def placedPayload (config : CoapConfig) (packet : SentPacket)
    (buffer : ByteMem) : List UInt8 :=
  buffer.read config.coapMaxHeaderSize packet.payloadLen

/-! ## The move -/

/-- Three blocks that are stored one behind the other are read as one. -/
theorem read_threeWrites (memory : ByteMem)
    (first second third : List UInt8) :
    (((memory.write 0 first).write first.length second).write
        (first.length + second.length) third).read 0
      (first.length + second.length + third.length) =
        first ++ second ++ third := by
  rw [ByteMem.read_add, ByteMem.read_add, Nat.zero_add, Nat.zero_add]
  congr 1
  · congr 1
    · rw [ByteMem.read_write_disjoint (by omega),
        ByteMem.read_write_disjoint (by omega)]
      exact ByteMem.read_write_self _ _ _
    · rw [ByteMem.read_write_disjoint (by omega)]
      exact ByteMem.read_write_self _ _ _
  · exact ByteMem.read_write_self _ _ _

/-- The payload that the move finds: the marker lies on its first byte when
the header fills the room before it. -/
theorem read_behindMarker (memory : ByteMem) {header : List UInt8}
    {position count : Nat} (short : header.length ≤ position) :
    ((memory.write 0 header).write header.length [0xFF]).read position
        (count + 1) =
      (if header.length = position then 0xFF else memory position) ::
        memory.read (position + 1) count := by
  rw [ByteMem.read_succ]
  congr 1
  · split
    · next fills =>
        rw [← fills]
        exact ByteMem.write_inside 0 (by decide)
    · next room =>
        rw [ByteMem.write_of_ge (by simp only [List.length_singleton]; omega),
          ByteMem.write_of_ge (by omega)]
  · rw [ByteMem.read_write_disjoint
        (by simp only [List.length_singleton]; omega),
      ByteMem.read_write_disjoint (by omega)]

theorem read_coapSerializeInPlace (notEmpty : packet.code ≠ 0)
    (short : (serializedHeader packet).length ≤ config.coapMaxHeaderSize)
    {position : Nat} (behind : config.coapMaxHeaderSize ≤ position)
    {count : Nat} (length : packet.payloadLen = count + 1) :
    let after := coapSerializeInPlace config packet position buffer
    after.buffer.read 0 after.length =
      serializedHeader packet ++ 0xFF ::
        (if (serializedHeader packet).length = position then 0xFF
          else buffer position) ::
        buffer.read (position + 1) count := by
  have moved := @read_behindMarker buffer _ _ count (short.trans behind)
  have blocks := read_threeWrites buffer (serializedHeader packet) [0xFF]
    (((buffer.write 0 (serializedHeader packet)).write
      (serializedHeader packet).length [0xFF]).read position (count + 1))
  rw [ByteMem.length_read] at blocks
  unfold coapSerializeInPlace
  dsimp only
  rw [if_neg notEmpty, if_pos short, length, if_pos (Nat.succ_ne_zero _),
    blocks, moved, List.append_assoc]
  rfl

theorem read_coapSerializeInPlace_none
    (short : (serializedHeader packet).length ≤ config.coapMaxHeaderSize)
    (noPayload : packet.payloadLen = 0) :
    let after := coapSerializeInPlace config packet
      config.coapMaxHeaderSize buffer
    after.buffer.read 0 after.length = serializedHeader packet ∧
      after.writes = List.range' 0 (serializedHeader packet).length := by
  have header := ByteMem.read_write_self buffer 0 (serializedHeader packet)
  unfold coapSerializeInPlace
  dsimp only
  by_cases empty : packet.code = 0
  · rw [if_pos empty]
    exact ⟨header, rfl⟩
  · rw [if_neg empty, if_pos short, noPayload,
      if_neg (fun positive => positive rfl), ByteMem.read_zero,
      ByteMem.write_nil, ByteMem.write_nil]
    exact ⟨header, by simp⟩

theorem writesInside_coapSerializeInPlace_iff (notEmpty : packet.code ≠ 0)
    (short : (serializedHeader packet).length ≤ config.coapMaxHeaderSize)
    {count : Nat} (length : packet.payloadLen = count + 1) :
    (coapSerializeInPlace config packet config.coapMaxHeaderSize
        buffer).WritesInside config ↔
      (serializedHeader packet).length + 1 + packet.payloadLen ≤
        config.coapMaxPacketSize := by
  unfold InPlace.WritesInside coapSerializeInPlace
  dsimp only
  rw [if_neg notEmpty, if_pos short, length, if_pos (Nat.succ_ne_zero _)]
  simp only [List.mem_append, List.mem_range'_1, List.length_singleton]
  constructor
  · intro inside
    have last := inside ((serializedHeader packet).length + 1 + count)
      (by omega)
    omega
  · intro fits position between
    omega

theorem not_keepsPayload_of_empty (empty : packet.code = 0)
    {payload : List UInt8} (nonempty : payload ≠ []) :
    ¬ (coapSerializeInPlace config packet config.coapMaxHeaderSize
      buffer).KeepsPayload packet payload := by
  unfold InPlace.KeepsPayload coapSerializeInPlace
  dsimp only
  rw [if_pos empty, if_pos nonempty, ByteMem.read_write_self]
  intro same
  have lengths := congrArg List.length same
  rw [List.length_append, List.length_cons] at lengths
  omega

/-! ## When the payload is kept -/

/-- The payload is empty, or a message carries it and either the header
leaves room for the marker, or the byte that the marker replaces is the same
and the packet has one byte to spare. -/
def MarkerFits (config : CoapConfig) (packet : SentPacket)
    (buffer : ByteMem) : Prop :=
  packet.payloadLen = 0 ∨
    packet.code ≠ 0 ∧
      ((serializedHeader packet).length < config.coapMaxHeaderSize ∨
        buffer config.coapMaxHeaderSize = 0xFF ∧
          packet.payloadLen < config.restMaxChunkSize)

/-- Serializing in place keeps the payload and stays in the packet exactly
when the marker fits. -/
theorem coapSerializeInPlace_iff (config : CoapConfig) (packet : SentPacket)
    (buffer : ByteMem)
    (bounded : packet.payloadLen ≤ config.restMaxChunkSize)
    (short : (serializedHeader packet).length ≤ config.coapMaxHeaderSize) :
    let after := coapSerializeInPlace config packet
      config.coapMaxHeaderSize buffer
    after.KeepsPayload packet (placedPayload config packet buffer) ∧
        after.WritesInside config ↔
      MarkerFits config packet buffer := by
  intro after
  cases length : packet.payloadLen with
  | zero =>
      obtain ⟨message, writes⟩ := @read_coapSerializeInPlace_none config
        packet buffer short length
      have noPayload : placedPayload config packet buffer = [] := by
        unfold placedPayload
        rw [length]
        rfl
      refine iff_of_true ⟨?_, ?_⟩ (Or.inl length)
      · unfold InPlace.KeepsPayload
        rw [noPayload, if_neg (fun nonempty => nonempty rfl),
          List.append_nil]
        exact message
      · unfold InPlace.WritesInside
        rw [writes]
        intro position member
        have bound := (List.mem_range'_1.mp member).2
        unfold CoapConfig.coapMaxPacketSize
        omega
  | succ count =>
      have isPayload : placedPayload config packet buffer =
          buffer config.coapMaxHeaderSize ::
            buffer.read (config.coapMaxHeaderSize + 1) count := by
        unfold placedPayload
        rw [length]
        rfl
      have positive : packet.payloadLen ≠ 0 := by omega
      unfold MarkerFits
      rw [or_iff_right positive]
      by_cases empty : packet.code = 0
      · refine iff_of_false ?_ fun fits => fits.1 empty
        intro keeps
        refine not_keepsPayload_of_empty empty ?_ keeps.1
        rw [isPayload]
        exact List.cons_ne_nil _ _
      · have message := @read_coapSerializeInPlace config packet buffer
          empty short _ (Nat.le_refl _) count length
        have writes := @writesInside_coapSerializeInPlace_iff config packet
          buffer empty short count length
        unfold CoapConfig.coapMaxPacketSize at writes
        unfold InPlace.KeepsPayload
        rw [writes, message, isPayload,
          if_pos (List.cons_ne_nil _ _), and_iff_right empty]
        simp only [List.append_cancel_left_eq, List.cons.injEq, true_and,
          and_true]
        by_cases fills :
            (serializedHeader packet).length = config.coapMaxHeaderSize
        · rw [if_pos fills]
          constructor
          · intro keeps
            exact Or.inr ⟨keeps.1.symm, by omega⟩
          · intro fits
            cases fits with
            | inl room =>
                omega
            | inr same =>
                exact ⟨same.1.symm, by omega⟩
        · rw [if_neg fills]
          exact iff_of_true ⟨rfl, by omega⟩ (Or.inl (by omega))

theorem letters_ne_zero (count : Nat) :
    ∀ char ∈ List.replicate count (97 : UInt8), char ≠ 0 := by
  intro char member
  rw [List.eq_of_mem_replicate member]
  decide

def letters (count : Nat) : CString where
  chars := List.replicate count 97
  chars_ne_zero := letters_ne_zero count
  after := fun _ => 0

/-- A response with a token of eight bytes, a Location-Path and a payload of
two bytes. -/
def pathResponse (count : Nat) : SentPacket :=
  build CoapConfig.erConf .ack 65 1
    [.token (List.replicate 8 1), .locationPath (letters count),
      .payload nullString 2]

/-- A header of 61 bytes leaves room for the marker. -/
theorem pathResponse_keepsPayload :
    let after := coapSerializeInPlace CoapConfig.erConf (pathResponse 47)
      CoapConfig.erConf.coapMaxHeaderSize (fun _ => 5)
    after.KeepsPayload (pathResponse 47) [5, 5] ∧
      after.WritesInside CoapConfig.erConf :=
  (coapSerializeInPlace_iff CoapConfig.erConf (pathResponse 47) (fun _ => 5)
    (by decide +kernel) (by decide +kernel)).mpr
      (Or.inr ⟨by decide +kernel, Or.inl (by decide +kernel)⟩)

/-- A header of 62 bytes fills the room, and the marker replaces the first
byte of the payload. -/
theorem pathResponse_not_keepsPayload :
    (serializedHeader (pathResponse 48)).length ≤
        CoapConfig.erConf.coapMaxHeaderSize ∧
      ¬ (coapSerializeInPlace CoapConfig.erConf (pathResponse 48)
        CoapConfig.erConf.coapMaxHeaderSize
          (fun _ => 5)).KeepsPayload (pathResponse 48) [5, 5] := by
  unfold InPlace.KeepsPayload
  decide +kernel

end Contiki.Coap
