import Contiki.Rime.ChameleonBits

/-!
# The round trip of a packed header

A header that fits into its size gives back the attributes and the addresses
that were packed.
-/

namespace Contiki.Rime

open Contiki.Lib
open Contiki.Net

variable {Attr Addr : Type}

/-! ## Fields in a row -/

theorem headerSize_eq (attrlist : List (AttrEntry Attr Addr)) :
    headerSize attrlist =
      (attrlist.map fun entry => entry.len.toNat).sum := by
  have general : ∀ (attrlist : List (AttrEntry Attr Addr)) (size : Nat),
      attrlist.foldl (fun size entry => size + entry.len.toNat) size =
        size + (attrlist.map fun entry => entry.len.toNat).sum := by
    intro attrlist
    induction attrlist with
    | nil =>
        intro size
        rfl
    | cons entry attrlist inductionHypothesis =>
        intro size
        rw [List.foldl_cons, inductionHypothesis, List.map_cons,
          List.sum_cons, Nat.add_assoc]
  exact (general attrlist 0).trans (Nat.zero_add _)

@[simp]
theorem headerSize_nil :
    headerSize ([] : List (AttrEntry Attr Addr)) = 0 := rfl

@[simp]
theorem headerSize_cons (entry : AttrEntry Attr Addr)
    (attrlist : List (AttrEntry Attr Addr)) :
    headerSize (entry :: attrlist) =
      entry.len.toNat + headerSize attrlist := by
  rw [headerSize_eq, headerSize_eq, List.map_cons, List.sum_cons]

/-- The bits from a position on hold the values of the entries. -/
def HoldsFields (value : FieldType Attr Addr → ByteMem)
    (memory : ByteMem) : Nat → List (AttrEntry Attr Addr) → Prop
  | _, [] => True
  | position, entry :: entries =>
      Encodes memory position entry.len.toNat (value entry.type) ∧
        HoldsFields value memory (position + entry.len.toNat) entries

def AreFieldSizes (entries : List (AttrEntry Attr Addr)) : Prop :=
  ∀ entry ∈ entries, IsFieldSize entry.len.toNat

theorem HoldsFields.congr {value : FieldType Attr Addr → ByteMem}
    {memory other : ByteMem} {entries : List (AttrEntry Attr Addr)}
    {position place : Nat} (sizes : AreFieldSizes entries)
    (holds : HoldsFields value memory position entries)
    (same : ∀ offset < headerSize entries,
      other.bitAt (place + offset) = memory.bitAt (position + offset)) :
    HoldsFields value other place entries := by
  induction entries generalizing position place with
  | nil => trivial
  | cons entry entries inductionHypothesis =>
      rw [headerSize_cons] at same
      refine ⟨holds.1.congr (sizes entry List.mem_cons_self)
        fun offset inside => same offset (by omega), ?_⟩
      refine inductionHypothesis
        (fun other member => sizes other (List.mem_cons_of_mem _ member))
        holds.2 ?_
      intro offset inside
      rw [Nat.add_assoc, Nat.add_assoc]
      exact same _ (by omega)

theorem HoldsFields.encodes {value : FieldType Attr Addr → ByteMem}
    {memory : ByteMem} {first rest : List (AttrEntry Attr Addr)}
    {entry : AttrEntry Attr Addr} {position : Nat}
    (holds : HoldsFields value memory position (first ++ entry :: rest)) :
    Encodes memory (position + headerSize first) entry.len.toNat
      (value entry.type) := by
  induction first generalizing position with
  | nil => exact holds.1
  | cons earlier first inductionHypothesis =>
      rw [headerSize_cons, ← Nat.add_assoc]
      exact inductionHypothesis holds.2

theorem exists_last_entry {entries : List (AttrEntry Attr Addr)}
    {type : FieldType Attr Addr}
    (member : type ∈ entries.map AttrEntry.type) :
    ∃ first last rest, entries = first ++ last :: rest ∧
      last.type = type ∧ type ∉ rest.map AttrEntry.type := by
  induction entries with
  | nil => cases member
  | cons head entries inductionHypothesis =>
      by_cases later : type ∈ entries.map AttrEntry.type
      case pos =>
        rcases inductionHypothesis later with
          ⟨first, last, rest, split, isLast⟩
        exact ⟨head :: first, last, rest, by rw [split, List.cons_append],
          isLast⟩
      case neg =>
        rcases List.mem_cons.mp member with here | there
        · exact ⟨[], head, entries, rfl, here.symm, later⟩
        · exact absurd there later

section Header

variable [DecidableEq Attr] [DecidableEq Addr] {linkaddrSize : Nat}

/-! ## Packing -/

/-- The entries stay inside the objects with their values. -/
def Within (linkaddrSize : Nat) (entries : List (AttrEntry Attr Addr)) :
    Prop :=
  ∀ entry ∈ entries,
    fieldBytes entry.len.toNat ≤ entry.type.size linkaddrSize

omit [DecidableEq Attr] [DecidableEq Addr] in
theorem bit_place (hdrptr bitptr : Nat) :
    8 * (hdrptr + bitptr / 8) + bitptr % 8 = 8 * hdrptr + bitptr := by
  omega

variable (val : UInt16) (payload : List UInt8) {uninitialized : ByteMem}
  {hdrptr bitptr : Nat} {entries : List (AttrEntry Attr Addr)}
  (buf : Packetbuf Attr Addr)

omit [DecidableEq Attr] [DecidableEq Addr] in
/-- The loop of `pack_header` has a result when it stays inside the objects
with the values. -/
theorem packFields_isSome (hdrptr bitptr : Nat)
    (entries : List (AttrEntry Attr Addr)) (memory : ByteMem) :
    (packFields linkaddrSize buf hdrptr entries bitptr memory).isSome ↔
      Within linkaddrSize entries := by
  induction entries generalizing bitptr memory with
  | nil => simp [packFields, Within]
  | cons entry entries inductionHypothesis =>
      rw [packFields]
      by_cases inside :
          fieldBytes entry.len.toNat ≤ entry.type.size linkaddrSize
      case pos =>
        rw [if_pos inside, inductionHypothesis]
        simp [Within, inside]
      case neg =>
        rw [if_neg inside]
        simp [Within, inside]

omit [DecidableEq Attr] [DecidableEq Addr] in
/-- The loop of `pack_header` stores the values of the entries. -/
theorem packFields_spec {buf : Packetbuf Attr Addr} {hdrptr bitptr : Nat}
    {entries : List (AttrEntry Attr Addr)} {memory after : ByteMem}
    (sizes : AreFieldSizes entries)
    (fits : ∀ entry ∈ entries,
      Fits entry.len.toNat (fieldValue buf entry.type))
    (clear : ∀ other < headerSize entries,
      memory.bitAt (8 * hdrptr + bitptr + other) = false)
    (packed : packFields linkaddrSize buf hdrptr entries bitptr memory =
      some after) :
    HoldsFields (fieldValue buf) after (8 * hdrptr + bitptr) entries ∧
      ∀ position, (position < 8 * hdrptr + bitptr ∨
          8 * hdrptr + bitptr + headerSize entries ≤ position) →
        after.bitAt position = memory.bitAt position := by
  induction entries generalizing bitptr memory with
  | nil =>
      cases packed
      exact ⟨trivial, fun _ _ => rfl⟩
  | cons entry entries inductionHypothesis =>
      rw [packFields] at packed
      split at packed
      case isFalse => cases packed
      have size := sizes entry List.mem_cons_self
      have fitsFirst := fits entry List.mem_cons_self
      have offset : bitptr % 8 < 8 := Nat.mod_lt _ (by decide)
      have place := bit_place hdrptr bitptr
      rw [headerSize_cons] at clear ⊢
      have clearFirst : ∀ other < entry.len.toNat,
          memory.bitAt (8 * (hdrptr + bitptr / 8) + bitptr % 8 + other) =
            false := by
        intro other inside
        rw [place]
        exact clear other (by omega)
      have bits := bitAt_setBits memory (hdrptr + bitptr / 8) offset size
        fitsFirst clearFirst
      have stored := encodes_setBits memory (hdrptr + bitptr / 8) offset
        size fitsFirst clearFirst
      rw [place] at bits stored
      have rest := inductionHypothesis
        (fun other member => sizes other (List.mem_cons_of_mem _ member))
        (fun other member => fits other (List.mem_cons_of_mem _ member))
        (by
          intro other inside
          rw [bits, if_neg (by omega)]
          have known := clear (entry.len.toNat + other) (by omega)
          rwa [show 8 * hdrptr + (bitptr + entry.len.toNat) + other =
            8 * hdrptr + bitptr + (entry.len.toNat + other) by omega])
        packed
      rw [← Nat.add_assoc] at rest
      refine ⟨⟨?_, rest.1⟩, ?_⟩
      · refine stored.congr size ?_
        intro offset inside
        exact rest.2 _ (Or.inl (by omega))
      · intro position outside
        rw [rest.2 position (by omega), bits, if_neg (by omega)]

/-! ## Unpacking -/

/-- An attribute or an address of the packet buffer has these bytes. -/
def Stored (linkaddrSize : Nat) (buf : Packetbuf Attr Addr)
    (bytes : ByteMem) : FieldType Attr Addr → Prop
  | .attr type => buf.attrs type = attrOfBytes bytes
  | .addr type => ∀ index < linkaddrSize, buf.addrs type index = bytes index

theorem stored_setField (bytes : ByteMem) (type : FieldType Attr Addr) :
    Stored linkaddrSize (setField linkaddrSize buf bytes type) bytes
      type := by
  cases type with
  | attr type => exact if_pos rfl
  | addr type =>
      intro index inside
      simp [setField, inside]

theorem Stored.setField {buf : Packetbuf Attr Addr} {bytes : ByteMem}
    {type other : FieldType Attr Addr}
    (stored : Stored linkaddrSize buf bytes type) (different : type ≠ other)
    (written : ByteMem) :
    Stored linkaddrSize (setField linkaddrSize buf written other) bytes
      type := by
  cases type with
  | attr type =>
      cases other with
      | attr other =>
          have notSame : type ≠ other :=
            fun same => different (congrArg FieldType.attr same)
          exact (if_neg notSame).trans stored
      | addr other => exact stored
  | addr type =>
      cases other with
      | attr other => exact stored
      | addr other =>
          have notSame : type ≠ other :=
            fun same => different (congrArg FieldType.addr same)
          intro index inside
          rw [← stored index inside]
          exact congrFun (if_neg notSame) index

/-- The bytes and the lengths of a packet buffer. -/
def SamePacket (first second : Packetbuf Attr Addr) : Prop :=
  second.packetbuf = first.packetbuf ∧ second.hdrptr = first.hdrptr ∧
    second.bufptr = first.bufptr ∧ second.buflen = first.buflen

theorem samePacket_setField (bytes : ByteMem) (type : FieldType Attr Addr) :
    SamePacket buf (setField linkaddrSize buf bytes type) := by
  cases type with
  | attr type => exact ⟨rfl, rfl, rfl, rfl⟩
  | addr type => exact ⟨rfl, rfl, rfl, rfl⟩

/-- The loop of `unpack_header` changes no byte of the packet. -/
theorem samePacket_unpackFields {buf after : Packetbuf Attr Addr}
    (unpacked : unpackFields linkaddrSize uninitialized hdrptr entries bitptr
      buf = some after) : SamePacket buf after := by
  induction entries generalizing bitptr buf with
  | nil =>
      cases unpacked
      exact ⟨rfl, rfl, rfl, rfl⟩
  | cons entry entries inductionHypothesis =>
      rw [unpackFields] at unpacked
      dsimp only at unpacked
      split at unpacked
      case isFalse => cases unpacked
      rcases inductionHypothesis unpacked with ⟨bytes, hdr, ptr, length⟩
      rcases @samePacket_setField _ _ _ _ linkaddrSize buf
        (getBits (entry.type.object uninitialized) buf.packetbuf
          (hdrptr + bitptr / 8) (bitptr % 8) entry.len.toNat) entry.type with
        ⟨sameBytes, sameHdr, samePtr, sameLength⟩
      exact ⟨bytes.trans sameBytes, hdr.trans sameHdr, ptr.trans samePtr,
        length.trans sameLength⟩

/-- The loop of `unpack_header` keeps what it does not read. -/
theorem Stored.unpackFields
    {buf after : Packetbuf Attr Addr} {bytes : ByteMem}
    {type : FieldType Attr Addr} (stored : Stored linkaddrSize buf bytes type)
    (notRead : type ∉ entries.map AttrEntry.type)
    (unpacked : unpackFields linkaddrSize uninitialized hdrptr entries bitptr
      buf = some after) : Stored linkaddrSize after bytes type := by
  induction entries generalizing bitptr buf with
  | nil =>
      cases unpacked
      exact stored
  | cons entry entries inductionHypothesis =>
      rw [Rime.unpackFields] at unpacked
      dsimp only at unpacked
      split at unpacked
      case isFalse => cases unpacked
      rw [List.map_cons, List.mem_cons, not_or] at notRead
      exact inductionHypothesis (stored.setField notRead.1 _) notRead.2
        unpacked

theorem unpackFields_last {first rest : List (AttrEntry Attr Addr)}
    {entry : AttrEntry Attr Addr} {buf after : Packetbuf Attr Addr}
    (isLast : entry.type ∉ rest.map AttrEntry.type)
    (unpacked : unpackFields linkaddrSize uninitialized hdrptr
      (first ++ entry :: rest) bitptr buf = some after) :
    Stored linkaddrSize after
      (getBits (entry.type.object uninitialized) buf.packetbuf
        (hdrptr + (bitptr + headerSize first) / 8)
        ((bitptr + headerSize first) % 8) entry.len.toNat)
      entry.type := by
  induction first generalizing bitptr buf with
  | nil =>
      rw [List.nil_append, unpackFields] at unpacked
      dsimp only at unpacked
      split at unpacked
      case isFalse => cases unpacked
      exact (stored_setField _ _ _).unpackFields isLast unpacked
  | cons earlier first inductionHypothesis =>
      rw [List.cons_append, unpackFields] at unpacked
      dsimp only at unpacked
      split at unpacked
      case isFalse => cases unpacked
      have stored := inductionHypothesis unpacked
      rw [(samePacket_setField buf _ earlier.type).1] at stored
      rw [headerSize_cons, ← Nat.add_assoc]
      exact stored

/-- The loop of `unpack_header` has a result when it stays inside the objects
that it stores to. -/
theorem unpackFields_isSome (uninitialized : ByteMem) (hdrptr bitptr : Nat)
    (entries : List (AttrEntry Attr Addr)) (buf : Packetbuf Attr Addr) :
    (unpackFields linkaddrSize uninitialized hdrptr entries bitptr
        buf).isSome ↔ Within linkaddrSize entries := by
  induction entries generalizing bitptr buf with
  | nil => simp [unpackFields, Within]
  | cons entry entries inductionHypothesis =>
      rw [unpackFields]
      dsimp only
      by_cases inside :
          fieldBytes entry.len.toNat ≤ entry.type.size linkaddrSize
      case pos =>
        rw [if_pos inside, inductionHypothesis]
        simp [Within, inside]
      case neg =>
        rw [if_neg inside]
        simp [Within, inside]

/-! ## Headers -/

/-- The value of an entry fits its declared size. -/
def FitsEntry (linkaddrSize : Nat) (buf : Packetbuf Attr Addr)
    (entry : AttrEntry Attr Addr) : Prop :=
  match entry.type with
  | .attr type => (buf.attrs type).toNat < 2 ^ entry.len.toNat
  | .addr type => Fits entry.len.toNat (buf.addrs type) ∧
      ∀ index < linkaddrSize, fieldBytes entry.len.toNat ≤ index →
        buf.addrs type index = 0

/-- Two packet buffers have the same attribute or address. -/
def SameField (linkaddrSize : Nat) (first second : Packetbuf Attr Addr) :
    FieldType Attr Addr → Prop
  | .attr type => second.attrs type = first.attrs type
  | .addr type => ∀ index < linkaddrSize,
      second.addrs type index = first.addrs type index

/-- What `pack_header` makes of a packet is unpacked again: the channel, the
attributes and addresses of its list, and the packet are got back. -/
def Restores (linkaddrSize : Nat) (c : Channel Attr Addr) : Prop :=
  ∀ (channels : List (Channel Attr Addr))
    (sent received : Packetbuf Attr Addr) (uninitialized : ByteMem),
    channelLookup channels c.channelno = some c →
    sent.hdrptr ≤ packetbufHdrSize →
    (∀ entry ∈ c.attrlist, FitsEntry linkaddrSize sent entry) →
    ∃ result, packHeader linkaddrSize c sent = some result ∧
      ∀ packed, result = (true, packed) → received.data = packed.contents →
        ∃ unpacked,
          unpackHeader linkaddrSize channels uninitialized received =
              some (some c, unpacked) ∧
            unpacked.data = sent.contents ∧
            ∀ entry ∈ c.attrlist,
              SameField linkaddrSize sent unpacked entry.type

/-- The header fits into its size, an attribute into its 16 bits, and an
address is sent whole. -/
def Bounded (linkaddrSize : Nat) (c : Channel Attr Addr) : Prop :=
  headerSize c.attrlist < 256 ∧ ∀ entry ∈ c.attrlist,
    match entry.type with
    | .attr _ => fieldBytes entry.len.toNat ≤ 2
    | .addr _ => fieldBytes entry.len.toNat = linkaddrSize

theorem attrBytes_zero : attrBytes val 0 = val.toUInt8 := rfl

theorem attrBytes_one :
    attrBytes val 1 = (val >>> (8 : UInt16)).toUInt8 := rfl

theorem attrOfBytes_attrBytes : attrOfBytes (attrBytes val) = val := by
  apply UInt16.toNat_inj.1
  have bound := val.toNat_lt
  rw [attrOfBytes, attrBytes_zero, attrBytes_one]
  simp [UInt16.toNat_shiftRight, Nat.shiftRight_eq_div_pow]
  omega

theorem fits_attrBytes {val : UInt16} {bits : Nat} (size : IsFieldSize bits)
    (within : fieldBytes bits ≤ 2) (fits : val.toNat < 2 ^ bits) :
    Fits bits (attrBytes val) ∧
      ∀ index < 2, fieldBytes bits ≤ index → attrBytes val index = 0 := by
  have low : val.toUInt8.toNat = val.toNat % 256 := UInt16.toNat_toUInt8 val
  have high : (val >>> (8 : UInt16)).toUInt8.toNat =
      val.toNat / 256 % 256 := by
    rw [UInt16.toNat_toUInt8, UInt16.toNat_shiftRight]
    exact congrArg (· % 256) (Nat.shiftRight_eq_div_pow _ 8)
  by_cases one : bits ≤ 8
  case pos =>
    have small : 2 ^ bits ≤ 256 := Nat.pow_le_pow_right (n := 2) (by decide) one
    have bytes : fieldBytes bits = 1 := by
      unfold fieldBytes
      split <;> omega
    have width : fieldWidth bits = bits := by
      unfold fieldWidth
      split <;> omega
    constructor
    · intro index isByte
      have first : index = 0 := by omega
      rw [first, attrBytes_zero, low, width]
      exact Nat.lt_of_le_of_lt (Nat.mod_le _ _) fits
    · intro index inside behind
      have second : index = 1 := by omega
      rw [second, attrBytes_one]
      apply UInt8.toNat_inj.1
      rw [high, Nat.div_eq_of_lt (Nat.lt_of_lt_of_le fits small)]
      rfl
  case neg =>
    have width : fieldWidth bits = 8 := if_neg (by omega)
    have bytes : fieldBytes bits = 2 := by
      have whole := size.mul (by omega)
      omega
    constructor
    · intro index _
      rw [width]
      exact (attrBytes val index).toNat_lt
    · intro index inside behind
      omega

omit [DecidableEq Attr] [DecidableEq Addr] in
theorem FitsEntry.fits {buf : Packetbuf Attr Addr}
    {entry : AttrEntry Attr Addr} (fits : FitsEntry linkaddrSize buf entry)
    (size : IsFieldSize entry.len.toNat)
    (within : fieldBytes entry.len.toNat ≤ entry.type.size linkaddrSize) :
    Fits entry.len.toNat (fieldValue buf entry.type) := by
  rcases entry with ⟨type, len⟩
  cases type with
  | attr type => exact (fits_attrBytes size within fits).1
  | addr type => exact fits.1

variable {c : Channel Attr Addr}

omit [DecidableEq Attr] [DecidableEq Addr] in
theorem Bounded.within
    (bounded : Bounded linkaddrSize c) : Within linkaddrSize c.attrlist := by
  intro entry member
  have known := bounded.2 entry member
  rcases entry with ⟨type, len⟩
  cases type with
  | attr type => exact known
  | addr type => exact Nat.le_of_eq known

omit [DecidableEq Attr] [DecidableEq Addr] in
/-- The bytes of the header are enough when its size is below 256 bits. -/
theorem headerSize_le (small : headerSize c.attrlist < 256) :
    headerSize c.attrlist ≤ 8 * c.hdrbytesize := by
  have size : c.hdrsize.toNat = headerSize c.attrlist := by
    rw [c.isSize, UInt8.toNat_ofNat_of_lt' small]
  rw [Channel.hdrbytesize, size]
  split <;> omega

theorem byte_of_bits {memory other : ByteMem} {address place : Nat}
    (same : ∀ bit < 8,
      other.bitAt (8 * place + bit) = memory.bitAt (8 * address + bit)) :
    other place = memory address := by
  apply byte_ext
  intro bit small
  have known := same (7 - bit) (by omega)
  rw [ByteMem.bitAt_add _ _ (by omega), ByteMem.bitAt_add _ _ (by omega),
    show 7 - (7 - bit) = bit by omega] at known
  exact known

theorem bitAt_of_holds {memory other : ByteMem} {base place count : Nat}
    (holds : other.Holds place (memory.read base count)) {bit : Nat}
    (inside : bit < 8 * count) :
    other.bitAt (8 * place + bit) = memory.bitAt (8 * base + bit) := by
  have bytes := holds.apply (bit / 8) (by
    rw [ByteMem.length_read]
    omega)
  rw [ByteMem.getElem_read] at bytes
  have index : bit = 8 * (bit / 8) + bit % 8 := by omega
  rw [index, ← Nat.add_assoc, ← Nat.add_assoc, ← Nat.mul_add, ← Nat.mul_add,
    ByteMem.bitAt_add _ _ (Nat.mod_lt _ (by decide)),
    ByteMem.bitAt_add _ _ (Nat.mod_lt _ (by decide)), bytes]

omit [DecidableEq Attr] [DecidableEq Addr] in
/-- What `pack_header` makes: the channel number, the fields and the packet,
one after the other. -/
theorem packHeader_spec {sent packed : Packetbuf Attr Addr}
    (sizes : AreFieldSizes c.attrlist) (bounded : Bounded linkaddrSize c)
    (hdrptr : sent.hdrptr ≤ packetbufHdrSize)
    (fits : ∀ entry ∈ c.attrlist, FitsEntry linkaddrSize sent entry)
    (pack : packHeader linkaddrSize c sent = some (true, packed)) :
    ∃ base, HoldsFields (fieldValue sent) packed.packetbuf (8 * base)
        c.attrlist ∧
      packed.contents = channelBytes c.channelno ++
        packed.packetbuf.read base c.hdrbytesize ++ sent.contents := by
  unfold packHeader Packetbuf.hdralloc at pack
  by_cases room : c.hdrbytesize + 2 ≤ sent.hdrptr ∧
      sent.totlen + (c.hdrbytesize + 2) ≤ packetbufSize
  case neg =>
    rw [if_neg room] at pack
    cases pack
  rw [if_pos room] at pack
  dsimp only at pack
  split at pack
  case h_2 => cases pack
  case h_1 after fields =>
  cases pack
  have enough := headerSize_le bounded.1
  have length : (channelBytes c.channelno ++
      List.replicate c.hdrbytesize (0 : UInt8)).length =
      2 + c.hdrbytesize := by
    rw [List.length_append, List.length_replicate]
    rfl
  generalize isStart : sent.hdrptr - (c.hdrbytesize + 2) = start at fields ⊢
  have written : (sent.packetbuf.write start (channelBytes c.channelno ++
      List.replicate c.hdrbytesize 0)).Holds start
      (channelBytes c.channelno ++ List.replicate c.hdrbytesize 0) :=
    ByteMem.read_write_self _ _ _
  have clear : ∀ other < headerSize c.attrlist,
      (sent.packetbuf.write start (channelBytes c.channelno ++
        List.replicate c.hdrbytesize 0)).bitAt
        (8 * (start + 2) + 0 + other) = false := by
    intro other inside
    have isZero := (ByteMem.holds_append.mp written).2.apply (other / 8)
      (by
        rw [List.length_replicate]
        omega)
    have place : 8 * (start + 2) + 0 + other =
        8 * (start + 2 + other / 8) + other % 8 := by omega
    rw [List.getElem_replicate] at isZero
    have zero : (0 : UInt8).toNat = 0 := rfl
    rw [place, ByteMem.bitAt_add _ _ (Nat.mod_lt _ (by decide))]
    rw [show start + 2 + other / 8 =
      start + (channelBytes c.channelno).length + other / 8 from rfl, isZero,
      zero, Nat.zero_testBit]
  have fitsFields : ∀ entry ∈ c.attrlist, Fits entry.len.toNat
      (fieldValue { sent with hdrptr := start } entry.type) :=
    fun entry member => (fits entry member).fits (sizes entry member)
      (bounded.within entry member)
  have spec := packFields_spec sizes fitsFields clear fields
  have outside : ∀ address,
      address < start + 2 ∨ start + 2 + c.hdrbytesize ≤ address →
      after address = sent.packetbuf.write start
        (channelBytes c.channelno ++ List.replicate c.hdrbytesize 0)
        address := by
    intro address isOutside
    exact byte_of_bits fun bit small => spec.2 _ (by omega)
  refine ⟨start + 2, spec.1, ?_⟩
  have header : after.read start 2 = channelBytes c.channelno := by
    rw [ByteMem.read_congr fun address _ above =>
      outside address (Or.inl above)]
    exact (ByteMem.holds_append.mp written).1
  have kept : ∀ offset count, sent.hdrptr ≤ offset →
      after.read offset count = sent.packetbuf.read offset count := by
    intro offset count behind
    rw [ByteMem.read_congr fun address lower _ =>
      outside address (Or.inr (by omega))]
    exact ByteMem.read_write_disjoint (Or.inr (by omega))
  have split : packetbufHdrSize - start =
      2 + (c.hdrbytesize + (packetbufHdrSize - sent.hdrptr)) := by omega
  have dataptr : sent.hdrptr ≤ sent.bufptr + packetbufHdrSize := by omega
  unfold Packetbuf.contents Packetbuf.data Packetbuf.dataptr
  dsimp only
  have place : start + 2 + c.hdrbytesize = sent.hdrptr := by omega
  rw [split, ByteMem.read_add, ByteMem.read_add, header, place,
    kept sent.hdrptr _ (Nat.le_refl _),
    kept (sent.bufptr + packetbufHdrSize) _ dataptr]
  simp only [List.append_assoc]

theorem channelno_of_bytes (channelno : UInt16) :
    ((channelno >>> (8 : UInt16)).toUInt8.toUInt16 <<< (8 : UInt16)) +
        channelno.toUInt8.toUInt16 = channelno := by
  have bound := channelno.toNat_lt
  apply UInt16.toNat_inj.1
  simp [UInt16.toNat_shiftLeft, UInt16.toNat_shiftRight,
    Nat.shiftRight_eq_div_pow, Nat.shiftLeft_eq]
  omega

/-- The packet buffer behind the two calls of `packetbuf_hdrreduce`. -/
def reduced (buf : Packetbuf Attr Addr) (hdrbytesize : Nat) :
    Packetbuf Attr Addr :=
  { buf with
    bufptr := buf.bufptr + 2 + hdrbytesize
    buflen := buf.buflen - 2 - hdrbytesize }

/-- `unpack_header` for a packet of an open channel. -/
theorem unpackHeader_eq {channels : List (Channel Attr Addr)}
    {c : Channel Attr Addr} {uninitialized : ByteMem}
    {buf : Packetbuf Attr Addr}
    (found : channelLookup channels c.channelno = some c)
    (long : 2 + c.hdrbytesize ≤ buf.buflen)
    (number : buf.packetbuf.Holds buf.dataptr (channelBytes c.channelno)) :
    unpackHeader linkaddrSize channels uninitialized buf =
      (unpackFields linkaddrSize uninitialized (buf.dataptr + 2) c.attrlist 0
        (reduced buf c.hdrbytesize)).map fun buf => (some c, buf) := by
  have low : buf.packetbuf buf.dataptr = c.channelno.toUInt8 :=
    number.apply 0 Nat.two_pos
  have high : buf.packetbuf (buf.dataptr + 1) =
      (c.channelno >>> (8 : UInt16)).toUInt8 := number.apply 1 Nat.one_lt_two
  unfold unpackHeader Packetbuf.hdrreduce
  dsimp only
  rw [if_neg (by omega)]
  dsimp only
  rw [low, high, channelno_of_bytes, found]
  dsimp only
  rw [if_neg (by omega)]
  have place : buf.bufptr + 2 + packetbufHdrSize = buf.dataptr + 2 := by
    unfold Packetbuf.dataptr
    omega
  unfold Packetbuf.dataptr reduced
  dsimp only
  rw [place]
  rfl

omit [DecidableEq Attr] [DecidableEq Addr] in
/-- `pack_header` has a result when the values stay inside their objects. -/
theorem packHeader_isSome
    (within : Within linkaddrSize c.attrlist) (sent : Packetbuf Attr Addr) :
    ∃ result, packHeader linkaddrSize c sent = some result := by
  unfold packHeader
  split
  case h_1 => exact ⟨_, rfl⟩
  case h_2 buf _ =>
    have isSome := (packFields_isSome buf (buf.hdrptr + 2) 0 c.attrlist
      (buf.packetbuf.write buf.hdrptr (channelBytes c.channelno ++
        List.replicate c.hdrbytesize 0))).mpr within
    rcases Option.isSome_iff_exists.mp isSome with ⟨memory, fields⟩
    dsimp only
    rw [fields]
    exact ⟨_, rfl⟩

omit [DecidableEq Attr] [DecidableEq Addr] in
/-- An entry that is the last one with its type gives back the attribute or
the address of the sent packet. -/
theorem sameField_of_encodes {sent unpacked : Packetbuf Attr Addr}
    {memory uninitialized : ByteMem} {ptr bitpos : Nat}
    {entry : AttrEntry Attr Addr} (offset : bitpos < 8)
    (size : IsFieldSize entry.len.toNat)
    (fits : FitsEntry linkaddrSize sent entry)
    (whole : match entry.type with
      | .attr _ => fieldBytes entry.len.toNat ≤ 2
      | .addr _ => fieldBytes entry.len.toNat = linkaddrSize)
    (encodes : Encodes memory (8 * ptr + bitpos) entry.len.toNat
      (fieldValue sent entry.type))
    (stored : Stored linkaddrSize unpacked
      (getBits (entry.type.object uninitialized) memory ptr bitpos
        entry.len.toNat) entry.type) :
    SameField linkaddrSize sent unpacked entry.type := by
  rcases entry with ⟨type, len⟩
  cases type with
  | attr type =>
      have fitsBytes := fits_attrBytes size whole fits
      have bytes : ∀ index < 2,
          getBits (attrBytes 0) memory ptr bitpos len.toNat index =
            attrBytes (sent.attrs type) index := by
        intro index inside
        by_cases isByte : index < fieldBytes len.toNat
        case pos =>
          exact getBits_of_encodes offset size fitsBytes.1 encodes isByte
        case neg =>
          rw [getBits_apply _ _ _ size, if_neg isByte,
            fitsBytes.2 index inside (Nat.le_of_not_lt isByte)]
          have isZero : ∀ index < 2, attrBytes 0 index = 0 := by decide
          exact isZero index inside
      have isAttr : unpacked.attrs type = attrOfBytes
          (getBits (attrBytes 0) memory ptr bitpos len.toNat) := stored
      rw [SameField, isAttr, attrOfBytes, bytes 0 (by decide),
        bytes 1 (by decide)]
      exact attrOfBytes_attrBytes (sent.attrs type)
  | addr type =>
      intro index inside
      have isByte : index < fieldBytes len.toNat := by
        rw [whole]
        exact inside
      rw [stored index inside]
      exact getBits_of_encodes offset size fits.1 encodes isByte

theorem restores_of_bounded
    (sizes : AreFieldSizes c.attrlist) (bounded : Bounded linkaddrSize c) :
    Restores linkaddrSize c := by
  intro channels sent received uninitialized found hdrptr fits
  rcases packHeader_isSome bounded.within sent with ⟨result, pack⟩
  refine ⟨result, pack, ?_⟩
  rintro packed rfl same
  rcases packHeader_spec sizes bounded hdrptr fits pack with
    ⟨base, holds, contents⟩
  have length : received.buflen = 2 + c.hdrbytesize +
      sent.contents.length := by
    have lengths := congrArg List.length (same.trans contents)
    simp [Packetbuf.data, channelBytes] at lengths
    omega
  have data : received.packetbuf.Holds received.dataptr
      (channelBytes c.channelno ++
        packed.packetbuf.read base c.hdrbytesize ++ sent.contents) := by
    rw [← contents, ← same]
    unfold ByteMem.Holds Packetbuf.data
    rw [ByteMem.length_read]
  rcases ByteMem.holds_append.mp data with ⟨header, payload⟩
  rcases ByteMem.holds_append.mp header with ⟨number, fields⟩
  have isSome := (unpackFields_isSome uninitialized (received.dataptr + 2) 0
    c.attrlist (reduced received c.hdrbytesize)).mpr bounded.within
  rcases Option.isSome_iff_exists.mp isSome with ⟨unpacked, unpack⟩
  refine ⟨unpacked, ?_, ?_, ?_⟩
  · rw [unpackHeader_eq found (by omega) number, unpack]
    rfl
  · rcases samePacket_unpackFields unpack with ⟨bytes, -, ptr, buflen⟩
    unfold ByteMem.Holds at payload
    unfold Packetbuf.data Packetbuf.dataptr
    rw [bytes, ptr, buflen]
    unfold reduced
    dsimp only
    rw [show received.buflen - 2 - c.hdrbytesize = sent.contents.length by
      omega]
    rw [show received.bufptr + 2 + c.hdrbytesize + packetbufHdrSize =
      received.dataptr + (channelBytes c.channelno ++
        packed.packetbuf.read base c.hdrbytesize).length by
          simp [Packetbuf.dataptr, channelBytes]
          omega]
    exact payload
  · intro entry member
    rcases exists_last_entry (List.mem_map_of_mem member) with
      ⟨first, last, rest, split, sameType, isLast⟩
    have lastMember : last ∈ c.attrlist := by
      rw [split]
      simp
    have enough := headerSize_le bounded.1
    have moved : HoldsFields (fieldValue sent) received.packetbuf
        (8 * (received.dataptr + 2)) c.attrlist :=
      holds.congr sizes fun offset inside =>
        bitAt_of_holds fields (by omega)
    rw [split] at moved unpack
    have stored := unpackFields_last (by rwa [sameType]) unpack
    have encodes := moved.encodes
    rw [Nat.zero_add] at stored
    rw [← bit_place] at encodes
    rw [← sameType]
    exact sameField_of_encodes (Nat.mod_lt _ (by decide))
      (sizes last lastMember) (fits last lastMember)
      (bounded.2 last lastMember) encodes stored

/-! ## Headers that are not restored -/

/-- A packet buffer after `packetbuf_copyfrom`. -/
def copied (payload : List UInt8) : Packetbuf Attr Addr where
  packetbuf := ByteMem.write (fun _ => 0) packetbufHdrSize payload
  hdrptr := packetbufHdrSize
  bufptr := 0
  buflen := payload.length
  attrs := fun _ => 0
  addrs := fun _ _ => 0

omit [DecidableEq Attr] [DecidableEq Addr] in
theorem data_copied :
    (copied payload : Packetbuf Attr Addr).data = payload := by
  unfold Packetbuf.data Packetbuf.dataptr copied
  rw [Nat.zero_add]
  exact ByteMem.read_write_self _ _ _

omit [DecidableEq Attr] [DecidableEq Addr] in
theorem contents_copied :
    (copied payload : Packetbuf Attr Addr).contents = payload := by
  unfold Packetbuf.contents
  rw [data_copied]
  unfold copied
  rw [Nat.sub_self, ByteMem.read_zero, List.nil_append]

omit [DecidableEq Attr] [DecidableEq Addr] in
theorem fitsEntry_copied (entry : AttrEntry Attr Addr) :
    FitsEntry linkaddrSize (copied payload) entry := by
  rcases entry with ⟨type, len⟩
  cases type with
  | attr type => exact Nat.two_pow_pos _
  | addr type => exact ⟨fun _ _ => Nat.two_pow_pos _, fun _ _ _ => rfl⟩

omit [DecidableEq Attr] [DecidableEq Addr] in
theorem packHeader_copied (c : Channel Attr Addr) {payload : List UInt8}
    (short : payload.length ≤ 1) {result : Bool × Packetbuf Attr Addr}
    (pack : packHeader linkaddrSize c (copied payload) = some result) :
    result.1 = true ∧ Within linkaddrSize c.attrlist := by
  have bound := c.hdrsize.toNat_lt
  have room : c.hdrbytesize + 2 ≤ packetbufHdrSize ∧
      (copied payload : Packetbuf Attr Addr).totlen + (c.hdrbytesize + 2) ≤
        packetbufSize := by
    unfold Channel.hdrbytesize Packetbuf.totlen Packetbuf.hdrlen copied
      packetbufHdrSize packetbufSize
    simp only [Nat.sub_self, ne_eq, not_true_eq_false, if_false]
    constructor
    · split <;> omega
    · split <;> omega
  have alloc : (copied payload : Packetbuf Attr Addr).hdralloc
      (c.hdrbytesize + 2) = some { (copied payload) with
        hdrptr := packetbufHdrSize - (c.hdrbytesize + 2) } := if_pos room
  rw [packHeader, alloc] at pack
  dsimp only at pack
  split at pack
  case h_2 => cases pack
  case h_1 memory fields =>
    cases pack
    exact ⟨rfl, (packFields_isSome _ _ _ _ _).mp (by rw [fields]; rfl)⟩

/-- The loop of `unpack_header` in a call that finds the channel. -/
theorem unpackFields_of_unpackHeader {channels : List (Channel Attr Addr)}
    {c : Channel Attr Addr} {uninitialized : ByteMem}
    {buf unpacked : Packetbuf Attr Addr}
    (unpack : unpackHeader linkaddrSize channels uninitialized buf =
      some (some c, unpacked)) :
    unpackFields linkaddrSize uninitialized (buf.dataptr + 2) c.attrlist 0
      (reduced buf c.hdrbytesize) = some unpacked := by
  unfold unpackHeader Packetbuf.hdrreduce at unpack
  dsimp only at unpack
  by_cases short : buf.buflen < 2
  case pos =>
    rw [if_pos short] at unpack
    cases unpack
  rw [if_neg short] at unpack
  dsimp only at unpack
  split at unpack
  case h_1 => cases unpack
  case h_2 c' _ =>
    by_cases tooShort : buf.buflen - 2 < c'.hdrbytesize
    case pos =>
      rw [if_pos tooShort] at unpack
      cases unpack
    rw [if_neg tooShort] at unpack
    rcases Option.map_eq_some_iff.mp unpack with ⟨after, fields, isResult⟩
    cases isResult
    have place : buf.bufptr + 2 + packetbufHdrSize = buf.dataptr + 2 := by
      unfold Packetbuf.dataptr
      omega
    rw [← place]
    exact fields

theorem Restores.run
    (restores : Restores linkaddrSize c) (uninitialized : ByteMem)
    {payload : List UInt8} (short : payload.length ≤ 1) :
    ∃ received unpacked : Packetbuf Attr Addr,
      unpackFields linkaddrSize uninitialized (received.dataptr + 2)
          c.attrlist 0 (reduced received c.hdrbytesize) = some unpacked ∧
        unpacked.data = payload ∧
        ∀ entry ∈ c.attrlist,
          SameField linkaddrSize (copied payload) unpacked entry.type := by
  have found : channelLookup [c] c.channelno = some c := by
    simp [channelLookup]
  have fits := fun (entry : AttrEntry Attr Addr) (_ : entry ∈ c.attrlist) =>
    @fitsEntry_copied _ _ linkaddrSize payload entry
  rcases restores [c] (copied payload) (copied []) uninitialized found
    (Nat.le_refl _) fits with ⟨⟨isPacked, packed⟩, pack, -⟩
  have isTrue := (packHeader_copied c short pack).1
  rcases restores [c] (copied payload) (copied packed.contents) uninitialized
    found (Nat.le_refl _) fits with ⟨result, again, unpacks⟩
  rw [pack] at again
  cases again
  rcases unpacks packed (by rw [← isTrue]) (data_copied _) with
    ⟨unpacked, unpack, data, same⟩
  rw [contents_copied] at data
  exact ⟨copied packed.contents, unpacked,
    unpackFields_of_unpackHeader unpack, data, same⟩

theorem Restores.within (restores : Restores linkaddrSize c) :
    Within linkaddrSize c.attrlist := by
  have found : channelLookup [c] c.channelno = some c := by
    simp [channelLookup]
  rcases restores [c] (copied []) (copied []) (fun _ => 0) found
    (Nat.le_refl _) (fun entry _ => fitsEntry_copied [] entry) with
    ⟨result, pack, -⟩
  exact (packHeader_copied c (Nat.zero_le _) pack).2

omit [DecidableEq Attr] [DecidableEq Addr] in
theorem exists_entry_at
    {position : Nat} (inside : position < headerSize entries) :
    ∃ first entry rest, entries = first ++ entry :: rest ∧
      headerSize first ≤ position ∧
      position < headerSize first + entry.len.toNat := by
  induction entries generalizing position with
  | nil => cases inside
  | cons head entries inductionHypothesis =>
      rw [headerSize_cons] at inside
      by_cases here : position < head.len.toNat
      case pos => exact ⟨[], head, entries, rfl, by simp, by simpa using here⟩
      case neg =>
        rcases @inductionHypothesis (position - head.len.toNat) (by omega)
          with ⟨first, entry, rest, split, lower, upper⟩
        refine ⟨head :: first, entry, rest, by rw [split]; rfl, ?_, ?_⟩
        · rw [headerSize_cons]
          omega
        · rw [headerSize_cons]
          omega

omit [DecidableEq Attr] [DecidableEq Addr] in
theorem zero_of_stored {payload : List UInt8}
    {unpacked : Packetbuf Attr Addr} {bytes : ByteMem}
    {type : FieldType Attr Addr}
    (same : SameField linkaddrSize (copied payload) unpacked type)
    (stored : Stored linkaddrSize unpacked bytes type) {index : Nat}
    (inside : index < type.size linkaddrSize) : bytes index = 0 := by
  cases type with
  | attr type =>
      have isZero : attrOfBytes bytes = 0 := stored.symm.trans same
      have sum := congrArg UInt16.toNat isZero
      have low := (bytes 0).toNat_lt
      have high := (bytes 1).toNat_lt
      rw [attrOfBytes, UInt16.toNat_ofNat_of_lt' (by
        change _ < 65536
        omega)] at sum
      have zero : (0 : UInt16).toNat = 0 := rfl
      apply UInt8.toNat_inj.1
      rcases Nat.lt_succ_iff_lt_or_eq.mp inside with first | second
      · rw [Nat.lt_one_iff.mp first]
        change _ = 0
        omega
      · rw [second]
        change _ = 0
        omega
  | addr type => exact (stored index inside).symm.trans (same index inside)

omit [DecidableEq Attr] [DecidableEq Addr] in
theorem isLast_of_nodup {entries first rest : List (AttrEntry Attr Addr)}
    {entry : AttrEntry Attr Addr}
    (nodup : (entries.map AttrEntry.type).Nodup)
    (split : entries = first ++ entry :: rest) :
    entry.type ∉ rest.map AttrEntry.type := by
  rw [split, List.map_append, List.map_cons] at nodup
  exact (List.nodup_cons.mp (List.nodup_append.mp nodup).2.1).1

/-- A header that is larger than its size overlaps the packet: a byte of the
packet is read as a part of an attribute. -/
theorem Restores.small
    (restores : Restores linkaddrSize c) (sizes : AreFieldSizes c.attrlist)
    (nodup : (c.attrlist.map AttrEntry.type).Nodup) :
    headerSize c.attrlist < 256 := by
  apply Decidable.byContradiction
  intro large
  have size : c.hdrsize.toNat = headerSize c.attrlist % 256 := by
    rw [c.isSize]
    exact UInt8.toNat_ofNat'
  have overlaps : 8 * c.hdrbytesize < headerSize c.attrlist := by
    rw [Channel.hdrbytesize, size]
    split <;> omega
  rcases @Restores.run _ _ _ _ _ _ restores (fun _ => 0) [0xff]
    (Nat.le_refl 1) with
    ⟨received, unpacked, unpack, data, same⟩
  rcases exists_entry_at overlaps with
    ⟨first, entry, rest, split, lower, upper⟩
  have member : entry ∈ c.attrlist := by
    rw [split]
    simp
  have packet := samePacket_unpackFields unpack
  rw [split] at unpack
  have stored := unpackFields_last (isLast_of_nodup nodup split) unpack
  rw [Nat.zero_add] at stored
  rcases (sizes entry member).split
    (show 8 * c.hdrbytesize - headerSize first < entry.len.toNat by omega)
    with ⟨index, isByte, bit, isBit, place⟩
  have isZero := zero_of_stored (same entry member) stored
    (Nat.lt_of_lt_of_le isByte (restores.within entry member))
  have read := @testBit_getBits (entry.type.object fun _ => 0)
    received.packetbuf (received.dataptr + 2 + headerSize first / 8) _ _
    (Nat.mod_lt (headerSize first) (by decide)) (sizes entry member) _ bit
    isByte
  have isZero : getBits (entry.type.object fun _ => 0) received.packetbuf
      (received.dataptr + 2 + headerSize first / 8) (headerSize first % 8)
      entry.len.toNat index = 0 := isZero
  have zero : (0 : UInt8).toNat = 0 := rfl
  rw [isZero, zero, Nat.zero_testBit, decide_eq_true isBit, Bool.true_and,
    show 8 * (received.dataptr + 2 + headerSize first / 8) +
        headerSize first % 8 + 8 * index +
        (fieldWidth entry.len.toNat - 1 - bit) =
      8 * (received.dataptr + 2 + c.hdrbytesize) + 0 by omega,
    ByteMem.bitAt_add _ _ (by decide)] at read
  have first : unpacked.packetbuf unpacked.dataptr = 0xff := by
    have held : unpacked.packetbuf.Holds unpacked.dataptr [0xff] := by
      have one : unpacked.buflen = 1 := by
        simpa [Packetbuf.data] using congrArg List.length data
      rw [Packetbuf.data, one] at data
      exact data
    exact held.apply 0 Nat.one_pos
  have place : unpacked.dataptr = received.dataptr + 2 + c.hdrbytesize := by
    unfold Packetbuf.dataptr
    rw [packet.2.2.1]
    unfold reduced
    dsimp only
    omega
  rw [packet.1, place] at first
  have isSet : (received.packetbuf (received.dataptr + 2 + c.hdrbytesize)) =
      0xff := first
  rw [isSet] at read
  exact absurd read (by decide)

theorem Restores.whole
    (restores : Restores linkaddrSize c) (sizes : AreFieldSizes c.attrlist)
    (nodup : (c.attrlist.map AttrEntry.type).Nodup) {type : Addr}
    {len : UInt8} (member : ⟨.addr type, len⟩ ∈ c.attrlist) :
    fieldBytes len.toNat = linkaddrSize := by
  apply Decidable.byContradiction
  intro notWhole
  have within : fieldBytes len.toNat ≤ linkaddrSize :=
    restores.within _ member
  rcases @Restores.run _ _ _ _ _ _ restores (fun _ => 0xff) []
    (Nat.zero_le 1) with
    ⟨received, unpacked, unpack, -, same⟩
  rcases List.append_of_mem member with ⟨first, rest, split⟩
  rw [split] at unpack
  have stored := unpackFields_last (isLast_of_nodup nodup split) unpack
  have isZero := zero_of_stored (same _ member) stored
    (show fieldBytes len.toNat < linkaddrSize by omega)
  rw [getBits_apply _ _ _ (sizes _ member),
    if_neg (Nat.lt_irrefl _)] at isZero
  have isSet : (0xff : UInt8) = 0 := isZero
  exact absurd isSet (by decide)

theorem Restores.bounded
    (restores : Restores linkaddrSize c) (sizes : AreFieldSizes c.attrlist)
    (nodup : (c.attrlist.map AttrEntry.type).Nodup) :
    Bounded linkaddrSize c := by
  refine ⟨restores.small sizes nodup, ?_⟩
  intro entry member
  rcases entry with ⟨type, len⟩
  cases type with
  | attr type => exact restores.within _ member
  | addr type => exact restores.whole sizes nodup member

/-- A channel whose attributes have the sizes of fields is restored when its
header is bounded, and only then if no attribute is listed twice. -/
theorem restores_iff_bounded (c : Channel Attr Addr)
    (sizes : ∀ entry ∈ c.attrlist,
      entry.len.toNat ≤ 8 ∨ entry.len.toNat % 8 = 0) :
    (Bounded linkaddrSize c → Restores linkaddrSize c) ∧
      ((c.attrlist.map AttrEntry.type).Nodup →
        Restores linkaddrSize c → Bounded linkaddrSize c) := by
  have fieldSizes : AreFieldSizes c.attrlist := by
    intro entry member
    rcases sizes entry member with small | whole
    · rcases Nat.lt_or_eq_of_le small with less | eight
      · exact Or.inl less
      · exact Or.inr (by rw [eight])
    · exact Or.inr whole
  exact ⟨restores_of_bounded fieldSizes,
    fun nodup restores => restores.bounded fieldSizes nodup⟩

end Header

/-- The addresses of the attribute lists of Rime. -/
inductive PacketbufAddr where
  | sender
  | receiver
  | esender
  | ereceiver
  deriving DecidableEq

/-- A channel with a bit and an address of two bytes. -/
def reliableChannel : Channel Unit PacketbufAddr :=
  channelOpen 129 [⟨.attr (), 1⟩, ⟨.addr .receiver, 16⟩]

theorem reliableChannel_restores : Restores 2 reliableChannel :=
  (restores_iff_bounded reliableChannel (by decide)).1
    ⟨by decide, by
      intro entry member
      rcases List.mem_cons.mp member with bit | rest
      · rw [bit]
        decide
      · rw [List.mem_singleton.mp rest]
        decide⟩

/-- The four addresses of multihop unicast, of eight bytes each. -/
def multihopChannel : Channel Unit PacketbufAddr :=
  channelOpen 135
    [⟨.addr .esender, 64⟩, ⟨.addr .ereceiver, 64⟩, ⟨.addr .receiver, 64⟩,
      ⟨.addr .sender, 64⟩]

/-- The four addresses have 256 bits, and the size of the header is 0. -/
theorem multihopChannel_not_restores :
    ¬ ∀ c : Channel Unit PacketbufAddr,
      (∀ entry ∈ c.attrlist,
        entry.len.toNat ≤ 8 ∨ entry.len.toNat % 8 = 0) → Restores 8 c := by
  intro always
  have restores := always multihopChannel (by decide)
  have sizes : AreFieldSizes multihopChannel.attrlist := by
    unfold AreFieldSizes
    decide
  exact absurd (restores.bounded sizes (by decide)).1 (by decide)

end Contiki.Rime
