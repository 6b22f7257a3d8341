import Contiki.Coap.Blockwise

/-!
# Assembling a body from its blocks

`coap_block1_handler` of `er-coap-block1.c`, with `size_t` of 32 bits.  The
buffer is the memory from `target` on, so that a position is a distance from
`target`, also when it lies outside the `max_len` bytes of the buffer.
-/

namespace Contiki.Coap

open Contiki.Lib

def statusRequestEntityTooLarge : UInt8 := 141
def statusContinue : UInt8 := 95

/-- The buffer of a resource and the variables that a call changes. -/
structure Block1State where
  target : ByteMem
  /-- The variable that `len` points to. -/
  len : Nat
  /-- The positions written so far. -/
  writes : List Nat
  erbiumStatusCode : UInt8
  coapErrorMessage : String

/-- A request with the memory of its datagram, and the response. -/
structure Block1Call where
  request : ReceivedPacket
  memory : ByteMem
  response : SentPacket
  /-- The length of a payload has 16 bits. -/
  payloadLen_lt : request.payloadLen < 65536

/-- The result of the handler with the response and the variables after
it. -/
structure Block1Result where
  result : Int
  response : SentPacket
  state : Block1State

/-- `coap_get_payload`: the length and the pointer. -/
def coapGetPayload (packet : ReceivedPacket) : Nat × Nat :=
  if packet.payload ≠ 0 then (packet.payloadLen, packet.payload)
  else (0, 0)

/-- `coap_set_status_code`. -/
def coapSetStatusCode (packet : SentPacket) (code : UInt8) : SentPacket :=
  { packet with code := code }

/-- The branch of `coap_block1_handler` that copies the block. -/
def Block1State.store (state : Block1State) (call : Block1Call)
    (payLen payload : Nat) : Block1State :=
  let offset := call.request.block1Offset.toNat
  { state with
    target := state.target.write offset (call.memory.read payload payLen)
    len := (call.request.block1Offset + UInt32.ofNat payLen).toNat
    writes := state.writes ++ List.range' offset payLen }

/-- `coap_block1_handler`; `assemble` says that neither `target` nor `len`
is null. -/
def coapBlock1Handler (assemble : Bool) (maxLen : UInt32)
    (state : Block1State) (call : Block1Call) : Block1Result :=
  let payLen := (coapGetPayload call.request).1
  let payload := (coapGetPayload call.request).2
  if payLen = 0 ∨ payload = 0 then
    { result := -1
      response := call.response
      state := { state with
        erbiumStatusCode := statusBadRequest
        coapErrorMessage := "NoPayload" } }
  else if call.request.block1Offset + UInt32.ofNat payLen > maxLen then
    { result := -1
      response := call.response
      state := { state with
        erbiumStatusCode := statusRequestEntityTooLarge
        coapErrorMessage := "Message to big" } }
  else
    let state := if assemble then state.store call payLen payload else state
    if isOption call.request CoapOption.block1.number then
      let response := (coapSetHeaderBlock1 call.response
        call.request.block1Num call.request.block1More
        call.request.block1Size).1
      if call.request.block1More ≠ 0 then
        { result := 1
          response := coapSetStatusCode response statusContinue
          state := state }
      else
        { result := 0, response := response, state := state }
    else
      { result := 0, response := call.response, state := state }

/-- The requests of a sequence are handled with the same buffer. -/
def runBlock1 (assemble : Bool) (maxLen : UInt32) (state : Block1State)
    (calls : List Block1Call) : Block1State :=
  calls.foldl
    (fun state call => (coapBlock1Handler assemble maxLen state call).state)
    state

/-! ## Requests that were parsed -/

variable (config : CoapConfig)

theorem payloadLen_coapParseOption
    (state : ParseState) (number current length : Nat) :
    (coapParseOption config state number current length).2.packet.payloadLen =
      state.packet.payloadLen := by
  unfold coapParseOption
  cases known : CoapOption.ofNumber? number with
  | none =>
      dsimp only
      split
      · rfl
      · rfl
  | some option =>
      cases option
      all_goals rfl

theorem payloadLen_coapParseOptions_lt
    (dataLen : Nat) (fuel : Nat) {state : ParseState}
    (current optionNumber : Nat) (bound : state.packet.payloadLen < 65536) :
    (coapParseOptions config dataLen fuel state current
      optionNumber).2.packet.payloadLen < 65536 := by
  induction fuel generalizing state current optionNumber with
  | zero =>
      exact bound
  | succ fuel inductionHypothesis =>
      by_cases inside : current < dataLen
      · by_cases payload : state.memory current &&& 0xF0 = 0xF0
        · rw [coapParseOptions_payload config dataLen fuel state inside
            payload]
          have available : (dataLen - (current + 1)) % 65536 < 65536 :=
            Nat.mod_lt _ (by decide)
          unfold coapParsePayload
          dsimp only
          split
          · omega
          · exact available
        · rw [coapParseOptions_option config dataLen fuel state inside
            payload]
          have kept : (optionResult config state current
              optionNumber).2.packet.payloadLen < 65536 := by
            unfold optionResult
            rw [payloadLen_coapParseOption]
            exact bound
          split
          · next status after isResult =>
              rw [isResult] at kept
              exact kept
          · next after isResult =>
              rw [isResult] at kept
              exact inductionHypothesis _ _ kept
      · rw [coapParseOptions_done config dataLen (fuel + 1) state
          (Nat.le_of_not_lt inside)]
        exact bound

theorem payloadLen_coapParseMessage_lt
    (data : ByteMem) (dataLen : Nat) (coapErrorMessage : String) :
    (coapParseMessage config data dataLen
      coapErrorMessage).2.packet.payloadLen < 65536 := by
  unfold coapParseMessage
  dsimp only
  split
  · exact (by decide : 0 < 65536)
  · exact payloadLen_coapParseOptions_lt config dataLen dataLen _ _
      (by decide : 0 < 65536)

namespace Block1Call

/-- The request of a datagram and the response that `coap_receive`
initialises for it. -/
def ofDatagram (config : CoapConfig) (data : ByteMem) (dataLen : Nat)
    (response : SentPacket) : Block1Call where
  request := (coapParseMessage config data dataLen "").2.packet
  memory := (coapParseMessage config data dataLen "").2.memory
  response := response
  payloadLen_lt := payloadLen_coapParseMessage_lt config data dataLen ""

variable (call : Block1Call)

/-- The bytes that the handler finds as the payload. -/
def payload : List UInt8 :=
  call.memory.read (coapGetPayload call.request).2
    (coapGetPayload call.request).1

/-- The end of the block does not fit in 32 bits, and what is left of it
passes the check. -/
def Wraps (maxLen : UInt32) : Prop :=
  2 ^ 32 ≤ call.request.block1Offset.toNat + call.payload.length ∧
    call.request.block1Offset.toNat + call.payload.length - 2 ^ 32 ≤
      maxLen.toNat

end Block1Call

/-! ## One call -/

variable {maxLen : UInt32} {state : Block1State} {call : Block1Call}

theorem coapGetPayload_lt (call : Block1Call) :
    (coapGetPayload call.request).1 < 65536 := by
  unfold coapGetPayload
  split
  · exact call.payloadLen_lt
  · decide

theorem Block1Call.length_payload (call : Block1Call) :
    call.payload.length = (coapGetPayload call.request).1 :=
  ByteMem.length_read _ _ _

theorem coapGetPayload_null
    (null : (coapGetPayload call.request).2 = 0) :
    (coapGetPayload call.request).1 = 0 := by
  unfold coapGetPayload at null ⊢
  split at null
  · next pointer =>
      exact absurd null pointer
  · next pointer =>
      rw [if_neg pointer]

theorem toNat_blockEnd (call : Block1Call) :
    (call.request.block1Offset +
      UInt32.ofNat (coapGetPayload call.request).1).toNat =
        (call.request.block1Offset.toNat + call.payload.length) % 2 ^ 32 := by
  have length := call.length_payload
  have bound := coapGetPayload_lt call
  rw [UInt32.toNat_add, UInt32.toNat_ofNat', length, Nat.mod_eq_of_lt
    (show (coapGetPayload call.request).1 < 2 ^ 32 by omega)]

/-- The buffer with the block of a request stored. -/
def Block1State.stored (state : Block1State) (call : Block1Call) :
    Block1State :=
  { state with
    target :=
      state.target.write call.request.block1Offset.toNat call.payload
    len := (call.request.block1Offset.toNat + call.payload.length) % 2 ^ 32
    writes := state.writes ++
      List.range' call.request.block1Offset.toNat call.payload.length }

theorem store_eq_stored (state : Block1State) (call : Block1Call) :
    state.store call (coapGetPayload call.request).1
      (coapGetPayload call.request).2 = state.stored call := by
  unfold Block1State.store Block1State.stored
  rw [toNat_blockEnd, call.length_payload]
  rfl

def Block1Call.Refused (maxLen : UInt32) (call : Block1Call) : Prop :=
  call.payload = [] ∨ maxLen.toNat <
    (call.request.block1Offset.toNat + call.payload.length) % 2 ^ 32

def Block1State.SameBuffer (state after : Block1State) : Prop :=
  after.target = state.target ∧ after.len = state.len ∧
    after.writes = state.writes

theorem coapBlock1Handler_refused (assemble : Bool)
    (refused : call.Refused maxLen) :
    state.SameBuffer
      (coapBlock1Handler assemble maxLen state call).state := by
  have length := call.length_payload
  have blockEnd := toNat_blockEnd call
  unfold coapBlock1Handler
  dsimp only
  split
  · exact ⟨rfl, rfl, rfl⟩
  next somePayload =>
  split
  · exact ⟨rfl, rfl, rfl⟩
  next fits =>
  exfalso
  cases refused with
  | inl empty =>
      rw [empty] at length
      exact somePayload (Or.inl length.symm)
  | inr tooLarge =>
      rw [← blockEnd] at tooLarge
      exact fits (UInt32.lt_iff_toNat_lt.mpr tooLarge)

theorem coapBlock1Handler_stored (accepted : ¬ call.Refused maxLen) :
    (coapBlock1Handler true maxLen state call).state =
      state.stored call := by
  have length := call.length_payload
  have blockEnd := toNat_blockEnd call
  have nonempty : call.payload ≠ [] := fun empty =>
    accepted (Or.inl empty)
  have fits := fun tooLarge => accepted (Or.inr tooLarge)
  unfold coapBlock1Handler
  dsimp only
  split
  · next noPayload =>
      have empty : (coapGetPayload call.request).1 = 0 :=
        noPayload.elim id coapGetPayload_null
      exact absurd (List.length_eq_zero_iff.mp (length.trans empty))
        nonempty
  split
  · next tooLarge =>
      rw [gt_iff_lt, UInt32.lt_iff_toNat_lt, blockEnd] at tooLarge
      exact absurd tooLarge fits
  rw [if_pos rfl, store_eq_stored]
  split
  · split
    · rfl
    · rfl
  · rfl

/-! ## Writes -/

/-- Every position written so far is one of the buffer. -/
def Block1State.WritesInside (maxLen : UInt32) (state : Block1State) :
    Prop :=
  ∀ position ∈ state.writes, position < maxLen.toNat

theorem writesInside_coapBlock1Handler_iff (maxLen : UInt32)
    (state : Block1State) (call : Block1Call) :
    (coapBlock1Handler true maxLen state call).state.WritesInside maxLen ↔
      state.WritesInside maxLen ∧ ¬ call.Wraps maxLen := by
  have offsetBound : call.request.block1Offset.toNat < 2 ^ 32 :=
    call.request.block1Offset.toNat_lt
  have maxBound : maxLen.toNat < 2 ^ 32 := maxLen.toNat_lt
  have lengthBound : call.payload.length < 65536 := by
    rw [call.length_payload]
    exact coapGetPayload_lt call
  unfold Block1Call.Wraps
  by_cases refused : call.Refused maxLen
  · obtain ⟨-, -, writes⟩ :=
      @coapBlock1Handler_refused maxLen state call true refused
    unfold Block1State.WritesInside
    rw [writes]
    refine (and_iff_left ?_).symm
    cases refused with
    | inl empty =>
        rw [empty]
        simp only [List.length_nil]
        omega
    | inr tooLarge =>
        omega
  · rw [coapBlock1Handler_stored refused]
    have positive : 0 < call.payload.length := by
      apply List.length_pos_of_ne_nil
      intro empty
      exact refused (Or.inl empty)
    have fits : (call.request.block1Offset.toNat + call.payload.length) %
        2 ^ 32 ≤ maxLen.toNat := by
      apply Nat.le_of_not_lt
      intro tooLarge
      exact refused (Or.inr tooLarge)
    unfold Block1State.WritesInside Block1State.stored
    simp only [List.mem_append, List.mem_range'_1, or_imp, forall_and]
    refine and_congr_right fun _ => ⟨?_, ?_⟩
    · intro inside wraps
      have last := inside (call.request.block1Offset.toNat +
        call.payload.length - 1) (by omega)
      omega
    · intro noWrap position between
      omega

/-- The requests of a run write inside the buffer exactly when none of them
wraps. -/
theorem writesInside_runBlock1_iff (maxLen : UInt32) (state : Block1State)
    (calls : List Block1Call) :
    (runBlock1 true maxLen state calls).WritesInside maxLen ↔
      state.WritesInside maxLen ∧
        ∀ call ∈ calls, ¬ call.Wraps maxLen := by
  induction calls generalizing state with
  | nil =>
      simp [runBlock1]
  | cons call calls inductionHypothesis =>
      have first := writesInside_coapBlock1Handler_iff maxLen state call
      have rest := inductionHypothesis
        (coapBlock1Handler true maxLen state call).state
      rw [first] at rest
      rw [List.forall_mem_cons, ← and_assoc]
      exact rest

/-! ## Blocks in order -/

/-- The number of bytes in a block. -/
def szxSize (szx : Nat) : Nat := 16 * 2 ^ szx

/-- The value of the Block1 option of a block. -/
def block1Value (szx num : Nat) (more : Bool) : UInt32 :=
  UInt32.ofNat (num * 16 + (if more then 8 else 0) + szx)

def block1Fields (packet : ReceivedPacket) : BlockFields where
  num := packet.block1Num
  more := packet.block1More
  size := packet.block1Size
  offset := packet.block1Offset

/-- A request carries the block with the number. -/
def Block1Call.IsBlock (szx num : Nat) (more : Bool) (call : Block1Call) :
    Prop :=
  isOption call.request CoapOption.block1.number = true ∧
    block1Fields call.request = parseBlock (block1Value szx num more)

/-- The requests carry the blocks from a number on, all of one size but for
the last, which may be shorter. -/
def BlocksFrom (szx : Nat) : Nat → List Block1Call → Prop
  | _, [] => False
  | num, [call] =>
      call.IsBlock szx num false ∧ call.payload.length ≤ szxSize szx
  | num, call :: next :: calls =>
      call.IsBlock szx num true ∧ call.payload.length = szxSize szx ∧
        BlocksFrom szx (num + (1 : Nat)) (next :: calls)

/-- The body of which the requests carry the blocks. -/
def bodyOf (calls : List Block1Call) : List UInt8 :=
  calls.flatMap Block1Call.payload

def Block1State.Holds (state : Block1State) (body : List UInt8) : Prop :=
  state.len = body.length ∧ state.target.read 0 state.len = body

theorem offset_of_isBlock {szx num : Nat} {more : Bool}
    (isBlock : call.IsBlock szx num more) (exponent : szx < 8)
    (fits : num * szxSize szx < 2 ^ 32) :
    call.request.block1Offset.toNat = num * szxSize szx := by
  have positive : 1 ≤ 2 ^ szx := Nat.one_le_two_pow
  have whole : num * 16 * 2 ^ szx = num * szxSize szx := by
    unfold szxSize
    rw [Nat.mul_assoc]
  have small : num * 16 ≤ num * 16 * 2 ^ szx :=
    Nat.le_mul_of_pos_right _ positive
  have flag : (if more then 8 else 0) ≤ 8 ∧
      (if more then 8 else 0) % 8 = 0 := by
    cases more
    · decide
    · decide
  have value : (block1Value szx num more).toNat =
      num * 16 + (if more then 8 else 0) + szx := by
    unfold block1Value
    rw [UInt32.toNat_ofNat']
    apply Nat.mod_eq_of_lt
    omega
  have offset := congrArg BlockFields.offset isBlock.2
  change call.request.block1Offset = _ at offset
  rw [offset, toNat_parseBlock_offset, toNat_parseBlock_num,
    toNat_parseBlock_size, value]
  have number : (num * 16 + (if more then 8 else 0) + szx) / 16 = num := by
    omega
  have low : (num * 16 + (if more then 8 else 0) + szx) % 8 = szx := by
    omega
  rw [number, low]
  exact Nat.mod_eq_of_lt fits

theorem stored_extends {done : List UInt8}
    (assembled : state.target.read 0 done.length = done)
    (offset : call.request.block1Offset.toNat = done.length)
    (fits : done.length + call.payload.length < 2 ^ 32) :
    (state.stored call).Holds (done ++ call.payload) := by
  have length : (state.stored call).len =
      done.length + call.payload.length := by
    unfold Block1State.stored
    rw [offset]
    exact Nat.mod_eq_of_lt fits
  constructor
  · rw [length, List.length_append]
  · rw [length, ByteMem.read_add, Nat.zero_add]
    unfold Block1State.stored
    rw [offset]
    congr 1
    · rw [ByteMem.read_write_disjoint (by omega)]
      exact assembled
    · exact ByteMem.read_write_self _ _ _

theorem not_refused_of_fits (nonempty : call.payload ≠ [])
    (fits : call.request.block1Offset.toNat + call.payload.length ≤
      maxLen.toNat) :
    ¬ call.Refused maxLen := by
  have maxBound : maxLen.toNat < 2 ^ 32 := maxLen.toNat_lt
  intro refused
  cases refused with
  | inl empty =>
      exact nonempty empty
  | inr tooLarge =>
      omega

theorem holds_lastBlock_iff {done : List UInt8}
    (assembled : state.target.read 0 done.length = done)
    (counted : done ≠ [] → state.len = done.length)
    (offset : call.request.block1Offset.toNat = done.length)
    (fits : (done ++ call.payload).length ≤ maxLen.toNat) :
    (coapBlock1Handler true maxLen state call).state.Holds
        (done ++ call.payload) ↔
      done ++ call.payload ≠ [] ∨ state.len = 0 := by
  have maxBound : maxLen.toNat < 2 ^ 32 := maxLen.toNat_lt
  rw [List.length_append] at fits
  by_cases empty : call.payload = []
  · have refused : call.Refused maxLen := Or.inl empty
    obtain ⟨target, len, -⟩ :=
      @coapBlock1Handler_refused maxLen state call true refused
    unfold Block1State.Holds
    rw [target, len, empty, List.append_nil]
    by_cases first : done = []
    · rw [first]
      constructor
      · exact fun holds => Or.inr holds.1
      · intro zero
        have isZero : state.len = 0 := zero.elim (absurd rfl) id
        rw [isZero]
        exact ⟨rfl, rfl⟩
    · have isCounted := counted first
      rw [isCounted]
      exact iff_of_true ⟨rfl, assembled⟩ (Or.inl first)
  · have accepted : ¬ call.Refused maxLen :=
      not_refused_of_fits empty (by omega)
    rw [coapBlock1Handler_stored accepted]
    exact iff_of_true (stored_extends assembled offset (by omega))
      (Or.inl (List.append_ne_nil_of_right_ne_nil done empty))

theorem holds_runBlock1_iff {szx : Nat} (exponent : szx < 8)
    {calls : List Block1Call} {num : Nat} (blocks : BlocksFrom szx num calls)
    {done : List UInt8} (length : done.length = num * szxSize szx)
    (assembled : state.target.read 0 done.length = done)
    (counted : done ≠ [] → state.len = done.length)
    (fits : (done ++ bodyOf calls).length ≤ maxLen.toNat) :
    (runBlock1 true maxLen state calls).Holds (done ++ bodyOf calls) ↔
      done ++ bodyOf calls ≠ [] ∨ state.len = 0 := by
  have maxBound : maxLen.toNat < 2 ^ 32 := maxLen.toNat_lt
  have positive : 0 < szxSize szx := by
    unfold szxSize
    exact Nat.mul_pos (by decide) Nat.one_le_two_pow
  fun_induction BlocksFrom szx num calls generalizing done state with
  | case1 =>
      exact blocks.elim
  | case2 num call =>
      have isBody : bodyOf [call] = call.payload :=
        List.append_nil call.payload
      rw [isBody] at fits ⊢
      have inside := fits
      rw [List.length_append] at inside
      have offset := offset_of_isBlock blocks.1 exponent (by omega)
      exact holds_lastBlock_iff assembled counted
        (offset.trans length.symm) fits
  | case3 num call next calls inductionHypothesis =>
      obtain ⟨isBlock, full, rest⟩ := blocks
      have isBody : done ++ bodyOf (call :: next :: calls) =
          done ++ call.payload ++ bodyOf (next :: calls) :=
        (List.append_assoc _ _ _).symm
      rw [isBody] at fits ⊢
      have inside := fits
      rw [List.length_append, List.length_append] at inside
      have offset : call.request.block1Offset.toNat = done.length :=
        (offset_of_isBlock isBlock exponent (by omega)).trans length.symm
      have nonempty : call.payload ≠ [] := by
        apply List.ne_nil_of_length_pos
        omega
      have accepted : ¬ call.Refused maxLen :=
        not_refused_of_fits nonempty (by omega)
      have extended := stored_extends assembled offset (by omega)
      have nextLength : (done ++ call.payload).length =
          (num + 1) * szxSize szx := by
        rw [List.length_append, length, full, Nat.succ_mul]
      have step := inductionHypothesis rest nextLength
        (extended.1 ▸ extended.2) (fun _ => extended.1) fits
      have complete : done ++ call.payload ++ bodyOf (next :: calls) ≠ [] :=
        List.append_ne_nil_of_left_ne_nil
          (List.append_ne_nil_of_right_ne_nil done nonempty) _
      rw [← @coapBlock1Handler_stored maxLen state call accepted] at step
      exact iff_of_true (step.mpr (Or.inl complete)) (Or.inl complete)

/-! ## Runs -/

def Block1State.fresh (target : ByteMem) (len : Nat)
    (erbiumStatusCode : UInt8) (coapErrorMessage : String) :
    Block1State where
  target := target
  len := len
  writes := []
  erbiumStatusCode := erbiumStatusCode
  coapErrorMessage := coapErrorMessage

deriving instance DecidableEq for BlockFields

/-- A request with a Block1 option of the given value. -/
def block1Datagram (value payload : List UInt8) : List UInt8 :=
  [0x40, 2, 0, 1, UInt8.ofNat (0xD0 + value.length), 14] ++ value ++
    0xFF :: payload

def block1Received (value payload : List UInt8) : Block1Call :=
  Block1Call.ofDatagram CoapConfig.erConf
    (ByteMem.ofList (block1Datagram value payload))
    (block1Datagram value payload).length
    (coapInitMessage .ack 69 1)

def twoBlocks : List Block1Call :=
  [block1Received [0x08] (List.replicate 16 7),
    block1Received [0x10] [8, 9]]

theorem isBlock_twoBlocks :
    (block1Received [0x08] (List.replicate 16 7)).IsBlock 0 0 true ∧
      (block1Received [0x10] [8, 9]).IsBlock 0 1 false := by
  unfold Block1Call.IsBlock
  decide +kernel

theorem blocksFrom_twoBlocks : BlocksFrom 0 0 twoBlocks :=
  ⟨isBlock_twoBlocks.1, by decide +kernel, isBlock_twoBlocks.2,
    by decide +kernel⟩

end Contiki.Coap
