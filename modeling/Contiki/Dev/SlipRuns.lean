import Contiki.Dev.Slip
import Contiki.Lib.Cyclic

/-!
# SLIP framing over runs

The packets that the polls return are packets that were sent, in their order,
if no poll lets the receiver start in the middle of a packet.
-/

namespace Contiki.Dev

open Contiki.Lib

/-! ## The line -/

/-- A serial line: the packet that is being sent with the rest of its bytes,
and the packets that are sent later.  The results are what the polls return if
it is not empty. -/
structure Line where
  slip : Slip
  current : List UInt8
  remaining : List UInt8
  waiting : List (List UInt8)
  results : List (List UInt8)

/-- The next byte is received, or the receiver is polled. -/
inductive LineEvent where
  | byte
  | poll
  deriving DecidableEq

namespace Line

def start (packets : List (List UInt8)) : Line where
  slip := Slip.start
  current := []
  remaining := []
  waiting := packets
  results := []

def step (config : SlipConfig) (line : Line) : LineEvent → Line
  | .byte =>
      match line.remaining with
      | c :: rest =>
          { line with
            slip := line.slip.slipInputByte config c
            remaining := rest }
      | [] =>
          match line.waiting with
          | packet :: later =>
              -- the first byte of every packet
              { line with
                slip := line.slip.slipInputByte config slipEnd
                current := packet
                remaining := (slipWrite packet).tail
                waiting := later }
          | [] => line
  | .poll =>
      let (slip, outbuf) := line.slip.slipPollHandler config
      { line with
        slip
        results :=
          if outbuf = [] then line.results else line.results ++ [outbuf] }

/-- The packets that have not been sent to their last byte. -/
def unsent (line : Line) : List (List UInt8) :=
  if line.remaining = [] then line.waiting
  else line.current :: line.waiting

/-- The results are packets that have been sent, in their order, and the
indices stay in the buffer. -/
structure Framed (config : SlipConfig) (packets : List (List UInt8))
    (line : Line) : Prop where
  results : ∃ sent, packets = sent ++ line.unsent ∧
    line.results.Sublist sent
  begin : line.slip.begin < config.rxBufsize
  pktEnd : line.slip.pktEnd < config.rxBufsize
  endPos : line.slip.endPos < config.rxBufsize

/-- The first byte of a packet has not been received yet, or its last one has
been. -/
def Boundary (line : Line) : Prop :=
  line.remaining.length ≤ 1 ∨
    line.remaining.length + 1 = (slipWrite line.current).length

instance (line : Line) : Decidable line.Boundary :=
  inferInstanceAs (Decidable (_ ∨ _))

/-- A poll that makes room for a packet, or that answers a request, comes when
no packet is halfway received. -/
def Mild (config : SlipConfig) (line : Line) : LineEvent → Prop
  | .byte => True
  | .poll =>
      line.slip.state = .twopackets ∨ line.slip.requested config = true →
        line.Boundary

instance (config : SlipConfig) (line : Line) (event : LineEvent) :
    Decidable (Mild config line event) :=
  match event with
  | .byte => inferInstanceAs (Decidable True)
  | .poll => inferInstanceAs (Decidable (_ → _))

end Line

/-! ## The buffer -/

/-- A packet, and then what is there of another one, are in the buffer. -/
structure Ring (config : SlipConfig) (slip : Slip)
    (first tail : List UInt8) : Prop where
  begin : slip.begin < config.rxBufsize
  room : first.length + tail.length < config.rxBufsize
  pktEnd : slip.pktEnd =
    Cyclic.index config.rxBufsize slip.begin first.length
  endPos : slip.endPos = Cyclic.index config.rxBufsize slip.begin
    (first.length + tail.length)
  first : Cyclic.content slip.rxbuf config.rxBufsize slip.begin
    first.length = first
  tail : Cyclic.content slip.rxbuf config.rxBufsize slip.pktEnd
    tail.length = tail

theorem SlipConfig.rxBufsize_pos (config : SlipConfig) :
    0 < config.rxBufsize :=
  Nat.lt_of_lt_of_le (by decide) (Nat.le_add_left 16 config.blen)

namespace Ring

variable {config : SlipConfig} {slip : Slip} {first tail : List UInt8}

theorem init (slip : Slip) : Ring config slip.rxbufInit [] [] where
  begin := config.rxBufsize_pos
  room := config.rxBufsize_pos
  pktEnd := (Cyclic.index_zero config.rxBufsize_pos).symm
  endPos := (Cyclic.index_zero config.rxBufsize_pos).symm
  first := rfl
  tail := rfl

theorem pktEnd_lt (ring : Ring config slip first tail) :
    slip.pktEnd < config.rxBufsize := by
  have room := ring.room
  rw [ring.pktEnd]
  exact Cyclic.index_lt ring.begin (by omega)

theorem endPos_lt (ring : Ring config slip first tail) :
    slip.endPos < config.rxBufsize := by
  rw [ring.endPos]
  exact Cyclic.index_lt ring.begin ring.room

theorem endPos_eq (ring : Ring config slip first tail) :
    slip.endPos =
      Cyclic.index config.rxBufsize slip.pktEnd tail.length := by
  have room := ring.room
  rw [ring.endPos, ring.pktEnd, Cyclic.index_index ring.begin (by omega)]

theorem begin_eq_pktEnd (ring : Ring config slip first tail) :
    slip.begin = slip.pktEnd ↔ first = [] := by
  have room := ring.room
  rw [ring.pktEnd, eq_comm,
    Cyclic.index_eq_start ring.begin (by omega),
    ← List.length_eq_zero_iff]
  omega

theorem endPos_eq_pktEnd (ring : Ring config slip first tail) :
    slip.endPos = slip.pktEnd ↔ tail = [] := by
  have room := ring.room
  rw [ring.endPos_eq, Cyclic.index_eq_start ring.pktEnd_lt (by omega),
    ← List.length_eq_zero_iff]
  omega

theorem withState (ring : Ring config slip first tail)
    (state : SlipState) : Ring config { slip with state } first tail :=
  ⟨ring.begin, ring.room, ring.pktEnd, ring.endPos, ring.first, ring.tail⟩

theorem dropTail (ring : Ring config slip first tail) (state : SlipState) :
    Ring config { slip with state, endPos := slip.pktEnd } first [] where
  begin := ring.begin
  room := by
    have room := ring.room
    dsimp only [List.length_nil]
    omega
  pktEnd := ring.pktEnd
  endPos := ring.pktEnd
  first := ring.first
  tail := rfl

theorem take (ring : Ring config slip first tail) :
    Ring config { slip with begin := slip.pktEnd } [] tail where
  begin := ring.pktEnd_lt
  room := by
    have room := ring.room
    dsimp only [List.length_nil]
    omega
  pktEnd := (Cyclic.index_zero ring.pktEnd_lt).symm
  endPos := by
    dsimp only [List.length_nil]
    rw [Nat.zero_add]
    exact ring.endPos_eq
  first := rfl
  tail := ring.tail

theorem complete (ring : Ring config slip [] tail) :
    Ring config { slip with pktEnd := slip.endPos } tail [] where
  begin := ring.begin
  room := by
    have room := ring.room
    dsimp only [List.length_nil] at room ⊢
    omega
  pktEnd := by
    have endPos := ring.endPos
    rwa [List.length_nil, Nat.zero_add] at endPos
  endPos := by
    have endPos := ring.endPos
    rwa [List.length_nil, Nat.zero_add] at endPos
  first := by
    have content := ring.tail
    rwa [← ring.begin_eq_pktEnd.mpr rfl] at content
  tail := rfl

/-- A byte is appended if there is room, or else all of the second packet is
removed. -/
theorem addChar (ring : Ring config slip first tail) (c : UInt8) :
    (slip.addChar config c).state = .rubbish ∧
        Ring config (slip.addChar config c) first [] ∨
      (slip.addChar config c).state = slip.state ∧
        Ring config (slip.addChar config c) first (tail ++ [c]) := by
  have room := ring.room
  have next : (if slip.endPos + 1 = config.rxBufsize then 0
      else slip.endPos + 1) =
        Cyclic.index config.rxBufsize slip.begin
          (first.length + tail.length + 1) := by
    rw [← Cyclic.index_index ring.begin (by omega), ← ring.endPos]
    have isEnd := ring.endPos_lt
    unfold Cyclic.index
    split <;> split <;> omega
  unfold Slip.addChar
  rw [next]
  dsimp only
  by_cases isFull : Cyclic.index config.rxBufsize slip.begin
      (first.length + tail.length + 1) = slip.begin
  · rw [if_pos isFull]
    exact Or.inl ⟨rfl, ring.dropTail _⟩
  · rw [if_neg isFull]
    have enough : first.length + tail.length + 1 < config.rxBufsize := by
      rw [Cyclic.index_eq_start ring.begin (by omega)] at isFull
      omega
    refine Or.inr ⟨rfl, ring.begin, ?_, ring.pktEnd, ?_, ?_, ?_⟩
    · rw [List.length_append, List.length_singleton]
      omega
    · rw [List.length_append, List.length_singleton]
      rfl
    · dsimp only
      rw [ring.endPos, Cyclic.content_update_of_ne]
      · exact ring.first
      · intro offset isOffset
        exact Cyclic.index_ne (by omega) ring.room
    · dsimp only
      rw [List.length_append, List.length_singleton, ring.endPos_eq,
        Cyclic.content_update (by omega), ring.tail]

theorem taken (ring : Ring config slip first tail) (isPacket : first ≠ []) :
    slip.taken config =
      if config.blen < first.length then [] else first := by
  have room := ring.room
  have positive : 0 < first.length := List.length_pos_iff.mpr isPacket
  have isPktEnd := ring.pktEnd
  have begin := ring.begin
  unfold Slip.taken
  by_cases isBefore : slip.begin < slip.pktEnd
  · rw [if_pos isBefore]
    have length : slip.pktEnd - slip.begin = first.length := by
      unfold Cyclic.index at isPktEnd
      split at isPktEnd <;> omega
    have inside : slip.begin + first.length ≤ config.rxBufsize := by
      unfold Cyclic.index at isPktEnd
      split at isPktEnd <;> omega
    dsimp only
    rw [length, ← Cyclic.content_of_le slip.rxbuf inside, ring.first]
  · rw [if_neg isBefore]
    have wraps : config.rxBufsize ≤ slip.begin + first.length := by
      unfold Cyclic.index at isPktEnd
      split at isPktEnd <;> omega
    have pktEnd : slip.pktEnd =
        slip.begin + first.length - config.rxBufsize := by
      unfold Cyclic.index at isPktEnd
      split at isPktEnd <;> omega
    have length : config.rxBufsize - slip.begin + slip.pktEnd =
        first.length := by
      omega
    dsimp only
    rw [length, pktEnd, ← Cyclic.content_of_ge slip.rxbuf begin wraps,
      ring.first]

end Ring

/-! ## The bytes of a packet -/

/-- The bytes of a packet and the byte at its end. -/
def frameRest (left : List UInt8) : List UInt8 :=
  left.flatMap slipEscape ++ [slipEnd]

/-- A byte of a packet is sent as it is, or as two bytes. -/
theorem slipEscape_cases (byte : UInt8) :
    slipEscape byte = [byte] ∧ byte ≠ slipEnd ∧ byte ≠ slipEsc ∨
      (slipEscape byte = [slipEsc, slipEscEnd] ∧ byte = slipEnd) ∨
      slipEscape byte = [slipEsc, slipEscEsc] ∧ byte = slipEsc := by
  unfold slipEscape
  by_cases isEnd : byte = slipEnd
  · rw [if_pos isEnd]
    exact Or.inr (Or.inl ⟨rfl, isEnd⟩)
  · rw [if_neg isEnd]
    by_cases isEsc : byte = slipEsc
    · rw [if_pos isEsc]
      exact Or.inr (Or.inr ⟨rfl, isEsc⟩)
    · rw [if_neg isEsc]
      exact Or.inl ⟨rfl, isEnd, isEsc⟩

theorem frameRest_cons (byte : UInt8) (left : List UInt8) :
    frameRest (byte :: left) = slipEscape byte ++ frameRest left := by
  unfold frameRest
  rw [List.flatMap_cons, List.append_assoc]

theorem frameRest_ne_nil (left : List UInt8) : frameRest left ≠ [] :=
  List.append_ne_nil_of_right_ne_nil _ (List.cons_ne_nil _ _)

/-- Where the sender is in a packet when there are bytes left. -/
inductive Position (current : List UInt8) : List UInt8 → Prop where
  | inside (read left : List UInt8) (isPacket : current = read ++ left) :
      Position current (frameRest left)
  | escaped (read : List UInt8) (byte second : UInt8) (left : List UInt8)
      (isPacket : current = read ++ byte :: left)
      (isEscaped : slipEscape byte = [slipEsc, second]) :
      Position current (second :: frameRest left)

/-- After each byte the sender is in the packet, and the byte was not the last
one, or it was the end of the packet. -/
theorem Position.next {current rest : List UInt8} {c : UInt8}
    (position : Position current (c :: rest)) :
    c ≠ slipEnd ∧ Position current rest ∨ c = slipEnd ∧ rest = [] := by
  generalize isRemaining : c :: rest = remaining at position
  cases position with
  | inside read left isPacket =>
      cases left with
      | nil =>
          cases isRemaining
          exact Or.inr ⟨rfl, rfl⟩
      | cons byte left =>
          rw [frameRest_cons] at isRemaining
          rcases slipEscape_cases byte with ⟨isPlain, notEnd, _⟩ |
            ⟨isEscape, _⟩ | ⟨isEscape, _⟩
          · rw [isPlain] at isRemaining
            cases isRemaining
            refine Or.inl ⟨notEnd, .inside (read ++ [c]) left ?_⟩
            rw [isPacket, List.append_assoc]
            rfl
          · rw [isEscape] at isRemaining
            cases isRemaining
            exact Or.inl ⟨by decide,
              .escaped read byte slipEscEnd left isPacket isEscape⟩
          · rw [isEscape] at isRemaining
            cases isRemaining
            exact Or.inl ⟨by decide,
              .escaped read byte slipEscEsc left isPacket isEscape⟩
  | escaped read byte second left isPacket isEscaped =>
      cases isRemaining
      refine Or.inl ⟨?_, .inside (read ++ [byte]) left ?_⟩
      · rcases slipEscape_cases byte with ⟨isPlain, _⟩ |
          ⟨isEscape, _⟩ | ⟨isEscape, _⟩
        · rw [isPlain] at isEscaped
          exact nomatch isEscaped
        · rw [isEscape] at isEscaped
          cases isEscaped
          decide
        · rw [isEscape] at isEscaped
          cases isEscaped
          decide
      · rw [isPacket, List.append_assoc]
        rfl

theorem Position.ne_nil {current remaining : List UInt8}
    (position : Position current remaining) : remaining ≠ [] := by
  cases position with
  | inside read left => exact frameRest_ne_nil left
  | escaped read byte second left => exact List.cons_ne_nil _ _

/-- What the receiver keeps of the packet that is being sent. -/
inductive Mode (current : List UInt8) :
    SlipState → List UInt8 → List UInt8 → Prop where
  | idle : Mode current .ok [] []
  | collecting (read left : List UInt8) (isPacket : current = read ++ left) :
      Mode current .ok read (frameRest left)
  /-- All bytes of the packet have been lost. -/
  | lost : Mode current .ok [] (frameRest [])
  | escaping (read : List UInt8) (byte second : UInt8) (left : List UInt8)
      (isPacket : current = read ++ byte :: left)
      (isEscaped : slipEscape byte = [slipEsc, second]) :
      Mode current .esc read (second :: frameRest left)
  | rubbish {remaining : List UInt8} (position : Position current remaining) :
      Mode current .rubbish [] remaining
  | full {tail remaining : List UInt8} (isPacket : tail ≠ [])
      (position : Position current remaining ∨ remaining = []) :
      Mode current .twopackets tail remaining

def held (state : SlipState) (first tail : List UInt8) :
    List (List UInt8) :=
  (if first = [] then [] else [first]) ++
    if state = .twopackets then [tail] else []

theorem held_of_ne {state : SlipState} (notTwo : state ≠ .twopackets)
    (first tail : List UInt8) :
    held state first tail = if first = [] then [] else [first] := by
  unfold held
  rw [if_neg notTwo, List.append_nil]

/-! ## Bytes -/

/-- What a byte of a packet does: the packets that are kept are the same, or
the last byte completes one more. -/
def Fed (config : SlipConfig) (current rest : List UInt8)
    (before : List (List UInt8)) (slip : Slip) : Prop :=
  ∃ first tail, Ring config slip first tail ∧
    Mode current slip.state tail rest ∧
    (held slip.state first tail = before ∨
      rest = [] ∧ held slip.state first tail = before ++ [current])

section Bytes

variable {config : SlipConfig} {slip : Slip}
  {current first tail : List UInt8}

theorem Ring.collect (ring : Ring config slip first tail) {read : List UInt8}
    {byte : UInt8} {left : List UInt8} (isTail : tail = read)
    (isPacket : current = read ++ byte :: left)
    (notFull : slip.state = .ok) (before : SlipState)
    (notTwo : before ≠ .twopackets) :
    Fed config current (frameRest left) (held before first tail)
      (slip.addChar config byte) := by
  have next : current = (read ++ [byte]) ++ left := by
    rw [isPacket, List.append_assoc]
    rfl
  rcases ring.addChar byte with ⟨state, later⟩ | ⟨state, later⟩
  · refine ⟨first, [], later, ?_, Or.inl ?_⟩
    · rw [state]
      exact .rubbish (.inside (read ++ [byte]) left next)
    · rw [state, held_of_ne SlipState.noConfusion, held_of_ne notTwo]
  · rw [notFull] at state
    refine ⟨first, tail ++ [byte], later, ?_, Or.inl ?_⟩
    · rw [state, isTail]
      exact .collecting (read ++ [byte]) left next
    · rw [state, held_of_ne SlipState.noConfusion, held_of_ne notTwo]

theorem Ring.feed (ring : Ring config slip first tail) {c : UInt8}
    {rest : List UInt8} (mode : Mode current slip.state tail (c :: rest)) :
    Fed config current rest (held slip.state first tail)
      (slip.slipInputByte config c) := by
  generalize isState : slip.state = state at mode
  generalize isRemaining : c :: rest = remaining at mode
  unfold Slip.slipInputByte
  rw [isState]
  cases mode with
  | idle => exact nomatch isRemaining
  | collecting read left isPacket =>
      dsimp only
      cases left with
      | nil =>
          cases isRemaining
          rw [if_neg (by decide), if_pos rfl]
          have whole : tail = current := by
            rw [isPacket, List.append_nil]
          by_cases isEmpty : tail = []
          · rw [if_neg (not_not_intro (ring.endPos_eq_pktEnd.mpr isEmpty))]
            refine ⟨first, tail, ring, ?_, Or.inl (by rw [isState])⟩
            rw [isState, isEmpty]
            exact .idle
          · rw [if_pos (mt ring.endPos_eq_pktEnd.mp isEmpty)]
            by_cases noPacket : first = []
            · rw [if_pos (ring.begin_eq_pktEnd.mpr noPacket)]
              rw [noPacket] at ring
              refine ⟨tail, [], ring.complete.withState .ok, .idle,
                Or.inr ⟨rfl, ?_⟩⟩
              rw [held_of_ne SlipState.noConfusion,
                held_of_ne SlipState.noConfusion, if_neg isEmpty,
                if_pos noPacket, whole]
              rfl
            · rw [if_neg (mt ring.begin_eq_pktEnd.mp noPacket)]
              refine ⟨first, tail, ring.withState _,
                .full isEmpty (Or.inr rfl), Or.inr ⟨rfl, ?_⟩⟩
              unfold held
              rw [if_neg noPacket, whole]
              rfl
      | cons byte left =>
          rw [frameRest_cons] at isRemaining
          rcases slipEscape_cases byte with ⟨isPlain, notEnd, notEsc⟩ |
            ⟨isEscape, _⟩ | ⟨isEscape, _⟩
          · rw [isPlain] at isRemaining
            cases isRemaining
            rw [if_neg notEsc, if_neg notEnd]
            exact ring.collect rfl isPacket isState .ok
              SlipState.noConfusion
          · rw [isEscape] at isRemaining
            cases isRemaining
            rw [if_pos rfl]
            refine ⟨first, tail, ring.withState _, ?_, Or.inl rfl⟩
            exact .escaping tail byte slipEscEnd left isPacket isEscape
          · rw [isEscape] at isRemaining
            cases isRemaining
            rw [if_pos rfl]
            refine ⟨first, tail, ring.withState _, ?_, Or.inl rfl⟩
            exact .escaping tail byte slipEscEsc left isPacket isEscape
  | lost =>
      cases isRemaining
      dsimp only
      rw [if_neg (by decide), if_pos rfl,
        if_neg (not_not_intro (ring.endPos_eq_pktEnd.mpr rfl))]
      refine ⟨first, [], ring, ?_, Or.inl (by rw [isState])⟩
      rw [isState]
      exact .idle
  | escaping read byte second left isPacket isEscaped =>
      cases isRemaining
      have stored := (ring.withState .ok).collect rfl isPacket rfl .esc
        SlipState.noConfusion
      dsimp only
      rcases slipEscape_cases byte with ⟨isPlain, _⟩ |
        ⟨isEscape, isByte⟩ | ⟨isEscape, isByte⟩
      · rw [isPlain] at isEscaped
        exact nomatch isEscaped
      · rw [isEscape] at isEscaped
        cases isEscaped
        rw [if_pos rfl, ← isByte]
        exact stored
      · rw [isEscape] at isEscaped
        cases isEscaped
        rw [if_neg (by decide), if_pos rfl, ← isByte]
        exact stored
  | rubbish position =>
      rw [← isRemaining] at position
      dsimp only
      rcases position.next with ⟨notEnd, later⟩ | ⟨isEnd, isLast⟩
      · rw [if_neg notEnd]
        refine ⟨first, [], ring, ?_, Or.inl (by rw [isState])⟩
        rw [isState]
        exact .rubbish later
      · rw [if_pos isEnd, isLast]
        exact ⟨first, [], ring.withState _, .idle, Or.inl rfl⟩
  | full isPacket position =>
      rw [← isRemaining] at position
      refine ⟨first, tail, ring, ?_, Or.inl (by rw [isState])⟩
      rw [isState]
      apply Mode.full isPacket
      rcases position with position | isDone
      · exact position.next.imp (fun next => next.2) fun last => last.2
      · exact nomatch isDone

theorem Ring.feed_first (ring : Ring config slip first tail)
    (mode : Mode current slip.state tail []) (packet : List UInt8) :
    slip.slipInputByte config slipEnd = slip ∧
      Mode packet slip.state tail (frameRest packet) := by
  generalize isState : slip.state = state at mode
  generalize isRemaining : [] = remaining at mode
  unfold Slip.slipInputByte
  rw [isState]
  cases mode with
  | idle =>
      dsimp only
      rw [if_neg (by decide), if_pos rfl,
        if_neg (not_not_intro (ring.endPos_eq_pktEnd.mpr rfl))]
      exact ⟨rfl, .collecting [] packet rfl⟩
  | collecting read left =>
      exact absurd isRemaining.symm (frameRest_ne_nil left)
  | lost => exact absurd isRemaining.symm (frameRest_ne_nil [])
  | escaping => exact nomatch isRemaining
  | rubbish position => exact absurd isRemaining.symm position.ne_nil
  | full isPacket =>
      exact ⟨rfl, .full isPacket (Or.inl (.inside [] packet rfl))⟩

end Bytes

/-! ## Polls -/

theorem length_flatMap_slipEscape (bytes : List UInt8) :
    bytes.length ≤ (bytes.flatMap slipEscape).length := by
  induction bytes with
  | nil => exact Nat.le_refl 0
  | cons byte rest inductionHypothesis =>
      have one : 1 ≤ (slipEscape byte).length := by
        rcases slipEscape_cases byte with ⟨isEscape, _⟩ |
          ⟨isEscape, _⟩ | ⟨isEscape, _⟩ <;>
          rw [isEscape] <;> exact Nat.le_add_left 1 _
      rw [List.flatMap_cons, List.length_append, List.length_cons]
      omega

theorem length_frameRest (left : List UInt8) :
    (frameRest left).length = (left.flatMap slipEscape).length + 1 := by
  unfold frameRest
  rw [List.length_append, List.length_singleton]

theorem length_slipWrite (packet : List UInt8) :
    (slipWrite packet).length =
      (packet.flatMap slipEscape).length + 2 := by
  unfold slipWrite
  rw [List.cons_append, List.length_cons, List.length_append,
    List.length_singleton]

theorem Position.boundary {current remaining : List UInt8}
    (position : Position current remaining)
    (boundary : remaining.length ≤ 1 ∨
      remaining.length + 1 = (slipWrite current).length) :
    Mode current .ok [] remaining := by
  cases position with
  | inside read left isPacket =>
      rw [length_frameRest, length_slipWrite, isPacket,
        List.flatMap_append, List.length_append] at boundary
      have noneLeft := length_flatMap_slipEscape left
      have noneRead := length_flatMap_slipEscape read
      by_cases isLast : left = []
      · rw [isLast]
        exact .lost
      · have positive := List.length_pos_iff.mpr isLast
        have isFirst : read = [] :=
          List.length_eq_zero_iff.mp (by omega)
        rw [isFirst] at isPacket
        exact .collecting [] left isPacket
  | escaped read byte second left isPacket isEscaped =>
      rw [List.length_cons, length_frameRest, length_slipWrite, isPacket,
        List.flatMap_append, List.length_append, List.flatMap_cons,
        List.length_append, isEscaped] at boundary
      dsimp only [List.length_cons, List.length_nil] at boundary
      omega

theorem Mode.position {current : List UInt8} {state : SlipState}
    {tail remaining : List UInt8}
    (mode : Mode current state tail remaining) :
    Position current remaining ∨ remaining = [] := by
  cases mode with
  | idle => exact Or.inr rfl
  | collecting _ left isPacket =>
      exact Or.inl (.inside tail left isPacket)
  | lost =>
      exact Or.inl (.inside current [] (List.append_nil current).symm)
  | escaping _ byte second left isPacket isEscaped =>
      exact Or.inl (.escaped tail byte second left isPacket isEscaped)
  | rubbish position => exact Or.inl position
  | full _ position => exact position

theorem Mode.boundary {current : List UInt8} {state : SlipState}
    {tail remaining : List UInt8}
    (mode : Mode current state tail remaining)
    (boundary : remaining.length ≤ 1 ∨
      remaining.length + 1 = (slipWrite current).length) :
    Mode current .ok [] remaining := by
  rcases mode.position with position | isDone
  · exact position.boundary boundary
  · rw [isDone]
    exact .idle

variable {config : SlipConfig}

/-- A poll that does not start the receiver in the middle of a packet returns
the first one of the packets that are kept, or nothing. -/
theorem Ring.poll {slip : Slip} {current first tail remaining : List UInt8}
    (ring : Ring config slip first tail)
    (mode : Mode current slip.state tail remaining)
    (mild : slip.state = .twopackets ∨ slip.requested config = true →
      remaining.length ≤ 1 ∨
        remaining.length + 1 = (slipWrite current).length) :
    ∃ first' tail',
      Ring config (slip.slipPollHandler config).1 first' tail' ∧
        Mode current (slip.slipPollHandler config).1.state tail'
          remaining ∧
        ((if (slip.slipPollHandler config).2 = [] then []
            else [(slip.slipPollHandler config).2]) ++
          held (slip.slipPollHandler config).1.state first' tail').Sublist
            (held slip.state first tail) := by
  unfold Slip.slipPollHandler
  by_cases isRequest : slip.requested config = true
  · rw [if_pos isRequest]
    exact ⟨[], [], Ring.init _, mode.boundary (mild (Or.inr isRequest)),
      List.nil_sublist _⟩
  · rw [if_neg isRequest]
    by_cases isPacket : first = []
    · rw [if_neg (not_not_intro (ring.begin_eq_pktEnd.mpr isPacket))]
      exact ⟨first, tail, ring, mode, List.Sublist.refl _⟩
    · rw [if_pos (mt ring.begin_eq_pktEnd.mp isPacket)]
      have taken : (if slip.taken config = [] then []
          else [slip.taken config]).Sublist [first] := by
        rw [ring.taken isPacket]
        split
        · exact List.nil_sublist _
        · exact List.Sublist.refl _
      have heldFirst : held slip.state first tail = [first] ++
          if slip.state = .twopackets then [tail] else [] := by
        unfold held
        rw [if_neg isPacket]
      rw [heldFirst]
      dsimp only
      by_cases isFull : slip.state = .twopackets
      · rw [if_pos isFull, if_pos isFull]
        refine ⟨tail, [], ring.take.complete.withState .ok,
          mode.boundary (mild (Or.inl isFull)), taken.append ?_⟩
        rw [held_of_ne SlipState.noConfusion]
        split
        · exact List.nil_sublist _
        · exact List.Sublist.refl _
      · rw [if_neg isFull, if_neg isFull]
        refine ⟨[], tail, ring.take, mode, taken.append ?_⟩
        rw [held_of_ne isFull]
        exact List.nil_sublist _

/-! ## Runs -/

namespace Line

/-- The packets that the receiver keeps come after those that were returned,
and the packet that is being sent comes after these. -/
structure Valid (config : SlipConfig) (packets : List (List UInt8))
    (line : Line) (first tail : List UInt8) (sent : List (List UInt8)) :
    Prop where
  ring : Ring config line.slip first tail
  mode : Mode line.current line.slip.state tail line.remaining
  packets : packets = sent ++ line.unsent
  kept : (line.results ++ held line.slip.state first tail).Sublist sent

theorem start_valid (config : SlipConfig) (packets : List (List UInt8)) :
    Valid config packets (start packets) [] [] [] where
  ring := Ring.init _
  mode := .idle
  packets := rfl
  kept := List.Sublist.refl _

section Steps

variable {config : SlipConfig} {packets : List (List UInt8)} {line : Line}
  {first tail : List UInt8} {sent : List (List UInt8)}

/-- The indices stay in the buffer, and the results are packets that were
sent. -/
theorem Valid.framed (valid : Valid config packets line first tail sent) :
    Framed config packets line where
  results := ⟨sent, valid.packets,
    (List.sublist_append_left _ _).trans valid.kept⟩
  begin := valid.ring.begin
  pktEnd := valid.ring.pktEnd_lt
  endPos := valid.ring.endPos_lt

theorem Valid.byte (valid : Valid config packets line first tail sent) :
    ∃ first tail sent,
      Valid config packets (line.step config .byte) first tail sent := by
  have mode := valid.mode
  have unsent := valid.packets
  unfold Line.unsent at unsent
  dsimp only [step]
  cases isRemaining : line.remaining with
  | cons c rest =>
      rw [isRemaining] at mode
      rw [isRemaining, if_neg (List.cons_ne_nil c rest)] at unsent
      rcases valid.ring.feed mode with
        ⟨later, rest', ring, laterMode, kept | ⟨isLast, kept⟩⟩
      · refine ⟨later, rest',
          if rest = [] then sent ++ [line.current] else sent,
          ring, laterMode, ?_, ?_⟩
        · unfold Line.unsent
          dsimp only
          split
          · rw [unsent, List.append_assoc]
            rfl
          · exact unsent
        · dsimp only
          rw [kept]
          split
          · exact valid.kept.trans (List.sublist_append_left _ _)
          · exact valid.kept
      · refine ⟨later, rest', sent ++ [line.current], ring, laterMode,
          ?_, ?_⟩
        · unfold Line.unsent
          dsimp only
          rw [if_pos isLast, unsent, List.append_assoc]
          rfl
        · dsimp only
          rw [kept, ← List.append_assoc]
          exact valid.kept.append_right _
  | nil =>
      rw [isRemaining] at mode
      rw [isRemaining, if_pos rfl] at unsent
      cases isWaiting : line.waiting with
      | nil => exact ⟨first, tail, sent, valid⟩
      | cons packet later =>
          rcases valid.ring.feed_first mode packet with ⟨same, begins⟩
          refine ⟨first, tail, sent, ?_, ?_, ?_, ?_⟩
          · dsimp only
            rw [same]
            exact valid.ring
          · dsimp only
            rw [same]
            exact begins
          · rw [unsent, isWaiting]
            exact congrArg (sent ++ ·)
              (if_neg (frameRest_ne_nil packet)).symm
          · dsimp only
            rw [same]
            exact valid.kept

theorem Valid.poll (valid : Valid config packets line first tail sent)
    (mild : Mild config line .poll) :
    ∃ first tail sent,
      Valid config packets (line.step config .poll) first tail sent := by
  rcases valid.ring.poll valid.mode mild with
    ⟨later, rest', ring, mode, kept⟩
  refine ⟨later, rest', sent, ring, mode, valid.packets, ?_⟩
  have results : (line.step config .poll).results = line.results ++
      if (line.slip.slipPollHandler config).2 = [] then []
      else [(line.slip.slipPollHandler config).2] := by
    dsimp only [step]
    split
    · rw [List.append_nil]
    · rfl
  rw [results, List.append_assoc]
  exact (kept.append_left line.results).trans valid.kept

theorem Valid.step (valid : Valid config packets line first tail sent)
    (event : LineEvent) (mild : Mild config line event) :
    ∃ first tail sent,
      Valid config packets (line.step config event) first tail sent := by
  cases event with
  | byte => exact valid.byte
  | poll => exact valid.poll mild

end Steps

/-- In every state of a run the results are packets that were sent. -/
def FramedRun (config : SlipConfig) (packets : List (List UInt8))
    (line : Line) : List LineEvent → Prop
  | [] => Framed config packets line
  | event :: events =>
      Framed config packets line ∧
        FramedRun config packets (line.step config event) events

def MildRun (config : SlipConfig) (line : Line) : List LineEvent → Prop
  | [] => True
  | event :: events =>
      Mild config line event ∧ MildRun config (line.step config event) events

instance (config : SlipConfig) (line : Line) (events : List LineEvent) :
    Decidable (MildRun config line events) :=
  decidableMildRun line events
where
  decidableMildRun (line : Line) :
      (events : List LineEvent) → Decidable (MildRun config line events)
    | [] => inferInstanceAs (Decidable True)
    | event :: events =>
        have := decidableMildRun (line.step config event) events
        inferInstanceAs (Decidable (_ ∧ _))

theorem Valid.run {packets : List (List UInt8)}
    {line : Line} {first tail : List UInt8} {sent : List (List UInt8)}
    (valid : Valid config packets line first tail sent)
    {events : List LineEvent} (mild : MildRun config line events) :
    FramedRun config packets line events := by
  induction events generalizing line first tail sent with
  | nil => exact valid.framed
  | cons event events inductionHypothesis =>
      rcases valid.step event mild.1 with ⟨_, _, _, later⟩
      exact ⟨valid.framed, inductionHypothesis later mild.2⟩

/-- The polls return packets that were sent, in their order. -/
theorem slip_framedRun {config : SlipConfig} {packets : List (List UInt8)}
    {events : List LineEvent}
    (mild : MildRun config (start packets) events) :
    FramedRun config packets (start packets) events :=
  (start_valid config packets).run mild

def smallConfig : SlipConfig where
  blen := 100
  answerMacRequest := true

def smallPackets : List (List UInt8) :=
  [[1], [192, 2], [3, 4]]

/-- Both packets that fit are received before the first poll, and the third
packet after it. -/
def politeRun : List LineEvent :=
  List.replicate 9 .byte ++ [.poll] ++ List.replicate 3 .byte ++
    [.poll, .poll]

theorem politeRun_framedRun :
    MildRun smallConfig (start smallPackets) politeRun ∧
      FramedRun smallConfig smallPackets (start smallPackets) politeRun :=
  have mild : MildRun smallConfig (start smallPackets) politeRun := by
    decide +kernel
  ⟨mild, slip_framedRun mild⟩

theorem FramedRun.last {packets : List (List UInt8)}
    {line : Line} {events : List LineEvent}
    (run : FramedRun config packets line events) :
    Framed config packets (events.foldl (step config) line) := by
  induction events generalizing line with
  | nil => exact run
  | cons event events inductionHypothesis =>
      exact inductionHypothesis run.2

/-- A packet that fits the buffers and is no request. -/
def Admissible (config : SlipConfig) (packet : List UInt8) : Prop :=
  packet ≠ [] ∧ packet.length ≤ config.blen ∧
    ¬ [67, 76, 73, 69, 78, 84] <+: packet ∧ ¬ [63, 77] <+: packet

instance (config : SlipConfig) (packet : List UInt8) :
    Decidable (Admissible config packet) :=
  inferInstanceAs (Decidable (_ ∧ _ ∧ _ ∧ _))

/-- The first poll comes when the first byte of the third packet has been
dropped. -/
def hastyRun : List LineEvent :=
  List.replicate 10 .byte ++ [.poll, .byte, .byte, .poll, .poll]

/-- The last poll returns a part of the third packet. -/
theorem hastyRun_not_framedRun :
    ¬ ∀ (config : SlipConfig) (packets : List (List UInt8))
        (events : List LineEvent),
      (∀ packet ∈ packets, Admissible config packet) →
        FramedRun config packets (start packets) events := by
  intro always
  have admissible : ∀ packet ∈ smallPackets,
      Admissible smallConfig packet := by
    decide +kernel
  have framed := (always smallConfig smallPackets hastyRun admissible).last
  rcases framed.results with ⟨sent, packets, sublist⟩
  have results : (hastyRun.foldl (step smallConfig)
      (start smallPackets)).results = [[1], [192, 2], [4]] := by
    decide +kernel
  have isSublist := sublist.trans (List.sublist_append_left sent
    (hastyRun.foldl (step smallConfig) (start smallPackets)).unsent)
  rw [← packets, results] at isSublist
  exact absurd isSublist (by decide +kernel)

end Line

end Contiki.Dev
