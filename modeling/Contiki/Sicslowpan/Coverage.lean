import Contiki.Lib.Ranges
import Contiki.Sicslowpan.Reassembly

/-!
# Coverage of reassembled packets

`input` completes a packet when it has counted as many bytes as the packet
has.  If no two fragments that were counted supply the same position, and
none supplies a position behind the end of the packet, every position was
supplied.
-/

namespace Contiki.Sicslowpan

open Contiki.Lib

variable {node : Node} {state : State} {received : Received}

/-! ## The positions that a frame supplies -/

/-- The lengths that the decoder finds, which do not depend on the buffer. -/
def Uncompressed.lengths (headers : Uncompressed) : Nat × Nat :=
  (headers.packetbufHdrLen, headers.uncompHdrLen)

theorem uncompressUdp_lengths (inline first second : ByteMem) :
    (uncompressUdp inline first).2 = (uncompressUdp inline second).2 := by
  unfold uncompressUdp
  split
  · dsimp only
    split <;> rfl
  · rfl

theorem uncompressTail_lengths_congr (iphc0 : UInt8) (frame : ByteMem)
    (datalen ptr ipLen : Nat) (first second : ByteMem) :
    (uncompressTail iphc0 frame datalen ptr ipLen first).lengths =
      (uncompressTail iphc0 frame datalen ptr ipLen second).lengths := by
  unfold uncompressTail Uncompressed.lengths
  split
  · simp only [uncompressUdp_lengths (frame.shift ptr) first second]
  · rfl

theorem uncompressHdrHc06_lengths_congr (contexts : List AddrContext)
    (sender receiver : LinkAddr) (frame : ByteMem)
    (datalen packetbufHdrLen ipLen : Nat) (first second : ByteMem) :
    (uncompressHdrHc06 contexts sender receiver frame datalen
        packetbufHdrLen ipLen first).lengths =
      (uncompressHdrHc06 contexts sender receiver frame datalen
        packetbufHdrLen ipLen second).lengths := by
  have pointer : ∀ iphc0 ptr,
      (uncompressFields iphc0 frame ptr first).ptr =
        (uncompressFields iphc0 frame ptr second).ptr :=
    fun _ _ => rfl
  unfold uncompressHdrHc06
  dsimp only
  rw [pointer]
  split
  · rfl
  · split
    · rfl
    · exact uncompressTail_lengths_congr _ _ _ _ _ _ _

theorem uncompressHeaders_lengths_congr (node : Node)
    (header : FragHeader) (received : Received) (first second : ByteMem) :
    (uncompressHeaders node header received first).map
        Uncompressed.lengths =
      (uncompressHeaders node header received second).map
        Uncompressed.lengths := by
  unfold uncompressHeaders
  dsimp only
  split
  · rfl
  · split
    · exact congrArg some
        (uncompressHdrHc06_lengths_congr _ _ _ _ _ _ _ _ _)
    · split <;> rfl

/-- The lengths of the headers in a frame. -/
def headerLengths (node : Node) (received : Received) :
    Option (Nat × Nat) :=
  (uncompressHeaders node (fragHeader received.packetbuf) received
    fun _ => 0).map Uncompressed.lengths

/-- The positions that a frame supplies: those of its headers and payload,
or nothing if the dispatch is unknown or the headers are longer than the
frame. -/
def supplied (node : Node) (received : Received) : Option Range :=
  (headerLengths node received).bind fun lengths =>
    if received.datalen < lengths.1 then none
    else
      some
        { start := (fragHeader received.packetbuf).fragOffset <<< 3
          count := lengths.2 + (received.datalen - lengths.1) }

theorem fragHeader_cases (packetbuf : ByteMem) :
    let header := fragHeader packetbuf
    (header.isFragment = false ∧ header.fragSize = 0 ∧
        header.packetbufHdrLen = 0 ∧ header.firstFragment = false) ∨
      (header.isFragment = true ∧ header.firstFragment = true ∧
        header.packetbufHdrLen = frag1HdrLen ∧ header.fragOffset = 0) ∨
      (header.isFragment = true ∧ header.firstFragment = false ∧
        header.packetbufHdrLen = fragnHdrLen) := by
  unfold fragHeader
  dsimp only
  split
  · exact .inr (.inl ⟨rfl, rfl, rfl, rfl⟩)
  · split
    · exact .inr (.inr ⟨rfl, rfl, rfl⟩)
    · exact .inl ⟨rfl, rfl, rfl, rfl⟩

theorem headerLengths_fragn
    (further : (fragHeader received.packetbuf).packetbufHdrLen =
      fragnHdrLen) :
    headerLengths node received = some (fragnHdrLen, 0) := by
  rw [headerLengths, uncompressHeaders, if_pos further, further]
  rfl

theorem supplied_eq (node : Node) (received : Received) (buf : ByteMem) :
    supplied node received =
      (uncompressHeaders node (fragHeader received.packetbuf) received
        buf).bind fun headers =>
          if received.datalen < headers.packetbufHdrLen then none
          else
            some
              { start := (fragHeader received.packetbuf).fragOffset <<< 3
                count := headers.uncompHdrLen +
                  (received.datalen - headers.packetbufHdrLen) } := by
  rw [supplied, headerLengths, uncompressHeaders_lengths_congr node _
    received _ buf, Option.bind_map]
  rfl

theorem process_dropped (state : State) (last : Bool)
    (dropped : supplied node received = none) :
    let result := process node (fragHeader received.packetbuf) received
      last state
    result.2 = none ∧
      result.1 =
        { state with sicslowpanBuf := result.1.sicslowpanBuf } := by
  rw [supplied_eq node received state.sicslowpanBuf] at dropped
  unfold process
  cases decoded : uncompressHeaders node (fragHeader received.packetbuf)
      received state.sicslowpanBuf with
  | none =>
      exact ⟨rfl, rfl⟩
  | some headers =>
      rw [decoded, Option.bind_some] at dropped
      have short : received.datalen < headers.packetbufHdrLen := by
        by_contra long
        rw [if_neg long] at dropped
        exact absurd dropped (by simp)
      have copied : copyPayload node (fragHeader received.packetbuf)
          received headers = none := if_pos short
      dsimp only
      rw [copied]
      exact ⟨rfl, rfl⟩

/-- A fragment that supplies a range inside the buffer adds its length to
what has arrived. -/
theorem process_supplied (state : State) {range : Range} (last : Bool)
    (found : supplied node received = some range)
    (positive : (fragHeader received.packetbuf).fragSize > 0)
    (room : range.start + range.count ≤ node.uipBufsize) :
    let processed :=
      if last then (fragHeader received.packetbuf).fragSize
      else (state.processedIpInLen + range.count) % 65536
    ∃ buf, process node (fragHeader received.packetbuf) received last
        state =
      if processed = 0 ∨ processed = state.sicslowpanLen then
        ({ state with
            sicslowpanBuf := buf
            sicslowpanLen := 0
            processedIpInLen := 0 },
          some (buf.read 0 state.sicslowpanLen))
      else
        ({ state with
            sicslowpanBuf := buf, processedIpInLen := processed },
          none) := by
  rw [supplied_eq node received state.sicslowpanBuf] at found
  obtain ⟨headers, decoded, found⟩ := Option.bind_eq_some_iff.mp found
  have long : ¬ received.datalen < headers.packetbufHdrLen := by
    intro short
    rw [if_pos short] at found
    exact absurd found (by simp)
  rw [if_neg long, Option.some.injEq] at found
  subst found
  have fits : ¬ headers.uncompHdrLen +
      (fragHeader received.packetbuf).fragOffset <<< 3 +
      (received.datalen - headers.packetbufHdrLen) > node.sizeofBuf := by
    simp only [Node.sizeofBuf]
    dsimp only at room
    omega
  have copied : copyPayload node (fragHeader received.packetbuf) received
      headers = some _ := (if_neg long).trans (if_neg fits)
  have counted : (if (fragHeader received.packetbuf).firstFragment then
      headers.uncompHdrLen else 0) = headers.uncompHdrLen := by
    rcases fragHeader_cases received.packetbuf with
      ⟨_, size, _⟩ | ⟨_, first, _⟩ | ⟨_, first, hdrLen⟩
    · omega
    · rw [if_pos first]
    · rw [uncompressHeaders, if_pos hdrLen, Option.some.injEq] at decoded
      rw [first, ← decoded]
      rfl
  refine ⟨headers.buf.write (headers.uncompHdrLen +
    (fragHeader received.packetbuf).fragOffset <<< 3)
    (received.packetbuf.read headers.packetbufHdrLen
      (received.datalen - headers.packetbufHdrLen)), ?_⟩
  unfold process
  rw [decoded]
  dsimp only
  rw [copied]
  unfold complete
  simp only [if_pos positive, counted, Nat.add_assoc]
  rfl

/-! ## Runs -/

/-- What the fragments of one packet have in common. -/
structure Key where
  sender : LinkAddr
  tag : Nat
  size : Nat
deriving DecidableEq

def Received.key (received : Received) : Key where
  sender := received.sender
  tag := (fragHeader received.packetbuf).fragTag
  size := (fragHeader received.packetbuf).fragSize

def State.key (state : State) : Key where
  sender := state.fragSender
  tag := state.reassTag
  size := state.sicslowpanLen

theorem input_dropped
    (dropped : accept node (fragHeader received.packetbuf) received
      (ready received state) = none) :
    input node received state = (ready received state, none) := by
  unfold ready at dropped ⊢
  simp only [input, dropped]

theorem input_accepted {accepted : State}
    (taken : accept node (fragHeader received.packetbuf) received
      (ready received state) = some accepted) :
    input node received state =
      process node (fragHeader received.packetbuf) received
        (lastFragment (fragHeader received.packetbuf) received
          (cancelExpired received state)) accepted := by
  unfold ready at taken
  simp only [input, taken]

/-- A state, and the frames received since its reassembly began. -/
structure Run where
  state : State
  since : List Received

/-- The frames since the reassembly began, up to the next frame.  A
reassembly begins with a frame that meets none. -/
def Run.sinceWith (run : Run) (received : Received) : List Received :=
  if (ready received run.state).processedIpInLen = 0 then [received]
  else run.since ++ [received]

def Run.receive (node : Node) (run : Run) (received : Received) : Run where
  state := (input node received run.state).1
  since := run.sinceWith received

/-- The positions supplied by the frames of one packet. -/
def suppliedBy (node : Node) (key : Key) (frames : List Received) :
    List Range :=
  (frames.filter fun received => received.key = key).filterMap
    (supplied node)

/-- Where a packet is in reassembly, the frame is one of its fragments. -/
def Taken (run : Run) (received : Received) : Prop :=
  (ready received run.state).processedIpInLen ≠ 0 →
    received.key = run.state.key

/-- The frame is a fragment of the packet in reassembly, or the first fragment
of a packet. -/
def Joins (run : Run) (received : Received) : Prop :=
  Taken run received ∧
    ((ready received run.state).processedIpInLen = 0 →
      (fragHeader received.packetbuf).firstFragment = true)

instance (run : Run) (received : Received) :
    Decidable (Joins run received) :=
  inferInstanceAs (Decidable ((_ → _) ∧ (_ → _)))

/-- A frame is proper where it arrives: its packet fits into the buffer, a
first fragment has more than the fragmentation header, and a fragment of the
packet in reassembly supplies no position behind the end of the packet and
none that another fragment supplied since the reassembly began. -/
structure Proper (node : Node) (run : Run) (received : Received) : Prop
    where
  size : (fragHeader received.packetbuf).fragSize ≤ node.uipBufsize
  nonempty : (fragHeader received.packetbuf).firstFragment = true →
    frag1HdrLen < received.datalen
  inside : Joins run received →
    (fragHeader received.packetbuf).fragSize > 0 →
    ∀ range ∈ supplied node received,
      range.start + range.count ≤ (fragHeader received.packetbuf).fragSize
  apart : (ready received run.state).processedIpInLen ≠ 0 →
    received.key = run.state.key → ∀ range ∈ supplied node received,
      ∀ other ∈ suppliedBy node received.key run.since, other.Apart range

/-- The bytes that have arrived are those of disjoint ranges. -/
structure Counted (node : Node) (run : Run) : Prop where
  size : run.state.sicslowpanLen ≤ node.uipBufsize
  packed : Range.Packed (suppliedBy node run.state.key run.since)
    run.state.sicslowpanLen
  total : ((suppliedBy node run.state.key run.since).map
    Range.count).sum = run.state.processedIpInLen
  incomplete : run.state.processedIpInLen < run.state.sicslowpanLen

/-- The frame completes a packet of which every position was supplied by a
fragment since the reassembly began. -/
def Covered (node : Node) (run : Run) (received : Received)
    (packet : List UInt8) : Prop :=
  packet.length = (fragHeader received.packetbuf).fragSize ∧
    ∀ position < packet.length,
      ∃ fragment ∈ run.sinceWith received, fragment.key = received.key ∧
        ∃ range ∈ supplied node fragment, range.Contains position

theorem ready_ongoing (ongoing : (ready received state).processedIpInLen ≠
      0) :
    ready received state = state ∧
      cancelExpired received state = state ∧
      (fragHeader received.packetbuf).isFragment = true := by
  have cancelled : ¬ (ready received state).processedIpInLen = 0 := ongoing
  unfold ready prioritizeNewPackets at *
  unfold cancelExpired at *
  split at cancelled
  · exact absurd rfl cancelled
  · next fragment =>
      rw [if_neg fragment] at *
      split at cancelled
      · exact absurd rfl cancelled
      · next same =>
          rw [if_neg same]
          split at cancelled
          · exact absurd rfl cancelled
          · next running =>
              rw [if_neg running]
              simpa using fragment

theorem suppliedBy_concat (key : Key) (frames : List Received) :
    suppliedBy node key (frames ++ [received]) =
      suppliedBy node key frames ++
        if received.key = key then (supplied node received).toList
        else [] := by
  simp only [suppliedBy, List.filter_append, List.filterMap_append]
  congr 1
  by_cases same : received.key = key
  · cases found : supplied node received <;> simp [same, found]
  · simp [same]

theorem mem_suppliedBy {key : Key} {frames : List Received}
    {range : Range} :
    range ∈ suppliedBy node key frames ↔
      ∃ fragment ∈ frames, fragment.key = key ∧
        range ∈ supplied node fragment := by
  simp [suppliedBy, and_assoc]

theorem lastFragment_supplied {range : Range}
    (found : supplied node received = some range)
    (last : lastFragment (fragHeader received.packetbuf) received state =
      true) :
    (fragHeader received.packetbuf).fragSize ≤
      state.processedIpInLen + range.count := by
  simp only [lastFragment, decide_eq_true_eq] at last
  obtain ⟨fragment, notFirst, enough⟩ := last
  rcases fragHeader_cases received.packetbuf with
    ⟨none, _⟩ | ⟨_, first, _⟩ | ⟨_, _, hdrLen⟩
  · exact absurd fragment (by simp [none])
  · exact absurd first notFirst
  · rw [supplied, headerLengths_fragn hdrLen, Option.bind_some] at found
    split at found
    · exact absurd found (by simp)
    · cases found
      dsimp only at *
      omega

theorem accept_ongoing (node : Node) (received : Received)
    (ongoing : 0 < state.processedIpInLen)
    (positive : 0 < state.sicslowpanLen) :
    accept node (fragHeader received.packetbuf) received state =
      if received.key = state.key then some state else none := by
  unfold accept
  rw [if_pos ongoing]
  by_cases same : received.key = state.key
  · have fields := same
    simp only [Received.key, State.key, Key.mk.injEq] at fields
    obtain ⟨sender, tag, size⟩ := fields
    rw [if_pos same, if_neg]
    rintro (⟨_, differs⟩ | zero)
    · simp [sender, tag, size] at differs
    · omega
  · rw [if_neg same, if_pos]
    by_cases size : (fragHeader received.packetbuf).fragSize = 0
    · exact .inr size
    · refine .inl ⟨Nat.pos_of_ne_zero size, ?_⟩
      by_contra matching
      simp only [not_or, not_not] at matching
      exact same (by
        simp [Received.key, State.key, matching])

variable {run : Run}

theorem counted_foreign (counted : Counted node run)
    (keys : received.key ≠ run.state.key)
    (ongoing : (ready received run.state).processedIpInLen ≠ 0) :
    (0 < (run.receive node received).state.processedIpInLen →
      Counted node (run.receive node received)) ∧
    ∀ packet, (input node received run.state).2 = some packet →
      Covered node run received packet := by
  obtain ⟨same, _, _⟩ := ready_ongoing ongoing
  rw [same] at ongoing
  obtain ⟨size, packed, total, incomplete⟩ := counted
  have since : run.sinceWith received = run.since ++ [received] := by
    rw [Run.sinceWith, if_neg (by rw [same]; exact ongoing)]
  have accepted := accept_ongoing node received
    (Nat.pos_of_ne_zero ongoing) (by omega)
  rw [if_neg keys] at accepted
  have step := input_dropped (same.symm ▸ accepted)
  rw [same] at step
  refine ⟨fun _ => ?_, fun packet delivered => ?_⟩
  · have unchanged : suppliedBy node run.state.key
        (run.since ++ [received]) =
        suppliedBy node run.state.key run.since := by
      rw [suppliedBy_concat, if_neg keys, List.append_nil]
    have state : (run.receive node received).state = run.state := by
      rw [Run.receive, step]
    constructor
    · rw [state]
      exact size
    · rw [state, Run.receive, since, unchanged]
      exact packed
    · rw [state, Run.receive, since, unchanged]
      exact total
    · rw [state]
      exact incomplete
  · rw [step] at delivered
    exact absurd delivered (by simp)

theorem receive_ongoing (counted : Counted node run)
    (proper : Proper node run received)
    (ongoing : (ready received run.state).processedIpInLen ≠ 0) :
    (0 < (run.receive node received).state.processedIpInLen →
      Counted node (run.receive node received)) ∧
    ∀ packet, (input node received run.state).2 = some packet →
      Covered node run received packet := by
  obtain ⟨same, running, fragment⟩ := ready_ongoing ongoing
  rw [same] at ongoing
  obtain ⟨size, packed, total, incomplete⟩ := counted
  have since : run.sinceWith received = run.since ++ [received] := by
    rw [Run.sinceWith, if_neg (by rw [same]; exact ongoing)]
  have accepted := accept_ongoing node received
    (Nat.pos_of_ne_zero ongoing) (by omega)
  by_cases keys : received.key = run.state.key
  · rw [if_pos keys, ← same] at accepted
    have step := input_accepted accepted
    rw [running, same] at step
    have fields := keys
    simp only [Received.key, State.key, Key.mk.injEq] at fields
    obtain ⟨_, _, sameSize⟩ := fields
    have positive : (fragHeader received.packetbuf).fragSize > 0 := by
      omega
    have ranges : suppliedBy node run.state.key (run.since ++ [received]) =
        suppliedBy node run.state.key run.since ++
          (supplied node received).toList := by
      rw [suppliedBy_concat, if_pos keys]
    cases found : supplied node received with
    | none =>
        obtain ⟨nothing, kept⟩ := process_dropped run.state
          (lastFragment (fragHeader received.packetbuf) received run.state)
          found
        rw [← step] at nothing kept
        rw [found, Option.toList_none, List.append_nil] at ranges
        refine ⟨fun _ => ?_, fun packet delivered => ?_⟩
        · rw [← ranges] at packed total
          rw [Run.receive, since, kept]
          exact ⟨size, packed, total, incomplete⟩
        · rw [nothing] at delivered
          exact absurd delivered (by simp)
    | some range =>
        have still : (ready received run.state).processedIpInLen ≠ 0 := by
          rw [same]
          exact ongoing
        have inside := proper.inside ⟨fun _ => keys, fun none =>
          absurd none still⟩ positive range found
        have apart := proper.apart still keys range found
        rw [keys] at apart
        rw [sameSize] at inside
        have repacked := packed.concat apart inside
        have sum : ((suppliedBy node run.state.key run.since ++
            [range]).map Range.count).sum =
            run.state.processedIpInLen + range.count := by
          rw [List.map_append, List.sum_append, total]
          simp
        have bound := repacked.sum_le
        rw [sum] at bound
        rw [found, Option.toList_some] at ranges
        obtain ⟨buf, result⟩ := process_supplied run.state
          (lastFragment (fragHeader received.packetbuf) received run.state)
          found positive (by omega)
        have processed : (if lastFragment (fragHeader received.packetbuf)
            received run.state then
              (fragHeader received.packetbuf).fragSize
            else (run.state.processedIpInLen + range.count) % 65536) =
            run.state.processedIpInLen + range.count := by
          have small := node.uipBufsize_lt
          split
          · next last =>
              have enough := lastFragment_supplied found last
              omega
          · omega
        simp only [processed] at result
        rw [← step] at result
        by_cases full : run.state.processedIpInLen + range.count =
            run.state.sicslowpanLen
        · rw [if_pos (.inr full)] at result
          refine ⟨fun pending => ?_, fun packet delivered => ?_⟩
          · rw [Run.receive, result] at pending
            exact absurd pending (Nat.lt_irrefl 0)
          · rw [result] at delivered
            cases delivered
            rw [Covered, ByteMem.length_read, sameSize, since]
            refine ⟨rfl, fun position below => ?_⟩
            obtain ⟨other, member, contains⟩ :=
              repacked.covers (sum.trans full) below
            rw [← ranges] at member
            obtain ⟨fragment, fragmentMember, key, range⟩ :=
              mem_suppliedBy.mp member
            exact ⟨fragment, fragmentMember, key.trans keys.symm, other,
              range, contains⟩
        · rw [if_neg (by omega)] at result
          refine ⟨fun _ => ?_, fun packet delivered => ?_⟩
          · rw [← ranges] at repacked sum
            rw [Run.receive, since, result]
            exact ⟨size, repacked, sum, Nat.lt_of_le_of_ne bound full⟩
          · rw [result] at delivered
            exact absurd delivered (by simp)
  · exact counted_foreign
      ⟨size, packed, total, incomplete⟩ keys (by rw [same]; exact ongoing)

theorem uncompressHdrHc06_headerless {contexts : List AddrContext}
    {sender receiver : LinkAddr} {frame buf : ByteMem}
    {datalen packetbufHdrLen ipLen : Nat}
    (none : (uncompressHdrHc06 contexts sender receiver frame datalen
      packetbufHdrLen ipLen buf).uncompHdrLen = 0) :
    (uncompressHdrHc06 contexts sender receiver frame datalen
      packetbufHdrLen ipLen buf).packetbufHdrLen = packetbufHdrLen := by
  unfold uncompressHdrHc06 at *
  dsimp only at *
  split
  · rfl
  · next source found =>
      rw [found] at none
      dsimp only at none
      split
      · rfl
      · next destination found' =>
          rw [found'] at none
          exact absurd none (by simp [uncompressTail, uipIphLen])

theorem supplied_first {range : Range}
    (first : (fragHeader received.packetbuf).firstFragment = true)
    (nonempty : frag1HdrLen < received.datalen)
    (found : supplied node received = some range) :
    range.start = 0 ∧ 0 < range.count := by
  rcases fragHeader_cases received.packetbuf with
    ⟨_, _, _, other⟩ | ⟨_, _, hdrLen, offset⟩ | ⟨_, other, _⟩
  · exact absurd first (by simp [other])
  · rw [supplied_eq node received fun _ => 0] at found
    obtain ⟨headers, decoded, found⟩ := Option.bind_eq_some_iff.mp found
    split at found
    · exact absurd found (by simp)
    · next long =>
        cases found
        refine ⟨by simp [offset], ?_⟩
        have headerless : headers.uncompHdrLen = 0 →
            headers.packetbufHdrLen = frag1HdrLen := by
          unfold uncompressHeaders at decoded
          dsimp only at decoded
          rw [hdrLen, if_neg (by decide)] at decoded
          split at decoded
          · cases decoded
            exact uncompressHdrHc06_headerless
          · split at decoded
            · cases decoded
              intro none
              exact absurd none (Nat.succ_ne_zero 39)
            · exact absurd decoded (by simp)
        dsimp only
        by_cases none : headers.uncompHdrLen = 0
        · rw [headerless none]
          omega
        · omega
  · exact absurd first (by simp [other])

theorem process_unfragmented (node : Node) (last : Bool)
    (idle : state.processedIpInLen = 0)
    (whole : (fragHeader received.packetbuf).fragSize = 0) :
    (process node (fragHeader received.packetbuf) received last
      state).1.processedIpInLen = 0 := by
  unfold process
  split
  · exact idle
  · dsimp only
    split
    · exact idle
    · have notPositive : ¬ (fragHeader received.packetbuf).fragSize > 0 :=
        by omega
      simp only [complete, if_neg notPositive, idle, true_or, if_true]
      rfl

theorem accept_first {state accepted : State}
    (none : state.processedIpInLen = 0)
    (positive : (fragHeader received.packetbuf).fragSize > 0)
    (fits : (fragHeader received.packetbuf).fragSize ≤ node.uipBufsize)
    (taken : accept node (fragHeader received.packetbuf) received state =
      some accepted) :
    (fragHeader received.packetbuf).firstFragment = true := by
  by_contra notFirst
  have fragment : (fragHeader received.packetbuf).isFragment = true := by
    rcases fragHeader_cases received.packetbuf with
      ⟨_, size, _⟩ | ⟨fragment, _⟩ | ⟨fragment, _⟩
    · exact absurd size (Nat.ne_of_gt positive)
    · exact fragment
    · exact fragment
  have dropped : accept node (fragHeader received.packetbuf) received state =
      Option.none :=
    (if_neg (by omega)).trans ((if_pos ⟨positive, fits⟩).trans
      (if_pos ⟨fragment, notFirst⟩))
  rw [dropped] at taken
  cases taken

/-- A frame that meets no reassembly completes its own packet, begins a
reassembly or is ignored. -/
theorem receive_restart (proper : Proper node run received)
    (restart : (ready received run.state).processedIpInLen = 0) :
    (0 < (run.receive node received).state.processedIpInLen →
      Counted node (run.receive node received)) ∧
    ∀ packet, (input node received run.state).2 = some packet →
      (fragHeader received.packetbuf).fragSize > 0 →
        Covered node run received packet := by
  have since : run.sinceWith received = [received] := if_pos restart
  have small := node.uipBufsize_lt
  by_cases whole : (fragHeader received.packetbuf).fragSize = 0
  · have taken : accept node (fragHeader received.packetbuf) received
        (ready received run.state) = some (ready received run.state) := by
      simp [accept, restart, whole]
    have stays := process_unfragmented node
      (lastFragment (fragHeader received.packetbuf) received
        (cancelExpired received run.state)) restart whole
    rw [← input_accepted taken] at stays
    refine ⟨fun pending => ?_, fun _ _ positive => ?_⟩
    · exact absurd pending (by simp [Run.receive, stays])
    · exact absurd whole (Nat.ne_of_gt positive)
  have positive : (fragHeader received.packetbuf).fragSize > 0 :=
    Nat.pos_of_ne_zero whole
  have begins : ¬ (ready received run.state).processedIpInLen > 0 := by
    omega
  have limits : (fragHeader received.packetbuf).fragSize > 0 ∧
      (fragHeader received.packetbuf).fragSize ≤ node.uipBufsize :=
    ⟨positive, proper.size⟩
  by_cases first : (fragHeader received.packetbuf).firstFragment = true
  · have taken : accept node (fragHeader received.packetbuf) received
        (ready received run.state) = some _ :=
      (if_neg begins).trans ((if_pos limits).trans
        (if_neg (fun further => further.2 first)))
    have notLast : lastFragment (fragHeader received.packetbuf) received
        (cancelExpired received run.state) = false := by
      simp [lastFragment, first]
    have step := input_accepted taken
    rw [notLast] at step
    cases found : supplied node received with
    | none =>
        obtain ⟨nothing, kept⟩ := process_dropped _ false found
        rw [← step] at nothing kept
        refine ⟨fun pending => ?_, fun packet delivered => ?_⟩
        · rw [Run.receive, kept] at pending
          exact absurd pending begins
        · rw [nothing] at delivered
          exact absurd delivered (by simp)
    | some range =>
        have inside := proper.inside ⟨fun ongoing => absurd restart ongoing,
          fun _ => first⟩ positive range found
        obtain ⟨start, nonempty⟩ :=
          supplied_first first (proper.nonempty first) found
        have ranges : suppliedBy node received.key [received] =
            [range] := by
          simp [suppliedBy, found]
        have packed : Range.Packed [range]
            (fragHeader received.packetbuf).fragSize :=
          ⟨List.pairwise_singleton _ _, by simpa using inside⟩
        have sum : ([range].map Range.count).sum = range.count := by
          simp
        obtain ⟨buf, result⟩ := process_supplied _ false found positive
          (Nat.le_trans inside proper.size)
        rw [← step] at result
        have processed : ((ready received run.state).processedIpInLen +
            range.count) % 65536 = range.count := by
          omega
        simp only [Bool.false_eq_true, if_false, processed] at result
        by_cases full : range.count =
            (fragHeader received.packetbuf).fragSize
        · rw [if_pos (.inr full)] at result
          refine ⟨fun pending => ?_, fun packet delivered _ => ?_⟩
          · rw [Run.receive, result] at pending
            exact absurd pending (Nat.lt_irrefl 0)
          · rw [result] at delivered
            cases delivered
            rw [Covered, ByteMem.length_read, since]
            refine ⟨rfl, fun position below => ?_⟩
            obtain ⟨other, member, contains⟩ :=
              packed.covers (sum.trans full) below
            rw [← ranges] at member
            obtain ⟨fragment, fragmentMember, key, range⟩ :=
              mem_suppliedBy.mp member
            exact ⟨fragment, fragmentMember, key, other, range, contains⟩
        · have incomplete : range.count <
              (fragHeader received.packetbuf).fragSize := by
            omega
          rw [if_neg (by omega)] at result
          refine ⟨fun _ => ?_, fun packet delivered _ => ?_⟩
          · rw [← ranges] at packed sum
            rw [Run.receive, since, result]
            exact ⟨proper.size, packed, sum, incomplete⟩
          · rw [result] at delivered
            exact absurd delivered (by simp)
  · have dropped : accept node (fragHeader received.packetbuf) received
        (ready received run.state) = none := by
      cases taken : accept node (fragHeader received.packetbuf) received
          (ready received run.state) with
      | none => rfl
      | some accepted =>
          exact absurd (accept_first restart positive proper.size taken)
            first
    have step := input_dropped dropped
    refine ⟨fun pending => ?_, fun packet delivered => ?_⟩
    · rw [Run.receive, step] at pending
      exact absurd pending begins
    · rw [step] at delivered
      exact absurd delivered (by simp)

/-- The runs of a node that reassembles nothing at first, in which every
frame is proper. -/
inductive ProperRun (node : Node) : Run → Prop
  | idle {state : State} : state.processedIpInLen = 0 →
      ProperRun node { state := state, since := [] }
  | receive {run : Run} {received : Received} :
      ProperRun node run → Proper node run received →
      ProperRun node (run.receive node received)

theorem ProperRun.counted (proper : ProperRun node run)
    (ongoing : 0 < run.state.processedIpInLen) : Counted node run := by
  induction proper with
  | idle idle =>
      exact absurd idle (Nat.ne_of_gt ongoing)
  | @receive run received _ frame inductionHypothesis =>
      by_cases restart :
          (ready received run.state).processedIpInLen = 0
      · exact (receive_restart frame restart).1 ongoing
      · have same := (ready_ongoing restart).1
        rw [same] at restart
        exact (receive_ongoing
          (inductionHypothesis (Nat.pos_of_ne_zero restart)) frame
          (by rw [same]; exact restart)).1 ongoing

/-- A packet that is handed over after a fragment has the size of the
fragment's datagram, and each of its positions was supplied by a fragment of
that datagram since the reassembly began. -/
theorem input_covered {run : Run} {packet : List UInt8}
    (properRun : ProperRun node run) (proper : Proper node run received)
    (delivered : (input node received run.state).2 = some packet)
    (fragment : (fragHeader received.packetbuf).fragSize > 0) :
    Covered node run received packet := by
  by_cases restart : (ready received run.state).processedIpInLen = 0
  · exact (receive_restart proper restart).2 packet delivered fragment
  · have same := (ready_ongoing restart).1
    have ongoing := restart
    rw [same] at ongoing
    exact (receive_ongoing
      (properRun.counted (Nat.pos_of_ne_zero ongoing)) proper restart).2
        packet delivered

theorem not_covered {packet : List UInt8} (position : Nat)
    (below : position < packet.length)
    (missing : ∀ fragment ∈ run.sinceWith received,
      ∀ range ∈ supplied node fragment, ¬ range.Contains position) :
    ¬ Covered node run received packet := by
  rintro ⟨_, covered⟩
  obtain ⟨fragment, member, _, range, found, contains⟩ :=
    covered position below
  exact missing fragment member range found contains

/-- The run of a list of frames from the idle state. -/
def sampleRun (frames : List Received) : Run :=
  frames.foldl (fun run received => run.receive sampleNode received)
    { state := idleState, since := [] }

/-- The first fragment of a packet of 56 bytes, with 40 of them. -/
def sampleFirst : Received :=
  sampleFrame (frag1 56 7 (dispatchIpv6 :: List.replicate 40 0x60) []) 0

def sampleMiddle : Received :=
  sampleFrame (fragn 56 7 5 (List.replicate 8 1)) 1

def sampleLast : Received :=
  sampleFrame (fragn 56 7 6 (List.replicate 8 2)) 2

/-- Sixteen bytes from 48 on, of which eight are behind the end. -/
def sampleTrailing : Received :=
  sampleFrame (fragn 56 7 6 (List.replicate 16 3)) 3

theorem input_sample_covered :
    Covered sampleNode (sampleRun [sampleFirst, sampleMiddle]) sampleLast
      (List.replicate 40 0x60 ++ List.replicate 8 1 ++
        List.replicate 8 2) := by
  have first : Proper sampleNode { state := idleState, since := [] }
      sampleFirst :=
    ⟨by decide, by decide, by decide, by decide⟩
  have middle : Proper sampleNode (sampleRun [sampleFirst])
      sampleMiddle :=
    ⟨by decide, by decide, by decide, by decide⟩
  have last : Proper sampleNode (sampleRun [sampleFirst, sampleMiddle])
      sampleLast :=
    ⟨by decide, by decide, by decide, by decide⟩
  exact input_covered (.receive (.receive (.idle rfl) first) middle) last
    (by decide) (by decide)

/-- A fragment that arrives twice is counted twice, and bytes behind the end
are counted; each completes a packet with positions that no fragment
supplied. -/
theorem input_sample_not_covered :
    (∃ packet,
      (input sampleNode sampleMiddle
        (sampleRun [sampleFirst, sampleMiddle]).state).2 = some packet ∧
      ¬ Covered sampleNode (sampleRun [sampleFirst, sampleMiddle])
        sampleMiddle packet) ∧
    ∃ packet,
      (input sampleNode sampleTrailing
        (sampleRun [sampleFirst]).state).2 = some packet ∧
      ¬ Covered sampleNode (sampleRun [sampleFirst]) sampleTrailing
        packet := by
  constructor
  · exact ⟨List.replicate 40 0x60 ++ List.replicate 8 1 ++
      List.replicate 8 0, by decide,
      not_covered 50 (by decide) (by decide)⟩
  · exact ⟨List.replicate 40 0x60 ++ List.replicate 8 0 ++
      List.replicate 8 3, by decide,
      not_covered 40 (by decide) (by decide)⟩

end Contiki.Sicslowpan
