import Mathlib.Data.List.Basic
import Mathlib.Data.List.Chain
import Mathlib.Tactic.Common

/-!
# Protosockets

`net/ip/psock.c`: the functions that read from the segments of a connection,
and `psock_send`.  An event is one call of the application by uIP, with the
segment or the flags that it finds there.
-/

namespace Contiki.Net.Protosocket

/-- `state` -/
inductive PsockState where
  | none
  | acked
  | read
  | blockedNewdata
  | dataSent
  deriving DecidableEq

/-! ## Reading -/

/-- The fields of `struct psock` for reading, and its `psock_buf`.  `unread`
are the `readlen` bytes from `readptr` on, and `stored` those between `bufptr`
and `buf.ptr`. -/
structure Psock where
  bufsize : Nat
  state : PsockState
  unread : List UInt8
  stored : List UInt8
  left : Nat

/-- `BUF_NOT_FULL` and `BUF_NOT_FOUND`, `BUF_FULL` and `BUF_FOUND`. -/
inductive BufResult where
  | notDone
  | full
  | found
  deriving DecidableEq

/-- A call of `psock_readto` or `psock_readbuf_len`. -/
inductive ReadOp where
  | readto (c : UInt8)
  | readbufLen (len : Nat)
  deriving DecidableEq

/-- `PSOCK_READBUF` -/
def ReadOp.readbuf : ReadOp := .readbufLen 1

abbrev Segment := Option (List UInt8)

/-- `psock_init` -/
def psockInit (bufsize : Nat) : Psock where
  bufsize := bufsize
  state := .none
  unread := []
  stored := []
  left := bufsize % 65536

namespace Psock

/-- `buf_setup` for `bufptr` and `bufsize`; its argument is a `uint16_t`. -/
def bufSetup (s : Psock) : Psock :=
  { s with stored := [], left := s.bufsize % 65536 }

/-- `psock_datalen` -/
def datalen (s : Psock) : Nat := (s.bufsize - s.left) % 65536

/-- These bytes are copied from `readptr` to the buffer. -/
def copied (s : Psock) (bytes : List UInt8) : Psock :=
  { s with
    unread := s.unread.drop bytes.length
    stored := s.stored ++ bytes
    left := s.left - bytes.length }

/-- `psock_newdata` -/
def newdata (s : Psock) (segment : Segment) : Bool × Psock :=
  if 0 < s.unread.length then (true, s)
  else if s.state = .read then
    (false, { s with state := .blockedNewdata })
  else (segment.isSome, s)

/-- The test of `readlen` at the head of the loops, with `PT_WAIT_UNTIL`. -/
def takeSegment (s : Psock) (segment : Segment) : Bool × Psock :=
  if s.unread.length = 0 then
    match s.newdata segment with
    | (false, s) => (false, s)
    | (true, s) =>
        (true, { s with state := .read, unread := segment.getD [] })
  else (true, s)

end Psock

/-- `buf_bufdata`: the bytes that it copies. -/
def bufBufdata (data : List UInt8) (left : Nat) :
    List UInt8 × BufResult :=
  if data.length < left then (data, .notDone)
  else if data.length = left then (data, .full)
  else (data.take left, .full)

/-- `buf_bufto`: the bytes that it copies. -/
def bufBufto (endmarker : UInt8) :
    List UInt8 → Nat → List UInt8 × BufResult
  -- also when the buffer is full at the same time
  | [], _ => ([], .notDone)
  | _ :: _, 0 => ([], .full)
  | c :: rest, left + 1 =>
      if c = endmarker then ([c], .found)
      else
        let (bytes, result) := bufBufto endmarker rest left
        (c :: bytes, result)

namespace ReadOp

/-- The call of a buffering function in the loop. -/
def fill (op : ReadOp) (data : List UInt8) (left : Nat) :
    List UInt8 × BufResult :=
  match op with
  | .readto c => bufBufto c data left
  | .readbufLen _ => bufBufdata data left

def repeats (op : ReadOp) (result : BufResult) (datalen : Nat) : Bool :=
  match op with
  | .readto _ => result = .notDone
  | .readbufLen len => result = .notDone ∧ datalen < len

/-- The loop of `psock_readto` and `psock_readbuf_len` in an event; false if
it waits.  It is entered with a number of iterations. -/
def loop (op : ReadOp) (segment : Segment) : Nat → Psock → Bool × Psock
  | 0, s => (false, s)
  | more + 1, s =>
      match s.takeSegment segment with
      | (false, s) => (false, s)
      | (true, s) =>
          let (bytes, result) := op.fill s.unread s.left
          let s := s.copied bytes
          if op.repeats result s.datalen then loop op segment more s
          else (true, s)

end ReadOp

/-- A protosocket and the reads of its application: those that have ended,
with their bytes, and those still to be made.  `waits` is the position of
`psockpt`. -/
structure Reader where
  psock : Psock
  waits : Bool
  ops : List ReadOp
  delivered : List (ReadOp × List UInt8)

/-- The application runs on until one of the reads waits. -/
def serve (segment : Segment) (s : Psock) (waits : Bool)
    (delivered : List (ReadOp × List UInt8)) : List ReadOp → Reader
  | [] => { psock := s, waits := waits, ops := [], delivered := delivered }
  | op :: rest =>
      let s := if waits then s else s.bufSetup
      match op.loop segment 3 s with
      | (false, s) =>
          { psock := s, waits := true, ops := op :: rest
            delivered := delivered }
      | (true, s) =>
          if s.datalen = 0 then
            { psock := { s with state := .none }, waits := false
              ops := op :: rest, delivered := delivered }
          else serve segment s false (delivered ++ [(op, s.stored)]) rest

namespace Reader

def start (bufsize : Nat) (ops : List ReadOp) : Reader where
  psock := psockInit bufsize
  waits := false
  ops := ops
  delivered := []

def event (reader : Reader) (segment : Segment) : Reader :=
  serve segment reader.psock reader.waits reader.delivered reader.ops

def run (reader : Reader) (segments : List Segment) : Reader :=
  segments.foldl event reader

end Reader

/-! ## Sending -/

/-- The flags and the `mss` of an event. -/
structure SendEvent where
  acked : Bool
  rexmit : Bool
  mss : Nat

def SendEvent.onlyAcks (event : SendEvent) : Bool :=
  event.acked && !event.rexmit

/-- Bytes that are handed to `uip_send`, for the first time or again. -/
structure Transmission where
  bytes : List UInt8
  first : Bool
  deriving DecidableEq

/-- The position of `psockpt` in `psock_send`. -/
inductive SendPhase where
  | start
  | waits
  | ended
  deriving DecidableEq

/-- The fields of `struct psock` for sending.  `outstanding` is `len` of the
connection, the number of bytes that have been sent and not acknowledged. -/
structure Sender where
  data : List UInt8
  sendptr : Nat
  sendlen : Nat
  state : PsockState
  phase : SendPhase
  outstanding : Nat
  log : List Transmission

namespace Sender

/-- The number of bytes that are sent or acknowledged at once. -/
def amount (s : Sender) (event : SendEvent) : Nat :=
  if s.sendlen > event.mss then event.mss else s.sendlen

/-- `uip_send` for this number of bytes from `sendptr` on. -/
def uipSend (s : Sender) (amount : Nat) : Sender :=
  let first : Bool := s.state ≠ .dataSent
  { s with
    outstanding := if first then amount else s.outstanding
    log := s.log ++
      [{ bytes := (s.data.drop s.sendptr).take amount, first := first }] }

/-- `data_is_sent_and_acked` -/
def dataIsSentAndAcked (s : Sender) (event : SendEvent) : Bool × Sender :=
  if s.state ≠ .dataSent ∨ event.rexmit then
    (false, { s.uipSend (s.amount event) with state := .dataSent })
  else if s.state = .dataSent ∧ event.acked then
    (true, { s with
      sendptr := s.sendptr + s.amount event
      sendlen := s.sendlen - s.amount event
      state := .acked })
  else (false, s)

/-- The loop of `psock_send`, entered with a number of iterations. -/
def loop (event : SendEvent) : Nat → Sender → Sender
  | 0, s => s
  | more + 1, s =>
      if 0 < s.sendlen then
        match s.dataIsSentAndAcked event with
        | (false, s) => { s with phase := .waits }
        | (true, s) => loop event more s
      else { s with state := .none, phase := .ended }

/-- `psock_send` in an event. -/
def event (s : Sender) (event : SendEvent) : Sender :=
  match s.phase with
  | .start =>
      if s.data.length = 0 then { s with phase := .ended }
      else
        { s with
          sendptr := 0
          sendlen := s.data.length % 65536
          state := .none }.loop event 2
  | .waits => s.loop event 2
  | .ended => s

/-- `psock_send` has not been called. -/
def start (data : List UInt8) : Sender where
  data := data
  sendptr := 0
  sendlen := 0
  state := .none
  phase := .start
  outstanding := 0
  log := []

def run (s : Sender) (events : List SendEvent) : Sender :=
  events.foldl event s

end Sender

/-! ## What a read leaves -/

variable {reader : Reader} {s : Sender} {op : ReadOp} {segment : Segment}
  {size : Nat}

namespace ReadOp

/-- The bytes of a read that has ended. -/
def Ended (op : ReadOp) (size : Nat) (bytes : List UInt8) : Prop :=
  match op with
  | .readto c =>
      (∃ before, bytes = before ++ [c] ∧ c ∉ before ∧
        bytes.length ≤ size) ∨ c ∉ bytes ∧ bytes.length = size
  | .readbufLen len =>
      bytes ≠ [] ∧ bytes.length ≤ size ∧
        (bytes.length = size ∨ len ≤ bytes.length)

/-- The bytes that are stored while a read waits.  The buffer of `readto` may
be full. -/
def Open (op : ReadOp) (size : Nat) (bytes : List UInt8) : Prop :=
  match op with
  | .readto c => c ∉ bytes ∧ bytes.length ≤ size
  | .readbufLen len =>
      bytes.length < size ∧ (bytes.length < len ∨ bytes = [])

/-- The buffer of `readto` is full. -/
def IsFull (op : ReadOp) (size : Nat) (bytes : List UInt8) : Prop :=
  match op with
  | .readto _ => bytes.length = size
  | .readbufLen _ => False

theorem Open.not_ended {bytes : List UInt8}
    (opened : op.Open size bytes) (room : ¬ op.IsFull size bytes) :
    ¬ op.Ended size bytes := by
  cases op with
  | readto c =>
      rintro (⟨before, rfl, _⟩ | ⟨_, full⟩)
      · exact opened.1 (by simp)
      · exact room full
  | readbufLen len =>
      rintro ⟨some_byte, _, enough⟩
      have short := opened.1
      cases opened.2 with
      | inl few => omega
      | inr empty => exact some_byte empty

theorem open_nil (positive : 0 < size) : op.Open size [] := by
  cases op with
  | readto c => exact ⟨List.not_mem_nil, Nat.zero_le _⟩
  | readbufLen len => exact ⟨positive, Or.inr rfl⟩

end ReadOp

/-- What `buf_bufto` copies: no end marker, up to it, or what fits. -/
theorem bufBufto_spec (c : UInt8) (data : List UInt8) (left : Nat) :
    (bufBufto c data left = (data, .notDone) ∧ c ∉ data ∧
      data.length ≤ left) ∨
    (∃ before rest, data = before ++ c :: rest ∧ c ∉ before ∧
      before.length < left ∧
      bufBufto c data left = (before ++ [c], .found)) ∨
    (bufBufto c data left = (data.take left, .full) ∧
      c ∉ data.take left ∧ left < data.length) := by
  induction data generalizing left with
  | nil => exact Or.inl ⟨rfl, List.not_mem_nil, Nat.zero_le _⟩
  | cons first rest inductionHypothesis =>
      cases left with
      | zero =>
          exact Or.inr (Or.inr ⟨rfl, List.not_mem_nil, Nat.succ_pos _⟩)
      | succ left =>
          unfold bufBufto
          by_cases isMarker : first = c
          · refine Or.inr (Or.inl ⟨[], rest, ?_, List.not_mem_nil,
              Nat.succ_pos _, ?_⟩)
            · rw [isMarker, List.nil_append]
            · rw [if_pos isMarker, isMarker, List.nil_append]
          · rw [if_neg isMarker]
            have other : c ≠ first := Ne.symm isMarker
            obtain ⟨copies, missing, fits⟩ |
              ⟨before, behind, split, missing, fits, copies⟩ |
              ⟨copies, missing, more⟩ := inductionHypothesis left
            · refine Or.inl ⟨?_, ?_, Nat.succ_le_succ fits⟩
              · rw [copies]
              · simp [other, missing]
            · refine Or.inr (Or.inl ⟨first :: before, behind, ?_, ?_,
                Nat.succ_lt_succ fits, ?_⟩)
              · rw [split, List.cons_append]
              · simp [other, missing]
              · rw [copies, List.cons_append]
            · refine Or.inr (Or.inr ⟨?_, ?_, Nat.succ_lt_succ more⟩)
              · rw [copies, List.take_succ_cons]
              · simp [other, missing]

theorem bufBufdata_spec (data : List UInt8) (left : Nat) :
    (bufBufdata data left = (data, .notDone) ∧ data.length < left) ∨
    (bufBufdata data left = (data.take left, .full) ∧
      left ≤ data.length) := by
  unfold bufBufdata
  split
  · next less => exact Or.inl ⟨rfl, less⟩
  · split
    · next exactly =>
        refine Or.inr ⟨?_, exactly.ge⟩
        rw [← exactly, List.take_length]
    · exact Or.inr ⟨rfl, by omega⟩

/-- In an invocation a segment ends where it fills the buffer of a `readto`
that has found no end marker.  `room` is what is left of the buffer of the
first read. -/
def FillsAtEnd (size : Nat) : List ReadOp → Nat → List UInt8 → Prop
  | [], _, _ => False
  | .readto c :: rest, room, data =>
      if c ∈ data.take room then
        FillsAtEnd size rest size (data.drop (data.idxOf c + 1))
      else if room < data.length then
        FillsAtEnd size rest size (data.drop room)
      else data.length = room
  | .readbufLen _ :: rest, room, data =>
      room < data.length ∧ FillsAtEnd size rest size (data.drop room)

instance FillsAtEnd.decidable (size : Nat) :
    ∀ ops room data, Decidable (FillsAtEnd size ops room data)
  | [], _, _ => instDecidableFalse
  | .readto c :: rest, room, data =>
      have := decidable size rest size (data.drop (data.idxOf c + 1))
      have := decidable size rest size (data.drop room)
      inferInstanceAs (Decidable (if c ∈ data.take room then
          FillsAtEnd size rest size (data.drop (data.idxOf c + 1))
        else if room < data.length then
          FillsAtEnd size rest size (data.drop room)
        else data.length = room))
  | .readbufLen _ :: rest, room, data =>
      have := decidable size rest size (data.drop room)
      inferInstanceAs (Decidable (room < data.length ∧
        FillsAtEnd size rest size (data.drop room)))

theorem fillsAtEnd_readto (size : Nat) (c : UInt8) (rest : List ReadOp)
    (room : Nat) (data : List UInt8) :
    FillsAtEnd size (.readto c :: rest) room data ↔
      if c ∈ data.take room then
        FillsAtEnd size rest size (data.drop (data.idxOf c + 1))
      else if room < data.length then
        FillsAtEnd size rest size (data.drop room)
      else data.length = room :=
  Iff.rfl

theorem fillsAtEnd_readbufLen (size len : Nat) (rest : List ReadOp)
    (room : Nat) (data : List UInt8) :
    FillsAtEnd size (.readbufLen len :: rest) room data ↔
      room < data.length ∧ FillsAtEnd size rest size (data.drop room) :=
  Iff.rfl

theorem not_fillsAtEnd_nil {size : Nat} (positive : 0 < size) :
    ∀ ops : List ReadOp, ¬ FillsAtEnd size ops size []
  | [] => id
  | .readto c :: rest => by
      unfold FillsAtEnd
      rw [if_neg (by simp), if_neg (by simp)]
      exact positive.ne
  | .readbufLen len :: rest => fun fills => by
      simp [FillsAtEnd] at fills

/-! ## One read in an event -/

/-- The buffer has this size, and `left` is what is left of it. -/
structure Psock.Filling (s : Psock) (size : Nat) : Prop where
  bufsize : s.bufsize = size
  small : size < 65536
  room : s.stored.length + s.left = size

theorem Psock.Filling.datalen_eq {s : Psock} {size : Nat}
    (filling : s.Filling size) : s.datalen = s.stored.length := by
  have room := filling.room
  have small := filling.small
  unfold Psock.datalen
  rw [filling.bufsize]
  omega

theorem Psock.Filling.bufSetup {s : Psock} {size : Nat}
    (filling : s.Filling size) : s.bufSetup.Filling size := by
  refine ⟨filling.bufsize, filling.small, ?_⟩
  unfold Psock.bufSetup
  rw [filling.bufsize, Nat.mod_eq_of_lt filling.small]
  exact Nat.zero_add size

theorem Psock.Filling.copied {s : Psock} {size : Nat}
    (filling : s.Filling size) {bytes : List UInt8}
    (fits : bytes.length ≤ s.left) : (s.copied bytes).Filling size := by
  have room := filling.room
  refine ⟨filling.bufsize, filling.small, ?_⟩
  unfold Psock.copied
  simp only [List.length_append]
  omega

theorem Psock.Filling.withState {s : Psock} {size : Nat}
    (filling : s.Filling size) (state : PsockState)
    (unread : List UInt8) :
    ({ s with state := state, unread := unread } : Psock).Filling size :=
  ⟨filling.bufsize, filling.small, filling.room⟩

/-- The read has taken all of `data` and waits for the next segment. -/
structure Waits (before : Psock) (op : ReadOp) (size : Nat)
    (data : List UInt8) (after : Psock) : Prop where
  unread : after.unread = []
  state : after.state ≠ .read
  stored : after.stored = before.stored ++ data
  filling : after.Filling size
  opened : op.Open size after.stored

/-- The read has ended, with the first bytes of `data`. -/
structure Ends (before : Psock) (op : ReadOp) (size : Nat)
    (data : List UInt8) (after : Psock) : Prop where
  split : before.stored ++ data = after.stored ++ after.unread
  state : after.state = .read
  filling : after.Filling size
  ended : op.Ended size after.stored

theorem ReadOp.loop_blocked {s : Psock}
    (more : Nat) (unread : s.unread = []) (state : s.state = .read) :
    op.loop segment (more + 1) s =
      (false, { s with state := .blockedNewdata }) := by
  simp [ReadOp.loop, Psock.takeSegment, Psock.newdata, unread, state]

theorem ReadOp.loop_idle {s : Psock} (more : Nat)
    (unread : s.unread = []) (state : s.state ≠ .read) :
    op.loop none (more + 1) s = (false, s) := by
  simp [ReadOp.loop, Psock.takeSegment, Psock.newdata, unread, state]

/-- One iteration behind the test of `readlen`. -/
def ReadOp.pass (op : ReadOp) (segment : Segment) (more : Nat)
    (s : Psock) : Bool × Psock :=
  let (bytes, result) := op.fill s.unread s.left
  let s := s.copied bytes
  if op.repeats result s.datalen then op.loop segment more s else (true, s)

theorem ReadOp.loop_unread {s : Psock} (more : Nat) (unread : s.unread ≠ []) :
    op.loop segment (more + 1) s = op.pass segment more s := by
  simp [ReadOp.loop, ReadOp.pass, Psock.takeSegment, unread]

theorem ReadOp.loop_newdata {data : List UInt8} {s : Psock}
    (more : Nat) (unread : s.unread = []) (state : s.state ≠ .read) :
    op.loop (some data) (more + 1) s = op.pass (some data) more
      { s with state := .read, unread := data } := by
  simp [ReadOp.loop, ReadOp.pass, Psock.takeSegment, Psock.newdata, unread,
    state]

theorem Psock.copied_all (s : Psock) :
    (s.copied s.unread).unread = [] :=
  List.drop_length

theorem ReadOp.pass_waits (op : ReadOp) (segment : Segment) (more : Nat)
    {s : Psock} {size : Nat} (filling : s.Filling size)
    (state : s.state = .read)
    (copies : op.fill s.unread s.left = (s.unread, .notDone))
    (fits : s.unread.length ≤ s.left)
    (again : op.repeats .notDone (s.copied s.unread).datalen = true)
    (opened : op.Open size (s.stored ++ s.unread)) :
    ∃ after, op.pass segment (more + 1) s = (false, after) ∧
      Waits s op size s.unread after := by
  refine ⟨{ s.copied s.unread with state := .blockedNewdata }, ?_, ?_⟩
  · unfold ReadOp.pass
    rw [copies]
    simp only [again, if_true]
    exact ReadOp.loop_blocked more s.copied_all state
  · exact ⟨s.copied_all, by simp, rfl,
      (filling.copied fits).withState _ _, opened⟩

theorem ReadOp.pass_ends (op : ReadOp) (segment : Segment) (more : Nat)
    {s : Psock} {size : Nat} {bytes : List UInt8} {result : BufResult}
    (filling : s.Filling size) (state : s.state = .read)
    (copies : op.fill s.unread s.left = (bytes, result))
    (first : bytes <+: s.unread) (fits : bytes.length ≤ s.left)
    (once : op.repeats result (s.copied bytes).datalen = false)
    (ended : op.Ended size (s.stored ++ bytes)) :
    op.pass segment more s = (true, s.copied bytes) ∧
      Ends s op size s.unread (s.copied bytes) := by
  constructor
  · unfold ReadOp.pass
    rw [copies]
    simp [once]
  · refine ⟨?_, state, filling.copied fits, ended⟩
    unfold Psock.copied
    simp only
    rw [List.append_assoc, List.prefix_iff_eq_append.1 first]

theorem ReadOp.Ended.some_byte {bytes : List UInt8} (positive : 0 < size)
    (ended : op.Ended size bytes) : bytes ≠ [] := by
  cases op with
  | readto c =>
      rintro rfl
      rcases ended with ⟨before, empty, _⟩ | ⟨_, full⟩
      · simp at empty
      · exact positive.ne full
  | readbufLen len => exact ended.1

/-- A read that has bytes waits for more or ends. -/
inductive Passes (op : ReadOp) (segment : Segment) (more : Nat)
    (s : Psock) (size : Nat) (rest : List ReadOp) : Prop where
  | waits (after : Psock)
      (result : op.pass segment (more + 1) s = (false, after))
      (waits : Waits s op size s.unread after)
      (full : op.IsFull size after.stored ↔
        FillsAtEnd size (op :: rest) s.left s.unread)
  | ends (after : Psock)
      (result : op.pass segment (more + 1) s = (true, after))
      (ends : Ends s op size s.unread after)
      (full : FillsAtEnd size rest size after.unread ↔
        FillsAtEnd size (op :: rest) s.left s.unread)

theorem readto_passes {c : UInt8} {segment : Segment} {s : Psock}
    {size : Nat} (more : Nat) (rest : List ReadOp)
    (filling : s.Filling size) (state : s.state = .read)
    (opened : (ReadOp.readto c).Open size s.stored) :
    Passes (.readto c) segment more s size rest := by
  have room := filling.room
  obtain ⟨copies, missing, fits⟩ | ⟨before, behind, split, missing, fits,
    copies⟩ | ⟨copies, missing, longer⟩ := bufBufto_spec c s.unread s.left
  · obtain ⟨after, result, waits⟩ := (ReadOp.readto c).pass_waits segment
      more filling state copies fits rfl
      ⟨by simp [opened.1, missing], by rw [List.length_append]; omega⟩
    refine .waits after result waits ?_
    have absent : c ∉ s.unread.take s.left := by
      rw [List.take_of_length_le fits]
      exact missing
    rw [fillsAtEnd_readto, if_neg absent, if_neg (by omega)]
    unfold ReadOp.IsFull
    simp only [waits.stored, List.length_append]
    omega
  · have length : (before ++ [c]).length = before.length + 1 := by simp
    obtain ⟨result, ends⟩ := (ReadOp.readto c).pass_ends segment (more + 1)
      filling state copies (by rw [split]; exact ⟨behind, by simp⟩)
      (by rw [length]; omega) rfl
      (Or.inl ⟨s.stored ++ before, by simp, by simp [opened.1, missing],
        by simp only [List.length_append, length]; omega⟩)
    refine .ends _ result ends ?_
    have index : s.unread.idxOf c = before.length := by
      rw [split, List.idxOf_append_of_notMem missing, List.idxOf_cons_self,
        Nat.add_zero]
    have present : c ∈ s.unread.take s.left := by
      rw [split, List.take_append, List.mem_append]
      right
      cases count : s.left - before.length with
      | zero => omega
      | succ some_room => simp
    rw [fillsAtEnd_readto, if_pos present, index]
    unfold Psock.copied
    rw [length]
  · have length : (s.unread.take s.left).length = s.left := by
      rw [List.length_take, min_eq_left (le_of_lt longer)]
    obtain ⟨result, ends⟩ := (ReadOp.readto c).pass_ends segment (more + 1)
      filling state copies (List.take_prefix _ _) (le_of_eq length) rfl
      (Or.inr ⟨by simp [opened.1, missing],
        by rw [List.length_append, length]; exact room⟩)
    refine .ends _ result ends ?_
    rw [fillsAtEnd_readto, if_neg missing, if_pos longer]
    unfold Psock.copied
    rw [length]

theorem readbufLen_passes {len : Nat} {segment : Segment} {s : Psock}
    {size : Nat} (more : Nat) (rest : List ReadOp)
    (filling : s.Filling size) (state : s.state = .read)
    (opened : (ReadOp.readbufLen len).Open size s.stored)
    (unread : s.unread ≠ []) :
    Passes (.readbufLen len) segment more s size rest := by
  have room := filling.room
  have positive : 0 < s.unread.length := List.length_pos_of_ne_nil unread
  have open_room := opened.1
  obtain ⟨copies, fits⟩ | ⟨copies, fits⟩ := bufBufdata_spec s.unread s.left
  · have stored := (filling.copied (le_of_lt fits)).datalen_eq
    have length : (s.copied s.unread).stored.length =
        s.stored.length + s.unread.length := List.length_append
    have notFull : ¬ FillsAtEnd size (.readbufLen len :: rest) s.left
        s.unread := by
      rw [fillsAtEnd_readbufLen]
      omega
    by_cases few : s.stored.length + s.unread.length < len
    · obtain ⟨after, result, waits⟩ := (ReadOp.readbufLen len).pass_waits
        segment more filling state copies (le_of_lt fits)
        (by simp [ReadOp.repeats, stored, length, few])
        ⟨by rw [List.length_append]; omega,
          Or.inl (by rw [List.length_append]; exact few)⟩
      exact .waits after result waits (iff_of_false id notFull)
    · obtain ⟨result, ends⟩ := (ReadOp.readbufLen len).pass_ends segment
        (more + 1) filling state copies List.prefix_rfl (le_of_lt fits)
        (by simp only [ReadOp.repeats, stored, length, few, and_false,
          decide_false])
        ⟨by simp [unread], by rw [List.length_append]; omega,
          Or.inr (by rw [List.length_append]; omega)⟩
      refine .ends _ result ends (iff_of_false ?_ notFull)
      rw [s.copied_all]
      exact not_fillsAtEnd_nil (by omega) rest
  · have length : (s.unread.take s.left).length = s.left := by
      rw [List.length_take, min_eq_left fits]
    have some_room : 0 < s.left := by omega
    obtain ⟨result, ends⟩ := (ReadOp.readbufLen len).pass_ends segment
      (more + 1) filling state copies (List.take_prefix _ _)
      (le_of_eq length) (by simp [ReadOp.repeats])
      ⟨by
        intro empty
        have none := congrArg List.length empty
        rw [List.length_append, length, List.length_nil] at none
        omega,
        by rw [List.length_append, length]; omega,
        Or.inl (by rw [List.length_append, length]; exact room)⟩
    refine .ends _ result ends ?_
    rw [fillsAtEnd_readbufLen]
    unfold Psock.copied
    rw [length]
    constructor
    · intro fills
      refine ⟨?_, fills⟩
      by_contra notLonger
      have none : s.unread.drop s.left = [] :=
        List.drop_eq_nil_of_le (by omega)
      simp only [none] at fills
      exact not_fillsAtEnd_nil (by omega) rest fills
    · exact And.right

theorem read_passes {s : Psock} {size : Nat} (more : Nat) (rest : List ReadOp)
    (filling : s.Filling size) (state : s.state = .read)
    (opened : op.Open size s.stored) (unread : s.unread ≠ []) :
    Passes op segment more s size rest := by
  cases op with
  | readto c => exact readto_passes more rest filling state opened
  | readbufLen len =>
      exact readbufLen_passes more rest filling state opened unread

/-! ## All reads in an event -/

namespace Reader

/-- The bytes of the read that waits. -/
def current (reader : Reader) : List UInt8 :=
  if reader.waits then reader.psock.stored else []

/-- All bytes that have been taken from segments. -/
def taken (reader : Reader) : List UInt8 :=
  reader.delivered.flatMap Prod.snd ++ reader.current ++
    reader.psock.unread

/-- A read waits although its buffer is full. -/
def IsFull (reader : Reader) (size : Nat) : Prop :=
  ∃ op, reader.ops.head? = some op ∧ op.IsFull size reader.current

/-- Nothing is left of the last segment. -/
structure Ready (reader : Reader) (size : Nat) : Prop where
  filling : reader.psock.Filling size
  unread : reader.psock.unread = []
  state : reader.psock.state ≠ .read
  opened : ∀ op, reader.ops.head? = some op →
    op.Open size reader.current

end Reader

/-- What `serve` makes of the bytes of a read and of a segment. -/
structure Serves (size : Nat) (delivered : List (ReadOp × List UInt8))
    (ops : List ReadOp) (stored data : List UInt8) (reader : Reader) :
    Prop where
  taken : reader.taken =
    delivered.flatMap Prod.snd ++ stored ++ data
  ended : ∀ entry ∈ reader.delivered,
    entry ∈ delivered ∨ entry.1.Ended size entry.2
  ready : reader.ops ≠ [] → reader.Ready size
  full : reader.IsFull size ↔
    FillsAtEnd size ops (size - stored.length) data

theorem startRead_spec {s : Psock} {size : Nat} (waits : Bool)
    (filling : s.Filling size) :
    (if waits then s else s.bufSetup).Filling size ∧
      (if waits then s else s.bufSetup).unread = s.unread ∧
      (if waits then s else s.bufSetup).state = s.state ∧
      (if waits then s else s.bufSetup).stored =
        (if waits then s.stored else []) := by
  cases waits with
  | true => exact ⟨filling, rfl, rfl, rfl⟩
  | false => exact ⟨filling.bufSetup, rfl, rfl, rfl⟩

theorem serves_waits {delivered : List (ReadOp × List UInt8)} {op : ReadOp}
    {rest : List ReadOp} {s after : Psock} {stored data : List UInt8}
    (filling : s.Filling size) (same : s.stored = stored)
    (waits : Waits s op size data after)
    (full : op.IsFull size after.stored ↔
      FillsAtEnd size (op :: rest) s.left data) :
    Serves size delivered (op :: rest) stored data
      { psock := after, waits := true, ops := op :: rest
        delivered := delivered } := by
  have room := filling.room
  refine ⟨?_, fun entry member => Or.inl member, fun _ => ?_, ?_⟩
  · simp only [Reader.taken, Reader.current, if_true, waits.stored,
      waits.unread, same, List.append_nil, List.append_assoc]
  · refine ⟨waits.filling, waits.unread, waits.state, ?_⟩
    intro other first
    simp only [List.head?_cons, Option.some.injEq] at first
    rw [← first]
    exact waits.opened
  · have left : size - stored.length = s.left := by
      rw [← same]
      omega
    rw [left, ← full]
    simp [Reader.IsFull, Reader.current]

theorem serves_ends (positive : 0 < size)
    {delivered : List (ReadOp × List UInt8)} {op : ReadOp}
    {rest : List ReadOp} {s after : Psock} {stored data : List UInt8}
    {reader : Reader} (filling : s.Filling size) (same : s.stored = stored)
    (ends : Ends s op size data after)
    (full : FillsAtEnd size rest size after.unread ↔
      FillsAtEnd size (op :: rest) s.left data)
    (later : Serves size (delivered ++ [(op, after.stored)]) rest []
      after.unread reader) :
    after.datalen ≠ 0 ∧
      Serves size delivered (op :: rest) stored data reader := by
  have room := filling.room
  constructor
  · rw [ends.filling.datalen_eq]
    exact (List.length_pos_of_ne_nil
      (ends.ended.some_byte positive)).ne'
  · refine ⟨?_, fun entry member => ?_, later.ready, ?_⟩
    · have split := ends.split
      rw [same] at split
      rw [later.taken, List.flatMap_append, List.append_assoc _ stored,
        split]
      simp
    · cases later.ended entry member with
      | inl before =>
          rw [List.mem_append, List.mem_singleton] at before
          cases before with
          | inl earlier => exact Or.inl earlier
          | inr this =>
              rw [this]
              exact Or.inr ends.ended
      | inr ended => exact Or.inr ended
    · have left : size - stored.length = s.left := by
        rw [← same]
        omega
      rw [left, ← full]
      exact later.full

theorem isFull_iff_empty {s : Psock} {size : Nat}
    {data : List UInt8} (rest : List ReadOp) (filling : s.Filling size)
    (empty : data = []) :
    op.IsFull size s.stored ↔
      FillsAtEnd size (op :: rest) s.left data := by
  have room := filling.room
  rw [empty]
  cases op with
  | readto c =>
      rw [fillsAtEnd_readto, if_neg (by simp), if_neg (by simp)]
      unfold ReadOp.IsFull
      simp only [List.length_nil]
      omega
  | readbufLen len =>
      rw [fillsAtEnd_readbufLen]
      simp [ReadOp.IsFull]

theorem serve_read (segment : Segment) {size : Nat} (positive : 0 < size)
    (ops : List ReadOp) (s : Psock) (waits : Bool)
    (delivered : List (ReadOp × List UInt8)) (filling : s.Filling size)
    (state : s.state = .read)
    (opened : ∀ op, ops.head? = some op →
      op.Open size (if waits then s.stored else [])) :
    Serves size delivered ops (if waits then s.stored else []) s.unread
      (serve segment s waits delivered ops) := by
  induction ops generalizing s waits delivered with
  | nil =>
      refine ⟨rfl, fun entry member => Or.inl member,
        fun more => absurd rfl more, ?_⟩
      simp [serve, Reader.IsFull, FillsAtEnd]
  | cons op rest inductionHypothesis =>
      obtain ⟨filling', unread', state', stored'⟩ :=
        startRead_spec waits filling
      have opened' := opened op rfl
      rw [← stored'] at opened'
      unfold serve
      simp only
      generalize (if waits then s else s.bufSetup) = s' at *
      rw [← unread']
      by_cases empty : s'.unread = []
      · rw [ReadOp.loop_blocked 2 empty (state'.trans state)]
        refine serves_waits filling' stored'
          ⟨empty, by simp, by simp [empty], filling'.withState _ _,
            opened'⟩ ?_
        exact @isFull_iff_empty op s' size _ rest filling' empty
      · rw [ReadOp.loop_unread 2 empty]
        cases @read_passes op segment s' size 1 rest filling'
            (state'.trans state) opened' empty with
        | waits after result waits full =>
            rw [result]
            exact serves_waits filling' stored' waits full
        | ends after result ends full =>
            have later := inductionHypothesis after false
              (delivered ++ [(op, after.stored)]) ends.filling ends.state
              fun _ _ => ReadOp.open_nil positive
            obtain ⟨some_byte, serves⟩ := serves_ends positive filling'
              stored' ends full later
            rw [result]
            simp only [some_byte, if_false]
            exact serves

namespace Reader

theorem event_of_done (done : reader.ops = [])
    (segment : Segment) : reader.event segment = reader := by
  have same : serve segment reader.psock reader.waits reader.delivered [] =
      reader := by
    unfold serve
    rw [← done]
  unfold event
  rw [done]
  exact same

theorem event_none (ready : reader.ops ≠ [] → reader.Ready size) :
    (reader.event none).taken = reader.taken ∧
      (reader.event none).delivered = reader.delivered ∧
      ((reader.event none).ops ≠ [] → (reader.event none).Ready size) ∧
      ((reader.event none).IsFull size ↔ reader.IsFull size) := by
  cases remaining : reader.ops with
  | nil =>
      rw [event_of_done remaining]
      exact ⟨rfl, rfl, fun more => absurd remaining more, Iff.rfl⟩
  | cons op rest =>
      unfold event
      rw [remaining]
      have prepared := ready (by rw [remaining]; exact List.cons_ne_nil _ _)
      obtain ⟨filling, unread, state, stored⟩ :=
        startRead_spec reader.waits prepared.filling
      have current : reader.current =
          if reader.waits then reader.psock.stored else [] := rfl
      have opened := prepared.opened op (by rw [remaining]; rfl)
      unfold serve
      simp only
      generalize (if reader.waits then reader.psock
        else reader.psock.bufSetup) = s at *
      rw [op.loop_idle 2 (unread.trans prepared.unread)
        (state ▸ prepared.state)]
      simp only
      refine ⟨?_, trivial, fun _ => ⟨filling, unread.trans prepared.unread,
        state ▸ prepared.state, fun other first => ?_⟩, ?_⟩
      · simp only [taken, current, unread, ← stored]
        simp [Reader.current]
      · simp only [List.head?_cons, Option.some.injEq] at first
        rw [← first]
        simp only [Reader.current, if_true, stored]
        rw [← current]
        exact opened
      · simp [IsFull, remaining, Reader.current, stored]

end Reader

/-- `psock_readbuf_len` with an empty segment. -/
theorem readbufLen_empty {len : Nat} {segment : Segment} {s : Psock}
    {size : Nat} (rest : List ReadOp) (filling : s.Filling size)
    (state : s.state = .read) (unread : s.unread = [])
    (opened : (ReadOp.readbufLen len).Open size s.stored) :
    Passes (.readbufLen len) segment 1 s size rest ∨
      (ReadOp.readbufLen len).pass segment 2 s = (true, s) ∧
        s.stored = [] := by
  have room := filling.room
  have open_room := opened.1
  have copies : bufBufdata s.unread s.left = (s.unread, .notDone) := by
    unfold bufBufdata
    rw [unread, if_pos (by rw [List.length_nil]; omega)]
  have same : s.copied s.unread = s := by
    rw [unread]
    unfold Psock.copied
    simp only [List.length_nil, List.drop_zero, List.append_nil,
      Nat.sub_zero]
  by_cases few : s.stored.length < len
  · obtain ⟨after, result, waits⟩ := (ReadOp.readbufLen len).pass_waits
      segment 1 filling state copies (by simp [unread])
      (by simp [ReadOp.repeats, same, filling.datalen_eq, few])
      (by rw [unread, List.append_nil]; exact opened)
    refine Or.inl (.waits after result waits (iff_of_false id ?_))
    rw [fillsAtEnd_readbufLen]
    simp [unread]
  · refine Or.inr ⟨?_, opened.2.resolve_left few⟩
    unfold ReadOp.pass ReadOp.fill
    rw [copies]
    simp only [same, ReadOp.repeats, filling.datalen_eq, few, and_false,
      decide_false, Bool.false_eq_true, if_false]

namespace Reader

theorem event_some (positive : 0 < size)
    {op : ReadOp} {rest : List ReadOp} (remaining : reader.ops = op :: rest)
    (ready : reader.Ready size) (data : List UInt8) :
    Serves size reader.delivered (op :: rest) reader.current data
      (reader.event (some data)) := by
  obtain ⟨filling, unread, state, stored⟩ :=
    startRead_spec reader.waits ready.filling
  have opened := ready.opened op (by rw [remaining]; rfl)
  have current : (if reader.waits then reader.psock
      else reader.psock.bufSetup).stored = reader.current := stored
  unfold event
  rw [remaining]
  unfold serve
  simp only
  generalize (if reader.waits then reader.psock
    else reader.psock.bufSetup) = s at *
  rw [op.loop_newdata 2 (unread.trans ready.unread) (state ▸ ready.state)]
  rw [← current] at opened
  let loaded : Psock := { s with state := .read, unread := data }
  have fillingLoaded : loaded.Filling size := filling.withState _ _
  have passes : Passes op (some data) 1 loaded size rest ∨
      op.pass (some data) 2 loaded = (true, loaded) ∧ loaded.stored = [] ∧
        data = [] ∧ ¬ op.IsFull size [] := by
    cases op with
    | readto c =>
        exact Or.inl (readto_passes 1 rest fillingLoaded rfl opened)
    | readbufLen len =>
        by_cases empty : data = []
        · exact (readbufLen_empty rest fillingLoaded rfl empty opened).imp_right
            fun ⟨result, nothing⟩ => ⟨result, nothing, empty, id⟩
        · exact Or.inl (read_passes 1 rest fillingLoaded rfl opened empty)
  rcases passes with (⟨after, result, waits, full⟩ |
    ⟨after, result, ends, full⟩) | ⟨result, unstored, empty, notFull⟩
  · rw [result]
    exact serves_waits fillingLoaded current waits full
  · have later := serve_read (some data) positive rest after false
      (reader.delivered ++ [(op, after.stored)]) ends.filling ends.state
      fun _ _ => ReadOp.open_nil positive
    obtain ⟨some_byte, serves⟩ := serves_ends positive fillingLoaded
      current ends full later
    rw [result]
    simp only [some_byte, if_false]
    exact serves
  · have nothing : loaded.datalen = 0 := by
      rw [fillingLoaded.datalen_eq, unstored, List.length_nil]
    have noCurrent : reader.current = [] := current ▸ unstored
    rw [result]
    simp only [nothing, if_true]
    refine ⟨?_, fun entry member => Or.inl member, fun _ => ?_, ?_⟩
    · rw [noCurrent]
      simp [taken, Reader.current, loaded]
    · refine ⟨fillingLoaded.withState _ _, empty, by simp, ?_⟩
      intro other first
      exact ReadOp.open_nil positive
    · rw [noCurrent, empty]
      refine iff_of_false ?_ ?_
      · rintro ⟨other, first, whole⟩
        simp only [List.head?_cons, Option.some.injEq] at first
        rw [← first] at whole
        exact notFull whole
      · exact not_fillsAtEnd_nil positive (op :: rest)

/-! ## Runs of reads -/

/-- The reads have delivered the stream, and none waits that could end. -/
structure Streams (reader : Reader) (size : Nat) (received : List UInt8) :
    Prop where
  ended : ∀ entry ∈ reader.delivered, entry.1.Ended size entry.2
  prompt : ∀ op, reader.ops.head? = some op →
    ¬ op.Ended size reader.current ∧ reader.psock.unread = []
  stream : reader.ops ≠ [] → reader.taken = received
  initial : reader.taken <+: received

/-- The segment of the event does not fill the buffer of a `readto` at its
end. -/
def StepClear (reader : Reader) (size : Nat) (segment : Segment) : Prop :=
  ∀ data, segment = some data →
    ¬ FillsAtEnd size reader.ops (size - reader.current.length) data

/-- All events of a run are clear. -/
def RunClear (size : Nat) (reader : Reader) : List Segment → Prop
  | [] => True
  | segment :: rest =>
      reader.StepClear size segment ∧
        RunClear size (reader.event segment) rest

/-- The invariant of the runs. -/
structure Follows (reader : Reader) (size : Nat) (received : List UInt8) :
    Prop where
  ended : ∀ entry ∈ reader.delivered, entry.1.Ended size entry.2
  ready : reader.ops ≠ [] → reader.Ready size
  room : ¬ reader.IsFull size
  stream : reader.ops ≠ [] → reader.taken = received
  initial : reader.taken <+: received

theorem Follows.streams
    {received : List UInt8} (follows : reader.Follows size received) :
    reader.Streams size received := by
  refine ⟨follows.ended, fun op first => ?_, follows.stream,
    follows.initial⟩
  have remaining : reader.ops ≠ [] := by
    intro none
    simp [none] at first
  have ready := follows.ready remaining
  exact ⟨(ready.opened op first).not_ended
    fun full => follows.room ⟨op, first, full⟩, ready.unread⟩

theorem follows_start {bufsize : Nat} (positive : 0 < bufsize)
    (small : bufsize < 65536) (ops : List ReadOp) :
    (start bufsize ops).Follows bufsize [] := by
  have current : (start bufsize ops).current = [] := rfl
  refine ⟨fun entry member => absurd member List.not_mem_nil, fun _ => ?_,
    ?_, fun _ => rfl, List.prefix_rfl⟩
  · refine ⟨⟨rfl, small, ?_⟩, rfl, by simp [start, psockInit],
      fun op _ => ReadOp.open_nil positive⟩
    simp [start, psockInit, Nat.mod_eq_of_lt small]
  · rintro ⟨op, first, full⟩
    rw [current] at full
    cases op with
    | readto c => exact positive.ne full
    | readbufLen len => exact full

theorem Follows.event
    {received : List UInt8} (follows : reader.Follows size received)
    (positive : 0 < size) (segment : Segment)
    (clear : reader.StepClear size segment) :
    (reader.event segment).Follows size
      (received ++ segment.getD []) := by
  cases segment with
  | none =>
      obtain ⟨taken, delivered, ready, full⟩ := event_none follows.ready
      have ops : (reader.event none).ops ≠ [] → reader.ops ≠ [] := by
        intro more done
        apply more
        rw [event_of_done done]
        exact done
      rw [Option.getD_none, List.append_nil]
      exact ⟨delivered ▸ follows.ended, ready, mt full.1 follows.room,
        fun more => taken.trans (follows.stream (ops more)),
        taken ▸ follows.initial⟩
  | some data =>
      rw [Option.getD_some]
      cases remaining : reader.ops with
      | nil =>
          rw [event_of_done remaining]
          exact ⟨follows.ended, follows.ready, follows.room,
            fun more => absurd remaining more,
            follows.initial.trans (List.prefix_append _ _)⟩
      | cons op rest =>
          have more : reader.ops ≠ [] := by
            rw [remaining]
            exact List.cons_ne_nil _ _
          have ready := follows.ready more
          have serves := event_some positive remaining ready data
          have before := follows.stream more
          unfold Reader.taken at before
          rw [ready.unread, List.append_nil] at before
          have taken := serves.taken
          rw [before] at taken
          refine ⟨fun entry member => ?_, serves.ready, ?_,
            fun _ => taken, ?_⟩
          · exact (serves.ended entry member).elim (follows.ended entry) id
          · rw [serves.full, ← remaining]
            exact clear data rfl
          · exact ⟨[], by rw [taken, List.append_nil]⟩

theorem Follows.run (positive : 0 < size)
    (segments : List Segment) {reader : Reader} {received : List UInt8}
    (follows : reader.Follows size received)
    (clear : RunClear size reader segments) :
    (reader.run segments).Follows size
      (received ++ segments.flatMap fun segment => segment.getD []) := by
  induction segments generalizing reader received with
  | nil =>
      rw [List.flatMap_nil, List.append_nil]
      exact follows
  | cons segment rest inductionHypothesis =>
      have later := inductionHypothesis
        (follows.event positive segment clear.1) clear.2
      rw [List.flatMap_cons, ← List.append_assoc]
      exact later

end Reader

/-! ## Runs of sends -/

namespace Sender

def firstBytes (log : List Transmission) : List UInt8 :=
  (log.filter Transmission.first).flatMap Transmission.bytes

/-- Each transmission that is not a first one repeats the one before. -/
def Repeats (log : List Transmission) : Prop :=
  log.IsChain fun before again =>
    again.first = false → again.bytes = before.bytes

/-- As many bytes are repeated or acknowledged as are outstanding. -/
def StepSteady (s : Sender) (event : SendEvent) : Prop :=
  s.phase = .waits → event.acked ∨ event.rexmit →
    s.amount event = s.outstanding

/-- In the event the bytes behind those that have been sent follow; if there
are none, `psock_send` ends. -/
def SendsNext (s : Sender) (data : List UInt8) (event : SendEvent) :
    Prop :=
  if firstBytes s.log = data then
    (s.event event).phase = .ended ∧ (s.event event).log = s.log
  else
    (s.event event).phase = .waits ∧
      (s.event event).log = s.log ++
        [{ bytes := (data.drop (firstBytes s.log).length).take event.mss
           first := true }]

/-- In the event the last bytes are sent again. -/
def SendsAgain (s : Sender) (event : SendEvent) : Prop :=
  (s.event event).phase = .waits ∧
    ∃ before last, s.log = before ++ [last] ∧
      (s.event event).log = s.log ++ [{ last with first := false }]

/-- The data go on with the call and with each acknowledgement. -/
structure Advances (s : Sender) (data : List UInt8) (event : SendEvent) :
    Prop where
  begins : s.phase = .start → s.SendsNext data event
  again : s.phase = .waits → event.rexmit → s.SendsAgain event
  next : s.phase = .waits → event.onlyAcks → s.SendsNext data event
  idle : s.phase = .waits → ¬ event.acked → ¬ event.rexmit →
    s.event event = s

/-- What has been sent is the start of the data, sent once and repeated as it
was; when `psock_send` has ended, it is the data, and until then it goes on
with them. -/
structure SendsOnce (s : Sender) (data : List UInt8) : Prop where
  repeats : Repeats s.log
  initial : firstBytes s.log <+: data
  whole : s.phase = .ended → firstBytes s.log = data
  advances : ∀ event, s.StepSteady event → s.Advances data event

def RunSteady (s : Sender) : List SendEvent → Prop
  | [] => True
  | event :: rest => s.StepSteady event ∧ RunSteady (s.event event) rest

/-- The invariant while `psock_send` waits. -/
structure Outstanding (s : Sender) : Prop where
  state : s.state = .dataSent
  rest : s.sendptr + s.sendlen = s.data.length
  some_left : 0 < s.sendlen
  fits : s.outstanding ≤ s.sendlen
  repeats : Repeats s.log
  last : ∃ before again, s.log = before ++ [again] ∧
    again.bytes = (s.data.drop s.sendptr).take s.outstanding
  sent : firstBytes s.log = s.data.take (s.sendptr + s.outstanding)

theorem firstBytes_append (log : List Transmission)
    (transmission : Transmission) :
    firstBytes (log ++ [transmission]) = firstBytes log ++
      (if transmission.first then transmission.bytes else []) := by
  unfold firstBytes
  rw [List.filter_append, List.flatMap_append]
  cases first : transmission.first <;> simp [first]

theorem Repeats.append {log : List Transmission} (repeats : Repeats log)
    {transmission : Transmission}
    (same : transmission.first = false → ∀ before again,
      log = before ++ [again] → transmission.bytes = again.bytes) :
    Repeats (log ++ [transmission]) := by
  unfold Repeats at *
  rw [List.isChain_append]
  refine ⟨repeats, List.isChain_singleton _, fun again last next first => ?_⟩
  simp only [List.head?_cons, Option.mem_def, Option.some.injEq] at first
  rw [← first]
  intro repeated
  obtain ⟨before, split⟩ := List.getLast?_eq_some_iff.1 last
  exact same repeated before again split

theorem amount_le (s : Sender) (event : SendEvent) :
    s.amount event ≤ s.sendlen := by
  unfold amount
  split
  · next longer => exact le_of_lt longer
  · exact le_refl _

theorem take_amount
    (rest : s.sendptr + s.sendlen = s.data.length) (event : SendEvent) :
    (s.data.drop s.sendptr).take (s.amount event) =
      (s.data.drop s.sendptr).take event.mss := by
  have length : (s.data.drop s.sendptr).length = s.sendlen := by
    rw [List.length_drop]
    omega
  unfold amount
  split
  · rfl
  · next shorter =>
      rw [List.take_of_length_le (by omega),
        List.take_of_length_le (by omega)]

theorem loop_new (event : SendEvent) (more : Nat)
    (some_left : 0 < s.sendlen) (new : s.state ≠ .dataSent ∨ event.rexmit) :
    s.loop event (more + 1) =
      { s.uipSend (s.amount event) with
        state := .dataSent, phase := .waits } := by
  unfold loop dataIsSentAndAcked
  rw [if_pos some_left, if_pos new]

theorem loop_sends (event : SendEvent) (more : Nat)
    (state : s.state ≠ .dataSent)
    (rest : s.sendptr + s.sendlen = s.data.length)
    (some_left : 0 < s.sendlen) (repeats : Repeats s.log)
    (sent : firstBytes s.log = s.data.take s.sendptr) :
    (s.loop event (more + 1)).phase = .waits ∧
      (s.loop event (more + 1)).data = s.data ∧
      (s.loop event (more + 1)).Outstanding ∧
      (s.loop event (more + 1)).log = s.log ++
        [{ bytes := (s.data.drop s.sendptr).take event.mss
           first := true }] := by
  rw [loop_new event more some_left (Or.inl state)]
  have first : (decide (s.state ≠ .dataSent)) = true := by simp [state]
  refine ⟨rfl, rfl, ⟨rfl, rest, some_left, ?_, ?_, ⟨s.log, _, rfl, ?_⟩,
    ?_⟩, ?_⟩
  · simp only [uipSend, first, if_true]
    exact s.amount_le event
  · refine repeats.append fun again => ?_
    simp only [first] at again
    exact Bool.noConfusion again
  · simp only [uipSend, first, if_true]
  · simp only [uipSend, firstBytes_append, first, if_true]
    rw [sent, List.take_add]
  · simp only [uipSend, first]
    rw [take_amount rest]

namespace Outstanding

variable {s : Sender}

theorem event_eq_loop (phase : s.phase = .waits) (event : SendEvent) :
    s.event event = s.loop event 2 := by
  unfold Sender.event
  rw [phase]

theorem length_sent (outstanding : s.Outstanding) :
    (firstBytes s.log).length = s.sendptr + s.outstanding := by
  have fits := outstanding.fits
  have rest := outstanding.rest
  rw [outstanding.sent, List.length_take]
  omega

theorem event_rexmit (outstanding : s.Outstanding)
    (phase : s.phase = .waits) {event : SendEvent}
    (rexmit : event.rexmit) (again : s.amount event = s.outstanding) :
    (s.event event).data = s.data ∧ (s.event event).Outstanding ∧
      s.SendsAgain event := by
  have first : (decide (s.state ≠ .dataSent)) = false := by
    simp [outstanding.state]
  obtain ⟨before, last, split, bytes⟩ := outstanding.last
  unfold SendsAgain
  rw [event_eq_loop phase,
    loop_new event 1 outstanding.some_left (Or.inr rexmit)]
  refine ⟨rfl, ⟨rfl, outstanding.rest, outstanding.some_left, ?_, ?_,
    ⟨s.log, _, rfl, ?_⟩, ?_⟩, rfl, before, last, split, ?_⟩
  · simp only [uipSend, first, Bool.false_eq_true, if_false]
    exact outstanding.fits
  · refine outstanding.repeats.append fun _ before' last' split' => ?_
    rw [split] at split'
    have same := (List.append_inj' split' rfl).2
    rw [← List.singleton_inj.1 same, bytes, ← again]
  · simp only [uipSend, first, Bool.false_eq_true, if_false, again]
  · simp only [uipSend, firstBytes_append, first, Bool.false_eq_true,
      if_false, List.append_nil]
    exact outstanding.sent
  · simp only [uipSend, first, again, bytes]

/-- Behind the outstanding bytes the next ones are sent, or all of them have
been. -/
theorem event_acked (outstanding : s.Outstanding)
    (phase : s.phase = .waits) {event : SendEvent}
    (acks : event.onlyAcks) (taken : s.amount event = s.outstanding) :
    (s.event event).data = s.data ∧
      ((s.event event).phase = .waits → (s.event event).Outstanding) ∧
      s.SendsNext s.data event := by
  unfold SendEvent.onlyAcks at acks
  rw [Bool.and_eq_true, Bool.not_eq_true'] at acks
  obtain ⟨acked, noRexmit⟩ := acks
  have fits := outstanding.fits
  have rest := outstanding.rest
  have sent := outstanding.sent
  have acknowledged : s.event event = loop event 1
      { s with
        sendptr := s.sendptr + s.outstanding
        sendlen := s.sendlen - s.outstanding
        state := .acked } := by
    rw [event_eq_loop phase]
    conv_lhs => unfold loop dataIsSentAndAcked
    rw [if_pos outstanding.some_left,
      if_neg (by simp [outstanding.state, noRexmit]),
      if_pos ⟨outstanding.state, acked⟩, taken]
  unfold SendsNext
  rw [acknowledged, outstanding.length_sent]
  by_cases more : 0 < s.sendlen - s.outstanding
  · have unsent : firstBytes s.log ≠ s.data := by
      intro whole
      have length := outstanding.length_sent
      rw [whole] at length
      omega
    rw [if_neg unsent]
    obtain ⟨waits, data, next, log⟩ := @loop_sends
      { s with
        sendptr := s.sendptr + s.outstanding
        sendlen := s.sendlen - s.outstanding
        state := .acked } event 0 (by simp) (by simp only; omega) more
      outstanding.repeats sent
    exact ⟨data, fun _ => next, waits, log⟩
  · have whole : firstBytes s.log = s.data := by
      rw [sent, List.take_of_length_le (by omega)]
    rw [if_pos whole]
    unfold loop
    rw [if_neg more]
    exact ⟨rfl, fun waits => (nomatch waits), rfl, rfl⟩

theorem event_idle (outstanding : s.Outstanding)
    (phase : s.phase = .waits) {event : SendEvent}
    (noAck : ¬ event.acked) (noRexmit : ¬ event.rexmit) :
    s.event event = s := by
  rw [event_eq_loop phase]
  unfold loop dataIsSentAndAcked
  rw [if_pos outstanding.some_left,
    if_neg (by simp [outstanding.state, noRexmit]),
    if_neg (by simp [noAck])]
  simp only [← phase]

end Outstanding

/-- The invariant of the runs. -/
structure Sends (s : Sender) (data : List UInt8) : Prop where
  same : s.data = data
  start : s.phase = .start → s.log = []
  waits : s.phase = .waits → s.Outstanding
  ended : s.phase = .ended → firstBytes s.log = data
  repeats : Repeats s.log

/-- `psock_send` is called. -/
theorem Sends.begins {data : List UInt8}
    (sends : s.Sends data) (small : data.length < 65536)
    (phase : s.phase = .start) (event : SendEvent) :
    (s.event event).data = s.data ∧
      ((s.event event).phase = .waits → (s.event event).Outstanding) ∧
      s.SendsNext data event := by
  have sent : firstBytes s.log = [] := by
    rw [sends.start phase]
    rfl
  obtain rfl := sends.same
  have called : s.event event =
      if s.data.length = 0 then { s with phase := .ended }
      else loop event 2
        { s with
          sendptr := 0
          sendlen := s.data.length % 65536
          state := .none } := by
    unfold Sender.event
    rw [phase]
  unfold SendsNext
  rw [called, sent]
  by_cases empty : s.data.length = 0
  · have noData : [] = s.data := (List.eq_nil_of_length_eq_zero empty).symm
    rw [if_pos empty, if_pos noData]
    exact ⟨rfl, fun waits => (nomatch waits), rfl, rfl⟩
  · have someData : [] ≠ s.data := by
      intro noData
      rw [← noData] at empty
      exact empty rfl
    rw [if_neg empty, if_neg someData]
    have kept : s.data.length % 65536 = s.data.length :=
      Nat.mod_eq_of_lt small
    obtain ⟨waits, same, outstanding, log⟩ := @loop_sends
      { s with
        sendptr := 0
        sendlen := s.data.length % 65536
        state := .none } event 1 (by simp) (by simp only; omega)
      (by simp only; omega) sends.repeats sent
    exact ⟨same, fun _ => outstanding, waits, log⟩

theorem Sends.sendsOnce {data : List UInt8}
    (sends : s.Sends data) (small : data.length < 65536) :
    s.SendsOnce data := by
  refine ⟨sends.repeats, ?_, sends.ended, fun event steady => ?_⟩
  · cases phase : s.phase with
    | start =>
        rw [sends.start phase]
        exact List.nil_prefix
    | waits =>
        rw [(sends.waits phase).sent, sends.same]
        exact List.take_prefix _ _
    | ended =>
        have whole := sends.ended phase
        exact whole ▸ List.prefix_rfl
  · refine ⟨fun phase => (sends.begins small phase event).2.2,
      fun phase rexmit => ?_, fun phase acks => ?_,
      fun phase => (sends.waits phase).event_idle phase⟩
    · exact ((sends.waits phase).event_rexmit phase rexmit
        (steady phase (Or.inr rexmit))).2.2
    · have acked : event.acked = true := (Bool.and_eq_true_iff.1 acks).1
      have next := ((sends.waits phase).event_acked phase acks
        (steady phase (Or.inl acked))).2.2
      rwa [sends.same] at next

theorem Sends.sendsNext {data : List UInt8}
    (sends : s.Sends data) {event : SendEvent}
    (same : (s.event event).data = s.data)
    (outstanding : (s.event event).phase = .waits →
      (s.event event).Outstanding)
    (next : s.SendsNext data event) : (s.event event).Sends data := by
  unfold SendsNext at next
  split at next
  · next whole =>
      obtain ⟨ended, log⟩ := next
      refine ⟨same.trans sends.same, fun start => ?_, outstanding,
        fun _ => ?_, ?_⟩
      · rw [ended] at start
        exact nomatch start
      · rw [log]
        exact whole
      · rw [log]
        exact sends.repeats
  · obtain ⟨waits, log⟩ := next
    refine ⟨same.trans sends.same, fun start => ?_, outstanding,
      fun ended => ?_, (outstanding waits).repeats⟩
    · rw [waits] at start
      exact nomatch start
    · rw [waits] at ended
      exact nomatch ended

theorem event_of_ended (ended : s.phase = .ended)
    (event : SendEvent) : s.event event = s := by
  unfold Sender.event
  rw [ended]

theorem Sends.event {s : Sender} {data : List UInt8}
    (sends : s.Sends data) (small : data.length < 65536)
    (event : SendEvent) (steady : s.StepSteady event) :
    (s.event event).Sends data := by
  cases phase : s.phase with
  | start =>
      obtain ⟨same, outstanding, next⟩ := sends.begins small phase event
      exact sends.sendsNext same outstanding next
  | waits =>
      have now := sends.waits phase
      by_cases rexmit : event.rexmit
      · obtain ⟨same, outstanding, again⟩ := now.event_rexmit phase rexmit
          (steady phase (Or.inr rexmit))
        refine ⟨same.trans sends.same, fun start => ?_,
          fun _ => outstanding, fun ended => ?_, outstanding.repeats⟩
        · rw [again.1] at start
          exact nomatch start
        · rw [again.1] at ended
          exact nomatch ended
      · by_cases acked : event.acked
        · have acks : event.onlyAcks := by
            simp [SendEvent.onlyAcks, acked, rexmit]
          obtain ⟨same, outstanding, next⟩ := now.event_acked phase acks
            (steady phase (Or.inl acked))
          rw [sends.same] at next
          exact sends.sendsNext same outstanding next
        · rw [now.event_idle phase acked rexmit]
          exact sends
  | ended =>
      rw [event_of_ended phase]
      exact sends

theorem Sends.run {data : List UInt8} (small : data.length < 65536)
    (events : List SendEvent) {s : Sender} (sends : s.Sends data)
    (steady : s.RunSteady events) : (s.run events).Sends data := by
  induction events generalizing s with
  | nil => exact sends
  | cons event rest inductionHypothesis =>
      exact inductionHypothesis (sends.event small event steady.1) steady.2

theorem sends_start (data : List UInt8) : (start data).Sends data :=
  ⟨rfl, fun _ => rfl, fun waits => (nomatch waits),
    fun ended => (nomatch ended), List.isChain_nil⟩

/-! ## The end of a send -/

def acks (events : List SendEvent) : Nat :=
  events.countP SendEvent.onlyAcks

/-- After the call there are as many acknowledgements as bytes, and a segment
always has room for a byte. -/
structure Acknowledged (data : List UInt8) (events : List SendEvent) :
    Prop where
  called : events ≠ []
  room : ∀ event ∈ events, 0 < event.mss
  enough : data.length ≤ acks events.tail

/-- There are more bytes sent after the event, or it is the last one. -/
theorem SendsNext.progress {data : List UInt8}
    {event : SendEvent} (next : s.SendsNext data event)
    (initial : firstBytes s.log <+: data) (room : 0 < event.mss) :
    (s.event event).phase = .ended ∨
      (firstBytes s.log).length <
        (firstBytes (s.event event).log).length := by
  unfold SendsNext at next
  split at next
  · exact Or.inl next.1
  · next unsent =>
      refine Or.inr ?_
      have shorter : (firstBytes s.log).length < data.length := by
        refine lt_of_le_of_ne initial.length_le fun same => ?_
        exact unsent (initial.eq_of_length same)
      rw [next.2, firstBytes_append, if_pos rfl, List.length_append,
        List.length_take, List.length_drop]
      omega

theorem run_of_ended (ended : s.phase = .ended)
    (events : List SendEvent) : s.run events = s := by
  induction events with
  | nil => rfl
  | cons event rest inductionHypothesis =>
      change (s.event event).run rest = s
      rw [event_of_ended ended]
      exact inductionHypothesis

/-- The bytes that have been sent and the acknowledgements to come are more
than the data. -/
theorem Sends.ends {data : List UInt8} (small : data.length < 65536)
    (events : List SendEvent) {s : Sender} (sends : s.Sends data)
    (called : s.phase ≠ .start) (steady : s.RunSteady events)
    (room : ∀ event ∈ events, 0 < event.mss)
    (enough : data.length < (firstBytes s.log).length + acks events) :
    (s.run events).phase = .ended := by
  induction events generalizing s with
  | nil =>
      have initial := (sends.sendsOnce small).initial.length_le
      have noAcks : acks [] = 0 := rfl
      omega
  | cons event rest inductionHypothesis =>
      cases phase : s.phase with
      | start =>
          exact absurd phase called
      | ended =>
          rw [run_of_ended phase]
          exact phase
      | waits =>
          have once := sends.sendsOnce small
          have advances := once.advances event steady.1
          have after := sends.event small event steady.1
          have continues : (s.event event).phase ≠ .start →
              (firstBytes s.log).length + acks (event :: rest) ≤
                (firstBytes (s.event event).log).length + acks rest →
              ((s.event event).run rest).phase = .ended := by
            intro phaseAfter more
            exact inductionHypothesis after phaseAfter steady.2
              (fun later member => room later (List.mem_cons_of_mem _ member))
              (by omega)
          change ((s.event event).run rest).phase = .ended
          by_cases acked : event.onlyAcks
          · have count : acks (event :: rest) = acks rest + 1 :=
              List.countP_cons_of_pos acked
            obtain ended | longer := (advances.next phase acked).progress
              once.initial (room event List.mem_cons_self)
            · rw [run_of_ended ended]
              exact ended
            · refine continues (fun start => ?_) (by omega)
              rw [after.start start] at longer
              exact Nat.not_lt_zero _ longer
          · have count : acks (event :: rest) = acks rest :=
              List.countP_cons_of_neg acked
            by_cases rexmit : event.rexmit
            · obtain ⟨waits, before, last, -, log⟩ :=
                advances.again phase rexmit
              refine continues (by simp [waits]) ?_
              rw [log, firstBytes_append]
              simp [count]
            · have noAck : ¬ event.acked := by
                intro isAck
                simp [SendEvent.onlyAcks, isAck, rexmit] at acked
              rw [advances.idle phase noAck rexmit] at continues ⊢
              exact continues called (by omega)

theorem ends_start {data : List UInt8} (small : data.length < 65536)
    {events : List SendEvent} (steady : (start data).RunSteady events)
    (acknowledged : Acknowledged data events) :
    ((start data).run events).phase = .ended := by
  obtain ⟨called, room, enough⟩ := acknowledged
  cases events with
  | nil =>
      exact absurd rfl called
  | cons event rest =>
      have sends := sends_start data
      have once := sends.sendsOnce small
      have after := sends.event small event steady.1
      change (((start data).event event).run rest).phase = .ended
      obtain ended | longer := ((once.advances event
        steady.1).begins rfl).progress once.initial
          (room event List.mem_cons_self)
      · rw [run_of_ended ended]
        exact ended
      · refine after.ends small rest (fun isStart => ?_) steady.2
          (fun later member => room later (List.mem_cons_of_mem _ member))
          ?_
        · rw [after.start isStart] at longer
          exact Nat.not_lt_zero _ longer
        · change data.length ≤ acks rest at enough
          omega

end Sender

/-! ## Streams -/

/-- In the runs that meet the conditions, the reads deliver the stream, and
the sends transmit their data once and end when these are acknowledged. -/
theorem psock_streams {bufsize : Nat} {ops : List ReadOp}
    {segments : List Segment} {data : List UInt8} {events : List SendEvent}
    (positive : 0 < bufsize) (small : bufsize < 65536)
    (clear : Reader.RunClear bufsize (Reader.start bufsize ops) segments)
    (short : data.length < 65536)
    (steady : (Sender.start data).RunSteady events) :
    ((Reader.start bufsize ops).run segments).Streams bufsize
        (segments.flatMap fun segment => segment.getD []) ∧
      ((Sender.start data).run events).SendsOnce data ∧
      (Sender.Acknowledged data events →
        ((Sender.start data).run events).phase = .ended) := by
  have read := (Reader.follows_start positive small ops).run positive
    segments clear
  rw [List.nil_append] at read
  exact ⟨read.streams, ((Sender.sends_start data).run short events
    steady).sendsOnce short, Sender.ends_start short steady⟩

/-- Two lines in three segments, and three bytes sent in two. -/
theorem psock_streams_lines :
    ((Reader.start 4 [.readto 10, .readto 10, .readbuf]).run
        [some [65, 10, 66], none, some [67, 10], some [68]]).Streams 4
        [65, 10, 66, 67, 10, 68] ∧
      ((Sender.start [1, 2, 3]).run
        [⟨false, false, 2⟩, ⟨false, true, 2⟩, ⟨true, false, 2⟩]).SendsOnce
          [1, 2, 3] ∧
      ((Sender.start [1, 2, 3]).run
        [⟨false, false, 2⟩, ⟨false, true, 2⟩, ⟨true, false, 2⟩,
          ⟨true, false, 2⟩, ⟨true, false, 2⟩]).phase = .ended := by
  have clear : Reader.RunClear 4
      (Reader.start 4 [.readto 10, .readto 10, .readbuf])
      [some [65, 10, 66], none, some [67, 10], some [68]] := by
    refine ⟨fun data same => ?_, fun data same => (nomatch same),
      fun data same => ?_, fun data same => ?_, trivial⟩
    · rw [← Option.some.inj same]
      decide
    · rw [← Option.some.inj same]
      decide
    · rw [← Option.some.inj same]
      decide
  obtain ⟨streams, once, -⟩ := @psock_streams 4 _ _ [1, 2, 3]
    [⟨false, false, 2⟩, ⟨false, true, 2⟩, ⟨true, false, 2⟩] (by decide)
    (by decide) clear (by decide)
    ⟨fun phase => (nomatch phase), fun _ _ => rfl, fun _ _ => rfl, trivial⟩
  obtain ⟨-, -, ends⟩ := @psock_streams 4 _ _ [1, 2, 3]
    [⟨false, false, 2⟩, ⟨false, true, 2⟩, ⟨true, false, 2⟩,
      ⟨true, false, 2⟩, ⟨true, false, 2⟩] (by decide) (by decide) clear
    (by decide) ⟨fun phase => (nomatch phase), fun _ _ => rfl,
      fun _ _ => rfl, fun _ _ => rfl, fun phase => (nomatch phase), trivial⟩
  exact ⟨streams, once, ends ⟨by decide, by decide, by decide⟩⟩

/-- The line fills the buffer where the segment ends, and is not
delivered. -/
theorem fullLine_not_streams :
    ¬ ((Reader.start 2 [.readto 10]).run [some [65, 66]]).Streams 2
      [65, 66] := by
  intro streams
  exact (streams.prompt (.readto 10) rfl).1 (Or.inr ⟨by decide, rfl⟩)

end Contiki.Net.Protosocket
