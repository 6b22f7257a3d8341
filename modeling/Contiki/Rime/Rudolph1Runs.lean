import Contiki.Rime.Rudolph1
import Mathlib.Data.List.Basic
import Mathlib.Logic.Function.Basic

/-!
# Dissemination of files over runs

A sender disseminates one file after another.  Packets may be lost, received
more than once and in any order, so that the network is the list of all the
packets ever sent.
-/

namespace Contiki.Rime.Rudolph1

/-! ## The network -/

inductive Channel where
  | trickle
  | ipolite
  deriving DecidableEq

/-- A packet of a transfer; the transfers are counted from one. -/
structure Sent where
  channel : Channel
  transfer : Nat
  packet : Packet
  deriving DecidableEq

/-- A node, with the number of the transfer that its version stands for and
the calls of `write_chunk`, each with its transfer. -/
structure Node where
  conn : Conn
  file : List UInt8
  transfer : Nat
  log : List (Nat × WriteChunk)
  deriving DecidableEq

structure System (Receiver : Type) where
  sender : Node
  receivers : Receiver → Node
  network : List Sent

/-- The sender starts a transfer, its timer expires, or a node receives a
packet of the network. -/
inductive Event (Receiver : Type) where
  | send
  | timer
  | senderReceives (index : Nat)
  | receives (receiver : Receiver) (index : Nat)

namespace Node

def start : Node where
  conn := rudolph1Open
  file := []
  transfer := 0
  log := []

def sends (node : Node) (channel : Channel) (packets : List Packet) :
    List Sent :=
  packets.map fun packet =>
    { channel, transfer := node.transfer, packet }

/-- What a node does with a packet of the network. -/
def handled (intBits : Nat) (node : Node) (sent : Sent) : Handled :=
  match sent.channel with
  | .trickle => recvTrickle intBits node.conn sent.packet
  | .ipolite => recvIpolite intBits node.conn node.file sent.packet

/-- The state of a node after a packet.  Its transfer changes with its
version. -/
def receive (intBits : Nat) (node : Node) (sent : Sent) : Node :=
  let handled := node.handled intBits sent
  let transfer :=
    if handled.conn.version = node.conn.version then node.transfer
    else sent.transfer
  { conn := handled.conn
    file := handled.writes.foldl writeChunk node.file
    transfer
    log := node.log ++ handled.writes.map fun write => (transfer, write) }

/-- What a node sends after a packet. -/
def replies (intBits : Nat) (node : Node) (sent : Sent) : List Sent :=
  (node.receive intBits sent).sends .ipolite
    (node.handled intBits sent).sent

end Node

namespace System

variable {Receiver : Type} [DecidableEq Receiver]

def init : System Receiver where
  sender := Node.start
  receivers := fun _ => Node.start
  network := []

/-- One step; `files` are the files of the transfers. -/
def step (intBits : Nat) (files : Nat → List UInt8)
    (system : System Receiver) : Event Receiver → System Receiver
  | .send =>
      let transfer := system.sender.transfer + 1
      let file := files transfer
      let (conn, packets) := rudolph1Send intBits system.sender.conn file
      let sender := { system.sender with conn, file, transfer }
      { system with
        sender
        network := system.network ++ sender.sends .trickle packets }
  | .timer =>
      if system.sender.conn.timer then
        let (conn, packets) :=
          sendNextPacket intBits system.sender.conn system.sender.file
        let sender := { system.sender with conn }
        { system with
          sender
          network := system.network ++ sender.sends .trickle packets }
      else system
  | .senderReceives index =>
      match system.network[index]? with
      | some sent =>
          { system with
            sender := system.sender.receive intBits sent
            network := system.network ++ system.sender.replies intBits sent }
      | none => system
  | .receives receiver index =>
      match system.network[index]? with
      | some sent =>
          let node := system.receivers receiver
          { system with
            receivers := Function.update system.receivers receiver
              (node.receive intBits sent)
            network := system.network ++ node.replies intBits sent }
      | none => system

end System

/-! ## Chunks of a file -/

def chunkData (file : List UInt8) (chunk : Nat) : List UInt8 :=
  (file.drop (chunk * datasize)).take datasize

/-- The number of chunks that are sent of a file; a second chunk is sent even
if the first one is not full. -/
def chunks (file : List UInt8) : Nat :=
  max 2 (file.length / datasize + 1)

/-- The call of `write_chunk` for a chunk. -/
def chunkWrite (file : List UInt8) (chunk : Nat) : WriteChunk where
  offset := (chunk * datasize : Nat)
  flag :=
    if (chunkData file chunk).length < datasize then .lastchunk else .none
  data := chunkData file chunk

/-- The calls of `write_chunk` for the first chunks of a file. -/
def chunkWrites (file : List UInt8) (count : Nat) : List WriteChunk :=
  if count = 0 then []
  else
    { offset := 0, flag := .newfile, data := [] } ::
      (List.range count).map (chunkWrite file)

/-- The writes of each transfer are a new file and then the first chunks of
the file, and no transfer writes after a later one. -/
structure WellWritten (files : Nat → List UInt8)
    (log : List (Nat × WriteChunk)) : Prop where
  ordered : (log.map Prod.fst).Pairwise (· ≤ ·)
  written : ∀ transfer, ∃ count, count ≤ chunks (files transfer) ∧
    (log.filter fun entry => entry.1 = transfer).map Prod.snd =
      chunkWrites (files transfer) count

/-- Two transfers are so close that their versions tell them apart. -/
def Close (first second : Nat) : Prop :=
  first ≤ second + 127 ∧ second ≤ first + 127

instance (first second : Nat) : Decidable (Close first second) :=
  inferInstanceAs (Decidable (_ ∧ _))

/-- A node that receives the chunk behind those that it has written of the
transfer writes it, unless it is at a later transfer. -/
def TakesNext (intBits : Nat) (files : Nat → List UInt8) (node : Node)
    (sent : Sent) : Prop :=
  ∀ version chunk data, sent.packet = .data version chunk data →
    Close sent.transfer node.transfer → node.transfer ≤ sent.transfer →
    (node.log.filter fun entry => entry.1 = sent.transfer).map Prod.snd =
      chunkWrites (files sent.transfer) chunk.toNat →
    ((node.receive intBits sent).log.filter
        fun entry => entry.1 = sent.transfer).map Prod.snd =
      chunkWrites (files sent.transfer) (chunk.toNat + 1)

/-- The offsets of a file's chunks are numbers that the program can
represent, and so is the number of its chunks. -/
structure Fits (intBits : Nat) (file : List UInt8) : Prop where
  chunk : chunks file < 2 ^ 16
  offset : 2 * ((chunks file - 1) * datasize) < 2 ^ intBits

instance (intBits : Nat) (file : List UInt8) :
    Decidable (Fits intBits file) :=
  decidable_of_iff (chunks file < 2 ^ 16 ∧
      2 * ((chunks file - 1) * datasize) < 2 ^ intBits)
    ⟨fun both => ⟨both.1, both.2⟩, fun fits => ⟨fits.chunk, fits.offset⟩⟩

variable (file : List UInt8)

theorem chunkWrites_succ (count : Nat) :
    chunkWrites file (count + 1) = chunkWrites file count ++
      (if count = 0 then [{ offset := 0, flag := .newfile, data := [] }]
        else []) ++ [chunkWrite file count] := by
  unfold chunkWrites
  rw [if_neg (Nat.succ_ne_zero count), List.range_succ, List.map_append]
  by_cases isFirst : count = 0
  · rw [if_pos isFirst, if_pos isFirst, isFirst]
    rfl
  · rw [if_neg isFirst, if_neg isFirst, List.append_nil]
    rfl

variable {intBits : Nat}

theorem Fits.offset_eq {file : List UInt8}
    (fits : Fits intBits file) {chunk : UInt16}
    (isChunk : chunk.toNat < chunks file) :
    Rudolph1.offset intBits chunk = (chunk.toNat * datasize : Nat) := by
  unfold Rudolph1.offset
  have small := fits.offset
  have lower : chunk.toNat * datasize ≤ (chunks file - 1) * datasize :=
    Nat.mul_le_mul_right datasize (Nat.le_sub_one_of_lt isChunk)
  apply Int.bmod_eq_of_le_mul_two
  · omega
  · omega

theorem readChunk_eq (chunk : Nat) :
    readChunk file (chunk * datasize : Nat) = chunkData file chunk := by
  unfold readChunk
  rw [if_neg (Int.not_lt.mpr (Int.natCast_nonneg _)), Int.toNat_natCast]
  rfl

theorem chunkData_take {chunk count : Nat} (isBefore : chunk < count) :
    chunkData (file.take (count * datasize)) chunk =
      chunkData file chunk := by
  unfold chunkData
  rw [List.drop_take, List.take_take]
  congr 1
  apply Nat.min_eq_left
  have next : (chunk + 1) * datasize ≤ count * datasize :=
    Nat.mul_le_mul_right datasize isBefore
  rw [Nat.succ_mul] at next
  omega

theorem writeChunk_chunkWrite (chunk : Nat) :
    writeChunk (file.take (chunk * datasize)) (chunkWrite file chunk) =
      file.take ((chunk + 1) * datasize) := by
  have notNew : (chunkWrite file chunk).flag ≠ .newfile := by
    unfold chunkWrite
    dsimp only
    split <;> exact Flag.noConfusion
  have joined : file.take (chunk * datasize) ++ chunkData file chunk =
      file.take ((chunk + 1) * datasize) := by
    rw [Nat.succ_mul, List.take_add]
    rfl
  unfold writeChunk
  rw [if_neg notNew]
  by_cases isEmpty : chunkData file chunk = []
  · have noData : ¬ (0 < (chunkWrite file chunk).data.length ∧
        0 ≤ (chunkWrite file chunk).offset) := by
      intro written
      exact absurd (congrArg List.length isEmpty) (Nat.ne_of_gt written.1)
    rw [if_neg noData, ← joined, isEmpty, List.append_nil]
  · have written : 0 < (chunkWrite file chunk).data.length ∧
        0 ≤ (chunkWrite file chunk).offset :=
      ⟨List.length_pos_iff.mpr isEmpty, Int.natCast_nonneg _⟩
    rw [if_pos written]
    have start : (chunkWrite file chunk).offset.toNat = chunk * datasize :=
      Int.toNat_natCast _
    have enough : chunk * datasize ≤ file.length := by
      by_contra beyond
      apply isEmpty
      unfold chunkData
      rw [List.drop_eq_nil_of_le (Nat.le_of_not_le beyond), List.take_nil]
    have length : (file.take (chunk * datasize)).length =
        chunk * datasize :=
      List.length_take_of_le enough
    dsimp only
    rw [start, length, Nat.sub_self, List.take_of_length_le
      (Nat.le_of_eq length),
      List.drop_eq_nil_of_le (by rw [length]; omega), List.replicate_zero,
      List.append_nil, List.append_nil]
    exact joined

/-- `write_data` for a chunk of a file. -/
theorem writeData_eq {file : List UInt8}
    (fits : Fits intBits file) {chunk : UInt16}
    (isChunk : chunk.toNat < chunks file) :
    writeData intBits chunk (chunkData file chunk.toNat) =
      (if chunk.toNat = 0 then
        [{ offset := 0, flag := .newfile, data := [] }]
      else []) ++ [chunkWrite file chunk.toNat] := by
  unfold writeData chunkWrite
  rw [fits.offset_eq isChunk]
  have first : chunk = 0 ↔ chunk.toNat = 0 :=
    ⟨fun isZero => congrArg UInt16.toNat isZero,
      fun isZero => UInt16.toNat_inj.mp isZero⟩
  congr 1
  · exact if_congr first rfl rfl
  · split <;> rfl

/-- The file of a node after `write_data`. -/
theorem foldl_writeData {file stored : List UInt8}
    (fits : Fits intBits file) {chunk : UInt16}
    (isChunk : chunk.toNat < chunks file)
    (isPart : 0 < chunk.toNat →
      stored = file.take (chunk.toNat * datasize)) :
    (writeData intBits chunk (chunkData file chunk.toNat)).foldl writeChunk
        stored = file.take ((chunk.toNat + 1) * datasize) := by
  rw [writeData_eq fits isChunk, List.foldl_append]
  by_cases isFirst : chunk.toNat = 0
  · rw [if_pos isFirst, isFirst]
    have isNew : List.foldl writeChunk stored
        [{ offset := 0, flag := .newfile, data := [] }] =
          file.take (0 * datasize) := by
      rw [Nat.zero_mul, List.take_zero]
      rfl
    rw [isNew]
    exact writeChunk_chunkWrite file 0
  · rw [if_neg isFirst, isPart (Nat.pos_of_ne_zero isFirst)]
    exact writeChunk_chunkWrite file chunk.toNat

/-! ## The calls of a node -/

/-- The log of a node that has written the first chunks of a transfer. -/
structure Progress (files : Nat → List UInt8) (log : List (Nat × WriteChunk))
    (transfer count : Nat) : Prop where
  wellWritten : WellWritten files log
  latest : ∀ entry ∈ log, entry.1 ≤ transfer
  current : (log.filter fun entry => entry.1 = transfer).map Prod.snd =
    chunkWrites (files transfer) count
  few : count ≤ chunks (files transfer)

variable {conn : Conn} {files : Nat → List UInt8}

theorem Progress.newer
    {log : List (Nat × WriteChunk)} {transfer count later : Nat}
    (progress : Progress files log transfer count)
    (isLater : transfer < later) : Progress files log later 0 where
  wellWritten := progress.wellWritten
  latest := fun entry isEntry =>
    Nat.le_trans (progress.latest entry isEntry) (Nat.le_of_lt isLater)
  current := by
    have none : (log.filter fun entry => entry.1 = later) = [] := by
      apply List.filter_eq_nil_iff.mpr
      intro entry isEntry isCurrent
      have before := progress.latest entry isEntry
      have same : entry.1 = later := of_decide_eq_true isCurrent
      omega
    rw [none]
    rfl
  few := Nat.zero_le _

theorem filter_append_same (log : List (Nat × WriteChunk)) (transfer : Nat)
    (writes : List WriteChunk) :
    ((log ++ writes.map fun write => (transfer, write)).filter
        fun entry => entry.1 = transfer).map Prod.snd =
      (log.filter fun entry => entry.1 = transfer).map Prod.snd ++
        writes := by
  have all : (writes.map fun write => (transfer, write)).filter
      (fun entry => entry.1 = transfer) =
        writes.map fun write => (transfer, write) := by
    apply List.filter_eq_self.mpr
    intro entry isEntry
    rcases List.mem_map.mp isEntry with ⟨write, _, rfl⟩
    exact decide_eq_true rfl
  rw [List.filter_append, List.map_append, all, List.map_map]
  congr 1
  exact List.map_id writes

theorem filter_append_other (log : List (Nat × WriteChunk))
    {transfer other : Nat} (different : other ≠ transfer)
    (writes : List WriteChunk) :
    (log ++ writes.map fun write => (transfer, write)).filter
        (fun entry => entry.1 = other) =
      log.filter fun entry => entry.1 = other := by
  have none : (writes.map fun write => (transfer, write)).filter
      (fun entry => entry.1 = other) = [] := by
    apply List.filter_eq_nil_iff.mpr
    intro entry isEntry isOther
    rcases List.mem_map.mp isEntry with ⟨write, _, rfl⟩
    exact different (of_decide_eq_true isOther).symm
  rw [List.filter_append, none, List.append_nil]

theorem Progress.next {log : List (Nat × WriteChunk)} {transfer count : Nat}
    (progress : Progress files log transfer count)
    (isChunk : count < chunks (files transfer)) {writes : List WriteChunk}
    (isWritten : writes = (if count = 0 then
        [{ offset := 0, flag := .newfile, data := [] }]
      else []) ++ [chunkWrite (files transfer) count]) :
    Progress files (log ++ writes.map fun write => (transfer, write))
      transfer (count + 1) := by
  have current : ((log ++ writes.map fun write => (transfer, write)).filter
        fun entry => entry.1 = transfer).map Prod.snd =
      chunkWrites (files transfer) (count + 1) := by
    rw [filter_append_same, progress.current, chunkWrites_succ, isWritten,
      List.append_assoc]
  refine { wellWritten := ⟨?_, ?_⟩, latest := ?_, current,
           few := isChunk }
  · rw [List.map_append, List.map_map, List.pairwise_append]
    refine ⟨progress.wellWritten.ordered, ?_, ?_⟩
    · apply List.pairwise_map.mpr
      exact List.pairwise_of_forall fun _ _ => Nat.le_refl transfer
    · intro first isFirst second isSecond
      rcases List.mem_map.mp isFirst with ⟨entry, isEntry, rfl⟩
      rcases List.mem_map.mp isSecond with ⟨write, _, rfl⟩
      exact progress.latest entry isEntry
  · intro other
    by_cases same : other = transfer
    · rw [same]
      exact ⟨count + 1, isChunk, current⟩
    · rw [filter_append_other log same]
      exact progress.wellWritten.written other
  · intro entry isEntry
    rcases List.mem_append.mp isEntry with inLog | isNew
    · exact progress.latest entry inLog
    · rcases List.mem_map.mp isNew with ⟨write, _, rfl⟩
      exact Nat.le_refl transfer

/-! ## Versions -/

theorem lt_iff (a b : UInt8) : lt a b = true ↔ 128 ≤ (a - b).toNat := by
  unfold lt
  rw [decide_eq_true_iff, Int8.lt_iff_toInt_lt]
  have value : (a - b).toInt8.toInt = (a - b).toBitVec.toInt := rfl
  have zero : (0 : Int8).toInt = 0 := rfl
  rw [value, zero, BitVec.toInt_eq_toNat_cond]
  have small : (a - b).toBitVec.toNat < 256 := (a - b).toBitVec.isLt
  have same : (a - b).toNat = (a - b).toBitVec.toNat := rfl
  rw [same]
  split <;> omega

theorem lt_irrefl (version : UInt8) : lt version version = false := by
  apply Bool.eq_false_iff.mpr
  rw [Ne, lt_iff, UInt8.sub_self]
  decide

theorem Close.lt_iff {first second : Nat} (close : Close first second) :
    lt (UInt8.ofNat first) (UInt8.ofNat second) = true ↔
      first < second := by
  rw [Rudolph1.lt_iff, UInt8.toNat_sub, UInt8.toNat_ofNat',
    UInt8.toNat_ofNat']
  unfold Close at close
  omega

theorem Close.eq_iff {first second : Nat} (close : Close first second) :
    UInt8.ofNat first = UInt8.ofNat second ↔ first = second := by
  rw [← UInt8.toNat_inj, UInt8.toNat_ofNat', UInt8.toNat_ofNat']
  unfold Close at close
  omega

/-! ## What a node does with a packet -/

/-- What a packet does to the version, the chunk and the file of a node. -/
inductive Effect (intBits : Nat) (conn : Conn) (packet : Packet)
    (handled : Handled) : Prop where
  /-- A new version, without its first chunk. -/
  | missed (version : UInt8) (chunk : UInt16) (data : List UInt8)
      (isData : packet = .data version chunk data)
      (newer : lt conn.version version = true)
      (isVersion : handled.conn.version = version)
      (isChunk : handled.conn.chunk = 0) (writes : handled.writes = [])
  /-- The next chunk, or the first one of a new version. -/
  | written (version : UInt8) (chunk : UInt16) (data : List UInt8)
      (isData : packet = .data version chunk data)
      (next : lt conn.version version = true ∧ chunk = 0 ∨
        lt conn.version version = false ∧ version = conn.version ∧
          chunk = conn.chunk)
      (isVersion : handled.conn.version = version)
      (isChunk : handled.conn.chunk = chunk + 1)
      (writes : handled.writes = writeData intBits chunk data)
  | ignored (isVersion : handled.conn.version = conn.version)
      (isChunk : handled.conn.chunk = conn.chunk)
      (writes : handled.writes = [])

theorem handleChunk_effect (intBits : Nat) (conn : Conn) (chunk : UInt16)
    (data : List UInt8) (notNewer : lt conn.version conn.version = false) :
    Effect intBits conn (.data conn.version chunk data)
      (handleChunk intBits conn chunk data) := by
  unfold handleChunk
  by_cases isNext : chunk = conn.chunk
  · rw [if_pos isNext]
    exact .written conn.version chunk data rfl
      (Or.inr ⟨notNewer, rfl, isNext⟩) rfl (by rw [isNext]) rfl
  · rw [if_neg isNext]
    by_cases isAbove : conn.chunk < chunk
    · rw [if_pos isAbove]
      exact .ignored rfl rfl rfl
    · rw [if_neg isAbove]
      exact .ignored rfl rfl rfl

theorem Effect.of_sent {packet : Packet}
    {handled : Handled} (effect : Effect intBits conn packet handled)
    (sent : List Packet) :
    Effect intBits conn packet { handled with sent } := by
  cases effect with
  | missed version chunk data isData newer isVersion isChunk writes =>
      exact .missed version chunk data isData newer isVersion isChunk writes
  | written version chunk data isData next isVersion isChunk writes =>
      exact .written version chunk data isData next isVersion isChunk writes
  | ignored isVersion isChunk writes =>
      exact .ignored isVersion isChunk writes

theorem handleData_effect (intBits : Nat) (conn : Conn) (version : UInt8)
    (chunk : UInt16) (data : List UInt8) :
    Effect intBits conn (.data version chunk data)
      (handleData intBits conn version chunk data) := by
  unfold handleData
  by_cases newer : lt conn.version version = true
  · rw [if_pos newer]
    by_cases isFirst : chunk = 0
    · rw [if_neg (not_not_intro isFirst)]
      exact .written version chunk data rfl (Or.inl ⟨newer, isFirst⟩) rfl
        (by rw [isFirst]; rfl) (by rw [isFirst])
    · rw [if_pos isFirst]
      exact .missed version chunk data rfl newer rfl rfl rfl
  · rw [if_neg newer]
    by_cases same : version = conn.version
    · rw [if_pos same]
      subst same
      have effect := handleChunk_effect intBits conn chunk data
        (Bool.eq_false_iff.mpr newer)
      dsimp only
      split
      · exact effect.of_sent _
      · exact effect
    · rw [if_neg same]
      exact .ignored rfl rfl rfl

theorem Effect.of_nacks {nacks : UInt8} {packet : Packet} {handled : Handled}
    (effect : Effect intBits { conn with nacks } packet handled) :
    Effect intBits conn packet handled := by
  cases effect with
  | missed version chunk data isData newer isVersion isChunk writes =>
      exact .missed version chunk data isData newer isVersion isChunk writes
  | written version chunk data isData next isVersion isChunk writes =>
      exact .written version chunk data isData next isVersion isChunk writes
  | ignored isVersion isChunk writes =>
      exact .ignored isVersion isChunk writes

theorem handled_effect (intBits : Nat) (node : Node) (sent : Sent) :
    Effect intBits node.conn sent.packet (node.handled intBits sent) := by
  unfold Node.handled
  cases sent.channel with
  | trickle =>
      cases sent.packet with
      | data version chunk data =>
          exact handleData_effect intBits node.conn version chunk data
      | nack version chunk => exact .ignored rfl rfl rfl
  | ipolite =>
      cases sent.packet with
      | data version chunk data =>
          exact (handleData_effect intBits _ version chunk data).of_nacks
      | nack version chunk =>
          dsimp only [recvIpolite]
          split
          · split <;> exact .ignored rfl rfl rfl
          · split <;> exact .ignored rfl rfl rfl

/-- What a node sends is a negative acknowledgement, or a chunk that its
neighbour misses. -/
inductive Reply (intBits : Nat) (node : Node) (sent : Sent)
    (handled : Handled) (packet : Packet) : Prop where
  | nack (isNack : packet = sendNack handled.conn)
      (heard : lt node.conn.version handled.conn.version = true ∨
        ∃ chunk data, sent.packet = .data node.conn.version chunk data)
  | repair (version : UInt8) (chunk : UInt16)
      (isNack : sent.packet = .nack version chunk)
      (same : version = node.conn.version)
      (isBefore : chunk < node.conn.chunk)
      (isRepair : packet = .data node.conn.version chunk
        (readData intBits node.file chunk))
  | older (version : UInt8) (chunk : UInt16)
      (isNack : sent.packet = .nack version chunk)
      (isOlder : lt version node.conn.version = true)
      (isRepair : packet = .data node.conn.version 0
        (readData intBits node.file 0))

variable {top reach : Nat} {node : Node}

theorem handleData_sent {sent : Sent}
    {conn : Conn} (isVersion : conn.version = node.conn.version)
    {version : UInt8} {chunk : UInt16} {data : List UInt8}
    (isData : sent.packet = .data version chunk data) :
    ∀ packet ∈ (handleData intBits conn version chunk data).sent,
      Reply intBits node sent (handleData intBits conn version chunk data)
        packet := by
  unfold handleData
  by_cases newer : lt conn.version version = true
  · rw [if_pos newer]
    rw [isVersion] at newer
    by_cases isFirst : chunk = 0
    · rw [if_neg (not_not_intro isFirst)]
      exact List.forall_mem_nil _
    · rw [if_pos isFirst]
      exact List.forall_mem_singleton.mpr (.nack rfl (Or.inl newer))
  · rw [if_neg newer]
    by_cases same : version = conn.version
    · rw [if_pos same]
      have heard : ∃ chunk data,
          sent.packet = .data node.conn.version chunk data :=
        ⟨chunk, data, by rw [isData, same, isVersion]⟩
      have nacks : ∀ packet ∈ (handleChunk intBits conn chunk data).sent,
          packet = sendNack (handleChunk intBits conn chunk data).conn := by
        unfold handleChunk
        split
        · exact List.forall_mem_nil _
        · split
          · exact List.forall_mem_singleton.mpr rfl
          · exact List.forall_mem_nil _
      dsimp only
      split
      · intro packet isSent
        rcases List.mem_append.mp isSent with isEarlier | isLast
        · exact .nack (nacks packet isEarlier) (Or.inr heard)
        · exact .nack (List.mem_singleton.mp isLast) (Or.inr heard)
      · intro packet isSent
        exact .nack (nacks packet isSent) (Or.inr heard)
    · rw [if_neg same]
      exact List.forall_mem_nil _

theorem handled_sent (intBits : Nat) (node : Node) (sent : Sent) :
    ∀ packet ∈ (node.handled intBits sent).sent,
      Reply intBits node sent (node.handled intBits sent) packet := by
  unfold Node.handled
  cases sent.channel with
  | trickle =>
      cases isPacket : sent.packet with
      | data version chunk data => exact handleData_sent rfl isPacket
      | nack version chunk => exact List.forall_mem_nil _
  | ipolite =>
      have isVersion : ({ node.conn with
          nacks := node.conn.nacks + 1 } : Conn).version =
        node.conn.version := rfl
      cases isPacket : sent.packet with
      | data version chunk data =>
          dsimp only [recvIpolite]
          exact handleData_sent isVersion isPacket
      | nack version chunk =>
          dsimp only [recvIpolite]
          by_cases same : version = node.conn.version
          · rw [if_pos same]
            split
            · rename_i isBefore
              exact List.forall_mem_singleton.mpr
                (.repair version chunk isPacket same isBefore rfl)
            · exact List.forall_mem_nil _
          · rw [if_neg same]
            split
            · rename_i isOlder
              exact List.forall_mem_singleton.mpr
                (.older version chunk isPacket isOlder rfl)
            · exact List.forall_mem_nil _

/-! ## Invariants -/

/-- A packet of a transfer, when the sender is in the transfer `top` and has
sent the chunks below `reach` of it. -/
inductive Genuine (files : Nat → List UInt8) (top reach : Nat)
    (sent : Sent) : Prop where
  | data (chunk : UInt16) (started : 1 ≤ sent.transfer)
      (latest : sent.transfer ≤ top)
      (isChunk : chunk.toNat < chunks (files sent.transfer))
      (below : sent.transfer = top → chunk.toNat < reach)
      (isData : sent.packet = .data (UInt8.ofNat sent.transfer) chunk
        (chunkData (files sent.transfer) chunk.toNat))
  | nack (chunk : UInt16) (started : 1 ≤ sent.transfer)
      (latest : sent.transfer ≤ top)
      (isNack : sent.packet = .nack (UInt8.ofNat sent.transfer) chunk)

theorem Genuine.started {files : Nat → List UInt8} {top reach : Nat}
    {sent : Sent} (genuine : Genuine files top reach sent) :
    1 ≤ sent.transfer := by
  cases genuine with
  | data chunk started => exact started
  | nack chunk started => exact started

theorem Genuine.latest {files : Nat → List UInt8} {top reach : Nat}
    {sent : Sent} (genuine : Genuine files top reach sent) :
    sent.transfer ≤ top := by
  cases genuine with
  | data chunk started latest => exact latest
  | nack chunk started latest => exact latest

/-- A receiver has written the first chunks of its transfer, and its file
contains them. -/
structure Received (files : Nat → List UInt8) (top reach : Nat)
    (node : Node) : Prop where
  version : node.conn.version = UInt8.ofNat node.transfer
  latest : node.transfer ≤ top
  below : node.transfer = top → node.conn.chunk.toNat ≤ reach
  progress : Progress files node.log node.transfer node.conn.chunk.toNat
  isPart : 0 < node.conn.chunk.toNat →
    node.file = (files node.transfer).take
      (node.conn.chunk.toNat * datasize)

/-- A receiver after the next chunk of its transfer, or after the first one
of a new transfer. -/
theorem Received.next {intBits : Nat} {files : Nat → List UInt8}
    {top reach transfer : Nat} {chunk : UInt16}
    {log : List (Nat × WriteChunk)} {stored : List UInt8}
    (progress : Progress files log transfer chunk.toNat)
    (isPart : 0 < chunk.toNat →
      stored = (files transfer).take (chunk.toNat * datasize))
    (fits : Fits intBits (files transfer))
    (isChunk : chunk.toNat < chunks (files transfer))
    (latest : transfer ≤ top) (below : transfer = top → chunk.toNat < reach)
    {conn : Conn} (isVersion : conn.version = UInt8.ofNat transfer)
    (isNext : conn.chunk = chunk + 1) :
    Received files top reach
      { conn
        file := (writeData intBits chunk
          (chunkData (files transfer) chunk.toNat)).foldl writeChunk stored
        transfer
        log := log ++ (writeData intBits chunk (chunkData (files transfer)
          chunk.toNat)).map fun write => (transfer, write) } := by
  have next : conn.chunk.toNat = chunk.toNat + 1 := by
    have small := fits.chunk
    rw [isNext, UInt16.toNat_add]
    have one : (1 : UInt16).toNat = 1 := rfl
    rw [one]
    exact Nat.mod_eq_of_lt (by omega)
  refine { version := isVersion, latest, below := ?_, progress := ?_,
           isPart := ?_ }
  · intro isTop
    dsimp only
    rw [next]
    exact below isTop
  · dsimp only
    rw [next]
    exact progress.next isChunk (writeData_eq fits isChunk)
  · intro _
    dsimp only
    rw [next]
    exact foldl_writeData fits isChunk isPart

theorem Received.receive (received : Received files top reach node)
    {sent : Sent} (genuine : Genuine files top reach sent)
    (close : Close sent.transfer node.transfer)
    (fits : Fits intBits (files sent.transfer)) :
    Received files top reach (node.receive intBits sent) := by
  have effect := handled_effect intBits node sent
  unfold Node.receive
  generalize node.handled intBits sent = handled at effect ⊢
  dsimp only
  have backward : Close node.transfer sent.transfer :=
    ⟨close.2, close.1⟩
  cases effect with
  | missed version chunk data isData newer isVersion isChunk writes =>
      rcases genuine with ⟨_, started, latest, _, _, isGenuine⟩ |
        ⟨_, _, _, isNack⟩
      · rw [isGenuine] at isData
        cases isData
        rw [received.version, backward.lt_iff] at newer
        have changed : handled.conn.version ≠ node.conn.version := by
          rw [isVersion, received.version]
          intro same
          exact absurd (close.eq_iff.mp same) (Nat.ne_of_gt newer)
        have zero : handled.conn.chunk.toNat = 0 := by
          rw [isChunk]
          rfl
        rw [if_neg changed, writes]
        refine { version := isVersion, latest, below := ?_,
                 progress := ?_, isPart := ?_ }
        · intro _
          dsimp only
          rw [zero]
          exact Nat.zero_le _
        · dsimp only
          rw [zero, List.map_nil, List.append_nil]
          exact received.progress.newer newer
        · dsimp only
          rw [zero]
          exact fun positive => absurd positive (Nat.lt_irrefl 0)
      · rw [isNack] at isData
        exact nomatch isData
  | written version chunk data isData next isVersion isChunk writes =>
      rcases genuine with ⟨_, started, latest, few, below, isGenuine⟩ |
        ⟨_, _, _, isNack⟩
      · rw [isGenuine] at isData
        cases isData
        rcases next with ⟨newer, isFirst⟩ | ⟨_, same, isNext⟩
        · rw [received.version, backward.lt_iff] at newer
          have changed : handled.conn.version ≠ node.conn.version := by
            rw [isVersion, received.version]
            intro same
            exact absurd (close.eq_iff.mp same) (Nat.ne_of_gt newer)
          have zero : chunk.toNat = 0 := by
            rw [isFirst]
            rfl
          have progress : Progress files node.log sent.transfer
              chunk.toNat := by
            rw [zero]
            exact received.progress.newer newer
          have isPart : 0 < chunk.toNat → node.file =
              (files sent.transfer).take (chunk.toNat * datasize) := by
            rw [zero]
            exact fun positive => absurd positive (Nat.lt_irrefl 0)
          rw [if_neg changed, writes]
          exact Received.next progress isPart fits few latest below
            isVersion isChunk
        · rw [received.version, close.eq_iff] at same
          have unchanged : handled.conn.version = node.conn.version := by
            rw [isVersion, received.version, same]
          rw [if_pos unchanged, writes]
          rw [same] at fits few latest below isVersion ⊢
          rw [isNext] at few below isChunk ⊢
          exact Received.next received.progress received.isPart fits few
            latest below isVersion isChunk
      · rw [isNack] at isData
        exact nomatch isData
  | ignored isVersion isChunk writes =>
      rw [if_pos isVersion, writes]
      refine { version := isVersion.trans received.version
               latest := received.latest, below := ?_, progress := ?_,
               isPart := ?_ }
      · dsimp only
        rw [isChunk]
        exact received.below
      · dsimp only
        rw [isChunk, List.map_nil, List.append_nil]
        exact received.progress
      · dsimp only
        rw [isChunk]
        exact received.isPart

/-! ## The next chunk -/

theorem handleData_next {version : UInt8} {chunk : UInt16} (data : List UInt8)
    (next : lt conn.version version = true ∧ chunk = 0 ∨
      version = conn.version ∧ chunk = conn.chunk) :
    (handleData intBits conn version chunk data).conn.version = version ∧
      (handleData intBits conn version chunk data).conn.chunk =
        chunk + 1 := by
  unfold handleData
  rcases next with ⟨newer, rfl⟩ | ⟨rfl, rfl⟩
  · rw [if_pos newer, if_neg (not_not_intro rfl)]
    exact ⟨rfl, rfl⟩
  · rw [if_neg (by rw [lt_irrefl]; exact Bool.false_ne_true), if_pos rfl]
    have counted :
        (handleChunk intBits conn conn.chunk data).conn.version =
            conn.version ∧
          (handleChunk intBits conn conn.chunk data).conn.chunk =
            conn.chunk + 1 := by
      unfold handleChunk
      rw [if_pos rfl]
      exact ⟨rfl, rfl⟩
    dsimp only
    split
    · exact counted
    · exact counted

theorem handled_next (intBits : Nat) {node : Node} {sent : Sent}
    {version : UInt8} {chunk : UInt16} {data : List UInt8}
    (isData : sent.packet = .data version chunk data)
    (next : lt node.conn.version version = true ∧ chunk = 0 ∨
      version = node.conn.version ∧ chunk = node.conn.chunk) :
    (node.handled intBits sent).conn.version = version ∧
      (node.handled intBits sent).conn.chunk = chunk + 1 := by
  unfold Node.handled
  rw [isData]
  cases sent.channel with
  | trickle => exact handleData_next data next
  | ipolite =>
      exact @handleData_next intBits
        { node.conn with nacks := node.conn.nacks + 1 } _ _ data next

theorem chunkWrites_injective {file : List UInt8} {first second : Nat}
    (same : chunkWrites file first = chunkWrites file second) :
    first = second := by
  have lengths := congrArg List.length same
  unfold chunkWrites at lengths
  split at lengths <;> split at lengths <;>
    simp only [List.length_nil, List.length_cons, List.length_map,
      List.length_range] at lengths <;> omega

/-- The chunk behind those that a receiver has written of a transfer is
written when it arrives. -/
theorem Received.takesNext (received : Received files top reach node)
    {sent : Sent} (genuine : Genuine files top reach sent)
    (fits : Fits intBits (files sent.transfer)) :
    TakesNext intBits files node sent := by
  intro version chunk data isData close order written
  have after := (received.receive genuine close fits).progress.current
  have backward : Close node.transfer sent.transfer :=
    ⟨close.2, close.1⟩
  have isGenuine : chunk.toNat < chunks (files sent.transfer) ∧
      version = UInt8.ofNat sent.transfer := by
    cases genuine with
    | data sentChunk started latest isChunk below isSent =>
        rw [isSent] at isData
        cases isData
        exact ⟨isChunk, rfl⟩
    | nack sentChunk started latest isNack =>
        rw [isNack] at isData
        exact nomatch isData
  obtain ⟨isChunk, rfl⟩ := isGenuine
  -- the node is at this transfer, or the chunk is the first one
  have next : node.transfer < sent.transfer ∧ chunk = 0 ∨
      sent.transfer = node.transfer ∧ chunk = node.conn.chunk := by
    rcases Nat.lt_or_eq_of_le order with newer | same
    · have none := (received.progress.newer newer).current
      have isFirst := chunkWrites_injective (written.symm.trans none)
      exact Or.inl ⟨newer, UInt16.toNat_inj.mp isFirst⟩
    · have current := received.progress.current
      rw [same] at current
      have isNext := chunkWrites_injective (written.symm.trans current)
      exact Or.inr ⟨same.symm, UInt16.toNat_inj.mp isNext⟩
  have isNext : lt node.conn.version (UInt8.ofNat sent.transfer) = true ∧
        chunk = 0 ∨
      UInt8.ofNat sent.transfer = node.conn.version ∧
        chunk = node.conn.chunk := by
    rw [received.version, backward.lt_iff, close.eq_iff]
    exact next
  obtain ⟨isVersion, isAfter⟩ := handled_next intBits isData isNext
  have transfer : (node.receive intBits sent).transfer =
      sent.transfer := by
    change (if _ then _ else _) = _
    split
    · next unchanged =>
        rw [isVersion, received.version, close.eq_iff] at unchanged
        exact unchanged.symm
    · rfl
  have count : (node.receive intBits sent).conn.chunk.toNat =
      chunk.toNat + 1 := by
    change (node.handled intBits sent).conn.chunk.toNat = _
    have small := fits.chunk
    have one : (1 : UInt16).toNat = 1 := rfl
    rw [isAfter, UInt16.toNat_add, one]
    exact Nat.mod_eq_of_lt (by omega)
  rw [transfer, count] at after
  exact after

/-! ## Replies -/

theorem readData_eq {file : List UInt8}
    (fits : Fits intBits file) {chunk : UInt16}
    (isChunk : chunk.toNat < chunks file) {stored : List UInt8}
    (isStored : chunkData stored chunk.toNat =
      chunkData file chunk.toNat) :
    readData intBits stored chunk = chunkData file chunk.toNat := by
  unfold readData
  rw [fits.offset_eq isChunk, readChunk_eq, isStored]

/-- A node that does not have the first chunk of its version gets no negative
acknowledgement of an older version. -/
def Answers (node : Node) : Packet → Prop
  | .nack version _ =>
      lt version node.conn.version = true → node.conn.chunk ≠ 0
  | .data _ _ _ => True

instance (node : Node) (packet : Packet) : Decidable (Answers node packet) :=
  match packet with
  | .nack _ _ => inferInstanceAs (Decidable (_ → _))
  | .data _ _ _ => inferInstanceAs (Decidable True)

/-- A node stores the chunks below its chunk number. -/
structure Stores (files : Nat → List UInt8) (top reach : Nat)
    (node : Node) : Prop where
  version : node.conn.version = UInt8.ofNat node.transfer
  latest : node.transfer ≤ top
  below : node.transfer = top → node.conn.chunk.toNat ≤ reach
  few : node.conn.chunk.toNat ≤ chunks (files node.transfer)
  stored : ∀ chunk < node.conn.chunk.toNat,
    chunkData node.file chunk = chunkData (files node.transfer) chunk

theorem Received.stores (received : Received files top reach node) :
    Stores files top reach node where
  version := received.version
  latest := received.latest
  below := received.below
  few := received.progress.few
  stored := by
    intro chunk isBefore
    rw [received.isPart (Nat.zero_lt_of_lt isBefore)]
    exact chunkData_take _ isBefore

theorem Stores.repair (stores : Stores files top reach node)
    (started : 1 ≤ node.transfer)
    (fits : Fits intBits (files node.transfer)) {chunk : UInt16}
    (isBefore : chunk.toNat < node.conn.chunk.toNat) (channel : Channel) :
    Genuine files top reach
      { channel
        transfer := node.transfer
        packet := .data node.conn.version chunk
          (readData intBits node.file chunk) } := by
  have isChunk := Nat.lt_of_lt_of_le isBefore stores.few
  refine .data chunk started stores.latest isChunk ?_ ?_
  · intro isTop
    exact Nat.lt_of_lt_of_le isBefore (stores.below isTop)
  · dsimp only
    rw [stores.version, readData_eq fits isChunk
      (stores.stored chunk.toNat isBefore)]

theorem Stores.replies (stores : Stores files top reach node)
    {sent : Sent} (genuine : Genuine files top reach sent)
    (close : Close sent.transfer node.transfer)
    (answers : Answers node sent.packet)
    (fits : 1 ≤ node.transfer → Fits intBits (files node.transfer))
    (after : Stores files top reach (node.receive intBits sent)) :
    ∀ reply ∈ node.replies intBits sent,
      Genuine files top reach reply := by
  intro reply isReply
  rcases List.mem_map.mp isReply with ⟨packet, isSent, rfl⟩
  have transfer : (node.receive intBits sent).transfer =
      if (node.handled intBits sent).conn.version = node.conn.version then
        node.transfer
      else sent.transfer := rfl
  have started : 1 ≤ sent.transfer := by
    rcases genuine with ⟨_, started, _⟩ | ⟨_, started, _⟩ <;>
      exact started
  have unchanged : ∀ version chunk, sent.packet = .nack version chunk →
      (node.receive intBits sent).transfer = node.transfer := by
    intro version chunk isNack
    rw [transfer]
    apply if_pos
    rcases handled_effect intBits node sent with
      ⟨_, _, _, isData, _⟩ | ⟨_, _, _, isData, _⟩ | ⟨isVersion, _, _⟩
    · rw [isNack] at isData
      exact nomatch isData
    · rw [isNack] at isData
      exact nomatch isData
    · exact isVersion
  have nackVersion : ∀ version chunk, sent.packet = .nack version chunk →
      version = UInt8.ofNat sent.transfer := by
    intro version chunk isNack
    rcases genuine with ⟨_, _, _, _, _, isData⟩ | ⟨_, _, _, isGenuine⟩
    · rw [isNack] at isData
      exact nomatch isData
    · rw [isNack] at isGenuine
      cases isGenuine
      rfl
  cases handled_sent intBits node sent packet isSent with
  | nack isNack heard =>
      refine .nack (node.handled intBits sent).conn.chunk ?_ after.latest ?_
      · dsimp only
        rw [transfer]
        split
        · rename_i same
          rcases heard with newer | ⟨chunk, data, isData⟩
          · rw [same, lt_irrefl] at newer
            exact absurd newer Bool.false_ne_true
          · rcases genuine with ⟨_, _, _, _, _, isGenuine⟩ |
              ⟨_, _, _, isNack⟩
            · rw [isGenuine] at isData
              have isVersion := (Packet.data.inj isData).1
              rw [stores.version, close.eq_iff] at isVersion
              rw [← isVersion]
              exact started
            · rw [isNack] at isData
              exact nomatch isData
        · exact started
      · dsimp only
        rw [isNack, ← after.version]
        rfl
  | repair version chunk isNack same isBefore isRepair =>
      rw [nackVersion version chunk isNack, stores.version,
        close.eq_iff] at same
      rw [same] at started
      rw [isRepair, unchanged version chunk isNack]
      exact stores.repair started (fits started)
        (UInt16.lt_iff_toNat_lt.mp isBefore) .ipolite
  | older version chunk isNack isOlder isRepair =>
      have notFirst : node.conn.chunk ≠ 0 := by
        rw [isNack] at answers
        exact answers isOlder
      have positive : (0 : UInt16).toNat < node.conn.chunk.toNat :=
        Nat.pos_of_ne_zero fun isZero =>
          notFirst (UInt16.toNat_inj.mp isZero)
      rw [nackVersion version chunk isNack, stores.version,
        close.lt_iff] at isOlder
      have later : 1 ≤ node.transfer := Nat.one_le_of_lt isOlder
      rw [isRepair, unchanged version chunk isNack]
      exact stores.repair later (fits later) positive .ipolite

/-! ## The sender -/

/-- The sender has the whole file of its transfer. -/
structure Sending (files : Nat → List UInt8) (node : Node) : Prop where
  version : node.conn.version = UInt8.ofNat node.transfer
  idle : node.transfer = 0 →
    node.conn.timer = false ∧ node.conn.chunk.toNat = 0
  file : 1 ≤ node.transfer → node.file = files node.transfer
  started : 1 ≤ node.transfer → 1 ≤ node.conn.chunk.toNat
  few : node.conn.chunk.toNat ≤ chunks (files node.transfer)
  timer : node.conn.timer = true →
    node.conn.chunk.toNat < chunks (files node.transfer)

theorem handleChunk_timer (intBits : Nat) (conn : Conn) (chunk : UInt16)
    (data : List UInt8) :
    (handleChunk intBits conn chunk data).conn.timer = conn.timer := by
  unfold handleChunk
  split
  · rfl
  · split <;> rfl

theorem handleData_timer (intBits : Nat) (conn : Conn) (version : UInt8)
    (chunk : UInt16) (data : List UInt8) :
    (handleData intBits conn version chunk data).conn.timer =
      conn.timer := by
  unfold handleData
  split
  · split <;> rfl
  · split
    · dsimp only
      split <;> exact handleChunk_timer intBits conn chunk data
    · rfl

theorem handled_timer (intBits : Nat) (node : Node) (sent : Sent) :
    (node.handled intBits sent).conn.timer = node.conn.timer := by
  unfold Node.handled
  cases sent.channel with
  | trickle =>
      cases sent.packet with
      | data version chunk data => exact handleData_timer ..
      | nack version chunk => rfl
  | ipolite =>
      cases sent.packet with
      | data version chunk data => exact handleData_timer ..
      | nack version chunk =>
          dsimp only [recvIpolite]
          split
          · split <;> rfl
          · split <;> rfl

theorem Sending.ignores (sending : Sending files node) {sent : Sent}
    (genuine : Genuine files node.transfer node.conn.chunk.toNat sent)
    (close : Close sent.transfer node.transfer) :
    (node.handled intBits sent).conn.version = node.conn.version ∧
      (node.handled intBits sent).conn.chunk = node.conn.chunk ∧
      (node.handled intBits sent).writes = [] := by
  have backward : Close node.transfer sent.transfer :=
    ⟨close.2, close.1⟩
  have newest : ∀ version chunk data,
      sent.packet = .data version chunk data →
        lt node.conn.version version = false ∧
          (version = node.conn.version → chunk ≠ node.conn.chunk) := by
    intro version chunk data isData
    rcases genuine with ⟨_, _, latest, _, below, isGenuine⟩ |
      ⟨_, _, _, isNack⟩
    · rw [isGenuine] at isData
      cases isData
      constructor
      · apply Bool.eq_false_iff.mpr
        rw [Ne, sending.version, backward.lt_iff]
        exact Nat.not_lt.mpr latest
      · intro same isNext
        rw [sending.version, close.eq_iff] at same
        have isBelow := below same
        rw [isNext] at isBelow
        exact Nat.lt_irrefl _ isBelow
    · rw [isNack] at isData
      exact nomatch isData
  cases handled_effect intBits node sent with
  | missed version chunk data isData newer =>
      rw [(newest version chunk data isData).1] at newer
      exact absurd newer Bool.false_ne_true
  | written version chunk data isData next =>
      rcases next with ⟨newer, _⟩ | ⟨_, same, isNext⟩
      · rw [(newest version chunk data isData).1] at newer
        exact absurd newer Bool.false_ne_true
      · exact absurd isNext ((newest version chunk data isData).2 same)
  | ignored isVersion isChunk writes => exact ⟨isVersion, isChunk, writes⟩

theorem Sending.stores (sending : Sending files node) :
    Stores files node.transfer node.conn.chunk.toNat node where
  version := sending.version
  latest := Nat.le_refl _
  below := fun _ => Nat.le_refl _
  few := sending.few
  stored := by
    intro chunk isBefore
    by_cases started : 1 ≤ node.transfer
    · rw [sending.file started]
    · have isFirst := (sending.idle (by omega)).2
      rw [isFirst] at isBefore
      exact absurd isBefore (Nat.not_lt_zero chunk)

theorem Sending.receive (sending : Sending files node) {sent : Sent}
    (genuine : Genuine files node.transfer node.conn.chunk.toNat sent)
    (close : Close sent.transfer node.transfer) :
    Sending files (node.receive intBits sent) ∧
      (node.receive intBits sent).transfer = node.transfer ∧
      (node.receive intBits sent).conn.chunk = node.conn.chunk := by
  rcases sending.ignores genuine close with ⟨isVersion, isChunk, writes⟩
  have isTimer := handled_timer intBits node sent
  unfold Node.receive
  generalize node.handled intBits sent = handled
    at isVersion isChunk isTimer writes ⊢
  dsimp only
  rw [if_pos isVersion, writes]
  refine ⟨?_, rfl, isChunk⟩
  constructor
  · exact isVersion.trans sending.version
  · dsimp only
    rw [isTimer, isChunk]
    exact sending.idle
  · exact sending.file
  · dsimp only
    rw [isChunk]
    exact sending.started
  · dsimp only
    rw [isChunk]
    exact sending.few
  · dsimp only
    rw [isTimer, isChunk]
    exact sending.timer

theorem two_le_chunks : 2 ≤ chunks file :=
  Nat.le_max_left _ _

theorem next_chunk {file : List UInt8} {chunk : Nat}
    (isFull : (chunkData file chunk).length = datasize) :
    chunk + 1 < chunks file := by
  unfold chunkData at isFull
  rw [List.length_take, List.length_drop] at isFull
  have enough : (chunk + 1) * datasize ≤ file.length := by
    have positive : 0 < datasize := by decide
    rw [Nat.succ_mul]
    omega
  have quotient := (Nat.le_div_iff_mul_le (by decide : 0 < datasize)).mpr
    enough
  exact Nat.lt_of_lt_of_le (Nat.lt_succ_of_le quotient)
    (Nat.le_max_right _ _)

/-! ## Steps -/

/-- The state of the nodes and of the network. -/
structure Valid {Receiver : Type} (intBits : Nat) (files : Nat → List UInt8)
    (system : System Receiver) : Prop where
  fits : ∀ transfer, 1 ≤ transfer → transfer ≤ system.sender.transfer →
    Fits intBits (files transfer)
  sending : Sending files system.sender
  received : ∀ receiver, Received files system.sender.transfer
    system.sender.conn.chunk.toNat (system.receivers receiver)
  genuine : ∀ sent ∈ system.network, Genuine files system.sender.transfer
    system.sender.conn.chunk.toNat sent

/-- The sender has sent more than before. -/
def Further (top reach newTop newReach : Nat) : Prop :=
  top < newTop ∨ top = newTop ∧ reach ≤ newReach

theorem Received.further {files : Nat → List UInt8}
    {top reach newTop newReach : Nat} {node : Node}
    (received : Received files top reach node)
    (further : Further top reach newTop newReach) :
    Received files newTop newReach node where
  version := received.version
  latest := by
    have latest := received.latest
    unfold Further at further
    omega
  below := by
    intro isTop
    have latest := received.latest
    rcases further with isLater | ⟨same, isFurther⟩
    · omega
    · exact Nat.le_trans (received.below (isTop.trans same.symm)) isFurther
  progress := received.progress
  isPart := received.isPart

theorem Genuine.further {files : Nat → List UInt8}
    {top reach newTop newReach : Nat} {sent : Sent}
    (genuine : Genuine files top reach sent)
    (further : Further top reach newTop newReach) :
    Genuine files newTop newReach sent := by
  have order : top ≤ newTop := by
    unfold Further at further
    omega
  cases genuine with
  | data chunk started latest isChunk below isData =>
      refine .data chunk started (Nat.le_trans latest order) isChunk ?_
        isData
      intro isTop
      rcases further with isLater | ⟨same, isFurther⟩
      · omega
      · exact Nat.lt_of_lt_of_le (below (isTop.trans same.symm)) isFurther
  | nack chunk started latest isNack =>
      exact .nack chunk started (Nat.le_trans latest order) isNack

section Steps

variable {Receiver : Type} [DecidableEq Receiver] {intBits : Nat}
  {files : Nat → List UInt8}

omit [DecidableEq Receiver] in
theorem init_valid :
    Valid intBits files (System.init : System Receiver) where
  fits := by
    intro transfer started latest
    have none : transfer ≤ 0 := latest
    omega
  sending :=
    { version := rfl
      idle := fun _ => ⟨rfl, rfl⟩
      file := fun started => absurd started (Nat.not_succ_le_zero 0)
      started := fun started => absurd started (Nat.not_succ_le_zero 0)
      few := Nat.zero_le _
      timer := fun isSet => absurd isSet Bool.false_ne_true }
  received := fun _ =>
    { version := rfl
      latest := Nat.le_refl 0
      below := fun _ => Nat.le_refl 0
      progress :=
        { wellWritten :=
            { ordered := List.Pairwise.nil
              written := fun _ => ⟨0, Nat.zero_le _, rfl⟩ }
          latest := List.forall_mem_nil _
          current := rfl
          few := Nat.zero_le _ }
      isPart := fun positive => absurd positive (Nat.lt_irrefl 0) }
  genuine := List.forall_mem_nil _

variable {system : System Receiver}

theorem Valid.send (valid : Valid intBits files system)
    (fits : Fits intBits (files (system.sender.transfer + 1))) :
    Valid intBits files (system.step intBits files .send) := by
  have further : Further system.sender.transfer
      system.sender.conn.chunk.toNat (system.sender.transfer + 1) 1 :=
    Or.inl (Nat.lt_succ_self _)
  have version : system.sender.conn.version + 1 =
      UInt8.ofNat (system.sender.transfer + 1) := by
    rw [valid.sending.version, UInt8.ofNat_add]
    rfl
  refine { fits := ?_, sending := ?_, received := ?_, genuine := ?_ }
  · intro transfer started latest
    have isNew : transfer ≤ system.sender.transfer + 1 := latest
    rcases Nat.lt_or_eq_of_le isNew with isOld | same
    · exact valid.fits transfer started (Nat.le_of_lt_succ isOld)
    · rw [same]
      exact fits
  · exact
      { version
        idle := fun isZero => absurd isZero (Nat.succ_ne_zero _)
        file := fun _ => rfl
        started := fun _ => Nat.le_refl 1
        few := Nat.le_trans (Nat.le_succ 1) (two_le_chunks _)
        timer := fun _ => two_le_chunks _ }
  · exact fun receiver => (valid.received receiver).further further
  · intro sent isSent
    rcases List.mem_append.mp isSent with isEarlier | isNew
    · exact (valid.genuine sent isEarlier).further further
    · have same := List.mem_singleton.mp isNew
      have isChunk : (0 : UInt16).toNat <
          chunks (files (system.sender.transfer + 1)) :=
        Nat.lt_of_lt_of_le (by decide) (two_le_chunks _)
      rw [same]
      refine .data 0 (Nat.le_add_left _ _) (Nat.le_refl _) isChunk
        (fun _ => Nat.zero_lt_one) ?_
      have data := readData_eq fits isChunk rfl
      dsimp only [formatData]
      rw [data, version]

theorem Valid.timer {system : System Receiver}
    (valid : Valid intBits files system) :
    Valid intBits files (system.step intBits files .timer) := by
  unfold System.step
  by_cases isSet : system.sender.conn.timer = true
  · have started : 1 ≤ system.sender.transfer := by
      by_contra isIdle
      have notSet := (valid.sending.idle (by omega)).1
      rw [isSet] at notSet
      exact Bool.false_ne_true notSet.symm
    have fits := valid.fits _ started (Nat.le_refl _)
    have isChunk := valid.sending.timer isSet
    have isFile := valid.sending.file started
    have next : (system.sender.conn.chunk + 1).toNat =
        system.sender.conn.chunk.toNat + 1 := by
      have small := fits.chunk
      have one : (1 : UInt16).toNat = 1 := rfl
      rw [UInt16.toNat_add, one]
      exact Nat.mod_eq_of_lt (by omega)
    have data : readData intBits system.sender.file
          system.sender.conn.chunk =
        chunkData (files system.sender.transfer)
          system.sender.conn.chunk.toNat := by
      rw [isFile]
      exact readData_eq fits isChunk rfl
    dsimp only [sendNextPacket]
    rw [if_pos isSet]
    by_cases noNacks : system.sender.conn.nacks = 0
    · rw [if_pos noNacks]
      have further : Further system.sender.transfer
          system.sender.conn.chunk.toNat system.sender.transfer
          (system.sender.conn.chunk + 1).toNat :=
        Or.inr ⟨rfl, by omega⟩
      refine { fits := valid.fits, sending := ?_, received := ?_,
               genuine := ?_ }
      · constructor
        · exact valid.sending.version
        · intro isIdle
          have isZero : system.sender.transfer = 0 := isIdle
          omega
        · exact valid.sending.file
        · intro _
          dsimp only
          omega
        · dsimp only
          omega
        · intro isFull
          have full := of_decide_eq_true isFull
          rw [data] at full
          dsimp only
          rw [next]
          exact next_chunk full
      · exact fun receiver => (valid.received receiver).further further
      · intro sent isSent
        rcases List.mem_append.mp isSent with isEarlier | isNew
        · exact (valid.genuine sent isEarlier).further further
        · have same := List.mem_singleton.mp isNew
          rw [same]
          refine .data system.sender.conn.chunk started (Nat.le_refl _)
            isChunk ?_ ?_
          · intro _
            dsimp only
            omega
          · dsimp only [formatData]
            rw [data, valid.sending.version]
    · rw [if_neg noNacks]
      refine { fits := valid.fits, sending := ?_,
               received := valid.received, genuine := ?_ }
      · exact
          { version := valid.sending.version
            idle := fun isIdle => absurd started (by
              rw [isIdle]
              decide)
            file := valid.sending.file
            started := valid.sending.started
            few := valid.sending.few
            timer := fun _ => isChunk }
      · intro sent isSent
        rcases List.mem_append.mp isSent with isEarlier | isNew
        · exact valid.genuine sent isEarlier
        · exact absurd isNew List.not_mem_nil
  · rw [if_neg isSet]
    exact valid

/-- A condition on the packet that a node receives, if there is one. -/
def OnPacket (received : Option Sent) (condition : Sent → Prop) : Prop :=
  match received with
  | some sent => condition sent
  | none => True

instance (received : Option Sent) (condition : Sent → Prop)
    [DecidablePred condition] : Decidable (OnPacket received condition) :=
  match received with
  | some sent => inferInstanceAs (Decidable (condition sent))
  | none => inferInstanceAs (Decidable True)

/-- The versions of the packet and of the node that receives it are within 127
of each other. -/
def CloseStep (system : System Receiver) : Event Receiver → Prop
  | .send => True
  | .timer => True
  | .senderReceives index =>
      OnPacket system.network[index]? fun sent =>
        Close sent.transfer system.sender.transfer
  | .receives receiver index =>
      OnPacket system.network[index]? fun sent =>
        Close sent.transfer (system.receivers receiver).transfer

instance (system : System Receiver) (event : Event Receiver) :
    Decidable (CloseStep system event) :=
  match event with
  | .send => inferInstanceAs (Decidable True)
  | .timer => inferInstanceAs (Decidable True)
  | .senderReceives _ => inferInstanceAs (Decidable (OnPacket _ _))
  | .receives _ _ => inferInstanceAs (Decidable (OnPacket _ _))

/-- The chunks of a new file are so few that they can be counted, and no
receiver that misses the first chunk of its version gets a negative
acknowledgement of an older one. -/
def Mild (intBits : Nat) (files : Nat → List UInt8)
    (system : System Receiver) : Event Receiver → Prop
  | .send => Fits intBits (files (system.sender.transfer + 1))
  | .timer => True
  | .senderReceives _ => True
  | .receives receiver index =>
      OnPacket system.network[index]? fun sent =>
        Answers (system.receivers receiver) sent.packet

instance (intBits : Nat) (files : Nat → List UInt8)
    (system : System Receiver) (event : Event Receiver) :
    Decidable (Mild intBits files system event) :=
  match event with
  | .send => inferInstanceAs (Decidable (Fits _ _))
  | .timer => inferInstanceAs (Decidable True)
  | .senderReceives _ => inferInstanceAs (Decidable True)
  | .receives _ _ => inferInstanceAs (Decidable (OnPacket _ _))

theorem Valid.senderReceives
    (valid : Valid intBits files system) (index : Nat)
    (close : CloseStep system (.senderReceives index)) :
    Valid intBits files
      (system.step intBits files (.senderReceives index)) := by
  dsimp only [System.step]
  dsimp only [CloseStep, OnPacket] at close
  cases isSent : system.network[index]? with
  | none => exact valid
  | some sent =>
      rw [isSent] at close
      dsimp only at close ⊢
      have genuine := valid.genuine sent (List.mem_of_getElem? isSent)
      rcases valid.sending.receive genuine close with
        ⟨sending, transfer, chunk⟩
      have stores := valid.sending.stores
      have after := sending.stores
      rw [transfer, chunk] at after
      have answers : Answers system.sender sent.packet := by
        cases isPacket : sent.packet with
        | data version chunk data => trivial
        | nack version chunk =>
            intro isOlder isZero
            rcases genuine with ⟨_, _, _, _, _, isData⟩ |
              ⟨_, _, _, isNack⟩
            · rw [isData] at isPacket
              exact nomatch isPacket
            · rw [isNack] at isPacket
              rw [← (Packet.nack.inj isPacket).1, valid.sending.version,
                close.lt_iff] at isOlder
              have started := valid.sending.started
                (Nat.one_le_of_lt isOlder)
              rw [isZero] at started
              exact Nat.not_succ_le_zero 0 started
      have replies := stores.replies genuine close answers
        (fun started => valid.fits _ started (Nat.le_refl _)) after
      refine { fits := ?_, sending, received := ?_, genuine := ?_ }
      · dsimp only
        rw [transfer]
        exact valid.fits
      · dsimp only
        rw [transfer, chunk]
        exact valid.received
      · dsimp only
        rw [transfer, chunk]
        intro other isOther
        rcases List.mem_append.mp isOther with isEarlier | isReply
        · exact valid.genuine other isEarlier
        · exact replies other isReply

theorem Valid.receives
    (valid : Valid intBits files system) (receiver : Receiver) (index : Nat)
    (close : CloseStep system (.receives receiver index))
    (mild : Mild intBits files system (.receives receiver index)) :
    Valid intBits files
      (system.step intBits files (.receives receiver index)) := by
  dsimp only [System.step]
  dsimp only [CloseStep, OnPacket] at close
  dsimp only [Mild, OnPacket] at mild
  cases isSent : system.network[index]? with
  | none => exact valid
  | some sent =>
      rw [isSent] at close mild
      dsimp only at close mild ⊢
      have genuine := valid.genuine sent (List.mem_of_getElem? isSent)
      have received := valid.received receiver
      have fits := valid.fits _ genuine.started genuine.latest
      have after := received.receive genuine close fits
      have replies := received.stores.replies genuine close mild
        (fun started => valid.fits _ started received.latest) after.stores
      refine { fits := valid.fits, sending := valid.sending,
               received := ?_, genuine := ?_ }
      · intro other
        dsimp only
        by_cases same : other = receiver
        · rw [same, Function.update_self]
          exact after
        · rw [Function.update_of_ne same]
          exact valid.received other
      · intro other isOther
        rcases List.mem_append.mp isOther with isEarlier | isReply
        · exact valid.genuine other isEarlier
        · exact replies other isReply

theorem Valid.step
    (valid : Valid intBits files system) (event : Event Receiver)
    (close : CloseStep system event) (mild : Mild intBits files system event) :
    Valid intBits files (system.step intBits files event) := by
  cases event with
  | send => exact valid.send mild
  | timer => exact valid.timer
  | senderReceives index => exact valid.senderReceives index close
  | receives receiver index => exact valid.receives receiver index close mild

end Steps

/-! ## Runs -/

section Runs

variable {Receiver : Type} [DecidableEq Receiver]

/-- Every packet of a run meets a node whose version is within 127 of its
own. -/
def CloseRun (intBits : Nat) (files : Nat → List UInt8)
    (system : System Receiver) : List (Event Receiver) → Prop
  | [] => True
  | event :: events =>
      CloseStep system event ∧
        CloseRun intBits files (system.step intBits files event) events

instance (intBits : Nat) (files : Nat → List UInt8)
    (system : System Receiver) (events : List (Event Receiver)) :
    Decidable (CloseRun intBits files system events) :=
  decidableCloseRun system events
where
  decidableCloseRun (system : System Receiver) :
      (events : List (Event Receiver)) →
        Decidable (CloseRun intBits files system events)
    | [] => inferInstanceAs (Decidable True)
    | event :: events =>
        have := decidableCloseRun (system.step intBits files event) events
        inferInstanceAs (Decidable (_ ∧ _))

def MildRun (intBits : Nat) (files : Nat → List UInt8)
    (system : System Receiver) : List (Event Receiver) → Prop
  | [] => True
  | event :: events =>
      Mild intBits files system event ∧
        MildRun intBits files (system.step intBits files event) events

instance (intBits : Nat) (files : Nat → List UInt8)
    (system : System Receiver) (events : List (Event Receiver)) :
    Decidable (MildRun intBits files system events) :=
  decidableMildRun system events
where
  decidableMildRun (system : System Receiver) :
      (events : List (Event Receiver)) →
        Decidable (MildRun intBits files system events)
    | [] => inferInstanceAs (Decidable True)
    | event :: events =>
        have := decidableMildRun (system.step intBits files event) events
        inferInstanceAs (Decidable (_ ∧ _))

/-- Each receiver has written the files as they were sent, and writes the next
chunk when it receives it. -/
structure Disseminates (intBits : Nat) (files : Nat → List UInt8)
    (system : System Receiver) : Prop where
  wellWritten : ∀ receiver,
    WellWritten files (system.receivers receiver).log
  takesNext : ∀ receiver, ∀ sent ∈ system.network,
    TakesNext intBits files (system.receivers receiver) sent

/-- Every state of a run disseminates the files. -/
def WellWrittenRun (intBits : Nat) (files : Nat → List UInt8)
    (system : System Receiver) : List (Event Receiver) → Prop
  | [] => Disseminates intBits files system
  | event :: events =>
      Disseminates intBits files system ∧
        WellWrittenRun intBits files (system.step intBits files event) events

omit [DecidableEq Receiver] in
theorem Valid.disseminates {intBits : Nat} {files : Nat → List UInt8}
    {system : System Receiver} (valid : Valid intBits files system) :
    Disseminates intBits files system := by
  refine ⟨fun receiver => (valid.received receiver).progress.wellWritten,
    fun receiver sent isSent => ?_⟩
  have genuine := valid.genuine sent isSent
  exact (valid.received receiver).takesNext genuine
    (valid.fits _ genuine.started genuine.latest)

theorem Valid.run {intBits : Nat} {files : Nat → List UInt8}
    {system : System Receiver} (valid : Valid intBits files system)
    {events : List (Event Receiver)}
    (close : CloseRun intBits files system events)
    (mild : MildRun intBits files system events) :
    WellWrittenRun intBits files system events := by
  induction events generalizing system with
  | nil => exact valid.disseminates
  | cons event events inductionHypothesis =>
      exact ⟨valid.disseminates,
        inductionHypothesis (valid.step event close.1 mild.1)
          close.2 mild.2⟩

/-- Each receiver writes the chunks of each file once and in order, as they
arrive. -/
theorem rudolph1_wellWrittenRun {intBits : Nat} {files : Nat → List UInt8}
    {events : List (Event Receiver)}
    (close : CloseRun intBits files (System.init : System Receiver) events)
    (mild : MildRun intBits files (System.init : System Receiver) events) :
    WellWrittenRun intBits files System.init events :=
  init_valid.run close mild

end Runs

/-- The file of each transfer is one chunk with the number of the transfer in
every byte. -/
def numberedFile (transfer : Nat) : List UInt8 :=
  List.replicate 64 (UInt8.ofNat transfer)

/-- The first chunk is lost and asked for, and it is received twice. -/
def repairedRun : List (Event Bool) :=
  [.send, .timer, .receives true 1, .senderReceives 2, .receives true 3,
    .receives true 1, .receives true 3]

theorem repairedRun_wellWrittenRun :
    CloseRun 32 numberedFile (System.init : System Bool) repairedRun ∧
      MildRun 32 numberedFile (System.init : System Bool) repairedRun ∧
      WellWrittenRun 32 numberedFile (System.init : System Bool)
        repairedRun :=
  have close : CloseRun 32 numberedFile (System.init : System Bool)
      repairedRun := by
    decide +kernel
  have mild : MildRun 32 numberedFile (System.init : System Bool)
      repairedRun := by
    decide +kernel
  ⟨close, mild, rudolph1_wellWrittenRun close mild⟩

theorem chunkWrites_second (count : Nat) :
    (chunkWrites file (count + 1))[1]? = some (chunkWrite file 0) := by
  unfold chunkWrites
  rw [if_neg (Nat.succ_ne_zero count), List.range_succ_eq_map]
  rfl

/-- One receiver has the first file and then misses the first chunk of the
second one; another one that asks for the first file gets its first chunk as
that of the second file. -/
def mistakenRun : List (Event Bool) :=
  [.send, .timer, .receives true 0, .receives true 1, .receives false 1,
    .send, .timer, .receives true 4, .receives true 2, .receives false 6]

theorem mistakenRun_not_wellWrittenRun :
    ¬ ∀ (intBits : Nat) (files : Nat → List UInt8)
        (events : List (Event Bool)),
      CloseRun intBits files System.init events →
        WellWrittenRun intBits files System.init events := by
  intro always
  have close : CloseRun 32 numberedFile (System.init : System Bool)
      mistakenRun := by
    decide +kernel
  have run := always 32 numberedFile mistakenRun close
  have last := run.2.2.2.2.2.2.2.2.2.2.wellWritten false
  rcases last.written 2 with ⟨count, _, written⟩
  have writes : (((mistakenRun.foldl (System.step 32 numberedFile)
      System.init).receivers false).log.filter
        fun entry => entry.1 = 2).map Prod.snd =
      [{ offset := 0, flag := .newfile, data := [] },
        { offset := 0, flag := .none, data := List.replicate 64 1 }] := by
    decide +kernel
  have isWritten := writes.symm.trans written
  cases count with
  | zero => exact nomatch isWritten
  | succ count =>
      have second := congrArg (fun writes => writes[1]?) isWritten
      rw [chunkWrites_second] at second
      exact absurd second (by decide +kernel)

end Contiki.Rime.Rudolph1
