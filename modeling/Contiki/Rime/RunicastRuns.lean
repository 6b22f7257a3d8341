import Contiki.Rime.Runicast

/-!
# Reliable unicast over runs

Each accepted send ends with one callback, as long as the acknowledgements
and the reports of the layer below belong to the send in progress.
-/

namespace Contiki.Rime

/-- What is known of an accepted send. -/
structure Send (Address : Type) where
  receiver : Address
  packetId : Nat
  /-- While it was pending, its receiver acknowledged its packet. -/
  acknowledged : Bool
  sentCalls : Nat
  timedoutCalls : Nat
  /-- The reports of sent data packets since it was accepted or since a call
  of `timedout` returned. -/
  reports : Nat
  deriving DecidableEq

namespace Send

variable {Address : Type}

/-- No callback has been called for it. -/
def Pending (send : Send Address) : Prop :=
  send.sentCalls = 0 ∧ send.timedoutCalls = 0

instance (send : Send Address) : Decidable send.Pending :=
  inferInstanceAs (Decidable (_ ∧ _))

/-- One callback has been called for it, and `sent` only after it was
acknowledged. -/
def Completed (send : Send Address) : Prop :=
  send.sentCalls + send.timedoutCalls = 1 ∧
    (send.sentCalls = 1 → send.acknowledged = true)

instance (send : Send Address) : Decidable send.Completed :=
  inferInstanceAs (Decidable (_ ∧ _))

end Send

/-- The accepted sends, the last one first, and the number of callbacks
called before any send was accepted. -/
structure Ledger (Address : Type) where
  sends : List (Send Address)
  spurious : Nat
  deriving DecidableEq

namespace Ledger

variable {Address Payload : Type} [DecidableEq Address]

/-- A callback is for the last accepted send. -/
def callback (ledger : Ledger Address)
    (record : Send Address → Send Address) : Ledger Address :=
  match ledger.sends with
  | latest :: earlier => { ledger with sends := record latest :: earlier }
  | [] => { ledger with spurious := ledger.spurious + 1 }

/-- Something else that concerns the last accepted send. -/
def note (ledger : Ledger Address)
    (record : Send Address → Send Address) : Ledger Address :=
  match ledger.sends with
  | latest :: earlier => { ledger with sends := record latest :: earlier }
  | [] => ledger

def enter (ledger : Ledger Address) :
    Entry Address Payload → Ledger Address
  | .accepted receiver packetId =>
      { ledger with
        sends :=
          { receiver, packetId, acknowledged := false, sentCalls := 0,
            timedoutCalls := 0, reports := 0 } :: ledger.sends }
  | .acknowledged sender packetId =>
      ledger.note fun send =>
        if send.Pending ∧ sender = send.receiver ∧
            packetId = send.packetId then
          { send with acknowledged := true }
        else send
  | .reported =>
      ledger.note fun send => { send with reports := send.reports + 1 }
  | .sent _ _ =>
      ledger.callback fun send =>
        { send with sentCalls := send.sentCalls + 1 }
  | .timedout _ _ =>
      ledger.callback fun send =>
        { send with timedoutCalls := send.timedoutCalls + 1 }
  | .timedoutReturned =>
      ledger.note fun send => { send with reports := 0 }
  | _ => ledger

omit [DecidableEq Address] in
@[simp]
theorem spurious_note (ledger : Ledger Address)
    (record : Send Address → Send Address) :
    (ledger.note record).spurious = ledger.spurious := by
  rcases ledger with ⟨_ | ⟨latest, earlier⟩, spurious⟩ <;> rfl

omit [DecidableEq Address] in
theorem completed_note {ledger : Ledger Address}
    {record : Send Address → Send Address}
    (keeps : ∀ send, send.Completed → (record send).Completed)
    (completed : ∀ send ∈ ledger.sends, send.Completed) :
    ∀ send ∈ (ledger.note record).sends, send.Completed := by
  rcases ledger with ⟨_ | ⟨latest, earlier⟩, spurious⟩
  · exact completed
  · intro send member
    rcases List.mem_cons.mp member with here | there
    · rw [here]
      exact keeps latest (completed latest List.mem_cons_self)
    · exact completed send (List.mem_cons_of_mem latest there)

def ofHistory (history : List (Entry Address Payload)) : Ledger Address :=
  history.foldl enter { sends := [], spurious := 0 }

@[simp]
theorem ofHistory_append
    (history entries : List (Entry Address Payload)) :
    ofHistory (history ++ entries) =
      entries.foldl enter (ofHistory history) :=
  List.foldl_append

end Ledger

namespace Endpoint

variable {Address Payload : Type} [DecidableEq Address]

/-- The events of a run, one after the other. -/
def run (empty : Payload) (endpoint : Endpoint Address Payload) :
    List (Event Address Payload) → Option (Endpoint Address Payload)
  | [] => some endpoint
  | event :: events =>
      match endpoint.step empty event with
      | some next => next.run empty events
      | none => none

/-- Every accepted send but one in progress has been completed by one
callback; the one in progress has had none yet, fewer reports than end it,
and is being retransmitted. -/
structure CompletedOnce (endpoint : Endpoint Address Payload) : Prop where
  noSpurious : (Ledger.ofHistory endpoint.history).spurious = 0
  idle : endpoint.conn.isTx = false →
    ∀ send ∈ (Ledger.ofHistory endpoint.history).sends, send.Completed
  busy : endpoint.conn.isTx = true →
    ∃ latest earlier,
      (Ledger.ofHistory endpoint.history).sends = latest :: earlier ∧
        latest.Pending ∧ latest.reports < max endpoint.conn.maxRxmit 1 ∧
        (endpoint.conn.c.timer = true ∨ Call.resend ∈ endpoint.calls) ∧
        ∀ send ∈ earlier, send.Completed

/-- An event belongs to the send in progress: an acknowledgement of the
awaited packet id comes from the receiver while the packet with this id is
being sent, and a report of a data packet that would use up the
transmissions comes while a packet is being sent. -/
def Orderly (endpoint : Endpoint Address Payload) :
    Event Address Payload → Prop
  | .frame sender packet _ =>
      packet.packetType = packetTypeAck →
        packet.packetId = endpoint.conn.sndnxt →
          endpoint.conn.isTx = true ∧ sender = endpoint.conn.c.receiver ∧
            endpoint.conn.c.buf.map Packet.packetId = some packet.packetId
  | .packetSent packetType =>
      packetType = packetTypeData →
        endpoint.conn.maxRxmit ≤ (endpoint.conn.rxmit + 1) % 256 →
          endpoint.conn.isTx = true
  | _ => True

/-- All events of a run are orderly. -/
def OrderlyRun (empty : Payload) (endpoint : Endpoint Address Payload) :
    List (Event Address Payload) → Prop
  | [] => True
  | event :: events =>
      endpoint.Orderly event ∧
        ∀ next, endpoint.step empty event = some next →
          next.OrderlyRun empty events

end Endpoint

section Sound

variable {Address Payload : Type}

/-- The state of the connection while a send is in progress. -/
structure InProgress (conn : RunicastConn Address Payload)
    (calls : List Call) (send : Send Address) : Prop where
  pending : send.Pending
  receiver : send.receiver = conn.c.receiver
  packetId : conn.c.buf.map Packet.packetId = some send.packetId
  reports : send.reports = conn.rxmit
  below : conn.rxmit < max conn.maxRxmit 1
  retransmitting : conn.c.timer = true ∨ Call.resend ∈ calls

/-- What every orderly event keeps. -/
structure Sound (conn : RunicastConn Address Payload) (calls : List Call)
    (ledger : Ledger Address) : Prop where
  noSpurious : ledger.spurious = 0
  maxRxmit : conn.maxRxmit < 256
  idle : conn.isTx = false → ∀ send ∈ ledger.sends, send.Completed
  busy : conn.isTx = true →
    ∃ latest earlier, ledger.sends = latest :: earlier ∧
      InProgress conn calls latest ∧ ∀ send ∈ earlier, send.Completed

variable {conn : RunicastConn Address Payload} {calls : List Call}
  {ledger : Ledger Address}

theorem Sound.inProgress (sound : Sound conn calls ledger)
    (busy : conn.isTx = true) :
    ∃ latest earlier,
      ledger = { sends := latest :: earlier, spurious := 0 } ∧
        InProgress conn calls latest ∧ ∀ send ∈ earlier, send.Completed := by
  rcases sound.busy busy with ⟨latest, earlier, sends, progress, completed⟩
  refine ⟨latest, earlier, ?_, progress, completed⟩
  cases ledger
  cases sends
  cases sound.noSpurious
  rfl

theorem sound_of_completed (noSpurious : ledger.spurious = 0)
    (maxRxmit : conn.maxRxmit < 256) (notBusy : conn.isTx = false)
    (completed : ∀ send ∈ ledger.sends, send.Completed) :
    Sound conn calls ledger where
  noSpurious := noSpurious
  maxRxmit := maxRxmit
  idle := fun _ => completed
  busy := by
    intro busy
    rw [notBusy] at busy
    cases busy

theorem sound_of_inProgress {latest : Send Address}
    {earlier : List (Send Address)}
    (ledgerEq : ledger = { sends := latest :: earlier, spurious := 0 })
    (maxRxmit : conn.maxRxmit < 256) (isBusy : conn.isTx = true)
    (progress : InProgress conn calls latest)
    (completed : ∀ send ∈ earlier, send.Completed) :
    Sound conn calls ledger where
  noSpurious := by rw [ledgerEq]
  maxRxmit := maxRxmit
  idle := by
    intro idle
    rw [isBusy] at idle
    cases idle
  busy := by
    intro _
    exact ⟨latest, earlier, by rw [ledgerEq], progress, completed⟩

theorem sound_opened (receiver : Address) :
    Sound (.runicastOpen receiver : RunicastConn Address Payload) []
      { sends := [], spurious := 0 } :=
  sound_of_completed rfl (Nat.zero_lt_succ 255) rfl (by simp)

variable [DecidableEq Address]

theorem Sound.runicastSend (sound : Sound conn calls ledger)
    (receiver : Address) (maxRetransmissions : Nat) (payload : Payload)
    (memory : Bool) :
    let sent := conn.runicastSend receiver maxRetransmissions payload memory
    Sound sent.1 calls (sent.2.foldl Ledger.enter ledger) := by
  have maxRxmit : maxRetransmissions % 256 < 256 :=
    Nat.mod_lt _ (by decide)
  cases busy : conn.isTx with
  | true => simpa [RunicastConn.runicastSend, busy] using sound
  | false =>
      cases memory with
      | false =>
          have step : conn.runicastSend receiver maxRetransmissions payload
              false =
              ({ conn with
                  maxRxmit := maxRetransmissions % 256, rxmit := 0,
                  isTx := false, c := { conn.c with buf := none } }, []) := by
            simp [RunicastConn.runicastSend, busy,
              StunicastConn.stunicastSendStubborn]
          rw [step]
          exact sound_of_completed sound.noSpurious maxRxmit rfl
            (sound.idle busy)
      | true =>
          have step : conn.runicastSend receiver maxRetransmissions payload
              true =
              ({ conn with
                  maxRxmit := maxRetransmissions % 256, rxmit := 0,
                  isTx := true,
                  c :=
                    { timer := true
                      buf := some
                        { packetType := packetTypeData
                          packetId := conn.sndnxt, payload }
                      receiver } },
                [.accepted receiver conn.sndnxt,
                  .transmitted receiver
                    { packetType := packetTypeData, packetId := conn.sndnxt,
                      payload }]) := by
            simp [RunicastConn.runicastSend, busy,
              StunicastConn.stunicastSendStubborn]
          rw [step]
          let latest : Send Address :=
            { receiver, packetId := conn.sndnxt, acknowledged := false,
              sentCalls := 0, timedoutCalls := 0, reports := 0 }
          refine @sound_of_inProgress _ _ _ _ _ latest _ ?_ maxRxmit rfl ?_
            (sound.idle busy)
          · simp [Ledger.enter, ← sound.noSpurious, latest]
          · exact
              { pending := ⟨rfl, rfl⟩, receiver := rfl, packetId := rfl
                reports := rfl
                below := Nat.lt_of_lt_of_le Nat.one_pos
                  (Nat.le_max_right _ 1)
                retransmitting := .inl rfl }

/-- A report of a sent packet that belongs to the send in progress. -/
theorem Sound.sentByStunicast (sound : Sound conn calls ledger)
    (packetType : Nat)
    (orderly : packetType = packetTypeData →
      conn.maxRxmit ≤ (conn.rxmit + 1) % 256 → conn.isTx = true) :
    let sent := conn.sentByStunicast packetType
    Sound sent.1 (if sent.2.2 then .timedout :: calls else calls)
      (sent.2.1.foldl Ledger.enter ledger) := by
  by_cases data : packetType = packetTypeData
  case neg => simpa [RunicastConn.sentByStunicast, data] using sound
  by_cases last : conn.maxRxmit ≤ (conn.rxmit + 1) % 256
  case pos =>
    rcases sound.inProgress (orderly data last) with
      ⟨latest, earlier, rfl, progress, completed⟩
    simp only [RunicastConn.sentByStunicast, data, last, ↓reduceIte]
    refine sound_of_completed rfl sound.maxRxmit rfl ?_
    intro send member
    rcases List.mem_cons.mp member with here | there
    · subst here
      exact ⟨by simp [progress.pending.1, progress.pending.2],
        by simp [progress.pending.1]⟩
    · exact completed send there
  case neg =>
    simp only [RunicastConn.sentByStunicast, data, last, ↓reduceIte,
      Bool.false_eq_true]
    cases busy : conn.isTx with
    | true =>
        rcases sound.inProgress busy with
          ⟨latest, earlier, rfl, progress, completed⟩
        have small := sound.maxRxmit
        have below := progress.below
        refine sound_of_inProgress rfl sound.maxRxmit rfl ?_ completed
        exact
          { pending := progress.pending, receiver := progress.receiver
            packetId := progress.packetId
            reports := by
              change latest.reports + 1 = (conn.rxmit + 1) % 256
              rw [progress.reports]
              omega
            below := by
              change (conn.rxmit + 1) % 256 < max conn.maxRxmit 1
              omega
            retransmitting := progress.retransmitting }
    | false =>
        refine sound_of_completed ?_ sound.maxRxmit rfl ?_
        · exact (Ledger.spurious_note _ _).trans sound.noSpurious
        · exact Ledger.completed_note (fun _ completed => completed)
            (sound.idle busy)

/-- A call of `timedout` returns. -/
theorem Sound.afterTimedout (sound : Sound conn (.timedout :: calls) ledger) :
    Sound conn.afterTimedout calls
      (ledger.enter (.timedoutReturned : Entry Address Payload)) := by
  cases busy : conn.isTx with
  | true =>
      rcases sound.inProgress busy with
        ⟨latest, earlier, rfl, progress, completed⟩
      refine sound_of_inProgress rfl sound.maxRxmit busy ?_ completed
      exact
        { pending := progress.pending, receiver := progress.receiver
          packetId := progress.packetId, reports := rfl
          below := Nat.lt_of_lt_of_le Nat.one_pos (Nat.le_max_right _ 1)
          retransmitting := by
            simpa [RunicastConn.afterTimedout] using
              progress.retransmitting }
  | false =>
      refine sound_of_completed ?_ sound.maxRxmit busy ?_
      · exact (Ledger.spurious_note _ _).trans sound.noSpurious
      · exact Ledger.completed_note (fun _ completed => completed)
          (sound.idle busy)

theorem Sound.acknowledged (sound : Sound conn calls ledger)
    (sender : Address) (packetId : Nat) :
    Sound conn calls
      (ledger.enter
        (.acknowledged sender packetId : Entry Address Payload)) := by
  cases busy : conn.isTx with
  | true =>
      rcases sound.inProgress busy with
        ⟨latest, earlier, rfl, progress, completed⟩
      refine sound_of_inProgress rfl sound.maxRxmit busy ?_ completed
      dsimp only
      split
      case isTrue =>
        exact
          { pending := progress.pending, receiver := progress.receiver
            packetId := progress.packetId, reports := progress.reports
            below := progress.below
            retransmitting := progress.retransmitting }
      case isFalse => exact progress
  | false =>
      refine sound_of_completed ?_ sound.maxRxmit busy ?_
      · exact (Ledger.spurious_note _ _).trans sound.noSpurious
      · refine Ledger.completed_note ?_ (sound.idle busy)
        intro send completed
        split
        case isTrue => exact ⟨completed.1, fun _ => rfl⟩
        case isFalse => exact completed

/-- A frame whose acknowledgement, if it is one, belongs to the send in
progress. -/
theorem Sound.recvFromStunicast (sound : Sound conn calls ledger)
    (sender : Address) (packet : Packet Payload) (empty : Payload)
    (memory : Bool)
    (orderly : packet.packetType = packetTypeAck →
      packet.packetId = conn.sndnxt →
        conn.isTx = true ∧ sender = conn.c.receiver ∧
          conn.c.buf.map Packet.packetId = some packet.packetId) :
    let received := conn.recvFromStunicast sender packet empty memory
    Sound received.1 calls (received.2.foldl Ledger.enter ledger) := by
  by_cases ack : packet.packetType = packetTypeAck
  case neg =>
    by_cases data : packet.packetType = packetTypeData
    case neg => simpa [RunicastConn.recvFromStunicast, ack, data] using sound
    case pos =>
      cases memory <;>
        simpa [RunicastConn.recvFromStunicast, data, Ledger.enter,
          packetTypeData, packetTypeAck] using sound
  by_cases awaited : packet.packetId = conn.sndnxt
  case neg =>
    simp only [RunicastConn.recvFromStunicast, ack, awaited, ↓reduceIte]
    exact sound.acknowledged sender packet.packetId
  case pos =>
    rcases orderly ack awaited with ⟨busy, fromReceiver, sameId⟩
    rcases sound.inProgress busy with
      ⟨latest, earlier, rfl, progress, completed⟩
    have known : sender = latest.receiver :=
      fromReceiver.trans progress.receiver.symm
    have latestId : packet.packetId = latest.packetId :=
      Option.some.inj (sameId.symm.trans progress.packetId)
    simp only [RunicastConn.recvFromStunicast, ack, if_pos awaited,
      ↓reduceIte]
    refine sound_of_completed rfl sound.maxRxmit rfl ?_
    intro send member
    simp only [List.foldl_cons, List.foldl_nil, Ledger.enter, Ledger.note,
      Ledger.callback, if_pos (And.intro progress.pending
        (And.intro known latestId))] at member
    rcases List.mem_cons.mp member with here | there
    · rw [here]
      exact ⟨by simp [progress.pending.1, progress.pending.2],
        fun _ => rfl⟩
    · exact completed send there

theorem Sound.send (sound : Sound conn calls ledger) :
    Sound conn.send.1 (if conn.send.2.2 then .resend :: calls else calls)
      (conn.send.2.1.foldl Ledger.enter ledger) := by
  cases buf : conn.c.buf with
  | none =>
      have step : conn.send =
          ({ conn with c := { conn.c with timer := false } }, [], false) := by
        simp [RunicastConn.send, buf]
      rw [step]
      cases busy : conn.isTx with
      | true =>
          rcases sound.inProgress busy with ⟨latest, -, -, progress, -⟩
          have packetId := progress.packetId
          rw [buf] at packetId
          cases packetId
      | false =>
          exact sound_of_completed sound.noSpurious sound.maxRxmit rfl
            (sound.idle busy)
  | some packet =>
      have step : conn.send =
          ({ conn with c := { conn.c with timer := false } },
            [.transmitted conn.c.receiver packet], true) := by
        simp [RunicastConn.send, buf]
      rw [step]
      cases busy : conn.isTx with
      | true =>
          rcases sound.inProgress busy with
            ⟨latest, earlier, rfl, progress, completed⟩
          refine sound_of_inProgress rfl sound.maxRxmit rfl ?_ completed
          exact
            { pending := progress.pending, receiver := progress.receiver
              packetId := progress.packetId, reports := progress.reports
              below := progress.below
              retransmitting := .inr List.mem_cons_self }
      | false =>
          exact sound_of_completed sound.noSpurious sound.maxRxmit rfl
            (sound.idle busy)

omit [DecidableEq Address] in
/-- `send` of stunicast sets the timer again. -/
theorem Sound.afterResend (sound : Sound conn (.resend :: calls) ledger) :
    Sound conn.afterResend calls ledger := by
  cases busy : conn.isTx with
  | true =>
      rcases sound.inProgress busy with
        ⟨latest, earlier, rfl, progress, completed⟩
      refine sound_of_inProgress rfl sound.maxRxmit busy ?_ completed
      exact
        { pending := progress.pending, receiver := progress.receiver
          packetId := progress.packetId, reports := progress.reports
          below := progress.below
          retransmitting := .inl rfl }
  | false =>
      exact sound_of_completed sound.noSpurious sound.maxRxmit busy
        (sound.idle busy)

end Sound

namespace Endpoint

variable {Address Payload : Type} [DecidableEq Address]

/-- The connection and the ledger of its history. -/
def IsSound (endpoint : Endpoint Address Payload) : Prop :=
  Sound endpoint.conn endpoint.calls (.ofHistory endpoint.history)

theorem IsSound.completedOnce {endpoint : Endpoint Address Payload}
    (sound : endpoint.IsSound) : endpoint.CompletedOnce where
  noSpurious := sound.noSpurious
  idle := sound.idle
  busy := by
    intro busy
    rcases sound.busy busy with ⟨latest, earlier, sends, progress, completed⟩
    exact ⟨latest, earlier, sends, progress.pending,
      progress.reports ▸ progress.below, progress.retransmitting, completed⟩

theorem IsSound.step {endpoint next : Endpoint Address Payload}
    {empty : Payload} {event : Event Address Payload}
    (sound : endpoint.IsSound) (orderly : endpoint.Orderly event)
    (step : endpoint.step empty event = some next) : next.IsSound := by
  cases event with
  | send receiver maxRetransmissions payload memory =>
      have isNext := Option.some.inj step
      rw [← isNext]
      simpa only [IsSound, Ledger.ofHistory_append] using
        Sound.runicastSend sound receiver maxRetransmissions payload memory
  | frame sender packet memory =>
      have isNext := Option.some.inj step
      rw [← isNext]
      simpa only [IsSound, Ledger.ofHistory_append] using
        Sound.recvFromStunicast sound sender packet empty memory orderly
  | packetSent packetType =>
      have isNext := Option.some.inj step
      rw [← isNext]
      simpa only [IsSound, Ledger.ofHistory_append] using
        Sound.sentByStunicast sound packetType orderly
  | timerExpired =>
      by_cases isSet : endpoint.conn.c.timer = true
      case pos =>
        have isNext := (if_pos isSet).symm.trans step
        rw [← Option.some.inj isNext]
        simpa only [IsSound, Ledger.ofHistory_append] using Sound.send sound
      case neg =>
        cases (if_neg isSet).symm.trans step
  | callReturns =>
      rcases endpoint with ⟨conn, calls, history⟩
      cases calls with
      | nil => cases step
      | cons call calls =>
          cases call with
          | resend =>
              cases step
              exact Sound.afterResend sound
          | timedout =>
              cases step
              simpa [IsSound] using Sound.afterTimedout sound

theorem IsSound.run {endpoint last : Endpoint Address Payload}
    {empty : Payload} {events : List (Event Address Payload)}
    (sound : endpoint.IsSound) (orderly : endpoint.OrderlyRun empty events)
    (run : endpoint.run empty events = some last) : last.IsSound := by
  induction events generalizing endpoint with
  | nil =>
      cases run
      exact sound
  | cons event events inductionHypothesis =>
      rw [Endpoint.run] at run
      cases step : endpoint.step empty event with
      | none =>
          rw [step] at run
          cases run
      | some next =>
          rw [step] at run
          exact inductionHypothesis (sound.step orderly.1 step)
            (orderly.2 next step) run

/-- In every run whose events are orderly, each accepted send is completed by
one callback, and `sent` is called only for a send that its receiver has
acknowledged while it was pending. -/
theorem completedOnce_of_orderly {receiver : Address} {empty : Payload}
    {events : List (Event Address Payload)}
    {last : Endpoint Address Payload}
    (orderly : (opened receiver).OrderlyRun empty events)
    (run : (opened receiver).run empty events = some last) :
    last.CompletedOnce :=
  have initial : (opened receiver : Endpoint Address Payload).IsSound :=
    sound_opened receiver
  (initial.run orderly run).completedOnce

/-- A send that is acknowledged at once. -/
theorem completedOnce_of_orderly_acknowledged :
    ∃ last : Endpoint Nat Unit,
      (opened 7).run () [.send 7 3 () true,
        .frame 7 ⟨packetTypeAck, 0, ()⟩ true] = some last ∧
        last.CompletedOnce :=
  ⟨_, rfl, @completedOnce_of_orderly Nat Unit _ 7 ()
    [.send 7 3 () true, .frame 7 ⟨packetTypeAck, 0, ()⟩ true] _
    ⟨trivial, by
      intro next step
      cases step
      exact ⟨fun _ _ => ⟨rfl, rfl, rfl⟩, fun _ _ => trivial⟩⟩ rfl⟩

/-- An acknowledgement completes a send that nobody has asked for. -/
theorem not_completedOnce :
    ¬ ∀ (events : List (Event Nat Unit)) (last : Endpoint Nat Unit),
      (opened 7).run () events = some last → last.CompletedOnce := by
  intro always
  have completed := always
    [.frame 9 ⟨packetTypeAck, 0, ()⟩ true] _ rfl
  exact absurd completed.noSpurious (by decide)

end Endpoint

end Contiki.Rime
