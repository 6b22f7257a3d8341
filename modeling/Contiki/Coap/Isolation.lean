import Contiki.Coap.Engine

/-!
# What a datagram does to the transactions

The transactions that an operation leaves as they are, and from it two
properties of `coap_receive`: a datagram only ends transactions with its
sender, and a datagram that ends in an error leaves all other transactions as
they are.  Neither holds in general: a transaction is found by its message
identifier alone, and an error clears the transaction that the static pointer
still refers to.
-/

namespace Contiki.Coap

open Contiki.Lib

variable {size observers : Nat} {store : Store size observers}
  {config : CoapConfig}

/-- The peer of a transaction that has ended. -/
def Event.ended : Event size → Option Endpoint
  | .cleared _ endpoint => some endpoint
  | .invoked _ _ _ endpoint => some endpoint
  | _ => none

variable {own : Option (Fin size)} (slot : Fin size)
  (transaction : Transaction)

namespace Store

/-- The transactions in use, by their addresses. -/
abbrev open_ (store : Store size observers) : List (Fin size) :=
  store.transactions.list

/-- The pool and the list of transactions agree. -/
abbrev Consistent (store : Store size observers) : Prop :=
  store.transactions.Consistent

/-- No open transaction except `own` is removed, changed or added. -/
def Untouched (own : Option (Fin size))
    (before after : Store size observers) : Prop :=
  ∀ slot, some slot ≠ own →
    (slot ∈ after.open_ ↔ slot ∈ before.open_) ∧
      (slot ∈ before.open_ → after.at_ slot = before.at_ slot)

theorem Untouched.refl (own : Option (Fin size))
    (store : Store size observers) : Untouched own store store :=
  fun _ _ => ⟨Iff.rfl, fun _ => rfl⟩

theorem Untouched.trans {first second third : Store size observers}
    (left : Untouched own first second)
    (right : Untouched own second third) : Untouched own first third :=
  fun slot other =>
    ⟨(right slot other).1.trans (left slot other).1, fun member =>
      ((right slot other).2 ((left slot other).1.mpr member)).trans
        ((left slot other).2 member)⟩

theorem Untouched.congr {before after other : Store size observers}
    (untouched : Untouched own before after)
    (same : other.transactions = after.transactions) :
    Untouched own before other := by
  unfold Untouched open_ at_ at untouched ⊢
  rw [same]
  exact untouched

theorem untouched_of_sameAt {before after : Store size observers}
    (same : ∀ slot, some slot ≠ own → Pool.SameAt slot before.transactions
      after.transactions) : Untouched own before after :=
  fun slot other => ⟨(same slot other).2, fun _ => (same slot other).1⟩

theorem removeObserver_transactions (matching : Observer → Bool) :
    (store.removeObserver matching).transactions = store.transactions := by
  unfold removeObserver
  split <;> rfl

theorem invoke_transactions :
    (store.invoke slot transaction).transactions = store.transactions := by
  unfold invoke
  split <;> rfl

theorem update_untouched :
    Untouched (some slot) store (store.update slot transaction) :=
  untouched_of_sameAt fun _ other =>
    Pool.sameAt_set transaction fun same => other (congrArg some same)

theorem coapClearTransaction_transactions :
    (store.coapClearTransaction (some slot)).transactions =
      (store.transactions.set slot
        { store.at_ slot with
          retransTimer := { (store.at_ slot).retransTimer with
            running := false } }).release slot := by
  unfold coapClearTransaction
  dsimp only
  split <;> rfl

theorem coapClearTransaction_untouched (store : Store size observers)
    (slot : Option (Fin size)) :
    Untouched slot store (store.coapClearTransaction slot) := by
  cases slot with
  | none =>
      exact Untouched.refl none store
  | some slot =>
      refine untouched_of_sameAt fun other different => ?_
      have distinct : other ≠ slot := fun same =>
        different (congrArg some same)
      rw [coapClearTransaction_transactions]
      exact (Pool.sameAt_set _ distinct).trans
        (Pool.sameAt_release distinct)

theorem mem_coapClearTransaction (consistent : store.Consistent)
    {slot other : Fin size} :
    other ∈ (store.coapClearTransaction (some slot)).open_ ↔
      other ≠ slot ∧ other ∈ store.open_ := by
  rw [open_, coapClearTransaction_transactions]
  exact Pool.mem_release consistent.nodup

/-- What `coap_new_transaction` does if there is a free object. -/
structure Creates (store after : Store size observers) (mid : UInt16)
    (endpoint : Endpoint) (slot : Fin size) : Prop where
  fresh : slot ∉ store.open_
  member : slot ∈ after.open_
  mid : (after.at_ slot).mid = mid
  retransCounter : (after.at_ slot).retransCounter = 0
  peer : (after.at_ slot).endpoint = endpoint
  callback : (after.at_ slot).callback = (store.at_ slot).callback
  callbackData : (after.at_ slot).callbackData =
    (store.at_ slot).callbackData
  untouched : Untouched (some slot) store after
  consistent : after.Consistent
  trace : after.trace = store.trace ++ [.created slot endpoint]

theorem coapNewTransaction_cases (consistent : store.Consistent)
    (mid : UInt16) (endpoint : Endpoint) :
    store.coapNewTransaction mid endpoint = (none, store) ∨
      ∃ slot after,
        store.coapNewTransaction mid endpoint = (some slot, after) ∧
          store.Creates after mid endpoint slot := by
  unfold coapNewTransaction
  cases found : store.transactions.firstFree with
  | none =>
      exact .inl rfl
  | some slot =>
      have stored : ∀ transaction, ((store.transactions.set slot
          transaction).take slot).slots slot = transaction :=
        fun transaction => Function.update_self (β := fun _ => Transaction)
          slot transaction _
      refine .inr ⟨slot, _, rfl, ?_⟩
      constructor
      · exact Pool.not_mem_of_firstFree consistent found
      · exact Pool.mem_take.mpr (.inl rfl)
      · exact congrArg Transaction.mid (stored _)
      · exact congrArg Transaction.retransCounter (stored _)
      · exact congrArg Transaction.endpoint (stored _)
      · exact (congrArg Transaction.callback (stored _)).trans rfl
      · exact (congrArg Transaction.callbackData (stored _)).trans rfl
      · refine untouched_of_sameAt fun other different => ?_
        have distinct : other ≠ slot := fun same =>
          different (congrArg some same)
        exact (Pool.sameAt_set _ distinct).trans
          (Pool.sameAt_take distinct)
      · exact (consistent.set slot _).take slot
      · rfl

def invocation (slot : Fin size) (transaction : Transaction) :
    List (Event size) :=
  match transaction.callback with
  | some callback =>
      [.invoked slot callback transaction.callbackData
        transaction.endpoint]
  | none => []

theorem invoke_trace :
    (store.invoke slot transaction).trace =
      store.trace ++ invocation slot transaction := by
  unfold invoke invocation
  cases transaction.callback with
  | some callback =>
      rfl
  | none =>
      rw [List.append_nil]

theorem removeObserver_trace (matching : Observer → Bool) :
    (store.removeObserver matching).trace = store.trace := by
  unfold removeObserver
  split <;> rfl

local instance lawfulBEq_transaction (size : Nat) : LawfulBEq (Fin size) :=
  inferInstance

def clearing (store : Store size observers) (slot : Fin size) :
    List (Event size) :=
  if slot ∈ store.open_ then [.cleared slot (store.at_ slot).endpoint]
  else []

theorem coapClearTransaction_trace :
    (store.coapClearTransaction (some slot)).trace =
      store.trace ++ store.clearing slot := by
  unfold coapClearTransaction clearing
  dsimp only
  split
  · rfl
  · rw [List.append_nil]
    rfl

theorem clearing_congr {other : Store size observers}
    (same : other.transactions = store.transactions) (slot : Fin size) :
    other.clearing slot = store.clearing slot := by
  unfold clearing at_ open_
  rw [same]

theorem coapClearTransaction_congr {other : Store size observers}
    (same : other.transactions = store.transactions) (slot : Fin size) :
    (other.coapClearTransaction (some slot)).transactions =
      (store.coapClearTransaction (some slot)).transactions := by
  rw [coapClearTransaction_transactions,
    coapClearTransaction_transactions]
  unfold at_
  rw [same]

/-- A transaction that is sent ends: it is not confirmable, or has been
resent often enough. -/
def Ends (store : Store size observers) (slot : Fin size) : Prop :=
  store.confirmable slot = true →
    coapMaxRetransmit ≤ (store.at_ slot).retransCounter

/-- The two outcomes of `coap_send_transaction`. -/
theorem coapSendTransaction_cases (store : Store size observers)
    (interval : UInt32) (slot : Fin size) :
    let after := store.coapSendTransaction interval slot
    (¬ store.Ends slot ∧ after.trace = store.trace ∧
      ∃ timer, after.transactions = store.transactions.set slot
        { store.at_ slot with retransTimer := timer }) ∨
    (store.Ends slot ∧
      after.transactions =
        (store.coapClearTransaction (some slot)).transactions ∧
      after.trace = store.trace ++ store.clearing slot ++
        if store.confirmable slot then
          invocation slot (store.at_ slot)
        else []) := by
  have sent : ∀ endpoint data,
      (store.coapSendMessage endpoint data).confirmable slot =
        store.confirmable slot := fun _ _ => rfl
  unfold coapSendTransaction
  dsimp only
  rw [sent]
  by_cases confirmable : store.confirmable slot = true
  · rw [if_pos confirmable]
    by_cases open' : (store.at_ slot).retransCounter < coapMaxRetransmit
    · rw [if_pos open']
      refine .inl ⟨fun ends => ?_, rfl, _, rfl⟩
      exact absurd (ends confirmable) (UInt8.not_le.mpr open')
    · rw [if_neg open', if_pos confirmable]
      have same : ∀ endpoint data,
          ((store.coapSendMessage endpoint
            data).coapRemoveObserverByClient endpoint).transactions =
            store.transactions :=
        fun _ _ => removeObserver_transactions _
      have unlogged : ∀ endpoint data,
          ((store.coapSendMessage endpoint
            data).coapRemoveObserverByClient endpoint).trace =
            store.trace :=
        fun _ _ => removeObserver_trace _
      refine .inr ⟨fun _ => UInt8.not_lt.mp open', ?_, ?_⟩
      · rw [invoke_transactions, coapClearTransaction_congr (same _ _)]
      · rw [invoke_trace, coapClearTransaction_trace, unlogged,
          clearing_congr (same _ _)]
  · rw [if_neg confirmable, if_neg confirmable, List.append_nil]
    have same : ∀ endpoint data,
        (store.coapSendMessage endpoint data).transactions =
          store.transactions :=
      fun _ _ => rfl
    refine .inr ⟨fun confirmed => absurd confirmed confirmable, ?_, ?_⟩
    · exact coapClearTransaction_congr (same _ _) slot
    · exact (coapClearTransaction_trace slot).trans
        (congrArg _ (clearing_congr (same _ _) slot))

theorem coapSendTransaction_untouched (interval : UInt32)
    (slot : Fin size) :
    Untouched (some slot) store
      (store.coapSendTransaction interval slot) := by
  refine untouched_of_sameAt fun other different => ?_
  have distinct : other ≠ slot := fun same =>
    different (congrArg some same)
  rcases store.coapSendTransaction_cases interval slot with
    ⟨_, _, timer, kept⟩ | ⟨_, ended, _⟩
  · rw [kept]
    exact Pool.sameAt_set _ distinct
  · rw [ended, coapClearTransaction_transactions]
    exact (Pool.sameAt_set _ distinct).trans
      (Pool.sameAt_release distinct)

theorem Consistent.coapClearTransaction (consistent : store.Consistent)
    (slot : Option (Fin size)) :
    (store.coapClearTransaction slot).Consistent := by
  cases slot with
  | none =>
      exact consistent
  | some slot =>
      rw [Store.Consistent, coapClearTransaction_transactions]
      exact (consistent.set slot _).release slot

theorem Consistent.coapSendTransaction (consistent : store.Consistent)
    (interval : UInt32) (slot : Fin size) :
    (store.coapSendTransaction interval slot).Consistent := by
  rcases store.coapSendTransaction_cases interval slot with
    ⟨_, _, timer, kept⟩ | ⟨_, ended, _⟩
  · rw [Store.Consistent, kept]
    exact consistent.set slot _
  · rw [Store.Consistent, ended]
    exact consistent.coapClearTransaction (some slot)

theorem Consistent.perform (consistent : store.Consistent)
    (operation : Operation size) :
    (store.perform operation).Consistent := by
  cases operation with
  | new mid endpoint =>
      rcases coapNewTransaction_cases consistent mid endpoint with
        full | ⟨slot, after, created, creates⟩
      · rw [Store.perform, full]
        exact consistent
      · rw [Store.perform, created]
        exact creates.consistent
  | register slot callback data =>
      exact consistent.set slot _
  | write slot packetLen packet =>
      exact consistent.set slot _
  | send slot interval =>
      exact consistent.coapSendTransaction interval slot
  | clear slot =>
      exact consistent.coapClearTransaction (some slot)

theorem Consistent.foldl_perform (consistent : store.Consistent)
    (operations : List (Operation size)) :
    (operations.foldl Store.perform store).Consistent := by
  induction operations generalizing store with
  | nil =>
      exact consistent
  | cons operation rest inductionHypothesis =>
      exact inductionHypothesis (consistent.perform operation)

end Store

/-- The transaction that an operation refers to. -/
def Operation.target : Operation size → Option (Fin size)
  | .new _ _ => none
  | .register slot _ _ => some slot
  | .write slot _ _ => some slot
  | .send slot _ => some slot
  | .clear slot => some slot

namespace Store

theorem perform_other (consistent : store.Consistent) {slot : Fin size}
    (member : slot ∈ store.open_) {operation : Operation size}
    (other : operation.target ≠ some slot) :
    slot ∈ (store.perform operation).open_ ∧
      (store.perform operation).at_ slot = store.at_ slot := by
  have of_untouched : ∀ own : Option (Fin size),
      Untouched own store (store.perform operation) → some slot ≠ own →
      slot ∈ (store.perform operation).open_ ∧
        (store.perform operation).at_ slot = store.at_ slot :=
    fun _ untouched different =>
      ⟨(untouched slot different).1.mpr member,
        (untouched slot different).2 member⟩
  cases operation with
  | new mid endpoint =>
      rcases coapNewTransaction_cases consistent mid endpoint with
        full | ⟨created, after, eq, creates⟩
      · rw [Store.perform, full]
        exact ⟨member, rfl⟩
      · refine of_untouched (some created) ?_ ?_
        · rw [Store.perform, eq]
          exact creates.untouched
        · rintro ⟨⟩
          exact creates.fresh member
  | register target callback data =>
      exact of_untouched _ (update_untouched target _) (Ne.symm other)
  | write target packetLen packet =>
      exact of_untouched _ (update_untouched target _) (Ne.symm other)
  | send target interval =>
      exact of_untouched _ (coapSendTransaction_untouched interval target)
        (Ne.symm other)
  | clear target =>
      exact of_untouched _ (coapClearTransaction_untouched store (some target))
        (Ne.symm other)

theorem foldl_perform_other {slot : Fin size}
    {operations : List (Operation size)} (consistent : store.Consistent)
    (member : slot ∈ store.open_)
    (others : ∀ operation ∈ operations, operation.target ≠ some slot) :
    slot ∈ (operations.foldl Store.perform store).open_ ∧
      (operations.foldl Store.perform store).at_ slot =
        store.at_ slot := by
  induction operations generalizing store with
  | nil =>
      exact ⟨member, rfl⟩
  | cons operation rest inductionHypothesis =>
      obtain ⟨stays, same⟩ := perform_other consistent member
        (others operation List.mem_cons_self)
      obtain ⟨stays', same'⟩ := inductionHypothesis
        (consistent.perform operation) stays
        fun later listed => others later (List.mem_cons_of_mem _ listed)
      exact ⟨stays', same'.trans same⟩

end Store

namespace Engine

variable (config) (engine : Engine size observers) (datagram : Datagram)
  (service : Option (ServiceCallback size)) (interval : UInt32)

/-- What `coap_parse_message` makes of the datagram. -/
def parsed : CoapStatus × ParseState :=
  coapParseMessage config datagram.data datagram.dataLen
    engine.coapErrorMessage

def parsedMessage : ReceivedPacket := (engine.parsed config datagram).2.packet

def afterParse : Engine size observers :=
  { engine with
    coapErrorMessage :=
      (engine.parsed config datagram).2.coapErrorMessage }

/-- The transaction for the response to a request. -/
def created : Option (Fin size) × Store size observers :=
  engine.store.coapNewTransaction (engine.parsedMessage config datagram).mid
    datagram.source

/-- What the service callback does to the transactions. -/
def serviceOperations : List (Operation size) :=
  match (engine.created config datagram).1, service with
  | some _, some callback =>
      (answer config callback (engine.parsedMessage config datagram)
        engine.currentMid).operations
  | _, _ => []

def served : Store size observers :=
  (engine.serviceOperations config datagram service).foldl Store.perform
    (engine.created config datagram).2

def requestStatus : UInt8 :=
  (handleRequest config datagram service
    (engine.parsedMessage config datagram)
    (engine.afterParse config datagram)).2

theorem coapReceive_failed
    (failed : (engine.parsed config datagram).1 ≠ .noError) :
    engine.coapReceive config datagram service interval =
      finish config datagram (engine.parsedMessage config datagram) interval
        (engine.afterParse config datagram,
          (engine.parsed config datagram).1.code) :=
  congrArg (finish config datagram (engine.parsedMessage config datagram)
    interval) (if_neg failed)

theorem coapReceive_request
    (succeeded : (engine.parsed config datagram).1 = .noError)
    (request : isRequest (engine.parsedMessage config datagram) = true) :
    engine.coapReceive config datagram service interval =
      finish config datagram (engine.parsedMessage config datagram) interval
        (handleRequest config datagram service
          (engine.parsedMessage config datagram)
          (engine.afterParse config datagram)) :=
  congrArg (finish config datagram (engine.parsedMessage config datagram)
    interval) ((if_pos succeeded).trans (if_pos request))

theorem coapReceive_response
    (succeeded : (engine.parsed config datagram).1 = .noError)
    (response :
      isRequest (engine.parsedMessage config datagram) = false) :
    engine.coapReceive config datagram service interval =
      finish config datagram (engine.parsedMessage config datagram) interval
        (handleResponse datagram (engine.parsedMessage config datagram)
          (engine.afterParse config datagram)) :=
  congrArg (finish config datagram (engine.parsedMessage config datagram)
    interval) ((if_pos succeeded).trans
      (if_neg (Bool.eq_false_iff.mp response)))

theorem finish_error (message : ReceivedPacket)
    (result : Engine size observers × UInt8)
    (error : result.2 ≠ statusNoError) :
    let after := (finish config datagram message interval result).store
    let cleared :=
      result.1.store.coapClearTransaction result.1.transaction
    after.transactions = cleared.transactions ∧
      after.trace = cleared.trace := by
  unfold finish
  dsimp only
  rw [if_neg error]
  split
  · exact ⟨rfl, rfl⟩
  · split <;> exact ⟨rfl, rfl⟩

variable (message : ReceivedPacket) (result : Engine size observers × UInt8)

theorem finish_noError (success : result.2 = statusNoError) :
    (∀ slot, result.1.transaction = some slot →
      (finish config datagram message interval result).store =
        result.1.store.coapSendTransaction interval slot) ∧
    (result.1.transaction = none →
      (finish config datagram message interval result).store =
        result.1.store) := by
  unfold finish
  dsimp only
  rw [if_pos success]
  constructor
  · intro slot found
    rw [found]
  · intro found
    rw [found]

/-- Without a transaction the end of `coap_receive` changes none. -/
theorem finish_trace_of_none (none : result.1.transaction = none) :
    (finish config datagram message interval result).store.trace =
      result.1.store.trace := by
  by_cases success : result.2 = statusNoError
  · rw [(finish_noError config datagram interval message result
      success).2 none]
  · rw [(finish_error config datagram interval message result
      success).2, none]
    rfl

theorem serializeResponse_store (slot : Fin size) (prepared : Prepared) :
    let result := serializeResponse config slot prepared engine
    result.1.transaction = engine.transaction ∧
      ∃ packetLen packet, result.1.store = engine.store.update slot
        { engine.store.at_ slot with
          packetLen := packetLen, packet := packet } := by
  unfold serializeResponse
  cases coapSerializeMessage config prepared.response with
  | ok bytes =>
      exact ⟨rfl, bytes.length, ByteMem.ofList bytes, rfl⟩
  | error message =>
      exact ⟨rfl, 0, (engine.store.at_ slot).packet, rfl⟩

theorem respond_store (message : ReceivedPacket) (slot : Fin size)
    (block : BlockRequest) (served : Served size) :
    let result := respond config message slot block served engine
    result.1.transaction = engine.transaction ∧
      (result.1.store = engine.store ∨
        ∃ packetLen packet, result.1.store = engine.store.update slot
          { engine.store.at_ slot with
            packetLen := packetLen, packet := packet }) := by
  unfold respond
  generalize (if served.accepted ∧ served.status = statusNoError then
    handleBlockwise config message block served else _) = prepared
  dsimp only
  by_cases success : prepared.status = statusNoError
  · rw [if_pos success]
    obtain ⟨same, filled⟩ :=
      serializeResponse_store config engine slot prepared
    exact ⟨same, .inr filled⟩
  · rw [if_neg success]
    exact ⟨rfl, .inl rfl⟩

/-- What the request branch does: it only fills the packet of the transaction
that it created. -/
theorem handleRequest_cases :
    let created := engine.created config datagram
    let served := engine.served config datagram service
    let result := handleRequest config datagram service
      (engine.parsedMessage config datagram)
      (engine.afterParse config datagram)
    result.1.transaction = created.1 ∧
      (created.1 = none → result.2 ≠ statusNoError) ∧
      (result.1.store = served ∨
        ∃ slot packetLen packet, created.1 = some slot ∧
          result.1.store = served.update slot
            { served.at_ slot with
              packetLen := packetLen, packet := packet }) := by
  unfold handleRequest served serviceOperations created
  dsimp only [afterParse]
  cases found : (engine.store.coapNewTransaction
      (engine.parsedMessage config datagram).mid datagram.source).1 with
  | none =>
      have differs : statusServiceUnavailable ≠ statusNoError := by
        decide
      exact ⟨rfl, fun _ => differs, .inl rfl⟩
  | some slot =>
      cases service with
      | none =>
          exact ⟨rfl, fun none => absurd none (by simp), .inl rfl⟩
      | some callback =>
          dsimp only
          generalize answer config callback
            (engine.parsedMessage config datagram)
            engine.currentMid = served
          obtain ⟨same, filled⟩ := respond_store config
            { afterParse config engine datagram with
              store := served.operations.foldl Store.perform
                (engine.store.coapNewTransaction
                  (engine.parsedMessage config datagram).mid
                  datagram.source).2
              transaction := some slot
              currentMid := (initResponse
                (engine.parsedMessage config datagram)
                engine.currentMid).2 }
            (engine.parsedMessage config datagram) slot
            (blockRequest config (engine.parsedMessage config datagram))
            served
          refine ⟨same, fun none => absurd none (by simp), ?_⟩
          rcases filled with kept | ⟨packetLen, packet, updated⟩
          · exact .inl kept
          · exact .inr ⟨slot, packetLen, packet, rfl, updated⟩

theorem handleResponse_cases (message : ReceivedPacket) :
    let result := handleResponse datagram message engine
    let found := engine.store.coapGetTransactionByMid message.mid
    result.1.transaction = none ∧
      (∀ slot, found = some slot →
        result.1.store.transactions =
          (engine.store.coapClearTransaction (some slot)).transactions ∧
        result.1.store.trace = engine.store.trace ++
          engine.store.clearing slot ++
          Store.invocation slot (engine.store.at_ slot)) ∧
      (found = none →
        result.1.store.transactions = engine.store.transactions ∧
        result.1.store.trace = engine.store.trace) := by
  unfold handleResponse
  dsimp only
  generalize (decide (message.type = .con ∧ message.code = 0)) = ping
  generalize hStore : (if ¬ ping = true ∧ message.type = .rst then
    engine.store.coapRemoveObserverByMid datagram.source message.mid
    else engine.store) = store
  have transactions : store.transactions = engine.store.transactions := by
    rw [← hStore]
    split
    · exact Store.removeObserver_transactions _
    · rfl
  have trace : store.trace = engine.store.trace := by
    rw [← hStore]
    split
    · exact Store.removeObserver_trace _
    · rfl
  have lookup : store.coapGetTransactionByMid message.mid =
      engine.store.coapGetTransactionByMid message.mid := by
    unfold Store.coapGetTransactionByMid Store.at_
    rw [transactions]
  rw [lookup]
  refine ⟨rfl, fun slot found => ?_, fun found => ?_⟩
  · have same : store.at_ slot = engine.store.at_ slot := by
      unfold Store.at_
      rw [transactions]
    rw [found]
    dsimp only
    rw [Store.invoke_transactions, Store.invoke_trace,
      Store.coapClearTransaction_congr transactions,
      Store.coapClearTransaction_trace, trace,
      Store.clearing_congr transactions, same]
    exact ⟨rfl, rfl⟩
  · rw [found]
    exact ⟨transactions, trace⟩

/-! ## Datagrams that end in an error -/

/-- A datagram that cannot be parsed, or whose request ends with an error,
leaves all open transactions as they are except the one created for it, up to
what the service callback itself does. -/
def ErrorFrame : Input size → Prop
  | .receive datagram service interval =>
      let after :=
        (engine.coapReceive config datagram service interval).store
      let own := (engine.created config datagram).1
      ((engine.parsed config datagram).1 ≠ .noError →
        Store.Untouched none engine.store after) ∧
      ((engine.parsed config datagram).1 = .noError →
        isRequest (engine.parsedMessage config datagram) = true →
        engine.requestStatus config datagram service ≠ statusNoError →
        (∀ slot, own = some slot → slot ∉ engine.store.open_) ∧
          Store.Untouched own engine.store
            (engine.created config datagram).2 ∧
          Store.Untouched own (engine.served config datagram service)
            after)
  | _ => True

/-- A datagram that cannot be parsed arrives while the static pointer refers
to no open transaction. -/
def NoStaleTransaction : Input size → Prop
  | .receive datagram _ _ =>
      (engine.parsed config datagram).1 ≠ .noError →
        ∀ slot, engine.transaction = some slot →
          slot ∉ engine.store.open_
  | _ => True

theorem code_ne_noError {status : CoapStatus}
    (failed : status ≠ .noError) : status.code ≠ statusNoError := by
  cases status with
  | noError =>
      exact absurd rfl failed
  | badRequest =>
      exact fun same => absurd same (by decide)
  | badOption =>
      exact fun same => absurd same (by decide)
  | proxyingNotSupported =>
      exact fun same => absurd same (by decide)

/-- A datagram that cannot be parsed leaves the transactions as they are
exactly if the static pointer refers to no open one. -/
theorem coapReceive_failed_untouched_iff
    (consistent : engine.store.Consistent)
    (failed : (engine.parsed config datagram).1 ≠ .noError) :
    Store.Untouched none engine.store
        (engine.coapReceive config datagram service interval).store ↔
      ∀ slot, engine.transaction = some slot →
        slot ∉ engine.store.open_ := by
  have ended := (finish_error config datagram interval
    (engine.parsedMessage config datagram)
    (engine.afterParse config datagram,
      (engine.parsed config datagram).1.code)
    (code_ne_noError failed)).1
  rw [← coapReceive_failed config engine datagram service interval failed]
    at ended
  dsimp only [afterParse] at ended
  constructor
  · intro untouched slot stale member
    have stays := (untouched slot (by simp)).1.mpr member
    rw [Store.open_, ended, stale] at stays
    exact ((Store.mem_coapClearTransaction consistent).mp stays).1 rfl
  · intro unused slot _
    cases stale : engine.transaction with
    | none =>
        rw [stale] at ended
        unfold Store.open_ Store.at_
        rw [ended]
        exact ⟨Iff.rfl, fun _ => rfl⟩
    | some other =>
        have free := unused other stale
        rw [stale] at ended
        have clear := Store.coapClearTransaction_untouched engine.store
          (some other)
        unfold Store.Untouched Store.open_ Store.at_ at clear
        unfold Store.open_ Store.at_
        rw [ended]
        by_cases same : slot = other
        · subst same
          refine ⟨?_, fun member => absurd member free⟩
          exact (Store.mem_coapClearTransaction consistent).trans
            ⟨fun both => both.2, fun member => absurd member free⟩
        · exact clear slot (by simpa using same)

theorem errorFrame_of_noStaleTransaction
    (consistent : engine.store.Consistent) (input : Input size)
    (noStale : engine.NoStaleTransaction config input) :
    engine.ErrorFrame config input := by
  cases input with
  | receive datagram service interval =>
      refine ⟨fun failed => ?_, fun succeeded request error => ?_⟩
      · exact (coapReceive_failed_untouched_iff config engine datagram
          service interval consistent failed).mpr (noStale failed)
      · obtain ⟨own, _, filled⟩ :=
          handleRequest_cases config engine datagram service
        have ended := (finish_error config datagram interval
          (engine.parsedMessage config datagram) _ error).1
        rw [← coapReceive_request config engine datagram service interval
          succeeded request, own] at ended
        have cleared := (Store.coapClearTransaction_untouched
          (handleRequest config datagram service
            (engine.parsedMessage config datagram)
            (engine.afterParse config datagram)).1.store
          (engine.created config datagram).1).congr ended
        have filling : Store.Untouched (engine.created config datagram).1
            (engine.served config datagram service)
            (handleRequest config datagram service
              (engine.parsedMessage config datagram)
              (engine.afterParse config datagram)).1.store := by
          rcases filled with same | ⟨slot, _, _, created, same⟩
          · rw [same]
            exact Store.Untouched.refl _ _
          · rw [same, created]
            exact Store.update_untouched slot _
        refine ⟨?_, ?_, filling.trans cleared⟩
        · intro slot created
          unfold Engine.created at created
          rcases Store.coapNewTransaction_cases consistent _ _ with
            full | ⟨fresh, after, eq, creates⟩
          · rw [full] at created
            exact absurd created (by simp)
          · rw [eq] at created
            cases created
            exact creates.fresh
        · unfold Engine.created
          rcases Store.coapNewTransaction_cases consistent _ _ with
            full | ⟨fresh, after, eq, creates⟩
          · rw [full]
            exact Store.Untouched.refl _ _
          · rw [eq]
            exact creates.untouched
  | expire slot =>
      trivial
  | check iterations =>
      trivial
  | operate operation =>
      trivial

theorem served_consistent (consistent : engine.store.Consistent) :
    (engine.served config datagram service).Consistent := by
  have created : (engine.created config datagram).2.Consistent := by
    unfold Engine.created
    rcases Store.coapNewTransaction_cases consistent _ _ with
      full | ⟨fresh, after, eq, creates⟩
    · rw [full]
      exact consistent
    · rw [eq]
      exact creates.consistent
  exact created.foldl_perform _

theorem finish_consistent (consistent : result.1.store.Consistent) :
    (finish config datagram message interval result).store.Consistent := by
  by_cases success : result.2 = statusNoError
  · obtain ⟨sent, silent⟩ :=
      finish_noError config datagram interval message result success
    cases found : result.1.transaction with
    | none =>
        rw [silent found]
        exact consistent
    | some slot =>
        rw [sent slot found]
        exact consistent.coapSendTransaction interval slot
  · rw [Store.Consistent,
      (finish_error config datagram interval message result success).1]
    exact consistent.coapClearTransaction _

theorem coapReceive_consistent (consistent : engine.store.Consistent) :
    (engine.coapReceive config datagram service
      interval).store.Consistent := by
  by_cases succeeded : (engine.parsed config datagram).1 = .noError
  · cases request : isRequest (engine.parsedMessage config datagram) with
    | true =>
        rw [coapReceive_request config engine datagram service interval
          succeeded request]
        apply finish_consistent
        obtain ⟨_, _, filled⟩ :=
          handleRequest_cases config engine datagram service
        have served := served_consistent config engine datagram service
          consistent
        rcases filled with same | ⟨slot, _, _, _, same⟩
        · rw [same]
          exact served
        · rw [same]
          exact served.set slot _
    | false =>
        rw [coapReceive_response config engine datagram service interval
          succeeded request]
        apply finish_consistent
        obtain ⟨_, completed, unknown⟩ := handleResponse_cases
          (engine.afterParse config datagram) datagram
          (engine.parsedMessage config datagram)
        cases found : (engine.afterParse config
            datagram).store.coapGetTransactionByMid
            (engine.parsedMessage config datagram).mid with
        | none =>
            rw [Store.Consistent, (unknown found).1]
            exact consistent
        | some slot =>
            rw [Store.Consistent, (completed slot found).1]
            exact consistent.coapClearTransaction (some slot)
  · rw [coapReceive_failed config engine datagram service interval
      succeeded]
    exact finish_consistent config datagram interval _ _ consistent

theorem checkFrom_consistent {store : Store size observers}
    (iterations : List (UInt32 × List (Operation size)))
    (slot : Option (Fin size)) (consistent : store.Consistent) :
    (checkFrom iterations slot store).Consistent := by
  induction iterations generalizing slot store with
  | nil =>
      exact consistent
  | cons iteration rest inductionHypothesis =>
      cases slot with
      | none =>
          exact consistent
      | some slot =>
          apply inductionHypothesis
          split
          · exact consistent
          · have counted : (store.update slot
                { store.at_ slot with
                  retransCounter := (store.at_ slot).retransCounter + 1 }
                ).Consistent := consistent.set slot _
            exact (counted.coapSendTransaction iteration.1
              slot).foldl_perform iteration.2

theorem step_consistent (consistent : engine.store.Consistent)
    (input : Input size) :
    (engine.step config input).store.Consistent := by
  cases input with
  | receive datagram service interval =>
      exact coapReceive_consistent config engine datagram service interval
        consistent
  | expire slot =>
      exact consistent.set slot _
  | check iterations =>
      exact checkFrom_consistent iterations _ consistent
  | operate operation =>
      exact consistent.perform operation

theorem initial_consistent (currentMid : UInt16) :
    (Engine.initial currentMid : Engine size observers).store.Consistent where
  nodup := List.nodup_nil
  mem_iff := fun slot => by simp [Engine.initial]

theorem run_consistent (consistent : engine.store.Consistent)
    (inputs : List (Input size)) :
    (inputs.foldl (step config) engine).store.Consistent := by
  induction inputs generalizing engine with
  | nil =>
      exact consistent
  | cons input rest inductionHypothesis =>
      exact inductionHypothesis _ (step_consistent config engine consistent
        input)

/-- Every input arrives in a state without a stale transaction. -/
def NoStaleRun (config : CoapConfig) :
    Engine size observers → List (Input size) → Prop
  | _, [] => True
  | engine, input :: rest =>
      engine.NoStaleTransaction config input ∧
        NoStaleRun config (engine.step config input) rest

/-- In a run in which no datagram that cannot be parsed meets a stale
transaction, every datagram that ends in an error leaves the other
transactions as they are. -/
theorem errorFrame_run {engine : Engine size observers}
    {inputs : List (Input size)} (consistent : engine.store.Consistent)
    (noStale : NoStaleRun config engine inputs) :
    ∀ before input after, inputs = before ++ input :: after →
      (before.foldl (step config) engine).ErrorFrame config input := by
  intro before input after split
  induction before generalizing engine inputs with
  | nil =>
      rw [split] at noStale
      exact errorFrame_of_noStaleTransaction config engine consistent input
        noStale.1
  | cons first rest inductionHypothesis =>
      rw [split] at noStale
      exact inductionHypothesis
        (step_consistent config engine consistent first) noStale.2 rfl

def clientNode : Endpoint where
  addr := #v[0xfe, 0x80, 0, 0, 0, 0, 0, 0, 0, 0, 0, 0, 0, 0, 0, 1]
  port := 5683

def serverNode : Endpoint where
  addr := #v[0xfe, 0x80, 0, 0, 0, 0, 0, 0, 0, 0, 0, 0, 0, 0, 0, 2]
  port := 5683

def getRequest : Datagram where
  source := clientNode
  data := ByteMem.ofList [0x40, 0x01, 0x00, 0x07]
  dataLen := 4

def wrongVersion : Datagram where
  source := clientNode
  data := ByteMem.ofList [0x00, 0x01, 0x00, 0x08]
  dataLen := 4

/-- A resource that answers with the prepared response. -/
def emptyResource : ServiceCallback size := fun _ response _ _ =>
  { accepted := true
    status := statusNoError
    coapErrorMessage := ""
    response := response
    newOffset := 0
    operations := [] }

/-- A request is answered, its transaction object is reused for another
peer, and a datagram with a wrong version arrives. -/
def reuseAfterRequest : List (Input 4) :=
  [.receive getRequest (some emptyResource) 0,
    .operate (.new 0x1234 serverNode)]

/-- The error clears the transaction of the other peer. -/
theorem wrongVersion_not_errorFrame :
    ¬ (reuseAfterRequest.foldl (step .erConf)
      (Engine.initial 0 : Engine 4 0)).ErrorFrame .erConf
        (.receive wrongVersion none 0) := by
  intro frame
  have failed : ((reuseAfterRequest.foldl (step .erConf)
      (Engine.initial 0 : Engine 4 0)).parsed .erConf
        wrongVersion).1 ≠ .noError := by
    decide +kernel
  refine (coapReceive_failed_untouched_iff .erConf _ wrongVersion none 0
    (run_consistent .erConf _ (initial_consistent 0) reuseAfterRequest)
    failed).mp (frame.1 failed) 0 ?_ ?_
  · decide +kernel
  · decide +kernel

/-- Without the reuse in between nothing is removed. -/
theorem wrongVersion_errorFrame :
    ((Engine.initial 0 : Engine 4 0).step .erConf
      (.receive getRequest (some emptyResource) 0)).ErrorFrame .erConf
        (.receive wrongVersion none 0) := by
  have noStale : NoStaleRun .erConf (Engine.initial 0 : Engine 4 0)
      [.receive getRequest (some emptyResource) 0,
        .receive wrongVersion none 0] := by
    refine ⟨?_, ?_, trivial⟩
    · exact fun failed => absurd (by decide +kernel) failed
    · intro _
      decide +kernel
  exact errorFrame_run .erConf (initial_consistent 0) noStale
    [.receive getRequest (some emptyResource) 0]
    (.receive wrongVersion none 0) [] rfl

/-! ## The transactions that a datagram ends -/

/-- The store when `coap_receive` has returned from the service callback, or
where there is none, when the datagram has been parsed. -/
def handled : Store size observers :=
  if (engine.parsed config datagram).1 = .noError ∧
      isRequest (engine.parsedMessage config datagram) = true then
    engine.served config datagram service
  else engine.store

/-- `coap_receive` itself clears no transaction, and invokes no callback of
one, with another endpoint than the sender. -/
def EndsOnlySender : Prop :=
  ∀ event ∈ (engine.coapReceive config datagram service
      interval).store.trace.drop
        (engine.handled config datagram service).trace.length,
    ∀ endpoint ∈ event.ended, endpoint = datagram.source

/-- The transaction that the static pointer refers to when the datagram cannot
be parsed, and the first one with the message identifier of a response, are
with the sender. -/
def MatchesSender : Prop :=
  ((engine.parsed config datagram).1 ≠ .noError →
    ∀ slot, engine.transaction = some slot → slot ∈ engine.store.open_ →
      (engine.store.at_ slot).endpoint = datagram.source) ∧
  ((engine.parsed config datagram).1 = .noError →
    isRequest (engine.parsedMessage config datagram) = false →
    ∀ slot, engine.store.coapGetTransactionByMid
        (engine.parsedMessage config datagram).mid = some slot →
      (engine.store.at_ slot).endpoint = datagram.source)

/-- The service callback leaves the transaction of the request to the
engine. -/
def LeavesOwn : Prop :=
  ∀ slot, (engine.created config datagram).1 = some slot →
    ∀ operation ∈ engine.serviceOperations config datagram service,
      operation.target ≠ some slot

theorem ended_clearing {store : Store size observers} {slot : Fin size}
    {endpoint : Endpoint} :
    (∃ event ∈ store.clearing slot, endpoint ∈ event.ended) ↔
      slot ∈ store.open_ ∧ (store.at_ slot).endpoint = endpoint := by
  unfold Store.clearing
  split
  · next member =>
      simp [Event.ended, member]
  · next free =>
      simp [free]

theorem ended_invocation {slot : Fin size} {transaction : Transaction}
    {endpoint : Endpoint}
    (ended : ∃ event ∈ Store.invocation slot transaction,
      endpoint ∈ event.ended) :
    transaction.endpoint = endpoint := by
  unfold Store.invocation at ended
  split at ended
  · simpa [Event.ended] using ended
  · simp at ended

/-- The transaction of a request is with the sender, also behind the service
callback. -/
theorem own_endpoint (consistent : engine.store.Consistent)
    (leaves : engine.LeavesOwn config datagram service) {slot : Fin size}
    (created : (engine.created config datagram).1 = some slot) :
    ((engine.served config datagram service).at_ slot).endpoint =
      datagram.source := by
  have others := leaves slot created
  unfold served Engine.created at *
  rcases Store.coapNewTransaction_cases consistent
      (engine.parsedMessage config datagram).mid datagram.source with
    full | ⟨fresh, after, eq, creates⟩
  · rw [full] at created
    exact absurd created (by simp)
  · rw [eq] at created ⊢
    cases created
    rw [(Store.foldl_perform_other creates.consistent creates.member
      others).2]
    exact creates.peer

theorem endsOnlySender_request (consistent : engine.store.Consistent)
    (leaves : engine.LeavesOwn config datagram service)
    (succeeded : (engine.parsed config datagram).1 = .noError)
    (request : isRequest (engine.parsedMessage config datagram) = true) :
    engine.EndsOnlySender config datagram service interval := by
  obtain ⟨own, unsent, filled⟩ :=
    handleRequest_cases config engine datagram service
  unfold EndsOnlySender handled
  rw [if_pos ⟨succeeded, request⟩, coapReceive_request config engine
    datagram service interval succeeded request]
  generalize handleRequest config datagram service
    (engine.parsedMessage config datagram)
    (engine.afterParse config datagram) = result at own unsent filled ⊢
  have trace : result.1.store.trace =
      (engine.served config datagram service).trace := by
    rcases filled with same | ⟨slot, _, _, _, same⟩ <;> rw [same]
    rfl
  cases created : (engine.created config datagram).1 with
  | none =>
      rw [created] at own
      rw [(finish_error config datagram interval
        (engine.parsedMessage config datagram) result
        (unsent created)).2, own]
      simp [Store.coapClearTransaction, trace]
  | some slot =>
      rw [created] at own
      have peer : (result.1.store.at_ slot).endpoint = datagram.source := by
        have served := own_endpoint config engine datagram service
          consistent leaves created
        rcases filled with same | ⟨other, _, _, created', same⟩
        · rw [same]
          exact served
        · rw [created] at created'
          cases created'
          rw [same]
          exact (congrArg Transaction.endpoint
            (Function.update_self (β := fun _ => Transaction) slot _
              _)).trans served
      have clearing : ∀ event ∈ result.1.store.clearing slot,
          ∀ endpoint ∈ event.ended, endpoint = datagram.source := by
        intro event listed endpoint ended
        exact ((ended_clearing.mp ⟨event, listed, ended⟩).2.symm).trans
          peer
      by_cases success : result.2 = statusNoError
      · rw [(finish_noError config datagram interval
          (engine.parsedMessage config datagram) result success).1 slot
            own]
        rcases result.1.store.coapSendTransaction_cases interval slot with
          ⟨_, kept, _⟩ | ⟨_, _, ended⟩
        · rw [kept, trace]
          simp
        · rw [ended, trace, List.append_assoc, List.drop_left]
          intro event listed endpoint member
          rcases List.mem_append.mp listed with listed | listed
          · exact clearing event listed endpoint member
          · split at listed
            · exact (ended_invocation ⟨event, listed, member⟩).symm.trans
                peer
            · exact absurd listed List.not_mem_nil
      · rw [(finish_error config datagram interval
          (engine.parsedMessage config datagram) result success).2, own,
          Store.coapClearTransaction_trace, trace, List.drop_left]
        exact clearing

/-- A datagram that cannot be parsed ends the transaction that the static
pointer refers to. -/
theorem endsOnlySender_failed
    (failed : (engine.parsed config datagram).1 ≠ .noError) :
    engine.EndsOnlySender config datagram service interval ↔
      ∀ slot, engine.transaction = some slot → slot ∈ engine.store.open_ →
        (engine.store.at_ slot).endpoint = datagram.source := by
  unfold EndsOnlySender handled
  rw [if_neg fun both => failed both.1,
    coapReceive_failed config engine datagram service interval failed,
    (finish_error config datagram interval
      (engine.parsedMessage config datagram)
      (engine.afterParse config datagram,
        (engine.parsed config datagram).1.code)
      (code_ne_noError failed)).2]
  dsimp only [afterParse]
  cases stale : engine.transaction with
  | none =>
      simp [Store.coapClearTransaction]
  | some slot =>
      rw [Store.coapClearTransaction_trace, List.drop_left]
      constructor
      · rintro sender _ ⟨⟩ member
        obtain ⟨event, listed, ended⟩ :=
          ended_clearing.mpr ⟨member, rfl⟩
        exact sender event listed _ ended
      · intro sender event listed endpoint ended
        obtain ⟨member, peer⟩ :=
          ended_clearing.mp ⟨event, listed, ended⟩
        exact peer.symm.trans (sender slot rfl member)

theorem endsOnlySender_response
    (succeeded : (engine.parsed config datagram).1 = .noError)
    (response :
      isRequest (engine.parsedMessage config datagram) = false) :
    engine.EndsOnlySender config datagram service interval ↔
      ∀ slot, engine.store.coapGetTransactionByMid
          (engine.parsedMessage config datagram).mid = some slot →
        (engine.store.at_ slot).endpoint = datagram.source := by
  obtain ⟨none, completed, unknown⟩ := handleResponse_cases
    (engine.afterParse config datagram) datagram
    (engine.parsedMessage config datagram)
  have trace := finish_trace_of_none config datagram interval
    (engine.parsedMessage config datagram) _ none
  unfold EndsOnlySender handled
  rw [if_neg fun both => absurd (response.symm.trans both.2) (by decide),
    coapReceive_response config engine datagram service interval succeeded
      response, trace]
  cases found : engine.store.coapGetTransactionByMid
      (engine.parsedMessage config datagram).mid with
  | none =>
      rw [(unknown found).2]
      simp [afterParse]
  | some slot =>
      have member : slot ∈ engine.store.open_ := List.mem_of_find?_eq_some
        found
      rw [(completed slot found).2]
      dsimp only [afterParse]
      rw [List.append_assoc, List.drop_left]
      constructor
      · rintro sender _ ⟨⟩
        obtain ⟨event, listed, ended⟩ :=
          ended_clearing.mpr ⟨member, rfl⟩
        exact sender event (List.mem_append_left _ listed) _ ended
      · intro sender event listed endpoint ended
        have peer := sender slot rfl
        rcases List.mem_append.mp listed with listed | listed
        · exact (ended_clearing.mp ⟨event, listed, ended⟩).2.symm.trans
            peer
        · exact (ended_invocation ⟨event, listed, ended⟩).symm.trans peer

/-- A datagram ends only transactions with its sender exactly if the ones
that it is matched with are with the sender. -/
theorem endsOnlySender_iff (consistent : engine.store.Consistent)
    (leaves : engine.LeavesOwn config datagram service) :
    engine.EndsOnlySender config datagram service interval ↔
      engine.MatchesSender config datagram := by
  by_cases succeeded : (engine.parsed config datagram).1 = .noError
  · cases request : isRequest (engine.parsedMessage config datagram) with
    | true =>
        refine ⟨fun _ => ⟨fun failed => absurd succeeded failed,
          fun _ response => ?_⟩, fun _ => ?_⟩
        · exact absurd (request.symm.trans response) (by decide)
        · exact endsOnlySender_request config engine datagram service
            interval consistent leaves succeeded request
    | false =>
        refine (endsOnlySender_response config engine datagram service
          interval succeeded request).trans ?_
        exact ⟨fun matched => ⟨fun failed => absurd succeeded failed,
          fun _ _ => matched⟩, fun matched => matched.2 succeeded request⟩
  · refine (endsOnlySender_failed config engine datagram service interval
      succeeded).trans ?_
    exact ⟨fun matched => ⟨fun _ => matched,
      fun parsed => absurd parsed succeeded⟩,
      fun matched => matched.1 succeeded⟩

/-- A node that waits for an answer of the server. -/
def waiting : Engine 4 0 :=
  (Engine.initial 0).step .erConf (.operate (.new 0x1234 serverNode))

def acknowledgement (source : Endpoint) : Datagram where
  source := source
  data := ByteMem.ofList [0x60, 0x00, 0x12, 0x34]
  dataLen := 4

/-- Another node acknowledges the message of the server. -/
theorem foreignAcknowledgement_not_endsOnlySender :
    ¬ waiting.EndsOnlySender .erConf (acknowledgement clientNode) none
      0 := by
  have different : (waiting.store.at_ 0).endpoint ≠ clientNode := by
    decide
  intro sender
  refine different ((endsOnlySender_response .erConf waiting
    (acknowledgement clientNode) none 0 ?_ ?_).mp sender 0 ?_)
  · decide
  · decide
  · decide

theorem serverAcknowledgement_endsOnlySender :
    waiting.EndsOnlySender .erConf (acknowledgement serverNode) none
      0 := by
  refine (endsOnlySender_iff .erConf waiting (acknowledgement serverNode)
    none 0 (step_consistent .erConf _ (initial_consistent 0) _)
    ?_).mpr ⟨?_, ?_⟩
  · intro slot _ operation listed
    rw [show waiting.serviceOperations .erConf (acknowledgement serverNode)
      none = [] by rfl] at listed
    exact absurd listed List.not_mem_nil
  · exact fun failed => absurd (by decide) failed
  · intro _ _
    decide

end Engine

end Contiki.Coap
