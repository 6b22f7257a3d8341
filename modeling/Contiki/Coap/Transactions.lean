import Contiki.Coap.Serialize
import Contiki.Lib.Pool

/-!
# CoAP transactions

`er-coap-transactions.c`, and the two functions of `er-coap-observe.c` that
drop observers.  A pointer to a transaction is the index of its object in the
pool.  The store records what happens to the transactions and the messages
that are sent.

A response callback is the last action of the function that invokes it, so
what it does to the transactions are further operations behind the call.
-/

namespace Contiki.Coap

open Contiki.Lib

/-- The address of a function or of data. -/
abbrev Address := Nat

/-- An IPv6 address and a UDP port. -/
structure Endpoint where
  addr : Vector UInt8 16
  port : UInt16
  deriving DecidableEq

/-- `struct etimer`: its interval, and whether it is running. -/
structure Etimer where
  interval : UInt32
  running : Bool

/-- `coap_transaction_t`. -/
structure Transaction where
  mid : UInt16
  retransTimer : Etimer
  retransCounter : UInt8
  addr : Vector UInt8 16
  port : UInt16
  callback : Option Address
  callbackData : Address
  packetLen : Nat
  packet : ByteMem

def Transaction.endpoint (transaction : Transaction) : Endpoint where
  addr := transaction.addr
  port := transaction.port

/-- `coap_observer_t`, as far as an observer is found by its address and the
identifier of the last notification. -/
structure Observer where
  endpoint : Endpoint
  lastMid : UInt16

/-- What happens to a transaction. -/
inductive Event (size : Nat) where
  | created (slot : Fin size) (endpoint : Endpoint)
  | registered (slot : Fin size) (callback : Option Address)
      (data : Address)
  | cleared (slot : Fin size) (endpoint : Endpoint)
  | invoked (slot : Fin size) (callback data : Address)
      (endpoint : Endpoint)
  deriving DecidableEq

/-- The transactions, of which `COAP_MAX_OPEN_TRANSACTIONS` can be open, and
the observers. -/
structure Store (size observers : Nat) where
  transactions : Pool size Transaction
  observers : Pool observers Observer
  /-- What has happened so far. -/
  trace : List (Event size)
  /-- The messages sent so far. -/
  sent : List (Endpoint × List UInt8)

def coapMaxRetransmit : UInt8 := 4

variable {size observers : Nat}

namespace Store

def at_ (store : Store size observers) (slot : Fin size) : Transaction :=
  store.transactions.slots slot

def update (store : Store size observers) (slot : Fin size)
    (transaction : Transaction) : Store size observers :=
  { store with transactions := store.transactions.set slot transaction }

def emit (store : Store size observers) (event : Event size) :
    Store size observers :=
  { store with trace := store.trace ++ [event] }

/-- `coap_send_message`. -/
def coapSendMessage (store : Store size observers) (endpoint : Endpoint)
    (data : List UInt8) : Store size observers :=
  { store with sent := store.sent ++ [(endpoint, data)] }

/-- Drop the first observer that matches.  The loop in the source follows
the list from the observer that it dropped, which is no longer in it. -/
def removeObserver (store : Store size observers)
    (matching : Observer → Bool) : Store size observers :=
  match store.observers.list.find?
      fun slot => matching (store.observers.slots slot) with
  | some slot =>
      { store with observers := store.observers.release slot }
  | none => store

/-- `coap_remove_observer_by_client`. -/
def coapRemoveObserverByClient (store : Store size observers)
    (endpoint : Endpoint) : Store size observers :=
  store.removeObserver fun observer => observer.endpoint = endpoint

/-- `coap_remove_observer_by_mid`. -/
def coapRemoveObserverByMid (store : Store size observers)
    (endpoint : Endpoint) (mid : UInt16) : Store size observers :=
  store.removeObserver fun observer =>
    observer.endpoint = endpoint ∧ observer.lastMid = mid

/-- `coap_new_transaction`.  Only these fields are written; the callback is
what the last owner of the object left there. -/
def coapNewTransaction (store : Store size observers) (mid : UInt16)
    (endpoint : Endpoint) : Option (Fin size) × Store size observers :=
  match store.transactions.firstFree with
  | none => (none, store)
  | some slot =>
      (some slot,
        ({ store with transactions :=
            (store.transactions.set slot
              { store.at_ slot with
                mid := mid
                retransCounter := 0
                addr := endpoint.addr
                port := endpoint.port }).take slot }).emit
          (.created slot endpoint))

local instance lawfulBEq_slot (size : Nat) : LawfulBEq (Fin size) :=
  inferInstance

/-- `coap_clear_transaction`. -/
def coapClearTransaction (store : Store size observers) :
    Option (Fin size) → Store size observers
  | none => store
  | some slot =>
      let transaction := store.at_ slot
      let stopped :=
        store.update slot
          { transaction with
            retransTimer := { transaction.retransTimer with
              running := false } }
      let cleared := { stopped with
        transactions := stopped.transactions.release slot }
      if slot ∈ store.transactions.list then
        cleared.emit (.cleared slot transaction.endpoint)
      else cleared

/-- `coap_get_transaction_by_mid`. -/
def coapGetTransactionByMid (store : Store size observers)
    (mid : UInt16) : Option (Fin size) :=
  store.transactions.list.find? fun slot => (store.at_ slot).mid = mid

/-- `if(callback) callback(callback_data, ..)` for the callback that the
transaction had. -/
def invoke (store : Store size observers) (slot : Fin size)
    (transaction : Transaction) : Store size observers :=
  match transaction.callback with
  | some callback =>
      store.emit (.invoked slot callback transaction.callbackData
        transaction.endpoint)
  | none => store

def confirmable (store : Store size observers) (slot : Fin size) : Bool :=
  (0x30 &&& (store.at_ slot).packet 0) >>> 4 =
    CoapMessageType.con.toByte

/-- `coap_send_transaction`, with the initial interval of the
retransmission timer. -/
def coapSendTransaction (store : Store size observers)
    (interval : UInt32) (slot : Fin size) : Store size observers :=
  let transaction := store.at_ slot
  let store := store.coapSendMessage transaction.endpoint
    (transaction.packet.read 0 transaction.packetLen)
  if store.confirmable slot then
    if transaction.retransCounter < coapMaxRetransmit then
      -- not timed out yet
      store.update slot
        { transaction with
          retransTimer :=
            { interval :=
                if transaction.retransCounter = 0 then interval
                else transaction.retransTimer.interval <<< 1
              running := true } }
    else
      -- timed out
      let store := store.coapRemoveObserverByClient transaction.endpoint
      (store.coapClearTransaction (some slot)).invoke slot transaction
  else store.coapClearTransaction (some slot)

end Store

/-- An operation of an application on the transactions. -/
inductive Operation (size : Nat) where
  /-- `coap_new_transaction` -/
  | new (mid : UInt16) (endpoint : Endpoint)
  /-- Assign `callback` and `callback_data`. -/
  | register (slot : Fin size) (callback : Option Address)
      (data : Address)
  /-- Fill the packet. -/
  | write (slot : Fin size) (packetLen : Nat) (packet : ByteMem)
  /-- `coap_send_transaction` -/
  | send (slot : Fin size) (interval : UInt32)
  /-- `coap_clear_transaction` -/
  | clear (slot : Fin size)

namespace Store

/-- A transaction that is sent is open. -/
def Permits (store : Store size observers) : Operation size → Prop
  | .send slot _ => slot ∈ store.transactions.list
  | _ => True

def perform (store : Store size observers) :
    Operation size → Store size observers
  | .new mid endpoint => (store.coapNewTransaction mid endpoint).2
  | .register slot callback data =>
      (store.update slot
        { store.at_ slot with
          callback := callback
          callbackData := data }).emit (.registered slot callback data)
  | .write slot packetLen packet =>
      store.update slot
        { store.at_ slot with packetLen := packetLen, packet := packet }
  | .send slot interval => store.coapSendTransaction interval slot
  | .clear slot => store.coapClearTransaction (some slot)

/-- The loop of `coap_check_transactions` at one transaction: resend it if
its timer is not running, and what the callback does if it is invoked.  The
result has the next transaction. -/
def checkTransaction (store : Store size observers) (slot : Fin size)
    (interval : UInt32) (callback : List (Operation size)) :
    Option (Fin size) × Store size observers :=
  let transaction := store.at_ slot
  let store :=
    if transaction.retransTimer.running then store
    else
      callback.foldl perform
        ((store.update slot
          { transaction with
            retransCounter := transaction.retransCounter + 1 }
          ).coapSendTransaction interval slot)
  (store.transactions.next slot, store)

end Store

end Contiki.Coap
