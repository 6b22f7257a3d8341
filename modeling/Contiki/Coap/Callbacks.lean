import Contiki.Coap.Isolation
import Mathlib.Data.List.Induction

/-!
# Response callbacks

Every invocation of a response callback has a registration of its own on the
same transaction.  `coap_new_transaction` leaves the callback of the last
owner in the object, so this holds for runs in which a transaction whose
response arrives or which times out has no callback or one that was assigned
after the object was taken.
-/

namespace Contiki.Coap

open Contiki.Lib

variable {size observers : Nat} {store : Store size observers}
  {config : CoapConfig}

/-- The event ends what was registered on an object before. -/
def Event.Renews (slot : Fin size) : Event size → Prop
  | .created other _ => other = slot
  | .registered other _ _ => other = slot
  | .invoked other _ _ _ => other = slot
  | .cleared _ _ => False

/-- Every invocation follows a registration of that callback on the object,
and in between the object was not taken again, no callback was registered on
it and none was invoked. -/
def CallbackLinear (trace : List (Event size)) : Prop :=
  ∀ before slot callback data endpoint after,
    trace = before ++ .invoked slot callback data endpoint :: after →
    ∃ earlier later,
      before = earlier ++ .registered slot (some callback) data :: later ∧
        ∀ event ∈ later, ¬ event.Renews slot

/-- The registration behind an event that can still be invoked. -/
def Event.pendingAfter (slot : Fin size)
    (pending : Option (Address × Address)) :
    Event size → Option (Address × Address)
  | .created other _ => if other = slot then none else pending
  | .registered other callback data =>
      if other = slot then callback.map (·, data) else pending
  | .invoked other _ _ _ => if other = slot then none else pending
  | .cleared _ _ => pending

/-- The registration on an object that can still be invoked. -/
def pending (trace : List (Event size)) (slot : Fin size) :
    Option (Address × Address) :=
  trace.foldl (Event.pendingAfter slot) none

/-- A callback was assigned since the object was taken. -/
def Event.claimedAfter (slot : Fin size) (claimed : Bool) :
    Event size → Bool
  | .created other _ => if other = slot then false else claimed
  | .registered other _ _ => if other = slot then true else claimed
  | _ => claimed

def claimed (trace : List (Event size)) (slot : Fin size) : Bool :=
  trace.foldl (Event.claimedAfter slot) false

theorem pending_concat (trace : List (Event size)) (event : Event size)
    (slot : Fin size) :
    pending (trace ++ [event]) slot =
      event.pendingAfter slot (pending trace slot) := by
  simp [pending]

theorem claimed_concat (trace : List (Event size)) (event : Event size)
    (slot : Fin size) :
    claimed (trace ++ [event]) slot =
      event.claimedAfter slot (claimed trace slot) := by
  simp [claimed]

theorem exists_registered_of_pending {trace : List (Event size)}
    {slot : Fin size} {callback data : Address}
    (waits : pending trace slot = some (callback, data)) :
    ∃ earlier later,
      trace = earlier ++ .registered slot (some callback) data :: later ∧
        ∀ event ∈ later, ¬ event.Renews slot := by
  induction trace using List.reverseRecOn with
  | nil =>
      exact absurd waits (by simp [pending])
  | append_singleton trace event inductionHypothesis =>
      rw [pending_concat] at waits
      have keeps : ¬ event.Renews slot →
          pending trace slot = some (callback, data) →
          ∃ earlier later,
            trace ++ [event] =
              earlier ++ .registered slot (some callback) data :: later ∧
            ∀ event ∈ later, ¬ event.Renews slot := by
        intro unrenewed waits
        obtain ⟨earlier, later, split, quiet⟩ := inductionHypothesis waits
        refine ⟨earlier, later ++ [event], by simp [split], ?_⟩
        intro other listed
        rcases List.mem_append.mp listed with listed | listed
        · exact quiet other listed
        · rw [List.mem_singleton.mp listed]
          exact unrenewed
      cases event with
      | created other endpoint =>
          simp only [Event.pendingAfter] at waits
          split at waits
          · exact absurd waits (by simp)
          · next different => exact keeps different waits
      | registered other assigned stored =>
          simp only [Event.pendingAfter] at waits
          split at waits
          · next same =>
              subst same
              cases assigned with
              | none =>
                  exact absurd waits (by simp)
              | some assigned =>
                  cases waits
                  exact ⟨trace, [], rfl, by simp⟩
          · next different => exact keeps different waits
      | invoked other called stored endpoint =>
          simp only [Event.pendingAfter] at waits
          split at waits
          · exact absurd waits (by simp)
          · next different => exact keeps different waits
      | cleared other endpoint =>
          exact keeps not_false waits

theorem pending_of_registered (earlier : List (Event size))
    {later : List (Event size)} {slot : Fin size}
    (callback data : Address)
    (quiet : ∀ event ∈ later, ¬ event.Renews slot) :
    pending (earlier ++ .registered slot (some callback) data :: later)
      slot = some (callback, data) := by
  induction later using List.reverseRecOn with
  | nil =>
      rw [pending_concat]
      simp [Event.pendingAfter]
  | append_singleton later event inductionHypothesis =>
      have stays := inductionHypothesis fun other listed =>
        quiet other (List.mem_append_left _ listed)
      have unrenewed := quiet event (by simp)
      rw [← List.cons_append, ← List.append_assoc, pending_concat, stays]
      cases event with
      | created other endpoint =>
          exact if_neg unrenewed
      | registered other assigned stored =>
          exact if_neg unrenewed
      | invoked other called stored endpoint =>
          exact if_neg unrenewed
      | cleared other endpoint =>
          rfl

theorem callbackLinear_nil : CallbackLinear ([] : List (Event size)) := by
  intro before slot callback data endpoint after split
  simp at split

theorem CallbackLinear.concat {trace : List (Event size)}
    (linear : CallbackLinear trace) (event : Event size)
    (due : ∀ slot callback data endpoint,
      event = .invoked slot callback data endpoint →
        pending trace slot = some (callback, data)) :
    CallbackLinear (trace ++ [event]) := by
  intro before slot callback data endpoint after split
  rcases List.eq_nil_or_concat after with rfl | ⟨front, last, rfl⟩
  · obtain ⟨same, invoked⟩ := List.append_inj' split rfl
    cases same
    exact exists_registered_of_pending
      (due slot callback data endpoint (by simpa using invoked))
  · have front_eq : trace =
        before ++ .invoked slot callback data endpoint :: front := by
      have regrouped : trace ++ [event] =
          (before ++ .invoked slot callback data endpoint :: front) ++
            [last] := by
        simpa using split
      exact (List.append_inj' regrouped rfl).1
    exact linear before slot callback data endpoint front front_eq

/-- The callback of a transaction with its data. -/
def Transaction.registration (transaction : Transaction) :
    Option (Address × Address) :=
  transaction.callback.map (·, transaction.callbackData)

variable {after : Store size observers}

namespace Store

/-- The transaction has no callback, or one that was assigned since the
object was taken. -/
def Claimed (store : Store size observers) (slot : Fin size) : Prop :=
  (store.at_ slot).callback = none ∨ claimed store.trace slot = true

/-- The callbacks of the open transactions are those that are pending, as far
as they were assigned by their owners. -/
structure Tracked (store : Store size observers) : Prop where
  consistent : store.Consistent
  registered : ∀ slot ∈ store.open_, claimed store.trace slot = true →
    pending store.trace slot = (store.at_ slot).registration
  linear : CallbackLinear store.trace

/-- No open transaction has been resent often enough to time out. -/
def InTime (store : Store size observers) : Prop :=
  ∀ slot ∈ store.open_,
    (store.at_ slot).retransCounter < coapMaxRetransmit

/-- Nothing happens to the registrations where no event is recorded and the
open transactions keep their callbacks. -/
theorem Tracked.silent
    (tracked : store.Tracked) (consistent : after.Consistent)
    (trace : after.trace = store.trace)
    (kept : ∀ slot ∈ after.open_, slot ∈ store.open_ ∧
      (after.at_ slot).registration = (store.at_ slot).registration) :
    after.Tracked where
  consistent := consistent
  registered := by
    intro slot member
    rw [trace, (kept slot member).2]
    exact tracked.registered slot (kept slot member).1
  linear := by
    rw [trace]
    exact tracked.linear

theorem at_update (slot other : Fin size) (transaction : Transaction) :
    (store.update slot transaction).at_ other =
      if other = slot then transaction else store.at_ other := by
  exact store.transactions.slots_set slot other transaction

theorem Tracked.update (tracked : store.Tracked) {slot : Fin size}
    {transaction : Transaction}
    (same : transaction.registration = (store.at_ slot).registration) :
    (store.update slot transaction).Tracked := by
  refine tracked.silent (tracked.consistent.set slot _) rfl ?_
  intro other member
  refine ⟨member, ?_⟩
  rw [at_update]
  split
  · next found =>
      rw [found]
      exact same
  · rfl

theorem at_coapClearTransaction_registration (slot other : Fin size) :
    ((store.coapClearTransaction (some slot)).at_ other).registration =
      (store.at_ other).registration := by
  rw [at_, coapClearTransaction_transactions]
  refine (congrArg Transaction.registration
    (store.transactions.slots_set slot other _)).trans ?_
  split
  · next same =>
      rw [same]
      rfl
  · rfl

theorem Tracked.clearing (tracked : store.Tracked) (slot : Fin size) :
    (∀ other, claimed (store.trace ++ store.clearing slot) other =
      claimed store.trace other) ∧
    (∀ other, pending (store.trace ++ store.clearing slot) other =
      pending store.trace other) ∧
    CallbackLinear (store.trace ++ store.clearing slot) := by
  unfold Store.clearing
  split
  · refine ⟨fun other => ?_, fun other => ?_, ?_⟩
    · rw [claimed_concat]
      rfl
    · rw [pending_concat]
      rfl
    · exact tracked.linear.concat _ fun _ _ _ _ same =>
        absurd same (by simp)
  · rw [List.append_nil]
    exact ⟨fun _ => rfl, fun _ => rfl, tracked.linear⟩

/-- A transaction ends, and its callback is invoked if it has one that is
its owner's. -/
theorem Tracked.ended (tracked : store.Tracked) {slot : Fin size}
    {invocations : List (Event size)}
    (transactions : after.transactions =
      (store.coapClearTransaction (some slot)).transactions)
    (trace : after.trace =
      store.trace ++ store.clearing slot ++ invocations)
    (due : invocations = [] ∨
      invocations = invocation slot (store.at_ slot) ∧
        slot ∈ store.open_ ∧ store.Claimed slot) : after.Tracked := by
  obtain ⟨sameClaimed, samePending, linear⟩ := tracked.clearing slot
  have consistent : after.Consistent := by
    rw [Store.Consistent, transactions]
    exact tracked.consistent.coapClearTransaction (some slot)
  have kept : ∀ other ∈ after.open_, other ≠ slot ∧
      other ∈ store.open_ ∧
      (after.at_ other).registration =
        (store.at_ other).registration := by
    intro other member
    rw [open_, transactions] at member
    obtain ⟨different, member⟩ :=
      (mem_coapClearTransaction tracked.consistent).mp member
    refine ⟨different, member, ?_⟩
    rw [at_, transactions]
    exact at_coapClearTransaction_registration slot other
  have quiet : invocations = [] → after.Tracked := by
    rintro rfl
    rw [List.append_nil] at trace
    refine ⟨consistent, fun other member => ?_, trace ▸ linear⟩
    obtain ⟨_, member, same⟩ := kept other member
    rw [trace, sameClaimed, samePending, same]
    exact tracked.registered other member
  rcases due with none | ⟨invoked, member, owned⟩
  · exact quiet none
  · cases found : (store.at_ slot).callback with
    | none =>
        refine quiet ?_
        rw [invoked, invocation, found]
    | some callback =>
        have waits : pending store.trace slot =
            some (callback, (store.at_ slot).callbackData) := by
          rw [tracked.registered slot member
            (owned.resolve_left (by simp [found])),
            Transaction.registration, found]
          rfl
        rw [invocation, found] at invoked
        rw [invoked] at trace
        refine ⟨consistent, fun other member => ?_, ?_⟩
        · obtain ⟨different, member, same⟩ := kept other member
          rw [trace, claimed_concat, pending_concat, sameClaimed,
            samePending, same]
          simp only [Event.claimedAfter, Event.pendingAfter,
            if_neg different.symm]
          exact tracked.registered other member
        · rw [trace]
          refine linear.concat _ ?_
          rintro _ _ _ _ ⟨⟩
          rw [samePending]
          exact waits

theorem Tracked.coapClearTransaction (tracked : store.Tracked)
    (slot : Option (Fin size)) :
    (store.coapClearTransaction slot).Tracked := by
  cases slot with
  | none =>
      exact tracked
  | some slot =>
      refine tracked.ended rfl ?_ (.inl rfl)
      rw [coapClearTransaction_trace, List.append_nil]

/-- A transaction that is sent has a callback of its owner if it times
out. -/
theorem Tracked.coapSendTransaction (tracked : store.Tracked)
    (interval : UInt32) {slot : Fin size}
    (due : store.confirmable slot = true →
      coapMaxRetransmit ≤ (store.at_ slot).retransCounter →
      slot ∈ store.open_ ∧ store.Claimed slot) :
    (store.coapSendTransaction interval slot).Tracked := by
  rcases store.coapSendTransaction_cases interval slot with
    ⟨_, trace, timer, kept⟩ | ⟨ends, transactions, trace⟩
  · have updated : (store.update slot
        { store.at_ slot with retransTimer := timer }).Tracked :=
      tracked.update rfl
    refine updated.silent ?_ trace ?_
    · rw [Store.Consistent, kept]
      exact tracked.consistent.set slot _
    · intro other member
      unfold open_ at_ at *
      rw [kept] at member ⊢
      exact ⟨member, rfl⟩
  · refine tracked.ended transactions trace ?_
    by_cases confirmable : store.confirmable slot = true
    · rw [if_pos confirmable]
      exact .inr ⟨rfl, due confirmable (ends confirmable)⟩
    · rw [if_neg confirmable]
      exact .inl rfl

theorem InTime.coapSendTransaction (consistent : store.Consistent)
    (interval : UInt32) {slot : Fin size}
    (inTime : ∀ other ∈ store.open_, other ≠ slot →
      (store.at_ other).retransCounter < coapMaxRetransmit) :
    (store.coapSendTransaction interval slot).InTime := by
  intro other member
  have untouched : Untouched (some slot) store
      (store.coapSendTransaction interval slot) :=
    coapSendTransaction_untouched interval slot
  by_cases same : other = slot
  · rw [same] at member ⊢
    rcases store.coapSendTransaction_cases interval slot with
      ⟨unending, _, timer, kept⟩ | ⟨_, transactions, _⟩
    · rw [at_, kept]
      rw [Ends, Classical.not_imp] at unending
      rw [store.transactions.slots_set, if_pos rfl]
      exact UInt8.not_le.mp unending.2
    · rw [open_, transactions] at member
      exact absurd rfl
        ((mem_coapClearTransaction consistent).mp member).1
  · have distinct : some other ≠ some slot := by
      simpa using same
    have before := (untouched other distinct).1.mp member
    rw [(untouched other distinct).2 before]
    exact inTime other before same

theorem InTime.update (inTime : store.InTime) {slot : Fin size}
    {transaction : Transaction}
    (same : transaction.retransCounter =
      (store.at_ slot).retransCounter) :
    (store.update slot transaction).InTime := by
  intro other member
  rw [at_update]
  split
  · next found =>
      rw [same, ← found]
      exact inTime other member
  · exact inTime other member

theorem InTime.coapClearTransaction (consistent : store.Consistent)
    (inTime : store.InTime) (slot : Option (Fin size)) :
    (store.coapClearTransaction slot).InTime := by
  cases slot with
  | none =>
      exact inTime
  | some slot =>
      intro other member
      obtain ⟨different, before⟩ :=
        (mem_coapClearTransaction consistent).mp member
      have kept := (coapClearTransaction_untouched store (some slot) other
        (by simpa using different)).2 before
      rw [kept]
      exact inTime other before

/-- The transactions are tracked, and none is about to time out without being
resent. -/
def Settled (store : Store size observers) : Prop :=
  store.Tracked ∧ store.InTime

theorem Settled.congr (settled : store.Settled)
    (transactions : after.transactions = store.transactions)
    (trace : after.trace = store.trace) : after.Settled := by
  have same : ∀ slot, after.at_ slot = store.at_ slot := fun slot => by
    unfold at_
    rw [transactions]
  have member : ∀ slot, slot ∈ after.open_ → slot ∈ store.open_ :=
    fun slot listed => by
      unfold open_ at *
      rw [← transactions]
      exact listed
  refine ⟨settled.1.silent ?_ trace fun slot listed => ?_,
    fun slot listed => ?_⟩
  · rw [Store.Consistent, transactions]
    exact settled.1.consistent
  · exact ⟨member slot listed, congrArg _ (same slot)⟩
  · rw [same]
    exact settled.2 slot (member slot listed)

theorem Settled.new (settled : store.Settled) (mid : UInt16)
    (endpoint : Endpoint) :
    (store.coapNewTransaction mid endpoint).2.Settled := by
  rcases coapNewTransaction_cases settled.1.consistent mid endpoint with
    full | ⟨slot, after, created, creates⟩
  · rw [full]
    exact settled
  · rw [created]
    have others : ∀ other ∈ after.open_, other ≠ slot →
        other ∈ store.open_ ∧ after.at_ other = store.at_ other := by
      intro other member different
      have distinct : some other ≠ some slot := by
        simpa using different
      have before := (creates.untouched other distinct).1.mp member
      exact ⟨before, (creates.untouched other distinct).2 before⟩
    refine ⟨⟨creates.consistent, fun other member => ?_, ?_⟩,
      fun other member => ?_⟩
    · rw [creates.trace, claimed_concat, pending_concat]
      by_cases same : other = slot
      · simp [Event.claimedAfter, same]
      · simp only [Event.claimedAfter, Event.pendingAfter,
          if_neg (Ne.symm same)]
        obtain ⟨before, kept⟩ := others other member same
        rw [kept]
        exact settled.1.registered other before
    · rw [creates.trace]
      exact settled.1.linear.concat _ fun _ _ _ _ same =>
        absurd same (by simp)
    · by_cases same : other = slot
      · rw [same, creates.retransCounter]
        decide
      · obtain ⟨before, kept⟩ := others other member same
        rw [kept]
        exact settled.2 other before

theorem Settled.register (settled : store.Settled) (slot : Fin size)
    (callback : Option Address) (data : Address) :
    (store.perform (.register slot callback data)).Settled := by
  have counters : (store.update slot
      { store.at_ slot with
        callback := callback
        callbackData := data }).InTime :=
    settled.2.update rfl
  refine ⟨⟨settled.1.consistent.set slot _, fun other member => ?_, ?_⟩,
    counters⟩
  · have stored : (store.perform
        (.register slot callback data)).at_ other =
        if other = slot then
          { store.at_ slot with
            callback := callback
            callbackData := data }
        else store.at_ other :=
      at_update slot other _
    have trace : (store.perform (.register slot callback data)).trace =
        store.trace ++ [.registered slot callback data] := rfl
    rw [trace, claimed_concat, pending_concat, stored]
    by_cases same : other = slot
    · simp [Event.claimedAfter, Event.pendingAfter, same,
        Transaction.registration]
    · simp only [Event.claimedAfter, Event.pendingAfter,
        if_neg (Ne.symm same), if_neg same]
      exact settled.1.registered other member
  · exact settled.1.linear.concat _ fun _ _ _ _ same =>
      absurd same (by simp)

theorem Settled.perform (settled : store.Settled)
    {operation : Operation size} (permitted : store.Permits operation) :
    (store.perform operation).Settled := by
  cases operation with
  | new mid endpoint =>
      exact settled.new mid endpoint
  | register slot callback data =>
      exact settled.register slot callback data
  | write slot packetLen packet =>
      exact ⟨settled.1.update rfl, settled.2.update rfl⟩
  | send slot interval =>
      refine ⟨settled.1.coapSendTransaction interval ?_,
        InTime.coapSendTransaction settled.1.consistent interval
          fun other member _ => settled.2 other member⟩
      intro _ expired
      exact absurd expired (UInt8.not_le.mpr (settled.2 slot permitted))
  | clear slot =>
      exact ⟨settled.1.coapClearTransaction (some slot),
        settled.2.coapClearTransaction settled.1.consistent (some slot)⟩

/-- Every operation of a list is permitted when it is performed. -/
def PermitsAll : Store size observers → List (Operation size) → Prop
  | _, [] => True
  | store, operation :: rest =>
      store.Permits operation ∧ PermitsAll (store.perform operation) rest

theorem Settled.foldl_perform (settled : store.Settled)
    {operations : List (Operation size)}
    (permitted : store.PermitsAll operations) :
    (operations.foldl Store.perform store).Settled := by
  induction operations generalizing store with
  | nil =>
      exact settled
  | cons operation rest inductionHypothesis =>
      exact inductionHypothesis (settled.perform permitted.1) permitted.2

/-- A transaction that has not been resent is not resent by an
operation. -/
theorem perform_retransCounter {slot : Fin size}
    (unsent : (store.at_ slot).retransCounter = 0)
    (operation : Operation size) :
    ((store.perform operation).at_ slot).retransCounter = 0 := by
  have stored : ∀ (target : Fin size) (transaction : Transaction),
      transaction.retransCounter = (store.at_ target).retransCounter ∨
        transaction.retransCounter = 0 →
      ((store.transactions.set target transaction).slots
        slot).retransCounter = 0 := by
    intro target transaction counter
    rw [store.transactions.slots_set]
    split
    · next same =>
        rcases counter with kept | reset
        · rw [kept, ← same]
          exact unsent
        · exact reset
    · exact unsent
  cases operation with
  | new mid endpoint =>
      rw [Store.perform, coapNewTransaction]
      split
      · exact unsent
      · exact stored _ _ (.inr rfl)
  | register target callback data =>
      exact stored target _ (.inl rfl)
  | write target packetLen packet =>
      exact stored target _ (.inl rfl)
  | send target interval =>
      rw [Store.perform]
      rcases store.coapSendTransaction_cases interval target with
        ⟨_, _, timer, kept⟩ | ⟨_, transactions, _⟩
      · rw [at_, kept]
        exact stored target _ (.inl rfl)
      · rw [at_, transactions, coapClearTransaction_transactions]
        exact stored target _ (.inl rfl)
  | clear target =>
      rw [Store.perform, at_, coapClearTransaction_transactions]
      exact stored target _ (.inl rfl)

theorem foldl_perform_retransCounter {slot : Fin size}
    (unsent : (store.at_ slot).retransCounter = 0)
    (operations : List (Operation size)) :
    ((operations.foldl Store.perform store).at_ slot).retransCounter =
      0 := by
  induction operations generalizing store with
  | nil =>
      exact unsent
  | cons operation rest inductionHypothesis =>
      exact inductionHypothesis (perform_retransCounter unsent operation)

/-- The transaction is resent although it has been resent often enough. -/
def TimesOut (store : Store size observers) (slot : Fin size) : Prop :=
  (store.at_ slot).retransTimer.running = false ∧
    store.confirmable slot = true ∧
    coapMaxRetransmit ≤ (store.at_ slot).retransCounter + 1

/-- `coap_check_transactions` resends a transaction. -/
def resend (store : Store size observers) (interval : UInt32)
    (slot : Fin size) : Store size observers :=
  (store.update slot
    { store.at_ slot with
      retransCounter := (store.at_ slot).retransCounter + 1 }
    ).coapSendTransaction interval slot

theorem Settled.checkTransaction (settled : store.Settled)
    {slot : Fin size} (member : slot ∈ store.open_) {interval : UInt32}
    {callback : List (Operation size)}
    (owned : store.TimesOut slot → store.Claimed slot)
    (permitted : (store.at_ slot).retransTimer.running = false →
      (store.resend interval slot).PermitsAll callback) :
    (store.checkTransaction slot interval callback).2.Settled := by
  unfold Store.checkTransaction
  dsimp only
  cases running : (store.at_ slot).retransTimer.running with
  | true =>
      exact settled
  | false =>
      refine Settled.foldl_perform ?_ (permitted running)
      have counted : (store.update slot
          { store.at_ slot with
            retransCounter :=
              (store.at_ slot).retransCounter + 1 }).Tracked :=
        settled.1.update rfl
      have stored := store.at_update slot slot
        { store.at_ slot with
          retransCounter := (store.at_ slot).retransCounter + 1 }
      rw [if_pos rfl] at stored
      refine ⟨counted.coapSendTransaction interval ?_,
        InTime.coapSendTransaction counted.consistent interval ?_⟩
      · intro reliable expired
        rw [Store.confirmable, stored] at reliable
        rw [stored] at expired
        refine ⟨member, ?_⟩
        have claimed := owned ⟨running, reliable, expired⟩
        rw [Claimed, stored]
        exact claimed
      · intro other listed different
        rw [at_update, if_neg different]
        exact settled.2 other listed

end Store

namespace Engine

/-- The condition for a check of the timers, at each transaction when the
loop gets there: one that times out is claimed. -/
def ChecksOwned : List (UInt32 × List (Operation size)) →
    Option (Fin size) → Store size observers → Prop
  | (interval, callback) :: rest, some slot, store =>
      (store.TimesOut slot → store.Claimed slot) ∧
      ((store.at_ slot).retransTimer.running = false →
        (store.resend interval slot).PermitsAll callback) ∧
      ChecksOwned rest (store.checkTransaction slot interval callback).1
        (store.checkTransaction slot interval callback).2
  | _, _, _ => True

theorem checkFrom_settled {store : Store size observers}
    {iterations : List (UInt32 × List (Operation size))}
    {current : Option (Fin size)} (settled : store.Settled)
    (member : ∀ slot ∈ current, slot ∈ store.open_)
    (owned : ChecksOwned iterations current store) :
    (checkFrom iterations current store).Settled := by
  induction iterations generalizing current store with
  | nil =>
      exact settled
  | cons iteration rest inductionHypothesis =>
      cases current with
      | none =>
          exact settled
      | some slot =>
          refine inductionHypothesis (settled.checkTransaction
            (member slot rfl) owned.1 owned.2.1) ?_ owned.2.2
          exact fun next found => Pool.mem_of_next found

variable (config) (engine : Engine size observers)

/-- Every operation of the service callback is permitted, and a transaction
is claimed when its response arrives or it times out. -/
def Owned : Input size → Prop
  | .receive datagram service _ =>
      ((engine.parsed config datagram).1 = .noError →
        isRequest (engine.parsedMessage config datagram) = true →
        (engine.created config datagram).2.PermitsAll
          (engine.serviceOperations config datagram service)) ∧
      ((engine.parsed config datagram).1 = .noError →
        isRequest (engine.parsedMessage config datagram) = false →
        ∀ slot, engine.store.coapGetTransactionByMid
            (engine.parsedMessage config datagram).mid = some slot →
          engine.store.Claimed slot)
  | .expire _ => True
  | .check iterations =>
      ChecksOwned iterations engine.store.open_.head? engine.store
  | .operate operation => engine.store.Permits operation

variable (datagram : Datagram) (service : Option (ServiceCallback size))
  (interval : UInt32)

theorem created_settled (settled : engine.store.Settled) :
    (engine.created config datagram).2.Settled :=
  settled.new _ _

/-- The transaction of a request has not been resent when its response is
sent. -/
theorem own_retransCounter (consistent : engine.store.Consistent)
    {slot : Fin size}
    (created : (engine.created config datagram).1 = some slot) :
    ((engine.served config datagram service).at_ slot).retransCounter =
      0 := by
  refine Store.foldl_perform_retransCounter ?_ _
  unfold Engine.created at *
  rcases Store.coapNewTransaction_cases consistent
      (engine.parsedMessage config datagram).mid datagram.source with
    full | ⟨fresh, after, eq, creates⟩
  · rw [full] at created
    exact absurd created (by simp)
  · rw [eq] at created ⊢
    cases created
    exact creates.retransCounter

theorem finish_error_settled (message : ReceivedPacket)
    (result : Engine size observers × UInt8)
    (error : result.2 ≠ statusNoError)
    (settled : result.1.store.Settled) :
    (finish config datagram message interval result).store.Settled := by
  obtain ⟨transactions, trace⟩ :=
    finish_error config datagram interval message result error
  have cleared : (result.1.store.coapClearTransaction
      result.1.transaction).Settled :=
    ⟨settled.1.coapClearTransaction _,
      settled.2.coapClearTransaction settled.1.consistent _⟩
  exact cleared.congr transactions trace

theorem coapReceive_settled (settled : engine.store.Settled)
    (owned : engine.Owned config (.receive datagram service interval)) :
    (engine.coapReceive config datagram service
      interval).store.Settled := by
  by_cases succeeded : (engine.parsed config datagram).1 = .noError
  · cases request : isRequest (engine.parsedMessage config datagram) with
    | true =>
        rw [coapReceive_request config engine datagram service interval
          succeeded request]
        obtain ⟨own, unsent, filled⟩ :=
          handleRequest_cases config engine datagram service
        have served : (engine.served config datagram service).Settled :=
          (created_settled config engine datagram settled).foldl_perform
            (owned.1 succeeded request)
        have behind : (handleRequest config datagram service
            (engine.parsedMessage config datagram)
            (engine.afterParse config datagram)).1.store.Settled ∧
            ∀ slot, (engine.created config datagram).1 = some slot →
              ((handleRequest config datagram service
                (engine.parsedMessage config datagram)
                (engine.afterParse config datagram)).1.store.at_
                  slot).retransCounter = 0 := by
          rcases filled with same | ⟨slot, _, _, created, same⟩
          · rw [same]
            exact ⟨served, fun slot created =>
              own_retransCounter config engine datagram service
                settled.1.consistent created⟩
          · rw [same]
            refine ⟨⟨served.1.update rfl, served.2.update rfl⟩, ?_⟩
            intro other created'
            have own := own_retransCounter config engine datagram
              service settled.1.consistent created
            rw [created] at created'
            cases created'
            rw [Store.at_update, if_pos rfl]
            exact own
        by_cases success : (engine.requestStatus config datagram
            service) = statusNoError
        · obtain ⟨sent, silent⟩ := finish_noError config datagram interval
            (engine.parsedMessage config datagram) _ success
          cases created : (engine.created config datagram).1 with
          | none =>
              exact absurd success (unsent created)
          | some slot =>
              rw [sent slot (own.trans created)]
              refine ⟨behind.1.1.coapSendTransaction interval ?_,
                Store.InTime.coapSendTransaction behind.1.1.consistent
                  interval fun other member _ =>
                    behind.1.2 other member⟩
              intro _ expired
              rw [behind.2 slot created] at expired
              exact absurd expired (by decide)
        · exact finish_error_settled config datagram interval _ _ success
            behind.1
    | false =>
        rw [coapReceive_response config engine datagram service interval
          succeeded request]
        obtain ⟨none, completed, unknown⟩ := handleResponse_cases
          (engine.afterParse config datagram) datagram
          (engine.parsedMessage config datagram)
        have behind : (handleResponse datagram
            (engine.parsedMessage config datagram)
            (engine.afterParse config datagram)).1.store.Settled := by
          cases found : engine.store.coapGetTransactionByMid
              (engine.parsedMessage config datagram).mid with
          | none =>
              obtain ⟨transactions, trace⟩ := unknown found
              exact settled.congr transactions trace
          | some slot =>
              obtain ⟨transactions, trace⟩ := completed slot found
              have cleared := settled.2.coapClearTransaction
                settled.1.consistent (some slot)
              refine ⟨settled.1.ended transactions trace (.inr ⟨rfl,
                List.mem_of_find?_eq_some found,
                owned.2 succeeded request slot found⟩), ?_⟩
              intro other member
              unfold Store.open_ Store.at_ at *
              rw [transactions] at member ⊢
              exact cleared other member
        by_cases success : (handleResponse datagram
            (engine.parsedMessage config datagram)
            (engine.afterParse config datagram)).2 = statusNoError
        · rw [(finish_noError config datagram interval _ _ success).2 none]
          exact behind
        · exact finish_error_settled config datagram interval _ _ success
            behind
  · rw [coapReceive_failed config engine datagram service interval
      succeeded]
    exact finish_error_settled config datagram interval _ _
      (code_ne_noError succeeded) settled

theorem step_settled (settled : engine.store.Settled) {input : Input size}
    (owned : engine.Owned config input) :
    (engine.step config input).store.Settled := by
  cases input with
  | receive datagram service interval =>
      exact coapReceive_settled config engine datagram service interval
        settled owned
  | expire slot =>
      exact ⟨settled.1.update rfl, settled.2.update rfl⟩
  | check iterations =>
      exact checkFrom_settled settled
        (fun slot found => List.mem_of_mem_head? found) owned
  | operate operation =>
      exact settled.perform owned

/-- Every input is owned in the state in which it arrives. -/
def OwnedRun (config : CoapConfig) :
    Engine size observers → List (Input size) → Prop
  | _, [] => True
  | engine, input :: rest =>
      engine.Owned config input ∧
        OwnedRun config (engine.step config input) rest

theorem run_settled {engine : Engine size observers}
    {inputs : List (Input size)} (settled : engine.store.Settled)
    (owned : OwnedRun config engine inputs) :
    (inputs.foldl (step config) engine).store.Settled := by
  induction inputs generalizing engine with
  | nil =>
      exact settled
  | cons input rest inductionHypothesis =>
      exact inductionHypothesis
        (step_settled config engine settled owned.1) owned.2

theorem initial_settled (currentMid : UInt16) :
    (Engine.initial currentMid : Engine size observers).store.Settled where
  left :=
    { consistent := initial_consistent currentMid
      registered := fun _ member => absurd member List.not_mem_nil
      linear := callbackLinear_nil }
  right := fun _ member => absurd member List.not_mem_nil

/-- In a run in which a transaction is claimed when its response arrives or
it times out, every invocation of a callback has its own registration on that
generation of the transaction. -/
theorem callbackLinear_run (currentMid : UInt16)
    {inputs : List (Input size)}
    (owned : OwnedRun config
      (Engine.initial currentMid : Engine size observers) inputs) :
    CallbackLinear (inputs.foldl (step config)
      (Engine.initial currentMid : Engine size observers)).store.trace :=
  (run_settled config (initial_settled currentMid) owned).1.linear

/-- The packet of an empty confirmable message. -/
def confirmablePacket : ByteMem := ByteMem.ofList [0x40, 0x00]

/-- A client sends a message, and the server acknowledges it. -/
def registeredExchange : List (Input 4) :=
  [.operate (.new 0x1234 serverNode),
    .operate (.register 0 (some 7) 9),
    .operate (.write 0 2 confirmablePacket),
    .operate (.send 0 100),
    .receive (acknowledgement serverNode) none 0]

/-- Then it sends a notification in the same way without a callback. -/
def unregisteredExchange : List (Input 4) :=
  [.operate (.new 0x1234 serverNode),
    .operate (.write 0 2 confirmablePacket),
    .operate (.send 0 100),
    .receive (acknowledgement serverNode) none 0]

/-- The acknowledgement of the notification invokes the callback of the
client once more. -/
theorem unregisteredExchange_not_callbackLinear :
    ¬ CallbackLinear ((registeredExchange ++ unregisteredExchange).foldl
      (step .erConf) (Engine.initial 0 : Engine 4 0)).store.trace := by
  intro linear
  have trace : ((registeredExchange ++ unregisteredExchange).foldl
      (step .erConf) (Engine.initial 0 : Engine 4 0)).store.trace =
      [.created 0 serverNode, .registered 0 (some 7) 9,
        .cleared 0 serverNode, .invoked 0 7 9 serverNode,
        .created 0 serverNode, .cleared 0 serverNode] ++
        .invoked 0 7 9 serverNode :: [] := by
    decide +kernel
  obtain ⟨earlier, later, split, quiet⟩ :=
    linear _ 0 7 9 serverNode [] trace
  have waits := pending_of_registered earlier 7 9 quiet
  rw [← split] at waits
  exact absurd waits (by decide)

theorem registeredExchange_callbackLinear :
    CallbackLinear (registeredExchange.foldl (step .erConf)
      (Engine.initial 0 : Engine 4 0)).store.trace := by
  have sends : (0 : Fin 4) ∈ ((registeredExchange.take 3).foldl
      (step .erConf) (Engine.initial 0 : Engine 4 0)).store.open_ := by
    decide +kernel
  refine callbackLinear_run .erConf 0
    ⟨trivial, trivial, trivial, sends, ⟨?_, ?_⟩, trivial⟩
  · intro _ request
    exact absurd request (by decide +kernel)
  · intro _ _ slot found
    refine .inr ?_
    have first : some 0 = some slot := found
    cases first
    decide +kernel

end Engine

end Contiki.Coap
