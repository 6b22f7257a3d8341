import Contiki.Coap.Callbacks

/-!
# Retransmissions

How often and after which waits a confirmable message is transmitted, when
its transaction is freed, and which transactions a check of the timers
resends.  A log, which the code does not have, holds the transmissions of the
message that is or was last in each object.
-/

namespace Contiki.Coap

open Contiki.Lib

variable {size observers : Nat} {store : Store size observers}

/-- The transmissions of a message in their order, each with the ticks until
the next one, or none if it is the last. -/
abbrev Log (size : Nat) := Fin size → List (Option Nat)

namespace Store

/-- The ticks that a transmission waits for an answer. -/
def waitAfter (store : Store size observers) (interval : UInt32)
    (slot : Fin size) : Option Nat :=
  let timer :=
    ((store.coapSendTransaction interval slot).at_ slot).retransTimer
  if timer.running then some timer.interval.toNat else none

def logSend (store : Store size observers) (log : Log size)
    (interval : UInt32) (slot : Fin size) : Log size :=
  Function.update log slot (log slot ++ [store.waitAfter interval slot])

def logPerform (store : Store size observers) (log : Log size) :
    Operation size → Log size
  | .new _ _ =>
      match store.transactions.firstFree with
      | some slot => Function.update log slot []
      | none => log
  | .send slot interval => store.logSend log interval slot
  | _ => log

def logAll (store : Store size observers) (log : Log size) :
    List (Operation size) → Log size
  | [] => log
  | operation :: rest =>
      (store.perform operation).logAll (store.logPerform log operation) rest

end Store

/-- A message that a caller sends with a transaction of its own. -/
structure Message where
  mid : UInt16
  endpoint : Endpoint
  callback : Option Address
  callbackData : Address
  packetLen : Nat
  packet : ByteMem
  /-- The initial interval that `coap_send_transaction` computes. -/
  interval : UInt32

/-- The initial interval can be doubled three times: a clock that counts
`COAP_RESPONSE_TIMEOUT` in less than 27 bits. -/
def IsInterval (interval : UInt32) : Prop :=
  interval.toNat < 2 ^ 29

variable {interval : UInt32} {unsent : List (Fin size)}
  {after : Store size observers} {log : Log size} {slot : Fin size}
  {message : Message}

namespace Store

/-- The operations of a caller: take a transaction, fill it, send it; nothing
if there is no transaction. -/
def script (store : Store size observers) (message : Message) :
    List (Operation size) :=
  match store.transactions.firstFree with
  | some slot =>
      [.new message.mid message.endpoint,
        .register slot message.callback message.callbackData,
        .write slot message.packetLen message.packet,
        .send slot message.interval]
  | none => [.new message.mid message.endpoint]

/-- The operations of callers after each other. -/
def scripts (store : Store size observers) :
    List Message → List (Operation size)
  | [] => []
  | message :: rest =>
      store.script message ++
        ((store.script message).foldl perform store).scripts rest

/-! ## The schedule -/

/-- The waits of a confirmable message: the first one is doubled up to
`COAP_MAX_RETRANSMIT` transmissions, and the last transmission waits for
nothing. -/
def schedule (first : Nat) : List (Option Nat) :=
  [some first, some (first * 2), some (first * 4), some (first * 8), none]

/-- A message is transmitted along the schedule, or once. -/
def Scheduled (transmissions : List (Option Nat)) : Prop :=
  (∃ first, transmissions <+: schedule first) ∨ transmissions = [none]

/-- A confirmable message has been sent, and its timer has the last wait. -/
structure OnSchedule (store : Store size observers) (log : Log size)
    (slot : Fin size) : Prop where
  confirmable : store.confirmable slot = true
  counter : (store.at_ slot).retransCounter.toNat < 4
  waits : ∃ first, first < 2 ^ 29 ∧
    log slot = (schedule first).take
      ((store.at_ slot).retransCounter.toNat + 1) ∧
    (store.at_ slot).retransTimer.interval.toNat =
      first * 2 ^ (store.at_ slot).retransCounter.toNat

/-- All open transactions, except those that have not been sent, are on
schedule. -/
structure Sound (unsent : List (Fin size)) (store : Store size observers)
    (log : Log size) : Prop where
  consistent : store.Consistent
  onSchedule : ∀ slot ∈ store.open_, slot ∉ unsent →
    store.OnSchedule log slot
  scheduled : ∀ slot, Scheduled (log slot)

theorem scheduled_nil : Scheduled [] :=
  Or.inl ⟨0, List.nil_prefix⟩

/-- What is known of a transaction depends on it and its log only. -/
theorem OnSchedule.congr {log logAfter : Log size} {slot : Fin size}
    (onSchedule : store.OnSchedule log slot)
    (same : after.at_ slot = store.at_ slot)
    (sameLog : logAfter slot = log slot) :
    after.OnSchedule logAfter slot := by
  obtain ⟨confirmable, counter, waits⟩ := onSchedule
  unfold Store.confirmable at confirmable
  constructor
  · unfold Store.confirmable
    rw [same]
    exact confirmable
  · rw [same]
    exact counter
  · rw [same, sameLog]
    exact waits

/-! ## Transmissions -/

/-- A confirmable transaction that is resent less than
`COAP_MAX_RETRANSMIT` times. -/
theorem coapSendTransaction_keeps (interval : UInt32) {slot : Fin size}
    (confirmable : store.confirmable slot = true)
    (inTime : (store.at_ slot).retransCounter < coapMaxRetransmit) :
    (store.coapSendTransaction interval slot).transactions =
      store.transactions.set slot
        { store.at_ slot with
          retransTimer :=
            { interval :=
                if (store.at_ slot).retransCounter = 0 then interval
                else (store.at_ slot).retransTimer.interval <<< 1
              running := true } } := by
  have sent : ∀ endpoint data,
      (store.coapSendMessage endpoint data).confirmable slot =
        store.confirmable slot := fun _ _ => rfl
  unfold coapSendTransaction
  dsimp only
  rw [sent, if_pos confirmable, if_pos inTime]
  rfl

theorem coapSendTransaction_ends (interval : UInt32) {slot : Fin size}
    (ends : store.Ends slot) :
    (store.coapSendTransaction interval slot).transactions =
        (store.coapClearTransaction (some slot)).transactions ∧
      store.waitAfter interval slot = none := by
  rcases store.coapSendTransaction_cases interval slot with
    ⟨open', _⟩ | ⟨_, freed, _⟩
  · exact absurd ends open'
  · refine ⟨freed, ?_⟩
    have stopped : ((store.coapSendTransaction interval slot).at_
        slot).retransTimer.running = false := by
      unfold at_
      rw [freed, coapClearTransaction_transactions]
      unfold Pool.release Pool.set
      dsimp only
      rw [Function.update_self]
    unfold waitAfter
    dsimp only
    rw [stopped, if_neg Bool.false_ne_true]

theorem logSend_self (log : Log size) (interval : UInt32)
    (slot : Fin size) :
    store.logSend log interval slot slot =
      log slot ++ [store.waitAfter interval slot] :=
  Function.update_self (β := fun _ => List (Option Nat)) slot _ log

theorem logSend_other (log : Log size) (interval : UInt32)
    {slot other : Fin size} (different : other ≠ slot) :
    store.logSend log interval slot other = log other :=
  Function.update_of_ne different _ log

/-- A change of one transaction and its log keeps the others on schedule. -/
theorem Sound.change {log logAfter : Log size}
    {slot : Fin size} (sound : Sound (slot :: unsent) store log)
    (consistent : after.Consistent)
    (untouched : Untouched (some slot) store after)
    (others : ∀ other, other ≠ slot → logAfter other = log other)
    (onSchedule : slot ∈ after.open_ → slot ∉ unsent →
      after.OnSchedule logAfter slot)
    (scheduled : Scheduled (logAfter slot)) :
    Sound unsent after logAfter := by
  refine ⟨consistent, fun other member notUnsent => ?_, fun other => ?_⟩
  · by_cases same : other = slot
    · rw [same] at member notUnsent ⊢
      exact onSchedule member notUnsent
    · have different : some other ≠ some slot := fun equal =>
        same (Option.some.inj equal)
      obtain ⟨mem, at_eq⟩ := untouched other different
      have notListed : other ∉ slot :: unsent := by
        simp [same, notUnsent]
      exact (sound.onSchedule other (mem.1 member) notListed).congr
        (at_eq (mem.1 member)) (others other same)
  · by_cases same : other = slot
    · rw [same]
      exact scheduled
    · rw [others other same]
      exact sound.scheduled other

theorem Sound.mono {fewer unsent : List (Fin size)} {log : Log size}
    (sound : Sound fewer store log) (subset : fewer ⊆ unsent) :
    Sound unsent store log :=
  ⟨sound.consistent, fun slot member notUnsent =>
    sound.onSchedule slot member fun listed => notUnsent (subset listed),
    sound.scheduled⟩

theorem at_coapSendTransaction (confirmable : store.confirmable slot = true)
    (inTime : (store.at_ slot).retransCounter < coapMaxRetransmit) :
    (store.coapSendTransaction interval slot).at_ slot =
      { store.at_ slot with
        retransTimer :=
          { interval :=
              if (store.at_ slot).retransCounter = 0 then interval
              else (store.at_ slot).retransTimer.interval <<< 1
            running := true } } := by
  have stored : ∀ transaction,
      (store.transactions.set slot transaction).slots slot = transaction :=
    fun transaction => Function.update_self (β := fun _ => Transaction)
      slot transaction _
  unfold at_
  rw [coapSendTransaction_keeps interval confirmable inTime, stored]
  rfl

theorem waitAfter_keeps (confirmable : store.confirmable slot = true)
    (inTime : (store.at_ slot).retransCounter < coapMaxRetransmit) :
    store.waitAfter interval slot =
      some (if (store.at_ slot).retransCounter = 0 then interval
        else (store.at_ slot).retransTimer.interval <<< 1).toNat := by
  unfold waitAfter
  dsimp only
  rw [at_coapSendTransaction confirmable inTime]
  rfl

theorem Sound.send (sound : Sound (slot :: unsent) store log)
    (fresh : (store.at_ slot).retransCounter = 0)
    (unlogged : log slot = []) {interval : UInt32}
    (isInterval : IsInterval interval) :
    Sound unsent (store.coapSendTransaction interval slot)
      (store.logSend log interval slot) := by
  have inTime : (store.at_ slot).retransCounter < coapMaxRetransmit := by
    rw [fresh]
    decide
  have logged : store.logSend log interval slot slot = _ :=
    logSend_self log interval slot
  rw [unlogged, List.nil_append] at logged
  refine sound.change (sound.consistent.coapSendTransaction interval slot)
    (coapSendTransaction_untouched interval slot)
    (fun other different => logSend_other log interval different) ?_ ?_
  · intro member _
    cases confirmable : store.confirmable slot with
    | true =>
        have kept := @at_coapSendTransaction _ _ store interval slot
          confirmable inTime
        have wait := @waitAfter_keeps _ _ store interval slot confirmable
          inTime
        rw [if_pos fresh] at kept wait
        constructor
        · unfold Store.confirmable at confirmable ⊢
          rw [kept]
          exact confirmable
        · rw [kept]
          dsimp only
          rw [fresh]
          decide
        · refine ⟨interval.toNat, isInterval, ?_, ?_⟩
          · rw [logged, wait, kept]
            dsimp only
            rw [fresh]
            rfl
          · rw [kept]
            dsimp only
            rw [fresh]
            exact (Nat.mul_one _).symm
    | false =>
        have ends : store.Ends slot := fun confirmed =>
          absurd (confirmed.symm.trans confirmable) (by decide)
        have freed := (coapSendTransaction_ends interval ends).1
        unfold open_ at member
        rw [freed] at member
        exact absurd rfl
          ((mem_coapClearTransaction sound.consistent).1 member).1
  · rw [logged]
    cases confirmable : store.confirmable slot with
    | true =>
        rw [waitAfter_keeps confirmable inTime]
        exact Or.inl ⟨_, List.prefix_append [_] [_, _, _, _]⟩
    | false =>
        have ends : store.Ends slot := fun confirmed =>
          absurd (confirmed.symm.trans confirmable) (by decide)
        rw [(coapSendTransaction_ends interval ends).2]
        exact Or.inr rfl

/-- The store in which `coap_check_transactions` resends a transaction. -/
def counted (store : Store size observers) (slot : Fin size) :
    Store size observers :=
  store.update slot
    { store.at_ slot with
      retransCounter := (store.at_ slot).retransCounter + 1 }

theorem at_counted (store : Store size observers) (slot : Fin size) :
    (store.counted slot).at_ slot =
      { store.at_ slot with
        retransCounter := (store.at_ slot).retransCounter + 1 } :=
  Function.update_self (β := fun _ => Transaction) slot _ _

theorem confirmable_counted (store : Store size observers)
    (slot : Fin size) :
    (store.counted slot).confirmable slot = store.confirmable slot := by
  unfold confirmable
  rw [at_counted]

theorem toNat_counter {counter : UInt8} (small : counter.toNat < 4) :
    (counter + 1).toNat = counter.toNat + 1 := by
  rw [UInt8.toNat_add]
  exact Nat.mod_eq_of_lt (by change _ + 1 < 256; omega)

theorem toNat_double {first counter : Nat}
    (isWait : interval.toNat = first * 2 ^ counter)
    (isFirst : first < 2 ^ 29) (small : counter < 3) :
    (interval <<< 1).toNat = first * 2 ^ (counter + 1) := by
  have power : 2 ^ (counter + 1) ≤ 2 ^ 3 :=
    Nat.pow_le_pow_right (by decide) (by omega)
  have bound : first * 2 ^ (counter + 1) ≤ (2 ^ 29 - 1) * 2 ^ 3 :=
    Nat.mul_le_mul (by omega) power
  rw [UInt32.toNat_shiftLeft, isWait]
  change (first * 2 ^ counter) <<< 1 % 2 ^ 32 = _
  rw [Nat.shiftLeft_eq, Nat.pow_one, Nat.mul_assoc, ← Nat.pow_succ]
  exact Nat.mod_eq_of_lt (lt_of_le_of_lt bound (by decide))

theorem take_schedule_succ (first : Nat) {counter : Nat}
    (small : counter < 3) :
    (schedule first).take (counter + 1) ++
        [some (first * 2 ^ (counter + 1))] =
      (schedule first).take (counter + 2) := by
  have cases : counter = 0 ∨ counter = 1 ∨ counter = 2 := by omega
  rcases cases with rfl | rfl | rfl
  · rfl
  · rfl
  · rfl

theorem Sound.resend (sound : Sound unsent store log)
    (member : slot ∈ store.open_) (sent : slot ∉ unsent) (interval : UInt32) :
    Sound unsent ((store.counted slot).coapSendTransaction interval slot)
        ((store.counted slot).logSend log interval slot) ∧
      ((store.at_ slot).retransCounter.toNat < 3 →
        ((store.counted slot).coapSendTransaction interval slot).open_ =
            store.open_ ∧
          (((store.counted slot).coapSendTransaction interval slot).at_
            slot).retransTimer.running = true) ∧
      ((store.at_ slot).retransCounter.toNat = 3 →
        ((store.counted slot).coapSendTransaction interval slot).open_ =
          store.open_.erase slot) := by
  obtain ⟨confirmable, small, first, isFirst, logged, isWait⟩ :=
    sound.onSchedule slot member sent
  have isCounter := toNat_counter small
  have confirmed : (store.counted slot).confirmable slot = true :=
    (confirmable_counted store slot).trans confirmable
  have consistent : (store.counted slot).Consistent :=
    sound.consistent.set slot _
  have untouched : Untouched (some slot) store
      ((store.counted slot).coapSendTransaction interval slot) :=
    (update_untouched slot _).trans
      (coapSendTransaction_untouched interval slot)
  have logSelf := @logSend_self _ _ (store.counted slot) log interval slot
  have wide := sound.mono (List.subset_cons_self slot unsent)
  by_cases last : (store.at_ slot).retransCounter.toNat = 3
  · have ends : (store.counted slot).Ends slot := by
      intro _
      rw [at_counted]
      dsimp only
      rw [UInt8.le_iff_toNat_le, isCounter, last]
      decide
    obtain ⟨freed, wait⟩ := coapSendTransaction_ends interval ends
    have erased : ((store.counted slot).coapSendTransaction interval
        slot).open_ = store.open_.erase slot := by
      unfold open_
      rw [freed, coapClearTransaction_transactions]
      rfl
    refine ⟨wide.change (consistent.coapSendTransaction interval slot)
      untouched (fun other different => logSend_other log interval different)
      ?_ ?_, fun notLast => absurd last (by omega), fun _ => erased⟩
    · intro stays _
      rw [erased] at stays
      exact absurd stays sound.consistent.nodup.not_mem_erase
    · rw [logSelf, wait, logged, last]
      exact Or.inl ⟨first, List.prefix_refl _⟩
  · have early : (store.at_ slot).retransCounter.toNat < 3 := by omega
    have inTime : ((store.counted slot).at_ slot).retransCounter <
        coapMaxRetransmit := by
      rw [at_counted]
      dsimp only
      rw [UInt8.lt_iff_toNat_lt, isCounter]
      change _ < 4
      omega
    have notZero : ¬ ((store.counted slot).at_ slot).retransCounter = 0 := by
      rw [at_counted]
      dsimp only
      rw [← UInt8.toNat_inj, isCounter]
      exact Nat.succ_ne_zero _
    have kept := @at_coapSendTransaction _ _ (store.counted slot) interval
      slot confirmed inTime
    have wait := @waitAfter_keeps _ _ (store.counted slot) interval slot
      confirmed inTime
    rw [if_neg notZero, at_counted] at kept wait
    dsimp only at kept wait
    rw [toNat_double isWait isFirst early] at wait
    have sameOpen : ((store.counted slot).coapSendTransaction interval
        slot).open_ = store.open_ := by
      unfold open_
      rw [coapSendTransaction_keeps interval confirmed inTime]
      rfl
    have logAfter : (store.counted slot).logSend log interval slot slot =
        (schedule first).take ((store.at_ slot).retransCounter.toNat + 2) := by
      rw [logSelf, wait, logged, take_schedule_succ first early]
    refine ⟨wide.change (consistent.coapSendTransaction interval slot)
      untouched (fun other different => logSend_other log interval different)
      ?_ ?_, fun _ => ⟨sameOpen, by rw [kept]⟩, fun isLast =>
        absurd isLast last⟩
    · intro _ _
      constructor
      · unfold Store.confirmable at confirmable ⊢
        rw [kept]
        exact confirmable
      · rw [kept]
        dsimp only
        omega
      · refine ⟨first, isFirst, ?_, ?_⟩
        · rw [logAfter, kept]
          dsimp only
          rw [isCounter]
        · rw [kept]
          dsimp only
          rw [isCounter]
          exact toNat_double isWait isFirst early
    · rw [logAfter]
      exact Or.inl ⟨first, List.take_prefix _ _⟩

/-! ## Callers -/

/-- What callers leave: new transactions behind the others, whose timers run,
and the others as they were. -/
structure Appends (store : Store size observers) (log : Log size)
    (after : Store size observers) (logAfter : Log size) : Prop where
  list : ∃ new, after.open_ = store.open_ ++ new ∧
    ∀ slot ∈ new, (after.at_ slot).retransTimer.running = true
  same : ∀ slot ∈ store.open_, after.at_ slot = store.at_ slot ∧
    logAfter slot = log slot

theorem Appends.refl (store : Store size observers) (log : Log size) :
    Appends store log store log :=
  ⟨⟨[], (List.append_nil _).symm, by simp⟩, fun _ _ => ⟨rfl, rfl⟩⟩

theorem Appends.trans {first second third : Store size observers}
    {log logSecond logThird : Log size}
    (one : Appends first log second logSecond)
    (two : Appends second logSecond third logThird) :
    Appends first log third logThird := by
  obtain ⟨new, isSecond, running⟩ := one.list
  obtain ⟨newer, isThird, runningNewer⟩ := two.list
  refine ⟨⟨new ++ newer, ?_, fun slot member => ?_⟩,
    fun slot member => ?_⟩
  · rw [isThird, isSecond, List.append_assoc]
  · rcases List.mem_append.1 member with inNew | inNewer
    · have inSecond : slot ∈ second.open_ := by
        rw [isSecond]
        exact List.mem_append_right _ inNew
      rw [(two.same slot inSecond).1]
      exact running slot inNew
    · exact runningNewer slot inNewer
  · have inSecond : slot ∈ second.open_ := by
      rw [isSecond]
      exact List.mem_append_left _ member
    obtain ⟨at_first, log_first⟩ := one.same slot member
    obtain ⟨at_second, log_second⟩ := two.same slot inSecond
    exact ⟨at_second.trans at_first, log_second.trans log_first⟩

/-- A caller takes a transaction and fills it. -/
def filled (store : Store size observers) (slot : Fin size)
    (message : Message) : Store size observers :=
  ((store.perform (.new message.mid message.endpoint)).perform
    (.register slot message.callback message.callbackData)).perform
      (.write slot message.packetLen message.packet)

theorem filled_spec (consistent : store.Consistent)
    (free : store.transactions.firstFree = some slot) :
    (store.filled slot message).Consistent ∧
      Untouched (some slot) store (store.filled slot message) ∧
      ((store.filled slot message).at_ slot).retransCounter = 0 ∧
      (store.filled slot message).open_ = store.open_ ++ [slot] := by
  have unlisted := Pool.not_mem_of_firstFree consistent free
  have created : store.coapNewTransaction message.mid message.endpoint =
      (some slot, (store.coapNewTransaction message.mid
        message.endpoint).2) := by
    unfold coapNewTransaction
    rw [free]
  rcases coapNewTransaction_cases consistent message.mid message.endpoint
    with full | ⟨slot', after, isCreated, creates⟩
  · rw [full] at created
    cases created
  · rw [isCreated] at created
    obtain ⟨same, -⟩ := Prod.mk.inj created
    rw [Option.some.injEq] at same
    subst same
    have isNew : store.perform (.new message.mid message.endpoint) =
        after := congrArg Prod.snd isCreated
    have list : after.open_ = store.open_ ++ [slot'] := by
      have taken : after = (store.coapNewTransaction message.mid
          message.endpoint).2 := (congrArg Prod.snd isCreated).symm
      rw [taken]
      unfold coapNewTransaction
      rw [free]
      change store.open_.erase slot' ++ [slot'] = _
      rw [List.erase_of_not_mem unlisted]
    unfold filled
    rw [isNew]
    refine ⟨?_, ?_, ?_, list⟩
    · exact (creates.consistent.perform _).perform _
    · have registers : Untouched (some slot') after (after.perform
          (.register slot' message.callback message.callbackData)) :=
        (update_untouched slot' _).congr rfl
      exact creates.untouched.trans
        (registers.trans (update_untouched slot' _))
    · have counter := creates.retransCounter
      unfold perform update at_ emit Pool.set
      dsimp only
      rw [Function.update_self, Function.update_self]
      exact counter

theorem foldl_script_free (free : store.transactions.firstFree = some slot) :
    (store.script message).foldl perform store =
      (store.filled slot message).coapSendTransaction message.interval
        slot := by
  unfold script
  rw [free]
  rfl

theorem logAll_script_free
    (log : Log size) (free : store.transactions.firstFree = some slot) :
    store.logAll log (store.script message) =
      (store.filled slot message).logSend (Function.update log slot [])
        message.interval slot := by
  unfold script
  rw [free]
  unfold logAll logAll logAll logAll logAll logPerform
  rw [free]
  rfl

theorem Sound.script (sound : Sound unsent store log)
    (open' : ∀ slot ∈ unsent, slot ∈ store.open_) {message : Message}
    (isInterval : IsInterval message.interval) :
    Sound unsent ((store.script message).foldl perform store)
        (store.logAll log (store.script message)) ∧
      Appends store log ((store.script message).foldl perform store)
        (store.logAll log (store.script message)) := by
  cases free : store.transactions.firstFree with
  | none =>
      have same : (store.script message).foldl perform store = store := by
        unfold Store.script
        rw [free]
        change (store.coapNewTransaction _ _).2 = store
        unfold coapNewTransaction
        rw [free]
      have sameLog : store.logAll log (store.script message) = log := by
        unfold Store.script
        rw [free]
        unfold logAll logAll logPerform
        rw [free]
      rw [same, sameLog]
      exact ⟨sound, Appends.refl store log⟩
  | some slot =>
      rw [foldl_script_free free, logAll_script_free log free]
      have unlisted :=
        Pool.not_mem_of_firstFree sound.consistent free
      have sent : slot ∉ unsent := fun listed =>
        unlisted (open' slot listed)
      obtain ⟨consistent, untouched, counter, isOpen⟩ :=
        @filled_spec _ _ store slot message sound.consistent free
      have cleared : Function.update log slot [] slot = [] :=
        Function.update_self (β := fun _ => List (Option Nat)) slot _ log
      have others : ∀ other, other ≠ slot →
          Function.update log slot [] other = log other :=
        fun other different => Function.update_of_ne different _ log
      have soundFilled : Sound (slot :: unsent) (store.filled slot message)
          (Function.update log slot []) := by
        refine (sound.mono fun other listed => List.mem_cons_of_mem _
          (List.mem_cons_of_mem _ listed)).change consistent untouched
            others (fun _ notListed => ?_) ?_
        · exact absurd List.mem_cons_self notListed
        · rw [cleared]
          exact scheduled_nil
      refine ⟨soundFilled.send counter cleared isInterval, ?_, ?_⟩
      · cases confirmable : (store.filled slot message).confirmable slot with
        | true =>
            have inTime : ((store.filled slot message).at_
                slot).retransCounter < coapMaxRetransmit := by
              rw [counter]
              decide
            refine ⟨[slot], ?_, fun other listed => ?_⟩
            · rw [← isOpen]
              unfold open_
              rw [coapSendTransaction_keeps _ confirmable inTime]
              rfl
            · rw [List.mem_singleton.1 listed,
                at_coapSendTransaction confirmable inTime]
        | false =>
            have ends : (store.filled slot message).Ends slot :=
              fun confirmed => absurd (confirmed.symm.trans confirmable)
                (by decide)
            refine ⟨[], ?_, by simp⟩
            unfold open_
            rw [(coapSendTransaction_ends _ ends).1,
              coapClearTransaction_transactions]
            change (store.filled slot message).open_.erase slot = _
            rw [isOpen, List.erase_append_right _ unlisted,
              List.erase_cons_head]
      · intro other member
        have different : other ≠ slot := fun same =>
          unlisted (same ▸ member)
        have notSlot : some other ≠ some slot := fun same =>
          different (Option.some.inj same)
        have both := untouched.trans (coapSendTransaction_untouched
          message.interval slot)
        exact ⟨(both other notSlot).2 member,
          (logSend_other _ _ different).trans (others other different)⟩

theorem logAll_append (log : Log size)
    (first second : List (Operation size)) :
    store.logAll log (first ++ second) =
      (first.foldl perform store).logAll (store.logAll log first)
        second := by
  induction first generalizing store log with
  | nil =>
      rfl
  | cons operation first inductionHypothesis =>
      exact inductionHypothesis _

theorem Sound.scripts (sound : Sound unsent store log)
    (open' : ∀ slot ∈ unsent, slot ∈ store.open_) {messages : List Message}
    (isInterval : ∀ message ∈ messages, IsInterval message.interval) :
    Sound unsent ((store.scripts messages).foldl perform store)
        (store.logAll log (store.scripts messages)) ∧
      Appends store log ((store.scripts messages).foldl perform store)
        (store.logAll log (store.scripts messages)) := by
  induction messages generalizing store log with
  | nil =>
      exact ⟨sound, Appends.refl store log⟩
  | cons message rest inductionHypothesis =>
      obtain ⟨soundFirst, first⟩ := sound.script open'
        (isInterval message List.mem_cons_self)
      obtain ⟨new, isOpen, -⟩ := first.list
      obtain ⟨soundRest, later⟩ := inductionHypothesis soundFirst
        (fun slot listed => by
          rw [isOpen]
          exact List.mem_append_left _ (open' slot listed))
        (fun later listed =>
          isInterval later (List.mem_cons_of_mem _ listed))
      unfold Store.scripts
      rw [List.foldl_append, logAll_append]
      exact ⟨soundRest, first.trans later⟩

/-- What is known of the transactions depends on them and the log only. -/
theorem Sound.congr (sound : Sound unsent store log)
    (same : after.transactions = store.transactions) :
    Sound unsent after log := by
  have sameAt : ∀ slot, after.at_ slot = store.at_ slot := by
    intro slot
    unfold at_
    rw [same]
  have sameOpen : after.open_ = store.open_ := congrArg Pool.list same
  refine ⟨?_, fun slot member notUnsent => ?_, sound.scheduled⟩
  · unfold Consistent
    rw [same]
    exact sound.consistent
  · rw [sameOpen] at member
    exact (sound.onSchedule slot member notUnsent).congr (sameAt slot) rfl

theorem Sound.clear (sound : Sound (slot :: unsent) store log) :
    Sound unsent (store.coapClearTransaction (some slot)) log := by
  refine sound.change (sound.consistent.coapClearTransaction (some slot))
    (coapClearTransaction_untouched store (some slot)) (fun _ _ => rfl)
    (fun member _ => ?_) (sound.scheduled slot)
  exact absurd rfl ((mem_coapClearTransaction sound.consistent).1 member).1

theorem Sound.fill (sound : Sound unsent store log)
    (listed : slot ∈ unsent) (transaction : Transaction) :
    Sound unsent (store.update slot transaction) log := by
  refine (sound.mono (List.subset_cons_self slot unsent)).change
    (sound.consistent.set slot transaction) (update_untouched slot _)
    (fun _ _ => rfl) (fun _ notListed => absurd listed notListed)
    (sound.scheduled slot)

theorem Sound.expire (sound : Sound unsent store log) (slot : Fin size) :
    Sound unsent
      (store.update slot
        { store.at_ slot with
          retransTimer := { (store.at_ slot).retransTimer with
            running := false } }) log := by
  refine ⟨sound.consistent.set slot _, fun other member notUnsent => ?_,
    sound.scheduled⟩
  have onSchedule := sound.onSchedule other member notUnsent
  by_cases same : other = slot
  · subst same
    obtain ⟨confirmable, counter, waits⟩ := onSchedule
    unfold Store.confirmable at confirmable
    constructor
    · unfold Store.confirmable
      rw [at_update, if_pos rfl]
      exact confirmable
    · rw [at_update, if_pos rfl]
      exact counter
    · rw [at_update, if_pos rfl]
      exact waits
  · exact onSchedule.congr
      ((at_update slot other _).trans (if_neg same)) rfl

/-! ## The check of the timers -/

instance (store : Store size observers) (slot : Fin size) :
    Decidable (store.TimesOut slot) :=
  inferInstanceAs (Decidable (_ ∧ _ ∧ _))

/-- On schedule, the transactions that time out are those that have been
resent three times. -/
theorem OnSchedule.timesOut_iff (onSchedule : store.OnSchedule log slot)
    (expired : (store.at_ slot).retransTimer.running = false) :
    store.TimesOut slot ↔ (store.at_ slot).retransCounter.toNat = 3 := by
  have small := onSchedule.counter
  unfold TimesOut
  rw [UInt8.le_iff_toNat_le, toNat_counter small]
  change _ ∧ _ ∧ 4 ≤ _ ↔ _
  constructor
  · rintro ⟨_, _, last⟩
    omega
  · intro last
    exact ⟨expired, onSchedule.confirmable, by omega⟩

end Store

namespace Engine

/-- A check of the timers: for each iteration the interval, and the messages
that the response callback sends if the transaction times out and has one. -/
def checkOperations : List (UInt32 × List Message) → Option (Fin size) →
    Store size observers → List (UInt32 × List (Operation size))
  | (interval, messages) :: rest, some slot, store =>
      let callback :=
        if store.TimesOut slot ∧ (store.at_ slot).callback.isSome then
          (store.resend interval slot).scripts messages
        else []
      let (next, after) := store.checkTransaction slot interval callback
      (interval, callback) :: checkOperations rest next after
  | _, _, _ => []

/-- The log behind `checkFrom`. -/
def logFrom : List (UInt32 × List (Operation size)) → Option (Fin size) →
    Store size observers → Log size → Log size
  | (interval, callback) :: rest, some slot, store, log =>
      let (next, after) := store.checkTransaction slot interval callback
      logFrom rest next after
        (if (store.at_ slot).retransTimer.running then log
        else
          (store.resend interval slot).logAll
            ((store.counted slot).logSend log interval slot) callback)
  | _, _, _, log => log

/-- The transactions that `checkFrom` resends. -/
def resentFrom : List (UInt32 × List (Operation size)) →
    Option (Fin size) → Store size observers → List (Fin size)
  | (interval, callback) :: rest, some slot, store =>
      let (next, after) := store.checkTransaction slot interval callback
      if (store.at_ slot).retransTimer.running then
        resentFrom rest next after
      else slot :: resentFrom rest next after
  | _, _, _ => []

/-- The transactions whose timers have expired, up to the first one that
times out. -/
def dueUpTo (store : Store size observers) :
    List (Fin size) → List (Fin size)
  | [] => []
  | slot :: rest =>
      if (store.at_ slot).retransTimer.running then dueUpTo store rest
      else if store.TimesOut slot then [slot]
      else slot :: dueUpTo store rest

theorem checkFrom_quiet {store : Store size observers} (log : Log size)
    (iterations : List (UInt32 × List (Operation size)))
    {initial rest : List (Fin size)} (nodup : store.open_.Nodup)
    (isOpen : store.open_ = initial ++ rest)
    (running : ∀ slot ∈ rest,
      (store.at_ slot).retransTimer.running = true) :
    checkFrom iterations rest.head? store = store ∧
      logFrom iterations rest.head? store log = log ∧
      resentFrom iterations rest.head? store = [] := by
  induction rest generalizing initial iterations with
  | nil =>
      cases iterations with
      | nil => exact ⟨rfl, rfl, rfl⟩
      | cons iteration iterations => exact ⟨rfl, rfl, rfl⟩
  | cons slot rest inductionHypothesis =>
      cases iterations with
      | nil => exact ⟨rfl, rfl, rfl⟩
      | cons iteration iterations =>
          have notBefore : slot ∉ initial := by
            rw [isOpen] at nodup
            exact fun before => (List.nodup_append.1 nodup).2.2 slot before
              slot List.mem_cons_self rfl
          have next := Pool.next_of_append isOpen notBefore
          have runs := running slot List.mem_cons_self
          have step : store.checkTransaction slot iteration.1 iteration.2 =
              (rest.head?, store) := by
            unfold Store.checkTransaction
            dsimp only
            rw [runs, if_pos rfl, next]
          rw [List.head?_cons]
          unfold checkFrom logFrom resentFrom
          rw [step, runs, if_pos rfl]
          exact @inductionHypothesis iterations (initial ++ [slot])
            (by rw [isOpen, List.append_assoc]; rfl)
            fun other member => running other (List.mem_cons_of_mem _ member)

theorem dueUpTo_congr {store after : Store size observers}
    {slots : List (Fin size)}
    (same : ∀ slot ∈ slots, after.at_ slot = store.at_ slot) :
    dueUpTo after slots = dueUpTo store slots := by
  induction slots with
  | nil =>
      rfl
  | cons slot rest inductionHypothesis =>
      have sameSlot := same slot List.mem_cons_self
      have sameTimesOut : after.TimesOut slot ↔ store.TimesOut slot := by
        unfold Store.TimesOut Store.confirmable
        rw [sameSlot]
      have sameRest := inductionHypothesis fun other member =>
        same other (List.mem_cons_of_mem _ member)
      unfold dueUpTo
      simp only [sameSlot, sameTimesOut, sameRest]

theorem checkTransaction_running {store : Store size observers}
    {slot : Fin size} (runs : (store.at_ slot).retransTimer.running = true)
    (interval : UInt32) (callback : List (Operation size)) :
    store.checkTransaction slot interval callback =
      (store.transactions.next slot, store) := by
  unfold Store.checkTransaction
  dsimp only
  rw [runs, if_pos rfl]

theorem checkTransaction_expired {store : Store size observers}
    {slot : Fin size}
    (expired : (store.at_ slot).retransTimer.running = false)
    (interval : UInt32) (callback : List (Operation size)) :
    let after :=
      callback.foldl Store.perform (store.resend interval slot)
    store.checkTransaction slot interval callback =
      (after.transactions.next slot, after) := by
  unfold Store.checkTransaction
  dsimp only
  rw [expired, if_neg Bool.false_ne_true]
  rfl

/-- The walk ends at a transaction that has been freed: it is no longer in
the list, or it is a new one in front of new ones only. -/
theorem checkFrom_freed {store after : Store size observers}
    {log logAfter : Log size} {slot : Fin size}
    (consistent : after.Consistent)
    (appends : Store.Appends store log after logAfter)
    (freed : slot ∉ store.open_)
    (iterations : List (UInt32 × List (Operation size))) :
    let next := after.transactions.next slot
    checkFrom iterations next after = after ∧
      logFrom iterations next after logAfter = logAfter ∧
      resentFrom iterations next after = [] := by
  obtain ⟨new, isOpen, running⟩ := appends.list
  by_cases again : slot ∈ new
  · obtain ⟨before, behind, rfl⟩ := List.append_of_mem again
    rw [← List.append_assoc] at isOpen
    have nodup : after.open_.Nodup := consistent.nodup
    have notBefore : slot ∉ store.open_ ++ before := by
      rw [isOpen] at nodup
      exact fun early => (List.nodup_append.1 nodup).2.2 slot early
        slot List.mem_cons_self rfl
    rw [Pool.next_of_append isOpen notBefore]
    refine @checkFrom_quiet _ _ after logAfter iterations
      (store.open_ ++ before ++ [slot]) behind nodup ?_ ?_
    · rw [isOpen, List.append_assoc _ [slot]]
      rfl
    · intro other member
      exact running other (List.mem_append_right _
        (List.mem_cons_of_mem _ member))
  · have unlisted : slot ∉ after.transactions.list := by
      change slot ∉ after.open_
      rw [isOpen, List.mem_append]
      exact not_or.2 ⟨freed, again⟩
    rw [Pool.next_of_not_mem unlisted]
    cases iterations with
    | nil => exact ⟨rfl, rfl, rfl⟩
    | cons iteration iterations => exact ⟨rfl, rfl, rfl⟩

theorem checkFrom_sound {store : Store size observers} {log : Log size}
    (sound : Store.Sound [] store log)
    {turns : List (UInt32 × List Message)}
    (isInterval : ∀ turn ∈ turns, ∀ message ∈ turn.2,
      IsInterval message.interval)
    {front rest : List (Fin size)} (isOpen : store.open_ = front ++ rest) :
    let iterations := checkOperations turns rest.head? store
    Store.Sound [] (checkFrom iterations rest.head? store)
        (logFrom iterations rest.head? store log) ∧
      (rest.length ≤ turns.length →
        resentFrom iterations rest.head? store = dueUpTo store rest) := by
  induction rest generalizing turns store log front with
  | nil =>
      cases turns with
      | nil => exact ⟨sound, fun _ => rfl⟩
      | cons turn turns => exact ⟨sound, fun _ => rfl⟩
  | cons slot rest inductionHypothesis =>
      cases turns with
      | nil =>
          exact ⟨sound, fun short => absurd short (by simp)⟩
      | cons turn turns =>
          have nodup : store.open_.Nodup := sound.consistent.nodup
          rw [isOpen] at nodup
          have notBefore : slot ∉ front := fun before =>
            (List.nodup_append.1 nodup).2.2 slot before slot
              List.mem_cons_self rfl
          have notBehind : slot ∉ rest :=
            (List.nodup_cons.1 (List.nodup_append.1 nodup).2.1).1
          have next : store.open_ = (front ++ [slot]) ++ rest := by
            rw [isOpen, List.append_assoc]
            rfl
          have member : slot ∈ store.open_ := by
            rw [isOpen]
            exact List.mem_append_right _ List.mem_cons_self
          have later := fun other listed =>
            isInterval other (List.mem_cons_of_mem turn listed)
          have onSchedule := sound.onSchedule slot member List.not_mem_nil
          dsimp only
          rw [List.head?_cons]
          unfold checkOperations dueUpTo
          dsimp only
          unfold checkFrom logFrom resentFrom
          dsimp only
          generalize isCallback : (if store.TimesOut slot ∧
            (store.at_ slot).callback.isSome = true then
              (store.resend turn.1 slot).scripts turn.2 else []) = callback
          cases runs : (store.at_ slot).retransTimer.running with
          | true =>
              rw [checkTransaction_running runs,
                Pool.next_of_append isOpen notBefore]
              obtain ⟨after, resent⟩ := inductionHypothesis sound later next
              exact ⟨after, fun short =>
                resent (Nat.le_of_succ_le_succ short)⟩
          | false =>
              obtain ⟨resent, kept, freed⟩ := sound.resend member
                List.not_mem_nil turn.1
              have isResend : (store.counted slot).coapSendTransaction turn.1
                  slot = store.resend turn.1 slot := rfl
              rw [isResend] at resent kept freed
              rw [checkTransaction_expired runs]
              simp only [Bool.false_eq_true, if_false]
              by_cases last : store.TimesOut slot
              · -- the transaction is freed, and the walk ends
                have isLast := (onSchedule.timesOut_iff runs).1 last
                have messages : ∃ messages, (∀ message ∈ messages,
                    IsInterval message.interval) ∧ callback =
                      (store.resend turn.1 slot).scripts messages := by
                  rw [← isCallback]
                  split
                  · exact ⟨turn.2, isInterval turn List.mem_cons_self, rfl⟩
                  · exact ⟨[], by simp, rfl⟩
                obtain ⟨messages, intervals, rfl⟩ := messages
                obtain ⟨soundAfter, appends⟩ :=
                  resent.scripts (by simp) intervals
                have gone : slot ∉ (store.resend turn.1 slot).open_ := by
                  rw [freed isLast]
                  exact sound.consistent.nodup.not_mem_erase
                obtain ⟨sameStore, sameLog, nothing⟩ := checkFrom_freed
                  soundAfter.consistent appends gone
                    (checkOperations turns _ _)
                rw [if_pos last]
                refine ⟨?_, fun _ => congrArg (slot :: ·) nothing⟩
                rw [sameStore, sameLog]
                exact soundAfter
              · -- the transaction is kept
                have early : (store.at_ slot).retransCounter.toNat < 3 := by
                  have small := onSchedule.counter
                  have notThree := mt (onSchedule.timesOut_iff runs).2 last
                  omega
                have noCallback : callback = [] := by
                  rw [← isCallback]
                  exact if_neg fun both => last both.1
                obtain ⟨sameOpen, -⟩ := kept early
                have same : ∀ other ∈ rest,
                    (store.resend turn.1 slot).at_ other =
                      store.at_ other := by
                  intro other listed
                  have different : some other ≠ some slot := fun equal =>
                    notBehind (Option.some.inj equal ▸ listed)
                  have untouched : Store.Untouched (some slot) store
                      (store.resend turn.1 slot) :=
                    (Store.update_untouched slot _).trans
                      (Store.coapSendTransaction_untouched turn.1 slot)
                  refine (untouched other different).2 ?_
                  rw [isOpen]
                  exact List.mem_append_right _
                    (List.mem_cons_of_mem _ listed)
                have isNext : (store.resend turn.1 slot).transactions.next
                    slot = rest.head? :=
                  Pool.next_of_append (sameOpen.trans isOpen) notBefore
                obtain ⟨after, resentLater⟩ :=
                  inductionHypothesis resent later (sameOpen.trans next)
                rw [noCallback, if_neg last]
                simp only [List.foldl_nil, isNext]
                refine ⟨after, fun short => ?_⟩
                rw [resentLater (Nat.le_of_succ_le_succ short),
                  dueUpTo_congr same]

theorem dueUpTo_cons (store : Store size observers) (slot : Fin size)
    (rest : List (Fin size)) :
    dueUpTo store (slot :: rest) =
      if (store.at_ slot).retransTimer.running then dueUpTo store rest
      else if store.TimesOut slot then [slot]
      else slot :: dueUpTo store rest := rfl

/-- All expired transactions are resent, unless another one stands behind
one that times out. -/
theorem mem_dueUpTo_iff {store : Store size observers}
    {slots : List (Fin size)} (nodup : slots.Nodup) :
    (∀ slot ∈ slots, (store.at_ slot).retransTimer.running = false →
        slot ∈ dueUpTo store slots) ↔
      slots.Pairwise fun first later => store.TimesOut first →
        (store.at_ later).retransTimer.running = true := by
  induction slots with
  | nil =>
      simp
  | cons slot rest inductionHypothesis =>
      obtain ⟨notBehind, nodupRest⟩ := List.nodup_cons.1 nodup
      have different : ∀ later ∈ rest, later ≠ slot :=
        fun later listed same => notBehind (same ▸ listed)
      rw [List.pairwise_cons, ← inductionHypothesis nodupRest,
        List.forall_mem_cons, dueUpTo_cons]
      cases runs : (store.at_ slot).retransTimer.running with
      | true =>
          have inTime : ¬ store.TimesOut slot := fun timesOut =>
            absurd (timesOut.1.symm.trans runs) (by decide)
          rw [if_pos rfl]
          simp [inTime]
      | false =>
          rw [if_neg Bool.false_ne_true]
          by_cases timesOut : store.TimesOut slot
          · have onlySlot : ∀ later ∈ rest,
                (later ∈ [slot] ↔ False) := fun later listed => by
              simp [different later listed]
            rw [if_pos timesOut]
            simp only [List.mem_cons_self, true_and, forall_const, timesOut]
            constructor
            · intro all
              have runsBehind : ∀ later ∈ rest,
                  (store.at_ later).retransTimer.running = true := by
                intro later listed
                by_contra expired
                exact (onlySlot later listed).1 (all later listed
                  (Bool.eq_false_iff.2 expired))
              exact ⟨runsBehind, fun later listed expired => absurd
                ((runsBehind later listed).symm.trans expired) (by decide)⟩
            · rintro ⟨runsBehind, -⟩ later listed expired
              exact absurd ((runsBehind later listed).symm.trans expired)
                (by decide)
          · have sameMem : ∀ later ∈ rest,
                (later ∈ slot :: dueUpTo store rest ↔
                  later ∈ dueUpTo store rest) := fun later listed => by
              simp [different later listed]
            rw [if_neg timesOut]
            simp only [List.mem_cons_self, true_and, forall_const, timesOut,
              false_imp_iff, implies_true]
            exact forall_congr' fun later => forall_congr' fun listed =>
              imp_congr_right fun _ => sameMem later listed

/-! ## The node -/

/-- What can happen at a node whose callers send each message as soon as
they have a transaction for it. -/
inductive Turn (size : Nat) where
  | receive (datagram : Datagram)
      (service : Option (ServiceCallback size)) (interval : UInt32)
  | expire (slot : Fin size)
  | check (turns : List (UInt32 × List Message))
  | start (message : Message)

variable (config) (engine : Engine size observers)

def inputs : Turn size → List (Input size)
  | .receive datagram service interval =>
      [.receive datagram service interval]
  | .expire slot => [.expire slot]
  | .check turns =>
      [.check (checkOperations turns engine.store.transactions.list.head?
        engine.store)]
  | .start message => (engine.store.script message).map .operate

def turn (turn : Turn size) : Engine size observers :=
  (engine.inputs turn).foldl (step config) engine

/-- The intervals can be doubled, the service callback sends what callers
send, and a check has an iteration for every open transaction. -/
def WellFormed : Turn size → Prop
  | .receive datagram service interval =>
      IsInterval interval ∧
        ∃ messages, (∀ message ∈ messages, IsInterval message.interval) ∧
          engine.serviceOperations config datagram service =
            (engine.created config datagram).2.scripts messages
  | .expire _ => True
  | .check turns =>
      (∀ turn ∈ turns, ∀ message ∈ turn.2, IsInterval message.interval) ∧
        engine.store.open_.length ≤ turns.length
  | .start message => IsInterval message.interval

def logRequest (log : Log size) (datagram : Datagram)
    (service : Option (ServiceCallback size)) (interval : UInt32) :
    Log size :=
  match (engine.created config datagram).1 with
  | some slot =>
      let logServed := (engine.created config datagram).2.logAll
        (Function.update log slot [])
        (engine.serviceOperations config datagram service)
      let result := handleRequest config datagram service
        (engine.parsedMessage config datagram)
        (engine.afterParse config datagram)
      if result.2 = statusNoError then
        result.1.store.logSend logServed interval slot
      else logServed
  | none => log

def logTurn (log : Log size) : Turn size → Log size
  | .receive datagram service interval =>
      if (engine.parsed config datagram).1 = .noError ∧
          isRequest (engine.parsedMessage config datagram) = true then
        engine.logRequest config log datagram service interval
      else log
  | .expire _ => log
  | .check turns =>
      let current := engine.store.transactions.list.head?
      logFrom (checkOperations turns current engine.store) current
        engine.store log
  | .start message => engine.store.logAll log (engine.store.script message)

variable {config} {engine}

theorem finish_error_sound {log : Log size} (datagram : Datagram)
    (interval : UInt32) (message : ReceivedPacket)
    {result : Engine size observers × UInt8}
    (error : result.2 ≠ statusNoError)
    (sound : Store.Sound [] result.1.store log) :
    Store.Sound [] (finish config datagram message interval result).store
      log := by
  refine Store.Sound.congr ?_
    (finish_error config datagram interval message result error).1
  cases result.1.transaction with
  | none =>
      exact sound
  | some slot =>
      exact (sound.mono (List.nil_subset _)).clear

theorem request_sound {log : Log size}
    (sound : Store.Sound [] engine.store log) {datagram : Datagram}
    {service : Option (ServiceCallback size)} {interval : UInt32}
    (wellFormed :
      engine.WellFormed config (.receive datagram service interval))
    (succeeded : (engine.parsed config datagram).1 = .noError)
    (request : isRequest (engine.parsedMessage config datagram) = true) :
    Store.Sound []
      (engine.coapReceive config datagram service interval).store
      (engine.logRequest config log datagram service interval) := by
  rw [coapReceive_request config engine datagram service interval succeeded
    request]
  obtain ⟨owner, refused, filled⟩ :=
    handleRequest_cases config engine datagram service
  obtain ⟨isInterval, messages, intervals, isScript⟩ := wellFormed
  generalize isResult : handleRequest config datagram service
    (engine.parsedMessage config datagram)
    (engine.afterParse config datagram) = result at owner refused filled ⊢
  unfold logRequest
  rcases Store.coapNewTransaction_cases sound.consistent
      (engine.parsedMessage config datagram).mid datagram.source with
    full | ⟨slot, after, taken, creates⟩
  · have created : engine.created config datagram = (none, engine.store) :=
      full
    have nothing : engine.served config datagram service =
        engine.store := by
      unfold served serviceOperations
      rw [created]
      rfl
    rw [created] at owner refused filled ⊢
    rcases filled with same | ⟨slot, _, _, found, _⟩
    · refine finish_error_sound datagram interval _ (refused rfl) ?_
      rw [same, nothing]
      exact sound
    · cases found
  · have created : engine.created config datagram = (some slot, after) :=
      taken
    have cleared : Function.update log slot [] slot = [] :=
      Function.update_self (β := fun _ => List (Option Nat)) slot _ log
    have soundCreated : Store.Sound [slot] after
        (Function.update log slot []) := by
      refine (sound.mono (List.nil_subset [slot, slot])).change
        creates.consistent creates.untouched
        (fun other different => Function.update_of_ne different _ log)
        (fun _ notListed => absurd (List.mem_singleton.2 rfl) notListed) ?_
      rw [cleared]
      exact Store.scheduled_nil
    have isServed : engine.served config datagram service =
        (after.scripts messages).foldl Store.perform after := by
      unfold served
      rw [isScript, created]
    rw [created] at owner refused filled isScript ⊢
    rw [isServed] at filled
    obtain ⟨soundServed, appends⟩ := soundCreated.scripts
      (fun listed member => by
        rw [List.mem_singleton.1 member]
        exact creates.member) intervals
    obtain ⟨sameSlot, sameLog⟩ := appends.same slot creates.member
    have isFilled : Store.Sound [slot] result.1.store
          (after.logAll (Function.update log slot [])
            (after.scripts messages)) ∧
        (result.1.store.at_ slot).retransCounter = 0 := by
      rcases filled with same | ⟨slot', packetLen, packet, found, same⟩
      · rw [same, sameSlot]
        exact ⟨soundServed, creates.retransCounter⟩
      · cases found
        rw [same, Store.at_update, if_pos rfl, sameSlot]
        exact ⟨soundServed.fill (List.mem_singleton.2 rfl) _,
          creates.retransCounter⟩
    dsimp only
    rw [isScript, isResult]
    by_cases success : result.2 = statusNoError
    · rw [(finish_noError config datagram interval
        (engine.parsedMessage config datagram) result success).1 slot owner,
        if_pos success]
      exact isFilled.1.send isFilled.2 (sameLog.trans cleared) isInterval
    · rw [if_neg success]
      refine Store.Sound.congr ?_ (finish_error config datagram interval
        (engine.parsedMessage config datagram) result success).1
      rw [owner]
      exact isFilled.1.clear

theorem response_sound {log : Log size}
    (sound : Store.Sound [] engine.store log) {datagram : Datagram}
    {service : Option (ServiceCallback size)} {interval : UInt32}
    (succeeded : (engine.parsed config datagram).1 = .noError)
    (response :
      isRequest (engine.parsedMessage config datagram) = false) :
    Store.Sound []
      (engine.coapReceive config datagram service interval).store log := by
  rw [coapReceive_response config engine datagram service interval succeeded
    response]
  obtain ⟨owner, completed, unknown⟩ := handleResponse_cases
    (engine.afterParse config datagram) datagram
    (engine.parsedMessage config datagram)
  generalize handleResponse datagram (engine.parsedMessage config datagram)
    (engine.afterParse config datagram) = result at owner completed unknown ⊢
  have handled : Store.Sound [] result.1.store log := by
    cases found : (engine.afterParse config
        datagram).store.coapGetTransactionByMid
        (engine.parsedMessage config datagram).mid with
    | none =>
        exact sound.congr (unknown found).1
    | some slot =>
        exact Store.Sound.congr
          (sound.mono (List.nil_subset [slot])).clear
          (completed slot found).1
  by_cases success : result.2 = statusNoError
  · rw [(finish_noError config datagram interval
      (engine.parsedMessage config datagram) result success).2 owner]
    exact handled
  · exact finish_error_sound datagram interval _ success handled

theorem foldl_operate (operations : List (Operation size)) :
    (operations.map Input.operate).foldl (step config) engine =
      { engine with
        store := operations.foldl Store.perform engine.store } := by
  induction operations generalizing engine with
  | nil =>
      rfl
  | cons operation operations inductionHypothesis =>
      exact inductionHypothesis

theorem turn_sound {log : Log size} (sound : Store.Sound [] engine.store log)
    {turn : Turn size} (wellFormed : engine.WellFormed config turn) :
    Store.Sound [] (engine.turn config turn).store
      (engine.logTurn config log turn) := by
  cases turn with
  | receive datagram service interval =>
      unfold logTurn
      dsimp only
      by_cases succeeded : (engine.parsed config datagram).1 = .noError
      · cases request :
            isRequest (engine.parsedMessage config datagram) with
        | true =>
            rw [if_pos ⟨succeeded, rfl⟩]
            exact request_sound sound wellFormed succeeded request
        | false =>
            rw [if_neg fun both => absurd both.2 Bool.false_ne_true]
            exact response_sound sound succeeded request
      · rw [if_neg fun both => succeeded both.1]
        change Store.Sound []
          (engine.coapReceive config datagram service interval).store log
        rw [coapReceive_failed config engine datagram service interval
          succeeded]
        exact finish_error_sound datagram interval _
          (code_ne_noError succeeded) sound
  | expire slot =>
      exact sound.expire slot
  | check turns =>
      exact (checkFrom_sound sound wellFormed.1
        (List.nil_append engine.store.open_).symm).1
  | start message =>
      change Store.Sound [] ((engine.store.script message).map
        Input.operate |>.foldl (step config) engine).store _
      rw [foldl_operate]
      exact (sound.script (by simp) wellFormed).1

/-! ## Reliability -/

/-- A message is transmitted at most `1 + COAP_MAX_RETRANSMIT` times, every
wait is twice the one before, and a transaction is open only before the
transmission that waits for nothing. -/
structure Reliable (store : Store size observers) (log : Log size) :
    Prop where
  atMost : ∀ slot, (log slot).length ≤ 1 + coapMaxRetransmit.toNat
  doubled : ∀ slot retransmission first second,
    (log slot)[retransmission]? = some (some first) →
      (log slot)[retransmission + 1]? = some (some second) →
        second = 2 * first
  waiting : ∀ slot ∈ store.open_, none ∉ log slot

theorem length_of_scheduled {transmissions : List (Option Nat)}
    (scheduled : Store.Scheduled transmissions) :
    transmissions.length ≤ 5 := by
  rcases scheduled with ⟨first, isPrefix⟩ | once
  · exact isPrefix.length_le
  · rw [once]
    decide

theorem doubled_of_scheduled {transmissions : List (Option Nat)}
    (scheduled : Store.Scheduled transmissions)
    {retransmission first second : Nat}
    (isFirst : transmissions[retransmission]? = some (some first))
    (isSecond : transmissions[retransmission + 1]? =
      some (some second)) : second = 2 * first := by
  rcases scheduled with ⟨initial, rest, isSchedule⟩ | once
  · have inSchedule : ∀ {index : Nat} {wait : Option Nat},
        transmissions[index]? = some wait →
        (Store.schedule initial)[index]? = some wait := by
      intro index wait found
      rw [← isSchedule]
      exact List.getElem?_append_left
        (List.getElem?_eq_some_iff.1 found).1 |>.trans found
    have earlier := inSchedule isFirst
    have later := inSchedule isSecond
    unfold Store.schedule at earlier later
    rcases retransmission with _ | _ | _ | _ | retransmission
    all_goals simp at earlier later
    all_goals omega
  · rw [once] at isSecond
    simp at isSecond

theorem Reliable.of_sound {store : Store size observers} {log : Log size}
    (sound : Store.Sound [] store log) : Reliable store log where
  atMost slot := length_of_scheduled (sound.scheduled slot)
  doubled slot _ _ _ isFirst isSecond :=
    doubled_of_scheduled (sound.scheduled slot) isFirst isSecond
  waiting slot member := by
    obtain ⟨_, small, first, _, logged, _⟩ :=
      sound.onSchedule slot member List.not_mem_nil
    intro last
    rw [logged] at last
    have early : none ∈ (Store.schedule first).take 4 :=
      (List.take_subset_take_left _ (by omega)) last
    exact absurd early (by simp [Store.schedule])

variable (config) (engine)

/-- An acknowledgement or a reset frees the transaction that it is for, and
one check resends every transaction whose timer has expired. -/
def Handles : Turn size → Prop
  | .receive datagram service interval =>
      let message := engine.parsedMessage config datagram
      (engine.parsed config datagram).1 = .noError →
      isRequest message = false →
      message.type = .ack ∨ message.type = .rst →
      ∀ slot ∈ engine.store.open_,
        (engine.store.at_ slot).mid = message.mid →
        (engine.store.at_ slot).endpoint = datagram.source →
          slot ∉ (engine.turn config
            (.receive datagram service interval)).store.open_
  | .check turns =>
      let current := engine.store.transactions.list.head?
      ∀ slot ∈ engine.store.open_,
        (engine.store.at_ slot).retransTimer.running = false →
          slot ∈ resentFrom (checkOperations turns current engine.store)
            current engine.store
  | _ => True

/-- The transaction that an acknowledgement or a reset is for is the first
one with its identifier, and behind an expired transaction that times out
there is no other expired one. -/
def Meets : Turn size → Prop
  | .receive datagram _ _ =>
      let message := engine.parsedMessage config datagram
      (engine.parsed config datagram).1 = .noError →
      isRequest message = false →
      message.type = .ack ∨ message.type = .rst →
      ∀ slot ∈ engine.store.open_,
        (engine.store.at_ slot).mid = message.mid →
        (engine.store.at_ slot).endpoint = datagram.source →
          engine.store.coapGetTransactionByMid message.mid = some slot
  | .check _ =>
      engine.store.open_.Pairwise fun first later =>
        engine.store.TimesOut first →
          (engine.store.at_ later).retransTimer.running = true
  | _ => True

variable {config} {engine}

/-- A datagram that is no request frees the first transaction with its
identifier. -/
theorem not_mem_response_iff {log : Log size}
    (sound : Store.Sound [] engine.store log) {datagram : Datagram}
    {service : Option (ServiceCallback size)} {interval : UInt32}
    (succeeded : (engine.parsed config datagram).1 = .noError)
    (response :
      isRequest (engine.parsedMessage config datagram) = false)
    {slot : Fin size} (member : slot ∈ engine.store.open_) :
    slot ∉ (engine.coapReceive config datagram service
        interval).store.open_ ↔
      engine.store.coapGetTransactionByMid
        (engine.parsedMessage config datagram).mid = some slot := by
  rw [coapReceive_response config engine datagram service interval succeeded
    response]
  obtain ⟨owner, completed, unknown⟩ := handleResponse_cases
    (engine.afterParse config datagram) datagram
    (engine.parsedMessage config datagram)
  generalize handleResponse datagram (engine.parsedMessage config datagram)
    (engine.afterParse config datagram) = result at owner completed unknown ⊢
  have finished : (finish config datagram
      (engine.parsedMessage config datagram) interval
        result).store.transactions = result.1.store.transactions := by
    by_cases success : result.2 = statusNoError
    · rw [(finish_noError config datagram interval
        (engine.parsedMessage config datagram) result success).2 owner]
    · rw [(finish_error config datagram interval
        (engine.parsedMessage config datagram) result success).1, owner]
      rfl
  change slot ∉ (finish config datagram (engine.parsedMessage config
    datagram) interval result).store.transactions.list ↔ _
  rw [finished]
  cases found : engine.store.coapGetTransactionByMid
      (engine.parsedMessage config datagram).mid with
  | none =>
      rw [(unknown found).1]
      simp [member, afterParse]
  | some first =>
      rw [(completed first found).1, Option.some.injEq]
      change slot ∉ (engine.store.coapClearTransaction
        (some first)).open_ ↔ _
      rw [Store.mem_coapClearTransaction sound.consistent]
      constructor
      · intro freed
        by_contra different
        exact freed ⟨fun same => different same.symm, member⟩
      · rintro rfl ⟨different, -⟩
        exact different rfl

theorem handles_iff {log : Log size}
    (sound : Store.Sound [] engine.store log) {turn : Turn size}
    (wellFormed : engine.WellFormed config turn) :
    engine.Handles config turn ↔ engine.Meets config turn := by
  cases turn with
  | receive datagram service interval =>
      unfold Handles Meets
      refine imp_congr_right fun succeeded =>
        imp_congr_right fun response => imp_congr_right fun _ =>
          forall_congr' fun slot => imp_congr_right fun member =>
            imp_congr_right fun _ => imp_congr_right fun _ => ?_
      exact not_mem_response_iff sound succeeded response member
  | expire slot =>
      exact Iff.rfl
  | check turns =>
      obtain ⟨-, resent⟩ := checkFrom_sound sound wellFormed.1
        (List.nil_append engine.store.open_).symm
      unfold Handles Meets
      dsimp only
      rw [resent wellFormed.2]
      exact mem_dueUpTo_iff sound.consistent.nodup
  | start message =>
      exact Iff.rfl

/-- The node and the log behind turns. -/
def runTurns (config : CoapConfig) (state : Engine size observers × Log size)
    (turns : List (Turn size)) : Engine size observers × Log size :=
  turns.foldl (fun state turn =>
    (state.1.turn config turn, state.1.logTurn config state.2 turn)) state

/-- Every turn is well formed in the state in which it comes. -/
def WellFormedRun (config : CoapConfig) :
    Engine size observers → List (Turn size) → Prop
  | _, [] => True
  | engine, turn :: rest =>
      engine.WellFormed config turn ∧
        WellFormedRun config (engine.turn config turn) rest

theorem runTurns_sound {log : Log size}
    (sound : Store.Sound [] engine.store log) {turns : List (Turn size)}
    (wellFormed : WellFormedRun config engine turns) :
    let state := runTurns config (engine, log) turns
    Store.Sound [] state.1.store state.2 := by
  induction turns generalizing engine log with
  | nil =>
      exact sound
  | cons turn rest inductionHypothesis =>
      exact inductionHypothesis (turn_sound sound wellFormed.1) wellFormed.2

/-- The node at the start, with an empty log. -/
def initialState (currentMid : UInt16) : Engine size observers × Log size :=
  (Engine.initial currentMid, fun _ => [])

/-- In every run the transmissions of a message end on schedule, and the next
turn handles the transactions if and only if it meets the condition. -/
theorem reliable_run (config : CoapConfig) (currentMid : UInt16)
    {turns : List (Turn size)}
    (wellFormed : WellFormedRun config
      (Engine.initial currentMid : Engine size observers) turns) :
    let state : Engine size observers × Log size :=
      runTurns config (initialState currentMid) turns
    Reliable state.1.store state.2 ∧
      ∀ turn, state.1.WellFormed config turn →
        (state.1.Handles config turn ↔ state.1.Meets config turn) := by
  have start : Store.Sound []
      (Engine.initial currentMid : Engine size observers).store
      (fun _ => []) :=
    ⟨initial_consistent currentMid, fun _ member => absurd member
      List.not_mem_nil, fun _ => Store.scheduled_nil⟩
  have sound := runTurns_sound start wellFormed
  exact ⟨Reliable.of_sound sound, fun turn next => handles_iff sound next⟩

/-- An empty confirmable message without a callback. -/
def emptyMessage (mid : UInt16) : Message where
  mid := mid
  endpoint := serverNode
  callback := none
  callbackData := 0
  packetLen := 2
  packet := confirmablePacket
  interval := 100

/-- A check of the timers in which callbacks send nothing. -/
def quietCheck : Turn size :=
  .check (List.replicate size (0, []))

def expireAndCheck (slot : Fin size) : List (Turn size) :=
  [.expire slot, quietCheck]

/-- Two messages are sent; the first one is resent three times, and then both
timers expire. -/
def bothExpire : List (Turn 2) :=
  let first : Fin 2 := ⟨0, Nat.two_pos⟩
  let second : Fin 2 := ⟨1, Nat.one_lt_two⟩
  [.start (emptyMessage 1), .start (emptyMessage 2)] ++
    expireAndCheck first ++ expireAndCheck first ++ expireAndCheck first ++
      [.expire first, .expire second]

theorem bothExpire_wellFormed :
    WellFormedRun .erConf (Engine.initial 0 : Engine 2 0)
      (bothExpire ++ [quietCheck]) := by
  have quiet : ∀ turn ∈ List.replicate 2 ((0, []) : UInt32 × List Message),
      ∀ message ∈ turn.2, IsInterval message.interval := by
    simp
  have interval : IsInterval 100 := by
    unfold IsInterval
    decide
  refine ⟨interval, interval, trivial, ⟨quiet, ?_⟩, trivial, ⟨quiet, ?_⟩,
    trivial, ⟨quiet, ?_⟩, trivial, trivial, ⟨quiet, ?_⟩, trivial⟩
  · decide +kernel
  · decide +kernel
  · decide +kernel
  · decide +kernel

/-- The final timeout of the first message unlinks its transaction, and the
check does not get to the second one. -/
theorem bothExpire_not_handles :
    let state : Engine 2 0 × Log 2 :=
      runTurns .erConf (initialState 0) bothExpire
    WellFormedRun .erConf (Engine.initial 0 : Engine 2 0)
        (bothExpire ++ [quietCheck]) ∧
      ¬ state.1.Handles .erConf quietCheck := by
  refine ⟨bothExpire_wellFormed, fun handles => ?_⟩
  have resent := handles 1 (by decide +kernel) (by decide +kernel)
  exact absurd resent (by decide +kernel)

/-- In a run with one message every check resends it. -/
theorem quietCheck_handles :
    let state := runTurns .erConf (initialState 0 :
      Engine 2 0 × Log 2) [.start (emptyMessage 1), .expire 0]
    Reliable state.1.store state.2 ∧
      state.1.Handles .erConf quietCheck := by
  have interval : IsInterval 100 := by
    unfold IsInterval
    decide
  obtain ⟨reliable, handles⟩ := @reliable_run 2 0 .erConf 0
    [.start (emptyMessage 1), .expire 0] ⟨interval, trivial, trivial⟩
  refine ⟨reliable, (handles quietCheck ⟨by simp, by decide +kernel⟩).2 ?_⟩
  have single : (runTurns .erConf (initialState 0 : Engine 2 0 × Log 2)
      [.start (emptyMessage 1), .expire 0]).1.store.open_ = [0] := by
    decide +kernel
  unfold Meets
  dsimp only [quietCheck]
  rw [single]
  exact List.pairwise_singleton _ _

end Engine

end Contiki.Coap
