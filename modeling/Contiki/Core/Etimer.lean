import Mathlib.Data.BitVec
import Mathlib.Data.List.FinRange
import Mathlib.Logic.Function.Basic

/-!
# Event timers

The pending event timers are on a linked list.  When a timer expires, an event
is posted to the process in which the timer was set, and the timer leaves the
list.

A loop over a list that does not end has no result here.  The list has at most
as many timers as there are in the memory.
-/

namespace Contiki.Core

/-- The static variables of the event timers, the fields of all timers, and
the events that have been posted with their receivers. -/
structure Etimers (numTimers : Nat) (Process : Type) (width : Nat) where
  timerlist : Option (Fin numTimers)
  nextExpiration : BitVec width
  next : Fin numTimers → Option (Fin numTimers)
  /-- `t->p`, or `PROCESS_NONE`. -/
  p : Fin numTimers → Option Process
  start : Fin numTimers → BitVec width
  interval : Fin numTimers → BitVec width
  clockTime : BitVec width
  /-- `etimer_process` has been polled. -/
  needspoll : Bool
  posted : List (Fin numTimers × Option Process)

namespace Etimers

variable {numTimers : Nat} {Process : Type} {width : Nat}

/-- `etimer_expiration_time` -/
def expirationTime (timers : Etimers numTimers Process width)
    (t : Fin numTimers) : BitVec width :=
  timers.start t + timers.interval t

/-- The loop of `update_time`. -/
def nearest (timers : Etimers numTimers Process width) :
    Nat → Option (Fin numTimers) → BitVec width → Option (BitVec width)
  | 0, _, _ => none
  | _ + 1, none, tdist => some tdist
  | rounds + 1, some t, tdist =>
      let distance := timers.expirationTime t - timers.clockTime
      timers.nearest rounds (timers.next t)
        (if distance < tdist then distance else tdist)

/-- `update_time` -/
def updateTime (timers : Etimers numTimers Process width) :
    Option (Etimers numTimers Process width) :=
  match timers.timerlist with
  | none => some { timers with nextExpiration := 0 }
  | some t =>
      match timers.nearest (numTimers + 1) (timers.next t)
          (timers.expirationTime t - timers.clockTime) with
      | none => none
      | some tdist =>
          some { timers with nextExpiration := timers.clockTime + tdist }

/-- `etimer_request_poll` -/
def etimerRequestPoll (timers : Etimers numTimers Process width) :
    Etimers numTimers Process width :=
  { timers with needspoll := true }

/-- The loop of `add_timer`. -/
def onList (timers : Etimers numTimers Process width)
    (timer : Fin numTimers) : Nat → Option (Fin numTimers) → Option Bool
  | 0, _ => none
  | _ + 1, none => some false
  | rounds + 1, some t =>
      if t = timer then some true
      else timers.onList timer rounds (timers.next t)

/-- Whether `add_timer` finds a timer on the list. -/
def alreadyListed (timers : Etimers numTimers Process width)
    (timer : Fin numTimers) : Option Bool :=
  match timers.p timer with
  | some _ => timers.onList timer (numTimers + 1) timers.timerlist
  | none => some false

/-- `add_timer`, when `PROCESS_CURRENT()` is `current`. -/
def addTimer (timers : Etimers numTimers Process width)
    (current : Option Process) (timer : Fin numTimers) :
    Option (Etimers numTimers Process width) :=
  let timers := timers.etimerRequestPoll
  let owned := { timers with p := Function.update timers.p timer current }
  match timers.alreadyListed timer with
  | none => none
  -- timer already on list
  | some true => owned.updateTime
  | some false =>
      { owned with
        next := Function.update timers.next timer timers.timerlist
        timerlist := some timer : Etimers numTimers Process width }.updateTime

/-- `etimer_set` -/
def etimerSet (timers : Etimers numTimers Process width)
    (current : Option Process) (et : Fin numTimers)
    (interval : BitVec width) : Option (Etimers numTimers Process width) :=
  { timers with
    interval := Function.update timers.interval et interval
    start := Function.update timers.start et timers.clockTime
      : Etimers numTimers Process width }.addTimer current et

/-- `etimer_reset` -/
def etimerReset (timers : Etimers numTimers Process width)
    (current : Option Process) (et : Fin numTimers) :
    Option (Etimers numTimers Process width) :=
  { timers with
    start := Function.update timers.start et
      (timers.start et + timers.interval et)
      : Etimers numTimers Process width }.addTimer current et

/-- `etimer_restart` -/
def etimerRestart (timers : Etimers numTimers Process width)
    (current : Option Process) (et : Fin numTimers) :
    Option (Etimers numTimers Process width) :=
  { timers with
    start := Function.update timers.start et timers.clockTime
      : Etimers numTimers Process width }.addTimer current et

/-- `etimer_adjust` -/
def etimerAdjust (timers : Etimers numTimers Process width)
    (et : Fin numTimers) (timediff : Int) :
    Option (Etimers numTimers Process width) :=
  { timers with
    start := Function.update timers.start et
      (timers.start et + BitVec.ofInt width timediff)
      : Etimers numTimers Process width }.updateTime

/-- The loop of `etimer_stop`: the timer before another one. -/
def findBefore (timers : Etimers numTimers Process width)
    (et : Fin numTimers) :
    Nat → Option (Fin numTimers) → Option (Option (Fin numTimers))
  | 0, _ => none
  | _ + 1, none => some none
  | rounds + 1, some t =>
      if timers.next t = some et then some (some t)
      else timers.findBefore et rounds (timers.next t)

/-- `etimer_stop` until the timer is off the list. -/
def removeTimer (timers : Etimers numTimers Process width)
    (et : Fin numTimers) : Option (Etimers numTimers Process width) :=
  if timers.timerlist = some et then
    { timers with
      timerlist := timers.next et : Etimers numTimers Process width }.updateTime
  else
    match timers.findBefore et (numTimers + 1) timers.timerlist with
    | none => none
    | some none => some timers
    | some (some t) =>
        { timers with
          next := Function.update timers.next t (timers.next et)
            : Etimers numTimers Process width }.updateTime

/-- `etimer_stop` -/
def etimerStop (timers : Etimers numTimers Process width)
    (et : Fin numTimers) : Option (Etimers numTimers Process width) :=
  (timers.removeTimer et).map fun timers =>
    { timers with
      next := Function.update timers.next et none
      p := Function.update timers.p et none }

/-- `timer_expired` -/
def timerExpired (timers : Etimers numTimers Process width)
    (t : Fin numTimers) : Bool :=
  let diff := timers.clockTime - timers.start t + 1
  timers.interval t < diff

/-- The loop of `etimer_process` over the list, when there is room for so many
events: the first timer with an event that can be posted, and the timer before
it, and whether a poll was requested. -/
def findExpired (timers : Etimers numTimers Process width) (room : Nat) :
    Nat → Option (Fin numTimers) → Option (Fin numTimers) → Bool →
    Option (Option (Option (Fin numTimers) × Fin numTimers) × Bool)
  | 0, _, _, _ => none
  | _ + 1, _, none, polled => some (none, polled)
  | rounds + 1, u, some t, polled =>
      if timers.timerExpired t then
        if 0 < room then some (some (u, t), polled)
        else timers.findExpired room rounds (some t) (timers.next t) true
      else timers.findExpired room rounds (some t) (timers.next t) polled

/-- An event is posted for a timer, which leaves the list. -/
def postTimer (timers : Etimers numTimers Process width)
    (u : Option (Fin numTimers)) (t : Fin numTimers) :
    Etimers numTimers Process width :=
  { timers with
    posted := timers.posted ++ [(t, timers.p t)]
    p := Function.update timers.p t none
    timerlist := match u with
      | some _ => timers.timerlist
      | none => timers.next t
    next := Function.update (match u with
      | some u => Function.update timers.next u (timers.next t)
      | none => timers.next) t none }

/-- `etimer_process` with `PROCESS_EVENT_POLL`, from the label `again` on,
when there is room for so many events. -/
def etimerPoll : Nat → Nat → Etimers numTimers Process width →
    Option (Etimers numTimers Process width)
  | 0, _, _ => none
  | rounds + 1, room, timers =>
      match timers.findExpired room (numTimers + 1) none timers.timerlist
          false with
      | none => none
      | some (none, polled) =>
          some { timers with needspoll := timers.needspoll || polled }
      | some (some (u, t), polled) =>
          match (postTimer { timers with
              needspoll := timers.needspoll || polled } u t).updateTime with
          | none => none
          | some timers => etimerPoll rounds (room - 1) timers

variable [DecidableEq Process]

/-- The timers of a process leave the head of the list. -/
def dropExited (process : Process) :
    Nat → Etimers numTimers Process width →
    Option (Etimers numTimers Process width)
  | 0, _ => none
  | rounds + 1, timers =>
      match timers.timerlist with
      | none => some timers
      | some t =>
          if timers.p t = some process then
            dropExited process rounds { timers with timerlist := timers.next t }
          else some timers

/-- The timers of a process leave the list behind a timer. -/
def unlinkExited (process : Process) :
    Nat → Etimers numTimers Process width → Fin numTimers →
    Option (Etimers numTimers Process width)
  | 0, _, _ => none
  | rounds + 1, timers, t =>
      match timers.next t with
      | none => some timers
      | some u =>
          if timers.p u = some process then
            unlinkExited process rounds { timers with
              next := Function.update timers.next t (timers.next u) } t
          else unlinkExited process rounds timers u

/-- `etimer_process` with `PROCESS_EVENT_EXITED` -/
def etimerExited (timers : Etimers numTimers Process width)
    (process : Process) : Option (Etimers numTimers Process width) :=
  match dropExited process (numTimers + 1) timers with
  | none => none
  | some timers =>
      match timers.timerlist with
      | none => some timers
      | some t => unlinkExited process (numTimers + 1) timers t

end Etimers

/-- What happens to the timers, in the context of a process or of none. -/
inductive EtimerOperation (numTimers : Nat) (Process : Type) (width : Nat)
    where
  | etimerSet (current : Option Process) (et : Fin numTimers)
      (interval : BitVec width)
  | etimerReset (current : Option Process) (et : Fin numTimers)
  | etimerRestart (current : Option Process) (et : Fin numTimers)
  | etimerAdjust (et : Fin numTimers) (timediff : Int)
  | etimerStop (et : Fin numTimers)
  /-- The clock ticks. -/
  | advance (ticks : Nat)
  /-- The process is polled when so many events fit into the queue. -/
  | poll (room : Nat)
  | exited (process : Process)

namespace Etimers

variable {numTimers : Nat} {Process : Type} {width : Nat}
  [DecidableEq Process]

def step (timers : Etimers numTimers Process width) :
    EtimerOperation numTimers Process width →
    Option (Etimers numTimers Process width)
  | .etimerSet current et interval => timers.etimerSet current et interval
  | .etimerReset current et => timers.etimerReset current et
  | .etimerRestart current et => timers.etimerRestart current et
  | .etimerAdjust et timediff => timers.etimerAdjust et timediff
  | .etimerStop et => timers.etimerStop et
  | .advance ticks => some { timers with
      clockTime := timers.clockTime + BitVec.ofNat width ticks }
  | .poll room =>
      etimerPoll (numTimers + 1) room { timers with needspoll := false }
  | .exited process => timers.etimerExited process

end Etimers

end Contiki.Core
