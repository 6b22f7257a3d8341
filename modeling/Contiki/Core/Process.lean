import Contiki.Lib.Cyclic
import Mathlib.Data.List.Nodup
import Mathlib.Data.UInt

/-!
# The process kernel

The functions of `process.c` that post events, deliver them and call the
threads of the processes.  A thread is code that may call these functions
again before it returns.  What it does is chosen from outside, one call at a
time, and the calls that have not returned yet are on a stack.
-/

namespace Contiki.Core

open Contiki.Lib

/-! ## Events -/

def processEventInit : UInt8 := 0x81

def processEventPoll : UInt8 := 0x82

def processEventExit : UInt8 := 0x83

def processEventExited : UInt8 := 0x87

/-- The pointer that comes with an event. -/
inductive ProcessData (num : Nat) (Data : Type)
  | null
  | process (p : Fin num)
  | data (data : Data)

/-- An event in the queue.  No receiver stands for `PROCESS_BROADCAST`. -/
structure EventData (num : Nat) (Data : Type) where
  ev : UInt8
  data : ProcessData num Data
  p : Option (Fin num)

/-- The queue of active events. -/
structure EventQueue (Event : Type) where
  events : Nat → Event
  fevent : UInt8
  nevents : UInt8

namespace EventQueue

variable {Event : Type}

/-- What `process_post` does to the queue.  The sum is converted to
`process_num_events_t` before the remainder is taken. -/
def post (capacity : Nat) (queue : EventQueue Event) (event : Event) :
    Option (EventQueue Event) :=
  if queue.nevents.toNat = capacity then none
  else
    let snum := (queue.fevent + queue.nevents).toNat % capacity
    some { queue with
      events := Function.update queue.events snum event
      nevents := queue.nevents + 1 }

/-- How `do_event` takes an event out of the queue. -/
def take (capacity : Nat) (queue : EventQueue Event) :
    Option (Event × EventQueue Event) :=
  if 0 < queue.nevents.toNat then
    some (queue.events queue.fevent.toNat,
      { queue with
        fevent := UInt8.ofNat ((queue.fevent.toNat + 1) % capacity)
        nevents := queue.nevents - 1 })
  else none

end EventQueue

/-! ## Processes -/

inductive ProcessState
  | none
  | running
  | called
deriving DecidableEq

structure Process (num : Nat) where
  next : Option (Fin num)
  /-- Whether `thread` is not `NULL`. -/
  hasThread : Bool
  state : ProcessState
  needspoll : Bool

/-- A call that has not returned yet.  The loops go through the process list
and keep the process that they called last. -/
inductive Frame (num : Nat) (Data : Type)
  /-- The thread of a process, called by `call_process`. -/
  | thread (p : Fin num) (ev : UInt8) (data : ProcessData num Data)
  /-- The thread of a process, called by `exit_process`. -/
  | exitThread (p : Fin num) (oldCurrent : Option (Fin num))
  /-- The loop of `exit_process`. -/
  | exiting (p : Fin num) (fromprocess oldCurrent q : Option (Fin num))
  /-- What is left of `process_post_synch`. -/
  | synch (caller : Option (Fin num))
  /-- The loop of `do_poll`. -/
  | polling (p : Option (Fin num))
  /-- The loop of `do_event` for a broadcast. -/
  | broadcast (ev : UInt8) (data : ProcessData num Data)
      (p : Option (Fin num))
  /-- A call of the broadcast behind a call of `do_poll`. -/
  | deliver (ev : UInt8) (data : ProcessData num Data) (p : Fin num)
  /-- The call of `do_event` in `process_run`. -/
  | event

/-- The process whose thread a call is. -/
def Frame.active {num : Nat} {Data : Type} :
    Frame num Data → Option (Fin num)
  | .thread p _ _ => some p
  | .exitThread p _ => some p
  | _ => none

structure Kernel (num : Nat) (Data : Type) where
  procs : Fin num → Process num
  processList : Option (Fin num)
  processCurrent : Option (Fin num)
  pollRequested : Bool
  queue : EventQueue (EventData num Data)
  stack : List (Frame num Data)

/-- What the main loop or a thread does next. -/
inductive Call (num : Nat) (Data : Type)
  | post (event : EventData num Data)
  | postSynch (p : Fin num) (ev : UInt8) (data : ProcessData num Data)
  | start (p : Fin num) (data : ProcessData num Data)
  | exit (p : Fin num)
  /-- `process_poll`, which an interrupt handler may call, too. -/
  | poll (p : Fin num)
  /-- `process_run`, which the main loop calls. -/
  | run
  /-- The thread returns. -/
  | back (ended : Bool)

namespace Kernel

variable {num : Nat} {Data : Type}

def modify (kernel : Kernel num Data) (p : Fin num)
    (change : Process num → Process num) : Kernel num Data :=
  { kernel with
    procs := Function.update kernel.procs p (change (kernel.procs p)) }

def setState (kernel : Kernel num Data) (p : Fin num)
    (state : ProcessState) : Kernel num Data :=
  kernel.modify p fun process => { process with state := state }

def setNext (kernel : Kernel num Data) (p : Fin num)
    (next : Option (Fin num)) : Kernel num Data :=
  kernel.modify p fun process => { process with next := next }

def setNeedspoll (kernel : Kernel num Data) (p : Fin num)
    (needspoll : Bool) : Kernel num Data :=
  kernel.modify p fun process => { process with needspoll := needspoll }

def push (kernel : Kernel num Data) (frame : Frame num Data) :
    Kernel num Data :=
  { kernel with stack := frame :: kernel.stack }

/-- Where a loop through the process list goes on. -/
def following (kernel : Kernel num Data) : Option (Fin num) →
    Option (Fin num)
  | none => kernel.processList
  | some p => (kernel.procs p).next

/-- The first process of the list, from a node on, that has a property. -/
def search (kernel : Kernel num Data) (wanted : Fin num → Bool) :
    Nat → Option (Fin num) → Option (Fin num)
  | 0, _ => none
  | _ + 1, none => none
  | fuel + 1, some q =>
      if wanted q then some q
      else kernel.search wanted fuel (kernel.procs q).next

/-- Whether a process is on the list, which has at most `num` nodes. -/
def inList (kernel : Kernel num Data) (p : Fin num) : Bool :=
  (kernel.search (· == p) num kernel.processList).isSome

/-- A process is taken off the list. -/
def unlink (kernel : Kernel num Data) (p : Fin num) : Kernel num Data :=
  if some p = kernel.processList then
    { kernel with processList := (kernel.procs p).next }
  else
    match kernel.search (fun q => (kernel.procs q).next == some p) num
        kernel.processList with
    | some q => kernel.setNext q (kernel.procs p).next
    | none => kernel

/-- Only a state of `PROCESS_STATE_RUNNING` has the bit that is tested. -/
def callProcess (kernel : Kernel num Data) (p : Fin num) (ev : UInt8)
    (data : ProcessData num Data) : Kernel num Data :=
  if (kernel.procs p).state = .running ∧ (kernel.procs p).hasThread = true
  then
    { kernel.setState p .called with processCurrent := some p }.push
      (.thread p ev data)
  else kernel

def exitProcess (kernel : Kernel num Data) (p : Fin num)
    (fromprocess : Option (Fin num)) : Kernel num Data :=
  if kernel.inList p = false then kernel
  else if (kernel.procs p).state = .none then kernel.unlink p
  else
    (kernel.setState p .none).push
      (.exiting p fromprocess kernel.processCurrent none)

def processPostSynch (kernel : Kernel num Data) (p : Fin num) (ev : UInt8)
    (data : ProcessData num Data) : Kernel num Data :=
  (kernel.push (.synch kernel.processCurrent)).callProcess p ev data

def processStart (kernel : Kernel num Data) (p : Fin num)
    (data : ProcessData num Data) : Kernel num Data :=
  if kernel.inList p = true then kernel
  else
    { (kernel.setNext p kernel.processList).setState p .running with
      processList := some p }.processPostSynch p processEventInit data

def processPoll (kernel : Kernel num Data) (p : Fin num) :
    Kernel num Data :=
  if (kernel.procs p).state = .none then kernel
  else { kernel.setNeedspoll p true with pollRequested := true }

def processPost (capacity : Nat) (kernel : Kernel num Data)
    (event : EventData num Data) : Kernel num Data :=
  match kernel.queue.post capacity event with
  | none => kernel
  | some queue => { kernel with queue := queue }

/-- `do_poll` is entered when a poll has been requested. -/
def pollFirst (kernel : Kernel num Data) : Kernel num Data :=
  if kernel.pollRequested = true then
    { kernel with pollRequested := false }.push (.polling none)
  else kernel

def processRun (kernel : Kernel num Data) : Kernel num Data :=
  (kernel.push .event).pollFirst

def doEvent (capacity : Nat) (kernel : Kernel num Data) :
    Kernel num Data :=
  match kernel.queue.take capacity with
  | none => kernel
  | some (event, queue) =>
      let after := { kernel with queue := queue }
      match event.p with
      | none => after.push (.broadcast event.ev event.data none)
      | some receiver =>
          let woken := if event.ev = processEventInit then
            after.setState receiver .running else after
          woken.callProcess receiver event.ev event.data

/-- The kernel goes on in a function of its own.  The frame has been taken
off the stack. -/
def resume (capacity : Nat) (kernel : Kernel num Data) :
    Frame num Data → Kernel num Data
  | .exiting p fromprocess oldCurrent q =>
      match kernel.following q with
      | some q =>
          let looping :=
            kernel.push (.exiting p fromprocess oldCurrent (some q))
          if p ≠ q then
            looping.callProcess q processEventExited (.process p)
          else looping
      | none =>
          if (kernel.procs p).hasThread = true ∧ some p ≠ fromprocess then
            { kernel with processCurrent := some p }.push
              (.exitThread p oldCurrent)
          else { kernel.unlink p with processCurrent := oldCurrent }
  | .synch caller => { kernel with processCurrent := caller }
  | .polling p =>
      match kernel.following p with
      | some p =>
          let looping := kernel.push (.polling (some p))
          if (kernel.procs p).needspoll = true then
            ((looping.setState p .running).setNeedspoll p false).callProcess
              p processEventPoll .null
          else looping
      | none => kernel
  | .broadcast ev data p =>
      match kernel.following p with
      | some p =>
          ((kernel.push (.broadcast ev data (some p))).push
            (.deliver ev data p)).pollFirst
      | none => kernel
  | .deliver ev data p => kernel.callProcess p ev data
  | .event => kernel.doEvent capacity
  | .thread _ _ _ => kernel
  | .exitThread _ _ => kernel

/-- A call that code outside of the kernel makes. -/
def call (capacity : Nat) (kernel : Kernel num Data) :
    Call num Data → Kernel num Data
  | .post event => kernel.processPost capacity event
  | .postSynch p ev data => kernel.processPostSynch p ev data
  | .start p data => kernel.processStart p data
  | .exit p => kernel.exitProcess p kernel.processCurrent
  | .poll p => kernel.processPoll p
  | .run => kernel
  | .back _ => kernel

/-- The thread on top of the stack returns.  The frame has been taken off the
stack. -/
def threadReturns (kernel : Kernel num Data) (ended : Bool) :
    Frame num Data → Kernel num Data
  | .thread p ev _ =>
      if ended = true ∨ ev = processEventExit then
        kernel.exitProcess p (some p)
      else kernel.setState p .running
  | .exitThread p oldCurrent =>
      { kernel.unlink p with processCurrent := oldCurrent }
  | _ => kernel

/-- A step while calls have not returned.  Threads call what they like, and
the functions of the kernel go on by themselves. -/
def goOn (capacity : Nat) (kernel : Kernel num Data)
    (frame : Frame num Data) (below : List (Frame num Data))
    (choice : Call num Data) : Kernel num Data :=
  match frame.active, choice with
  | some _, .back ended =>
      { kernel with stack := below }.threadReturns ended frame
  | some _, choice => kernel.call capacity choice
  | none, _ => { kernel with stack := below }.resume capacity frame

/-- One step.  An interrupt may come at any time, and the main loop calls
what it likes when all calls have returned. -/
def step (capacity : Nat) (kernel : Kernel num Data)
    (choice : Call num Data) : Kernel num Data :=
  match choice, kernel.stack with
  | .poll p, _ => kernel.processPoll p
  | .run, [] => kernel.processRun
  | choice, [] => kernel.call capacity choice
  | choice, frame :: below => kernel.goOn capacity frame below choice

def run (capacity : Nat) (kernel : Kernel num Data)
    (choices : List (Call num Data)) : Kernel num Data :=
  choices.foldl (step capacity) kernel

/-- The kernel after `process_init`, which clears no process. -/
def initial (procs : Fin num → Process num)
    (events : Nat → EventData num Data) : Kernel num Data :=
  { procs := procs
    processList := none
    processCurrent := none
    pollRequested := false
    queue := ⟨events, 0, 0⟩
    stack := [] }

end Kernel

end Contiki.Core
