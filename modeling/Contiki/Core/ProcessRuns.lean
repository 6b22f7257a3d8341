import Contiki.Core.Process

/-!
# Runs of the process kernel

Which threads are active and which process is the current one, in every state
that a sequence of calls leads to.
-/

namespace Contiki.Core

open Contiki.Lib

variable {num : Nat} {Data : Type}

variable {stack : List (Frame num Data)}

namespace Kernel

/-- The processes whose threads have been entered and have not returned. -/
def active (stack : List (Frame num Data)) : List (Fin num) :=
  stack.filterMap Frame.active

/-- The process whose thread a call is, or that is about to be exited. -/
def involves : Frame num Data → Option (Fin num)
  | .exiting p _ _ _ => some p
  | frame => frame.active

def involved (stack : List (Frame num Data)) : List (Fin num) :=
  stack.filterMap involves

def runner (stack : List (Frame num Data)) : Option (Fin num) :=
  stack.head?.bind Frame.active

/-- A thread that runs is the thread of this process. -/
def Follows (current : Option (Fin num)) (stack : List (Frame num Data)) :
    Prop :=
  ∀ p, runner stack = some p → current = some p

/-- How a call is related to the calls below it: it enters no thread that is
active there, and restores the current process. -/
def Fits (below : List (Frame num Data)) : Frame num Data → Prop
  | .thread p _ _ => p ∉ involved below ∧ runner below = none
  | .exitThread p oldCurrent => p ∉ active below ∧ Follows oldCurrent below
  | .exiting p fromprocess oldCurrent _ =>
      (p ∈ active below → fromprocess = some p) ∧ Follows oldCurrent below
  | .synch caller => Follows caller below
  | _ => involved below = []

def AllFit : List (Frame num Data) → Prop
  | [] => True
  | frame :: below => Fits below frame ∧ AllFit below

/-- No thread that is active can be called, and none whose process is being
exited. -/
structure Rests (kernel : Kernel num Data) : Prop where
  fits : AllFit kernel.stack
  halted : ∀ p ∈ involved kernel.stack, (kernel.procs p).state ≠ .running

structure Sound (kernel : Kernel num Data) : Prop extends Rests kernel where
  follows : Follows kernel.processCurrent kernel.stack

/-! ## Stacks -/

theorem involves_of_active {frame : Frame num Data} {p : Fin num}
    (running : frame.active = some p) : involves frame = some p := by
  cases frame with
  | exiting p fromprocess oldCurrent q =>
      cases running
  | _ =>
      exact running

theorem active_of_own {frame : Frame num Data} (own : involves frame = none) :
    frame.active = none := by
  cases running : frame.active with
  | none =>
      rfl
  | some p =>
      rw [involves_of_active running] at own
      cases own

theorem active_subset {p : Fin num}
    (isActive : p ∈ active stack) : p ∈ involved stack := by
  obtain ⟨frame, member, running⟩ := List.mem_filterMap.mp isActive
  exact List.mem_filterMap.mpr ⟨frame, member, involves_of_active running⟩

theorem runner_of_idle
    (idle : involved stack = []) : runner stack = none := by
  cases stack with
  | nil =>
      rfl
  | cons frame below =>
      exact active_of_own
        (List.filterMap_eq_nil_iff.mp idle frame List.mem_cons_self)

theorem follows_of_none {current : Option (Fin num)}
    {stack : List (Frame num Data)} (none : runner stack = none) :
    Follows current stack := by
  intro p running
  rw [none] at running
  cases running

theorem nodup_active (fits : AllFit stack) : (active stack).Nodup := by
  induction stack with
  | nil =>
      exact List.nodup_nil
  | cons frame below inductionHypothesis =>
      have rest := inductionHypothesis fits.2
      cases frame with
      | thread p ev data =>
          have new : p ∉ active below := fun isActive =>
            fits.1.1 (active_subset isActive)
          exact List.nodup_cons.mpr ⟨new, rest⟩
      | exitThread p oldCurrent =>
          exact List.nodup_cons.mpr ⟨fits.1.1, rest⟩
      | _ =>
          exact rest

/-! ## States -/

variable {kernel : Kernel num Data}

theorem state_modify (kernel : Kernel num Data) (p q : Fin num)
    {change : Process num → Process num}
    (same : ∀ process, (change process).state = process.state) :
    ((kernel.modify p change).procs q).state = (kernel.procs q).state := by
  by_cases isProcess : q = p
  · subst isProcess
    simp [modify, same]
  · simp [modify, isProcess]

theorem state_setState_self (kernel : Kernel num Data) (p : Fin num)
    (state : ProcessState) :
    ((kernel.setState p state).procs p).state = state := by
  simp [setState, modify]

theorem Rests.of_same (rests : Rests kernel) {later : Kernel num Data}
    (stack : later.stack = kernel.stack)
    (states : ∀ q, (later.procs q).state = (kernel.procs q).state) :
    Rests later := by
  refine ⟨?_, fun p isInvolved => ?_⟩
  · rw [stack]
    exact rests.fits
  · rw [stack] at isInvolved
    rw [states p]
    exact rests.halted p isInvolved

theorem Rests.of_idle (fits : AllFit kernel.stack)
    (idle : involved kernel.stack = []) : Rests kernel := by
  refine ⟨fits, fun p isInvolved => ?_⟩
  rw [idle] at isInvolved
  cases isInvolved

/-- The state that is written stops a process, or the process is not
involved. -/
theorem Rests.setState (rests : Rests kernel) {p : Fin num}
    {state : ProcessState}
    (stops : state = .running → p ∉ involved kernel.stack) :
    Rests (kernel.setState p state) := by
  refine ⟨rests.fits, fun q isInvolved => ?_⟩
  by_cases isProcess : q = p
  · subst isProcess
    rw [state_setState_self]
    exact fun isRunning => stops isRunning isInvolved
  · have same : ((kernel.setState p state).procs q).state =
        (kernel.procs q).state := by
      simp [Kernel.setState, modify, isProcess]
    rw [same]
    exact rests.halted q isInvolved

theorem Rests.unlink (rests : Rests kernel) (p : Fin num) :
    Rests (kernel.unlink p) ∧
      (kernel.unlink p).stack = kernel.stack ∧
      (kernel.unlink p).processCurrent = kernel.processCurrent := by
  unfold Kernel.unlink
  split
  · exact ⟨⟨rests.fits, rests.halted⟩, rfl, rfl⟩
  · split
    · refine ⟨rests.of_same rfl fun q => ?_, rfl, rfl⟩
      exact state_modify _ _ _ fun _ => rfl
    · exact ⟨rests, rfl, rfl⟩

theorem Rests.push (rests : Rests kernel) (frame : Frame num Data)
    (fits : Fits kernel.stack frame) (own : frame.active = none)
    (stops : ∀ p, involves frame = some p →
      (kernel.procs p).state ≠ .running) : Sound (kernel.push frame) := by
  refine ⟨⟨⟨fits, rests.fits⟩, fun p isInvolved => ?_⟩, follows_of_none own⟩
  obtain ⟨other, member, involves⟩ := List.mem_filterMap.mp isInvolved
  cases List.mem_cons.mp member with
  | inl isFrame =>
      subst isFrame
      exact stops p involves
  | inr isBelow =>
      exact rests.halted p (List.mem_filterMap.mpr ⟨other, isBelow, involves⟩)

theorem Rests.push_own (rests : Rests kernel) (frame : Frame num Data)
    (fits : Fits kernel.stack frame) (own : involves frame = none) :
    Sound (kernel.push frame) := by
  refine rests.push frame fits (active_of_own own) fun p involves => ?_
  rw [own] at involves
  cases involves

theorem Rests.pop (rests : Rests kernel) {frame : Frame num Data}
    {below : List (Frame num Data)} (stack : kernel.stack = frame :: below) :
    Rests { kernel with stack := below } ∧ Fits below frame ∧
      ∀ p, involves frame = some p → (kernel.procs p).state ≠ .running := by
  obtain ⟨fits, states⟩ := rests
  rw [stack] at fits states
  refine ⟨⟨fits.2, fun p isInvolved => ?_⟩, fits.1, fun p involves => ?_⟩
  · obtain ⟨other, member, involves⟩ := List.mem_filterMap.mp isInvolved
    exact states p (List.mem_filterMap.mpr
      ⟨other, List.mem_cons_of_mem _ member, involves⟩)
  · exact states p (List.mem_filterMap.mpr
      ⟨frame, List.mem_cons_self, involves⟩)

/-! ## The functions of the kernel -/

theorem Sound.callProcess (sound : Sound kernel)
    (idle : runner kernel.stack = none) (p : Fin num) (ev : UInt8)
    (data : ProcessData num Data) :
    Sound (kernel.callProcess p ev data) := by
  unfold Kernel.callProcess
  split
  next callable =>
    have new : p ∉ involved kernel.stack := fun isInvolved =>
      sound.halted p isInvolved callable.1
    have called : Rests (kernel.setState p .called) :=
      sound.setState fun same => nomatch same
    refine ⟨⟨⟨⟨new, idle⟩, sound.fits⟩, fun q isInvolved => ?_⟩,
      fun _ running => running⟩
    cases List.mem_cons.mp isInvolved with
    | inl isProcess =>
        subst isProcess
        change ((kernel.setState q .called).procs q).state ≠ _
        rw [state_setState_self]
        exact fun same => nomatch same
    | inr isBelow =>
        exact called.halted q isBelow
  next =>
    exact sound

theorem Sound.processPostSynch (sound : Sound kernel) (p : Fin num)
    (ev : UInt8) (data : ProcessData num Data) :
    Sound (kernel.processPostSynch p ev data) :=
  (sound.push_own (.synch _) sound.follows rfl).callProcess rfl p ev data

theorem Sound.exitProcess (sound : Sound kernel) {p : Fin num}
    {fromprocess : Option (Fin num)}
    (own : p ∈ active kernel.stack → fromprocess = some p) :
    Sound (kernel.exitProcess p fromprocess) := by
  unfold Kernel.exitProcess
  split
  · exact sound
  · split
    · obtain ⟨rests, stack, current⟩ := sound.unlink p
      refine ⟨rests, ?_⟩
      rw [stack, current]
      exact sound.follows
    · have stopped : Rests (kernel.setState p .none) :=
        sound.setState fun same => nomatch same
      refine stopped.push (.exiting _ _ _ _) ⟨own, sound.follows⟩ rfl
        fun q involves => ?_
      cases involves
      rw [state_setState_self]
      exact fun same => nomatch same

theorem Sound.processStart (sound : Sound kernel) {p : Fin num}
    (inactive : kernel.inList p = false → p ∉ involved kernel.stack)
    (data : ProcessData num Data) : Sound (kernel.processStart p data) := by
  unfold Kernel.processStart
  split
  next =>
    exact sound
  next off =>
    have linked : Rests (kernel.setNext p kernel.processList) :=
      sound.of_same rfl fun q => state_modify _ _ _ fun _ => rfl
    have started : Rests ((kernel.setNext p
        kernel.processList).setState p .running) :=
      linked.setState fun _ => inactive (Bool.eq_false_iff.mpr off)
    apply Sound.processPostSynch
    exact ⟨⟨started.fits, started.halted⟩, sound.follows⟩

theorem Sound.processPoll (sound : Sound kernel) (p : Fin num) :
    Sound (kernel.processPoll p) := by
  unfold Kernel.processPoll
  split
  · exact sound
  · have polled : Rests (kernel.setNeedspoll p true) :=
      sound.of_same rfl fun q => state_modify _ _ _ fun _ => rfl
    exact ⟨⟨polled.fits, polled.halted⟩, sound.follows⟩

theorem Sound.processPost (sound : Sound kernel) (capacity : Nat)
    (event : EventData num Data) :
    Sound (kernel.processPost capacity event) := by
  unfold Kernel.processPost
  split
  · exact sound
  · exact ⟨⟨sound.fits, sound.halted⟩, sound.follows⟩

theorem Sound.pollFirst (sound : Sound kernel)
    (idle : involved kernel.stack = []) : Sound kernel.pollFirst := by
  unfold Kernel.pollFirst
  split
  · have polled := sound.push_own (.polling none) idle rfl
    exact ⟨⟨polled.fits, polled.halted⟩, polled.follows⟩
  · exact sound

/-- No process is involved, so that the state of one may be written. -/
theorem Sound.of_idle (fits : AllFit kernel.stack)
    (idle : involved kernel.stack = []) : Sound kernel :=
  ⟨Rests.of_idle fits idle, follows_of_none (runner_of_idle idle)⟩

theorem Sound.doEvent (rests : Rests kernel) (capacity : Nat)
    (idle : involved kernel.stack = []) :
    Sound (kernel.doEvent capacity) := by
  have runs := runner_of_idle idle
  unfold Kernel.doEvent
  split
  next =>
    exact Sound.of_idle rests.fits idle
  next event queue _ =>
    have after : Rests { kernel with queue := queue } :=
      ⟨rests.fits, rests.halted⟩
    dsimp only
    split
    · exact after.push_own (.broadcast _ _ _) idle rfl
    · split
      · apply Sound.callProcess
        · exact Sound.of_idle rests.fits idle
        · exact runs
      · exact Sound.callProcess (Sound.of_idle after.fits idle) runs _ _ _

theorem Sound.resume (rests : Rests kernel) (capacity : Nat)
    {frame : Frame num Data} (fits : Fits kernel.stack frame)
    (stops : ∀ p, involves frame = some p →
      (kernel.procs p).state ≠ .running) (own : frame.active = none) :
    Sound (kernel.resume capacity frame) := by
  cases frame with
  | thread p ev data =>
      cases own
  | exitThread p oldCurrent =>
      cases own
  | exiting p fromprocess oldCurrent q =>
      unfold Kernel.resume
      dsimp only
      split
      next later _ =>
        have looping := rests.push
          (.exiting p fromprocess oldCurrent (some later)) fits rfl stops
        split
        · exact looping.callProcess rfl _ _ _
        · exact looping
      next =>
        split
        next enters =>
          have new : p ∉ active kernel.stack := fun isActive =>
            enters.2 (fits.1 isActive).symm
          refine ⟨⟨⟨⟨new, fits.2⟩, rests.fits⟩, fun q isInvolved => ?_⟩,
            fun _ running => running⟩
          cases List.mem_cons.mp isInvolved with
          | inl isProcess =>
              rw [isProcess]
              exact stops p rfl
          | inr isBelow =>
              exact rests.halted q isBelow
        next =>
          obtain ⟨off, stack, _⟩ := rests.unlink p
          refine ⟨⟨off.fits, off.halted⟩, ?_⟩
          change Follows oldCurrent (kernel.unlink p).stack
          rw [stack]
          exact fits.2
  | synch caller =>
      exact ⟨⟨rests.fits, rests.halted⟩, fits⟩
  | polling p =>
      unfold Kernel.resume
      dsimp only
      split
      next later _ =>
        have looping := rests.push_own (.polling (some later)) fits rfl
        split
        · apply Sound.callProcess
          · exact Sound.of_idle looping.fits fits
          · rfl
        · exact looping
      next =>
        exact Sound.of_idle rests.fits fits
  | broadcast ev data p =>
      unfold Kernel.resume
      dsimp only
      split
      next later _ =>
        have looping := rests.push_own (.broadcast ev data (some later)) fits
          rfl
        exact (looping.push_own (.deliver ev data later) fits rfl).pollFirst
          fits
      next =>
        exact Sound.of_idle rests.fits fits
  | deliver ev data p =>
      exact (Sound.of_idle rests.fits fits).callProcess (runner_of_idle fits)
        p ev data
  | event =>
      exact Sound.doEvent rests capacity fits

theorem Sound.threadReturns (rests : Rests kernel) {frame : Frame num Data}
    (fits : Fits kernel.stack frame) {p : Fin num}
    (running : frame.active = some p) (ended : Bool) :
    Sound (kernel.threadReturns ended frame) := by
  cases frame with
  | thread p ev data =>
      have follows : Follows kernel.processCurrent kernel.stack :=
        follows_of_none fits.2
      unfold Kernel.threadReturns
      dsimp only
      split
      · exact Sound.exitProcess ⟨rests, follows⟩ fun _ => rfl
      · exact ⟨rests.setState fun _ => fits.1, follows⟩
  | exitThread p oldCurrent =>
      obtain ⟨off, stack, _⟩ := rests.unlink p
      refine ⟨⟨off.fits, off.halted⟩, ?_⟩
      change Follows oldCurrent (kernel.unlink p).stack
      rw [stack]
      exact fits.2
  | _ =>
      cases running

/-! ## Steps and runs -/

/-- No process off the list is started while its thread is active or it is
being exited, and a thread exits no process with an active thread but its
own. -/
def Admits (kernel : Kernel num Data) : Call num Data → Prop
  | .start p _ => kernel.inList p = false → p ∉ involved kernel.stack
  | .exit p => p ∈ active kernel.stack → runner kernel.stack = some p
  | _ => True

/-- All calls of a run are admitted where they are made. -/
def AdmitsAll (capacity : Nat) (kernel : Kernel num Data) :
    List (Call num Data) → Prop
  | [] => True
  | choice :: choices => kernel.Admits choice ∧
      (kernel.step capacity choice).AdmitsAll capacity choices

theorem Sound.call (sound : Sound kernel) (capacity : Nat)
    {choice : Call num Data} (admits : kernel.Admits choice) :
    Sound (kernel.call capacity choice) := by
  cases choice with
  | post event =>
      exact sound.processPost capacity event
  | postSynch p ev data =>
      exact sound.processPostSynch p ev data
  | start p data =>
      exact sound.processStart admits data
  | exit p =>
      exact sound.exitProcess fun isActive =>
        sound.follows p (admits isActive)
  | poll p =>
      exact sound.processPoll p
  | run =>
      exact sound
  | back ended =>
      exact sound

theorem Sound.step (sound : Sound kernel) (capacity : Nat)
    {choice : Call num Data} (admits : kernel.Admits choice) :
    Sound (kernel.step capacity choice) := by
  unfold Kernel.step
  split
  next =>
    exact sound.processPoll _
  next empty =>
    have idle : involved kernel.stack = [] := by
      rw [empty]
      rfl
    exact (sound.push_own .event idle rfl).pollFirst idle
  next =>
    exact sound.call capacity admits
  next frame below stack =>
    obtain ⟨rests, fits, stops⟩ := sound.pop stack
    unfold goOn
    split
    next running =>
      exact Sound.threadReturns rests fits running _
    next =>
      exact sound.call capacity admits
    next own =>
      exact Sound.resume rests capacity fits stops own

theorem Sound.run (sound : Sound kernel) (capacity : Nat)
    {choices : List (Call num Data)}
    (admits : kernel.AdmitsAll capacity choices) :
    Sound (kernel.run capacity choices) := by
  induction choices generalizing kernel with
  | nil =>
      exact sound
  | cons choice choices inductionHypothesis =>
      exact inductionHypothesis (sound.step capacity admits.1) admits.2

/-- No thread is entered while it is active, and a thread that runs is the
thread of `process_current`. -/
theorem threads_run (capacity : Nat) (procs : Fin num → Process num)
    (events : Nat → EventData num Data) (choices : List (Call num Data))
    (admits : (initial procs events).AdmitsAll capacity choices) :
    (active ((initial procs events).run capacity choices).stack).Nodup ∧
      Follows ((initial procs events).run capacity choices).processCurrent
        ((initial procs events).run capacity choices).stack := by
  have sound : Sound (initial procs events) := Sound.of_idle trivial rfl
  have later := sound.run capacity admits
  exact ⟨nodup_active later.fits, later.follows⟩

/-- Two processes that are not on the list. -/
def twoProcesses : Kernel 2 Nat :=
  initial (fun _ => ⟨none, true, .none, false⟩) fun _ => ⟨0, .null, none⟩

/-- The first process starts the second one, which exits itself and
returns. -/
def startAndExit : List (Call 2 Nat) :=
  [.start ⟨0, Nat.two_pos⟩ .null, .start ⟨1, Nat.one_lt_two⟩ .null,
    .exit ⟨1, Nat.one_lt_two⟩, .back false]

theorem threads_startAndExit :
    (active (twoProcesses.run 4 startAndExit).stack).Nodup ∧
      Follows (twoProcesses.run 4 startAndExit).processCurrent
        (twoProcesses.run 4 startAndExit).stack := by
  apply threads_run
  refine ⟨fun _ => List.not_mem_nil, fun _ => ?_, fun _ => rfl, trivial,
    trivial⟩
  change (⟨1, Nat.one_lt_two⟩ : Fin 2) ∉ [(⟨0, Nat.two_pos⟩ : Fin 2)]
  decide

end Kernel

end Contiki.Core
