import Contiki.Core.EtimerList

/-!
# Event timers over runs

The list has exactly the pending timers, and each timer that was set gets one
event, unless it is stopped, set again or its process exits.
-/

namespace Contiki.Core

open Contiki.Lib

/-- What has become of a timer since it was set last. -/
inductive Fate (Process : Type) where
  | unset
  /-- It was set in the context of a process or of none. -/
  | pending (current : Option Process)
  | posted
  | stopped
  | exited
  deriving DecidableEq

def Fate.IsPending {Process : Type} : Fate Process → Prop
  | .pending _ => True
  | _ => False

/-- The times of a run without wraps, and what has become of the timers. -/
structure Timeline (numTimers : Nat) (Process : Type) where
  now : Int
  start : Fin numTimers → Int
  interval : Fin numTimers → Nat
  fate : Fin numTimers → Fate Process
  /-- The number of events for a timer since it was set last. -/
  events : Fin numTimers → Nat
  /-- When `next_expiration` was computed last. -/
  updated : Int

namespace Timeline

variable {numTimers : Nat} {Process : Type} {width : Nat}

def expiration (timeline : Timeline numTimers Process)
    (t : Fin numTimers) : Int :=
  timeline.start t + timeline.interval t

/-- A timer is set in the context of a process or of none. -/
def set (timeline : Timeline numTimers Process) (current : Option Process)
    (et : Fin numTimers) (start : Int) (interval : Nat) :
    Timeline numTimers Process :=
  { timeline with
    start := Function.update timeline.start et start
    interval := Function.update timeline.interval et interval
    fate := Function.update timeline.fate et (.pending current)
    events := Function.update timeline.events et 0
    updated := timeline.now }

def stop (timeline : Timeline numTimers Process) (et : Fin numTimers) :
    Timeline numTimers Process :=
  match timeline.fate et with
  | .pending _ =>
      { timeline with
        fate := Function.update timeline.fate et .stopped
        updated := timeline.now }
  | _ => timeline

def post (timeline : Timeline numTimers Process)
    (posts : List (Fin numTimers × Option Process)) :
    Timeline numTimers Process :=
  { timeline with
    fate := fun t =>
      if t ∈ posts.map Prod.fst then .posted else timeline.fate t
    events := fun t => timeline.events t + (posts.map Prod.fst).count t
    updated := if posts = [] then timeline.updated else timeline.now }

variable [DecidableEq Process]

def exit (timeline : Timeline numTimers Process) (process : Process) :
    Timeline numTimers Process :=
  { timeline with
    fate := fun t =>
      if timeline.fate t = .pending (some process) then .exited
      else timeline.fate t }

/-- What an operation does that posts these events. -/
def step (timeline : Timeline numTimers Process)
    (operation : EtimerOperation numTimers Process width)
    (posts : List (Fin numTimers × Option Process)) :
    Timeline numTimers Process :=
  match operation with
  | .etimerSet current et interval =>
      timeline.set current et timeline.now interval.toNat
  | .etimerReset current et =>
      timeline.set current et (timeline.expiration et) (timeline.interval et)
  | .etimerRestart current et =>
      timeline.set current et timeline.now (timeline.interval et)
  | .etimerAdjust et timediff =>
      { timeline with
        start := Function.update timeline.start et
          (timeline.start et + timediff)
        updated := timeline.now }
  | .etimerStop et => timeline.stop et
  | .advance ticks => { timeline with now := timeline.now + ticks }
  | .poll _ => timeline.post posts
  | .exited process => timeline.exit process

end Timeline

namespace Etimers

variable {numTimers : Nat} {Process : Type} {width : Nat}

/-- The memory is as the timeline says. -/
structure Tracks (timers : Etimers numTimers Process width)
    (timeline : Timeline numTimers Process)
    (list : List (Fin numTimers)) : Prop where
  linked : Linked timers.next timers.timerlist list
  mem_iff : ∀ t, t ∈ list ↔ (timeline.fate t).IsPending
  p : ∀ t current, timeline.fate t = .pending current → timers.p t = current
  start : ∀ t, timers.start t = BitVec.ofInt width (timeline.start t)
  interval : ∀ t, timeline.interval t = (timers.interval t).toNat
  clockTime : timers.clockTime = BitVec.ofInt width timeline.now
  posted : ∀ t, timeline.fate t = .posted → timeline.events t = 1
  notPosted : ∀ t, timeline.fate t ≠ .posted → timeline.events t = 0
  least : ∀ t ∈ list,
    timers.nextExpiration - BitVec.ofInt width timeline.updated ≤
      timers.expirationTime t - BitVec.ofInt width timeline.updated

theorem Tracks.set {timers changed after : Etimers numTimers Process width}
    {timeline : Timeline numTimers Process}
    {list listAfter : List (Fin numTimers)}
    (tracks : Tracks timers timeline list) {current : Option Process}
    {et : Fin numTimers} {start : Int} {interval : Nat}
    (adds : Adds changed after current et list listAfter)
    (changedP : changed.p = timers.p)
    (changedClock : changed.clockTime = timers.clockTime)
    (changedStart : changed.start =
      Function.update timers.start et (BitVec.ofInt width start))
    (changedInterval : ∀ t,
      Function.update timeline.interval et interval t =
        (changed.interval t).toNat) :
    Tracks after (timeline.set current et start interval) listAfter := by
  have fate : ∀ t, t ≠ et →
      (timeline.set current et start interval).fate t = timeline.fate t :=
    fun t different => Function.update_of_ne different _ _
  have isPending : (timeline.set current et start interval).fate et =
      .pending current := Function.update_self _ _ _
  constructor
  case linked =>
    exact adds.linked
  case mem_iff =>
    intro t
    rw [adds.mem_iff]
    by_cases same : t = et
    · rw [same, isPending]
      simp [Fate.IsPending]
    · rw [fate t same, ← tracks.mem_iff]
      simp [same]
  case p =>
    intro t owner pending
    rw [adds.p]
    by_cases same : t = et
    · rw [same, isPending, Fate.pending.injEq] at pending
      rw [same, Function.update_self]
      exact pending
    · rw [fate t same] at pending
      rw [Function.update_of_ne same, changedP]
      exact tracks.p t owner pending
  case start =>
    intro t
    rw [adds.start, changedStart]
    unfold Timeline.set
    dsimp only
    rw [Function.update_apply, Function.update_apply]
    split
    · rfl
    · exact tracks.start t
  case interval =>
    intro t
    rw [adds.interval]
    exact changedInterval t
  case clockTime =>
    rw [adds.clockTime, changedClock]
    exact tracks.clockTime
  case posted =>
    intro t isPosted
    by_cases same : t = et
    · rw [same, isPending] at isPosted
      simp at isPosted
    · rw [fate t same] at isPosted
      exact (Function.update_of_ne same _ _).trans (tracks.posted t isPosted)
  case notPosted =>
    intro t notPosted
    by_cases same : t = et
    · rw [same]
      exact Function.update_self _ _ _
    · rw [fate t same] at notPosted
      exact (Function.update_of_ne same _ _).trans
        (tracks.notPosted t notPosted)
  case least =>
    intro t member
    have least := adds.least t member
    rw [adds.clockTime, changedClock, tracks.clockTime] at least
    exact least

variable {timers : Etimers numTimers Process width}
  {timeline : Timeline numTimers Process} {list : List (Fin numTimers)}

theorem Tracks.adjust
    (tracks : Tracks timers timeline list) (et : Fin numTimers)
    (timediff : Int) :
    ∃ after, timers.etimerAdjust et timediff = some after ∧
      after.posted = timers.posted ∧
      Tracks after { timeline with
        start := Function.update timeline.start et
          (timeline.start et + timediff)
        updated := timeline.now } list := by
  obtain ⟨value, isValue, least⟩ := @updateTime_spec _ _ _ { timers with
    start := Function.update timers.start et
      (timers.start et + BitVec.ofInt width timediff) } _ tracks.linked
  refine ⟨_, isValue, rfl, ⟨tracks.linked, tracks.mem_iff, tracks.p,
    fun t => ?_, tracks.interval, tracks.clockTime, tracks.posted,
    tracks.notPosted, fun t member => ?_⟩⟩
  · dsimp only
    rw [Function.update_apply, Function.update_apply]
    split
    · rw [tracks.start, BitVec.ofInt_add]
    · exact tracks.start t
  · have least := least t member
    dsimp only at least ⊢
    rw [← tracks.clockTime]
    exact least

theorem Tracks.stop {timers after : Etimers numTimers Process width}
    {timeline : Timeline numTimers Process} {et : Fin numTimers}
    {list listAfter : List (Fin numTimers)}
    (tracks : Tracks timers timeline list)
    (removes : Removes timers after et list listAfter) :
    Tracks after (timeline.stop et) listAfter := by
  have start : ∀ t, after.start t = timers.start t :=
    fun t => by rw [removes.start]
  have expiration : ∀ t, after.expirationTime t = timers.expirationTime t := by
    intro t
    unfold expirationTime
    rw [removes.start, removes.interval]
  have clockTime : after.clockTime = BitVec.ofInt width timeline.now :=
    removes.clockTime.trans tracks.clockTime
  unfold Timeline.stop
  split
  · next owner isPending =>
      have listed : et ∈ list := (tracks.mem_iff et).2 (by
        rw [isPending]
        trivial)
      have fate : ∀ t, t ≠ et → Function.update timeline.fate et
          Fate.stopped t = timeline.fate t :=
        fun t different => Function.update_of_ne different _ _
      refine ⟨removes.linked, fun t => ?_, fun t current pending => ?_,
        fun t => (start t).trans (tracks.start t), fun t => ?_, clockTime,
        fun t isPosted => ?_, fun t notPosted => ?_, fun t member => ?_⟩
      · rw [removes.mem_iff]
        dsimp only
        by_cases same : t = et
        · rw [same, Function.update_self]
          simp [Fate.IsPending]
        · rw [fate t same, ← tracks.mem_iff]
          simp [same]
      · dsimp only at pending
        by_cases same : t = et
        · rw [same, Function.update_self] at pending
          simp at pending
        · rw [fate t same] at pending
          rw [removes.p t same]
          exact tracks.p t current pending
      · rw [removes.interval]
        exact tracks.interval t
      · dsimp only at isPosted
        by_cases same : t = et
        · rw [same, Function.update_self] at isPosted
          simp at isPosted
        · rw [fate t same] at isPosted
          exact tracks.posted t isPosted
      · dsimp only at notPosted
        by_cases same : t = et
        · rw [same]
          exact tracks.notPosted et (by rw [isPending]; simp)
        · rw [fate t same] at notPosted
          exact tracks.notPosted t notPosted
      · dsimp only
        rw [← clockTime]
        exact removes.least listed t member
  · next notPending =>
      have notListed : et ∉ list := by
        intro listed
        have isPending := (tracks.mem_iff et).1 listed
        cases isFate : timeline.fate et <;> rw [isFate] at isPending <;>
          simp_all [Fate.IsPending]
      refine ⟨removes.linked, fun t => ?_, fun t current pending => ?_,
        fun t => (start t).trans (tracks.start t), fun t => ?_, clockTime,
        tracks.posted, tracks.notPosted, fun t member => ?_⟩
      · rw [removes.mem_iff, ← tracks.mem_iff]
        constructor
        · exact And.right
        · intro member
          refine ⟨?_, member⟩
          rintro rfl
          exact notListed member
      · rw [removes.p t]
        · exact tracks.p t current pending
        · rintro rfl
          exact notPending current pending
      · rw [removes.interval]
        exact tracks.interval t
      · rw [removes.same notListed, expiration]
        exact tracks.least t ((removes.mem_iff t).1 member).2

theorem Tracks.poll {timers after : Etimers numTimers Process width}
    {timeline : Timeline numTimers Process} {room : Nat}
    {posts : List (Fin numTimers × Option Process)}
    {list listAfter : List (Fin numTimers)}
    (tracks : Tracks timers timeline list)
    (polls : Polls timers after room posts list listAfter) :
    Tracks after (timeline.post posts) listAfter := by
  have start : ∀ t, after.start t = timers.start t :=
    fun t => by rw [polls.start]
  have clockTime : after.clockTime = BitVec.ofInt width timeline.now :=
    polls.clockTime.trans tracks.clockTime
  have inList : ∀ t ∈ posts.map Prod.fst, t ∈ list := by
    intro t member
    obtain ⟨event, inPosts, rfl⟩ := List.mem_map.1 member
    exact (polls.post event inPosts).1
  have wasPending : ∀ t ∈ posts.map Prod.fst, timeline.events t = 0 := by
    intro t member
    refine tracks.notPosted t fun isPosted => ?_
    have isPending := (tracks.mem_iff t).1 (inList t member)
    rw [isPosted] at isPending
    exact isPending
  unfold Timeline.post
  refine ⟨polls.linked, fun t => ?_, fun t current pending => ?_,
    fun t => (start t).trans (tracks.start t), fun t => ?_, clockTime,
    fun t isPosted => ?_, fun t notPosted => ?_, fun t member => ?_⟩
  · rw [polls.mem_iff, tracks.mem_iff]
    dsimp only
    split
    · next inPosts =>
        simp [inPosts, Fate.IsPending]
    · next notInPosts =>
        simp [notInPosts]
  · dsimp only at pending
    split at pending
    · simp at pending
    · next notInPosts =>
        rw [polls.p]
        · exact tracks.p t current pending
        · rw [polls.mem_iff, tracks.mem_iff, pending]
          exact ⟨trivial, notInPosts⟩
  · rw [polls.interval]
    exact tracks.interval t
  · dsimp only at isPosted ⊢
    split at isPosted
    · next inPosts =>
        rw [wasPending t inPosts,
          List.count_eq_one_of_mem polls.nodup inPosts]
    · next notInPosts =>
        rw [List.count_eq_zero_of_not_mem notInPosts]
        exact tracks.posted t isPosted
  · dsimp only at notPosted ⊢
    split at notPosted
    · exact absurd rfl notPosted
    · next notInPosts =>
        rw [List.count_eq_zero_of_not_mem notInPosts]
        exact tracks.notPosted t notPosted
  · dsimp only
    split
    · next none =>
        unfold expirationTime
        rw [polls.same none, polls.start, polls.interval]
        exact tracks.least t ((polls.mem_iff t).1 member).1
    · next some =>
        rw [← clockTime]
        exact polls.least some t member

theorem Tracks.advance (tracks : Tracks timers timeline list) (ticks : Nat) :
    Tracks { timers with
        clockTime := timers.clockTime + BitVec.ofNat width ticks }
      { timeline with now := timeline.now + ticks } list := by
  refine ⟨tracks.linked, tracks.mem_iff, tracks.p, tracks.start,
    tracks.interval, ?_, tracks.posted, tracks.notPosted, tracks.least⟩
  dsimp only
  rw [tracks.clockTime, BitVec.ofInt_add, BitVec.ofInt_natCast]

def unsetTimeline (timers : Etimers numTimers Process width) :
    Timeline numTimers Process where
  now := timers.clockTime.toNat
  start := fun t => (timers.start t).toNat
  interval := fun t => (timers.interval t).toNat
  fate := fun _ => .unset
  events := fun _ => 0
  updated := timers.clockTime.toNat

theorem tracks_unset (empty : timers.timerlist = none) :
    Tracks timers (unsetTimeline timers) [] := by
  refine ⟨?_, by simp [unsetTimeline, Fate.IsPending],
    by simp [unsetTimeline], fun t => ?_, fun t => rfl, ?_,
    by simp [unsetTimeline], fun _ _ => rfl, by simp⟩
  · rw [empty]
    exact Linked.nil
  · change _ = BitVec.ofInt width ((timers.start t).toNat : Int)
    rw [BitVec.ofInt_natCast, BitVec.ofNat_toNat, BitVec.setWidth_eq]
  · change _ = BitVec.ofInt width (timers.clockTime.toNat : Int)
    rw [BitVec.ofInt_natCast, BitVec.ofNat_toNat, BitVec.setWidth_eq]

section Exit

variable [DecidableEq Process]

theorem Tracks.exit {timers : Etimers numTimers Process width}
    {timeline : Timeline numTimers Process} {list : List (Fin numTimers)}
    (tracks : Tracks timers timeline list) (process : Process) :
    ∃ after listAfter, timers.etimerExited process = some after ∧
      after.posted = timers.posted ∧
      Tracks after (timeline.exit process) listAfter := by
  obtain ⟨timerlist, next, listAfter, isAfter, linked, mem_iff⟩ :=
    etimerExited_spec process tracks.linked
  have stays : ∀ t, t ∈ listAfter → timeline.fate t ≠
      .pending (some process) := by
    intro t member pending
    obtain ⟨_, notOf⟩ := (mem_iff t).1 member
    exact notOf (tracks.p t _ pending)
  refine ⟨_, listAfter, isAfter, rfl, ⟨linked, fun t => ?_,
    fun t current pending => ?_, tracks.start, tracks.interval,
    tracks.clockTime, fun t isPosted => ?_, fun t notPosted => ?_,
    fun t member => tracks.least t ((mem_iff t).1 member).1⟩⟩
  · unfold Timeline.exit
    dsimp only
    split
    · next ofProcess =>
        simp only [Fate.IsPending, iff_false]
        exact fun member => stays t member ofProcess
    · next notOfProcess =>
        rw [mem_iff, tracks.mem_iff]
        constructor
        · exact And.left
        · intro pending
          refine ⟨pending, fun ofProcess => ?_⟩
          cases isFate : timeline.fate t with
          | pending current =>
              rw [tracks.p t current isFate] at ofProcess
              rw [ofProcess] at isFate
              exact notOfProcess isFate
          | unset | posted | stopped | exited =>
              rw [isFate] at pending
              exact pending
  · unfold Timeline.exit at pending
    dsimp only at pending
    split at pending
    · simp at pending
    · exact tracks.p t current pending
  · unfold Timeline.exit at isPosted
    dsimp only at isPosted
    split at isPosted
    · simp at isPosted
    · exact tracks.posted t isPosted
  · unfold Timeline.exit at notPosted
    dsimp only at notPosted
    split at notPosted
    · next ofProcess =>
        exact tracks.notPosted t (by rw [ofProcess]; simp)
    · exact tracks.notPosted t notPosted

end Exit

/-! ## Times -/

theorem ofInt_sub_ofInt (left right : Int) :
    BitVec.ofInt width left - BitVec.ofInt width right =
      BitVec.ofInt width (left - right) := by
  rw [sub_eq_iff_eq_add, ← BitVec.ofInt_add, sub_add_cancel]

theorem emod_le_self {value modulus : Int} (nonneg : 0 ≤ value)
    (positive : 0 < modulus) : value % modulus ≤ value := by
  have division := Int.mul_ediv_add_emod value modulus
  have quotient := Int.mul_nonneg (Int.le_of_lt positive)
    (Int.ediv_nonneg nonneg (Int.le_of_lt positive))
  omega

/-- The first time from the last computation of `next_expiration` on at which
the clock shows it. -/
def nextTime (timers : Etimers numTimers Process width)
    (timeline : Timeline numTimers Process) : Int :=
  timeline.updated + (timers.nextExpiration -
    BitVec.ofInt width timeline.updated).toNat

theorem Tracks.expirationTime
    (tracks : Tracks timers timeline list) (t : Fin numTimers) :
    timers.expirationTime t = BitVec.ofInt width (timeline.expiration t) := by
  unfold Etimers.expirationTime Timeline.expiration
  rw [BitVec.ofInt_add, tracks.start, tracks.interval, BitVec.ofInt_natCast,
    BitVec.ofNat_toNat, BitVec.setWidth_eq]

/-- `next_expiration` is right unless a timer was due before it was
computed. -/
theorem Tracks.nextTime_le_iff
    (tracks : Tracks timers timeline list) {t : Fin numTimers}
    (member : t ∈ list) :
    nextTime timers timeline ≤ timeline.expiration t ↔
      timeline.updated ≤ timeline.expiration t := by
  unfold nextTime
  constructor
  · intro before
    omega
  · intro notOverdue
    have least := BitVec.le_def.1 (tracks.least t member)
    rw [tracks.expirationTime, ofInt_sub_ofInt, BitVec.toNat_ofInt] at least
    have positive : (0 : Int) < (2 ^ width : Nat) :=
      Int.natCast_pos.2 (Nat.two_pow_pos width)
    have modLe := emod_le_self (Int.sub_nonneg.2 notOverdue) positive
    have modNonneg := Int.emod_nonneg
      (timeline.expiration t - timeline.updated) (Int.ne_of_gt positive)
    omega

/-! ## Steps -/

/-- A timer that is set is not pending without a process. -/
def SetsOwned (timeline : Timeline numTimers Process) :
    EtimerOperation numTimers Process width → Prop
  | .etimerSet _ et _ => timeline.fate et ≠ .pending none
  | .etimerReset _ et => timeline.fate et ≠ .pending none
  | .etimerRestart _ et => timeline.fate et ≠ .pending none
  | _ => True

theorem Tracks.owned {timers : Etimers numTimers Process width}
    {timeline : Timeline numTimers Process} {list : List (Fin numTimers)}
    (tracks : Tracks timers timeline list) {et : Fin numTimers}
    (owned : timeline.fate et ≠ .pending none) (listed : et ∈ list) :
    timers.p et ≠ none := by
  have isPending := (tracks.mem_iff et).1 listed
  cases isFate : timeline.fate et with
  | pending current =>
      rw [tracks.p et current isFate]
      rintro rfl
      exact owned isFate
  | unset | posted | stopped | exited =>
      rw [isFate] at isPending
      exact absurd isPending id

theorem Tracks.notOwned {timers : Etimers numTimers Process width}
    {timeline : Timeline numTimers Process} {list : List (Fin numTimers)}
    (tracks : Tracks timers timeline list) {et : Fin numTimers}
    (notOwned : timeline.fate et = .pending none) :
    et ∈ list ∧ timers.p et = none := by
  refine ⟨(tracks.mem_iff et).2 ?_, tracks.p et none notOwned⟩
  rw [notOwned]
  trivial

variable [DecidableEq Process]

/-- Every operation is as the timeline says, and only a poll posts events. -/
theorem Tracks.step {timers : Etimers numTimers Process width}
    {timeline : Timeline numTimers Process} {list : List (Fin numTimers)}
    (tracks : Tracks timers timeline list)
    {operation : EtimerOperation numTimers Process width}
    (owned : SetsOwned timeline operation) :
    ∃ after posts listAfter, timers.step operation = some after ∧
      after.posted = timers.posted ++ posts ∧
      ((∃ room, operation = .poll room) ∨ posts = []) ∧
      Tracks after (timeline.step operation posts) listAfter := by
  cases operation with
  | etimerSet current et interval =>
      obtain ⟨after, listAfter, isAfter, adds⟩ := @addTimer_spec _ _ _
        { timers with
          interval := Function.update timers.interval et interval
          start := Function.update timers.start et timers.clockTime } _
        tracks.linked current _ (tracks.owned owned)
      refine ⟨after, [], listAfter, isAfter,
        adds.posted.trans (List.append_nil _).symm, Or.inr rfl,
        tracks.set adds rfl rfl ?_ fun t => ?_⟩
      · dsimp only
        rw [tracks.clockTime]
      · dsimp only
        rw [Function.update_apply, Function.update_apply]
        split
        · rfl
        · exact tracks.interval t
  | etimerReset current et =>
      obtain ⟨after, listAfter, isAfter, adds⟩ := @addTimer_spec _ _ _
        { timers with
          start := Function.update timers.start et
            (timers.start et + timers.interval et) } _
        tracks.linked current _ (tracks.owned owned)
      refine ⟨after, [], listAfter, isAfter,
        adds.posted.trans (List.append_nil _).symm, Or.inr rfl,
        tracks.set adds rfl rfl ?_ fun t => ?_⟩
      · dsimp only
        unfold Timeline.expiration
        rw [BitVec.ofInt_add, tracks.start, tracks.interval,
          BitVec.ofInt_natCast, BitVec.ofNat_toNat, BitVec.setWidth_eq]
      · rw [Function.update_eq_self]
        exact tracks.interval t
  | etimerRestart current et =>
      obtain ⟨after, listAfter, isAfter, adds⟩ := @addTimer_spec _ _ _
        { timers with
          start := Function.update timers.start et timers.clockTime } _
        tracks.linked current _ (tracks.owned owned)
      refine ⟨after, [], listAfter, isAfter,
        adds.posted.trans (List.append_nil _).symm, Or.inr rfl,
        tracks.set adds rfl rfl ?_ fun t => ?_⟩
      · dsimp only
        rw [tracks.clockTime]
      · rw [Function.update_eq_self]
        exact tracks.interval t
  | etimerAdjust et timediff =>
      obtain ⟨after, isAfter, posted, tracksAfter⟩ :=
        tracks.adjust et timediff
      exact ⟨after, [], list, isAfter,
        posted.trans (List.append_nil _).symm, Or.inr rfl, tracksAfter⟩
  | etimerStop et =>
      obtain ⟨after, listAfter, isAfter, removes⟩ :=
        etimerStop_spec tracks.linked et
      exact ⟨after, [], listAfter, isAfter,
        removes.posted.trans (List.append_nil _).symm, Or.inr rfl,
        tracks.stop removes⟩
  | advance ticks =>
      exact ⟨_, [], list, rfl, (List.append_nil _).symm, Or.inr rfl,
        tracks.advance ticks⟩
  | poll room =>
      obtain ⟨after, posts, listAfter, isAfter, polls⟩ := @etimerPoll_spec _ _ _
        (numTimers + 1) room { timers with needspoll := false } _
        tracks.linked
        (Nat.lt_succ_of_le tracks.linked.length_le)
      exact ⟨after, posts, listAfter, isAfter, polls.posted,
        Or.inl ⟨room, rfl⟩, @Tracks.poll _ _ _
          { timers with needspoll := false } _ _ _ _ _ _ ⟨tracks.linked,
            tracks.mem_iff, tracks.p, tracks.start, tracks.interval,
            tracks.clockTime, tracks.posted, tracks.notPosted,
            tracks.least⟩ polls⟩
  | exited process =>
      obtain ⟨after, listAfter, isAfter, posted, tracksAfter⟩ :=
        tracks.exit process
      exact ⟨after, [], listAfter, isAfter,
        posted.trans (List.append_nil _).symm, Or.inr rfl, tracksAfter⟩

theorem Tracks.step_notOwned {timers : Etimers numTimers Process width}
    {timeline : Timeline numTimers Process} {list : List (Fin numTimers)}
    (tracks : Tracks timers timeline list)
    {operation : EtimerOperation numTimers Process width}
    (notOwned : ¬ SetsOwned timeline operation) :
    timers.step operation = none := by
  cases operation with
  | etimerSet current et interval =>
      obtain ⟨listed, isNone⟩ := tracks.notOwned (not_not.1 notOwned)
      exact @addTimer_twice _ _ _ { timers with
        interval := Function.update timers.interval et interval
        start := Function.update timers.start et timers.clockTime } _
        tracks.linked current _ listed isNone
  | etimerReset current et =>
      obtain ⟨listed, isNone⟩ := tracks.notOwned (not_not.1 notOwned)
      exact @addTimer_twice _ _ _ { timers with
        start := Function.update timers.start et
          (timers.start et + timers.interval et) } _
        tracks.linked current _ listed isNone
  | etimerRestart current et =>
      obtain ⟨listed, isNone⟩ := tracks.notOwned (not_not.1 notOwned)
      exact @addTimer_twice _ _ _ { timers with
        start := Function.update timers.start et timers.clockTime } _
        tracks.linked current _ listed isNone
  | etimerAdjust et timediff =>
      exact absurd trivial notOwned
  | etimerStop et =>
      exact absurd trivial notOwned
  | advance ticks =>
      exact absurd trivial notOwned
  | poll room =>
      exact absurd trivial notOwned
  | exited process =>
      exact absurd trivial notOwned

/-! ## Runs -/

/-- An operation, with what the timeline says about it. -/
def observe (observed : Etimers numTimers Process width ×
      Timeline numTimers Process)
    (operation : EtimerOperation numTimers Process width) :
    Option (Etimers numTimers Process width × Timeline numTimers Process) :=
  (observed.1.step operation).map fun after =>
    (after, observed.2.step operation
      (after.posted.drop observed.1.posted.length))

def observeRun (observed : Etimers numTimers Process width ×
      Timeline numTimers Process) :
    List (EtimerOperation numTimers Process width) →
    Option (Etimers numTimers Process width × Timeline numTimers Process)
  | [] => some observed
  | operation :: rest =>
      match observe observed operation with
      | none => none
      | some after => observeRun after rest

/-- No timer that is set in a run is pending without a process. -/
def SetsOwnedRun (observed : Etimers numTimers Process width ×
      Timeline numTimers Process) :
    List (EtimerOperation numTimers Process width) → Prop
  | [] => True
  | operation :: rest =>
      SetsOwned observed.2 operation ∧
        match observe observed operation with
        | none => True
        | some after => SetsOwnedRun after rest

instance (timeline : Timeline numTimers Process)
    (operation : EtimerOperation numTimers Process width) :
    Decidable (SetsOwned timeline operation) :=
  match operation with
  | .etimerSet _ et _ =>
      inferInstanceAs (Decidable (timeline.fate et ≠ .pending none))
  | .etimerReset _ et =>
      inferInstanceAs (Decidable (timeline.fate et ≠ .pending none))
  | .etimerRestart _ et =>
      inferInstanceAs (Decidable (timeline.fate et ≠ .pending none))
  | .etimerAdjust _ _ => inferInstanceAs (Decidable True)
  | .etimerStop _ => inferInstanceAs (Decidable True)
  | .advance _ => inferInstanceAs (Decidable True)
  | .poll _ => inferInstanceAs (Decidable True)
  | .exited _ => inferInstanceAs (Decidable True)

instance decidableSetsOwnedRun
    (observed : Etimers numTimers Process width ×
      Timeline numTimers Process) :
    (operations : List (EtimerOperation numTimers Process width)) →
    Decidable (SetsOwnedRun observed operations)
  | [] => inferInstanceAs (Decidable True)
  | operation :: rest =>
      match isAfter : observe observed operation with
      | none =>
          decidable_of_iff (SetsOwned observed.2 operation)
            (by simp [SetsOwnedRun, isAfter])
      | some after =>
          have := decidableSetsOwnedRun after rest
          decidable_of_iff
            (SetsOwned observed.2 operation ∧ SetsOwnedRun after rest)
            (by simp [SetsOwnedRun, isAfter])

theorem Tracks.observe {timers : Etimers numTimers Process width}
    {timeline : Timeline numTimers Process} {list : List (Fin numTimers)}
    (tracks : Tracks timers timeline list)
    {operation : EtimerOperation numTimers Process width}
    (owned : SetsOwned timeline operation) :
    ∃ after later listAfter,
      Etimers.observe (timers, timeline) operation = some (after, later) ∧
      Tracks after later listAfter := by
  obtain ⟨after, posts, listAfter, isAfter, posted, _, tracksAfter⟩ :=
    tracks.step owned
  refine ⟨after, _, listAfter, ?_, tracksAfter⟩
  unfold Etimers.observe
  rw [isAfter, Option.map_some, posted, List.drop_left]

theorem Tracks.run {timers : Etimers numTimers Process width}
    {timeline : Timeline numTimers Process} {list : List (Fin numTimers)}
    (tracks : Tracks timers timeline list)
    {operations : List (EtimerOperation numTimers Process width)}
    (owned : SetsOwnedRun (timers, timeline) operations) :
    ∃ after later listAfter,
      observeRun (timers, timeline) operations = some (after, later) ∧
      Tracks after later listAfter := by
  induction operations generalizing timers timeline list with
  | nil =>
      exact ⟨timers, timeline, list, rfl, tracks⟩
  | cons operation rest inductionHypothesis =>
      obtain ⟨ownedFirst, ownedRest⟩ := owned
      obtain ⟨middle, later, listAfter, isMiddle, tracksMiddle⟩ :=
        tracks.observe ownedFirst
      rw [isMiddle] at ownedRest
      obtain ⟨after, last, listLast, isAfter, tracksAfter⟩ :=
        inductionHypothesis tracksMiddle ownedRest
      refine ⟨after, last, listLast, ?_, tracksAfter⟩
      unfold observeRun
      rw [isMiddle]
      exact isAfter

/-- What holds of the event timers after every run in which no timer is set
again that is pending without a process: the list has the pending timers, each
timer gets one event, and `next_expiration` is not late unless a pending timer
was due before it was computed.  Exactly the operations that set a timer that
is pending without a process do not end. -/
theorem etimers_run (timers : Etimers numTimers Process width)
    (empty : timers.timerlist = none)
    (operations : List (EtimerOperation numTimers Process width))
    (owned : SetsOwnedRun (timers, unsetTimeline timers) operations) :
    ∃ after timeline,
      observeRun (timers, unsetTimeline timers) operations =
        some (after, timeline) ∧
      (∃ list, Linked after.next after.timerlist list ∧ list.Nodup ∧
        ∀ t, t ∈ list ↔ (timeline.fate t).IsPending) ∧
      (∀ t, timeline.fate t = .posted ∧ timeline.events t = 1 ∨
        timeline.fate t ≠ .posted ∧ timeline.events t = 0) ∧
      (∀ room, ∃ later posts, after.step (.poll room) = some later ∧
        later.posted = after.posted ++ posts ∧ posts.length ≤ room ∧
        (∀ t current, (t, current) ∈ posts →
          timeline.fate t = .pending current ∧ after.timerExpired t) ∧
        ∀ t, (timeline.fate t).IsPending → after.timerExpired t →
          t ∈ posts.map Prod.fst ∨
            posts.length = room ∧ later.needspoll) ∧
      (∀ operation later, after.step operation = some later →
        (∃ room, operation = .poll room) ∨ later.posted = after.posted) ∧
      (∀ operation, (after.step operation).isSome ↔
        SetsOwned timeline operation) ∧
      ((∀ t, (timeline.fate t).IsPending →
          nextTime after timeline ≤ timeline.expiration t) ↔
        ∀ t, (timeline.fate t).IsPending →
          timeline.updated ≤ timeline.expiration t) := by
  obtain ⟨after, timeline, list, isAfter, tracks⟩ :=
    (tracks_unset empty).run owned
  refine ⟨after, timeline, isAfter, ⟨list, tracks.linked,
    tracks.linked.nodup, tracks.mem_iff⟩, fun t => ?_, fun room => ?_,
    fun operation later isLater => ?_,
    fun operation => ⟨fun ends => ?_, fun isOwned => ?_⟩, ?_⟩
  · by_cases isPosted : timeline.fate t = .posted
    · exact Or.inl ⟨isPosted, tracks.posted t isPosted⟩
    · exact Or.inr ⟨isPosted, tracks.notPosted t isPosted⟩
  · obtain ⟨later, posts, listAfter, isLater, polls⟩ := @etimerPoll_spec _ _ _
      (numTimers + 1) room { after with needspoll := false } _ tracks.linked
      (Nat.lt_succ_of_le tracks.linked.length_le)
    refine ⟨later, posts, isLater, polls.posted, polls.length,
      fun t current member => ?_, fun t pending expired => ?_⟩
    · obtain ⟨inList, isP, expired⟩ := polls.post _ member
      refine ⟨?_, expired⟩
      have pending := (tracks.mem_iff t).1 inList
      cases isFate : timeline.fate t with
      | pending owner =>
          rw [← tracks.p t owner isFate]
          exact congrArg Fate.pending isP
      | unset | posted | stopped | exited =>
          rw [isFate] at pending
          exact absurd pending id
    · by_cases inPosts : t ∈ posts.map Prod.fst
      · exact Or.inl inPosts
      · exact Or.inr (polls.left t ((polls.mem_iff t).2
          ⟨(tracks.mem_iff t).2 pending, inPosts⟩) expired)
  · by_cases isOwned : SetsOwned timeline operation
    · obtain ⟨same, posts, _, isSame, posted, isPoll | none, _⟩ :=
        tracks.step isOwned
      · exact Or.inl isPoll
      · rw [isLater, Option.some.injEq] at isSame
        rw [isSame, posted, none, List.append_nil]
        exact Or.inr rfl
    · rw [tracks.step_notOwned isOwned] at isLater
      simp at isLater
  · by_contra notOwned
    rw [tracks.step_notOwned notOwned] at ends
    simp at ends
  · obtain ⟨later, _, _, isLater, _⟩ := tracks.step isOwned
    rw [isLater]
    rfl
  · refine forall_congr' fun t => forall_congr' fun pending => ?_
    exact tracks.nextTime_le_iff ((tracks.mem_iff t).2 pending)

/-- In every run, the comparison of wrapped times finds that a timer has
expired exactly when its time has come, unless the clock has come around since
the timer was set. -/
theorem timerExpired_run (timers : Etimers numTimers Process width)
    (empty : timers.timerlist = none)
    {operations : List (EtimerOperation numTimers Process width)}
    (owned : SetsOwnedRun (timers, unsetTimeline timers) operations)
    {after : Etimers numTimers Process width}
    {timeline : Timeline numTimers Process}
    (isAfter : observeRun (timers, unsetTimeline timers) operations =
      some (after, timeline))
    {t : Fin numTimers} (started : timeline.start t ≤ timeline.now)
    (soon : timeline.now - timeline.start t + 1 < (2 ^ width : Nat)) :
    after.timerExpired t ↔ timeline.expiration t ≤ timeline.now := by
  obtain ⟨last, later, list, isLast, tracks⟩ := (tracks_unset empty).run owned
  obtain ⟨rfl, rfl⟩ := Prod.mk.inj (Option.some.inj (isAfter.symm.trans isLast))
  have distance : after.clockTime - after.start t + 1 =
      BitVec.ofInt width (timeline.now - timeline.start t + 1) := by
    rw [tracks.clockTime, tracks.start, ofInt_sub_ofInt, BitVec.ofInt_add]
    rfl
  unfold timerExpired Timeline.expiration
  dsimp only
  rw [distance, decide_eq_true_iff, BitVec.lt_def, BitVec.toNat_ofInt,
    Int.emod_eq_of_lt (by omega) soon, tracks.interval]
  omega

/-- Two timers that have never been set. -/
def unsetTimers : Etimers 2 Unit 16 where
  timerlist := none
  nextExpiration := 0
  next := fun _ => none
  p := fun _ => none
  start := fun _ => 0
  interval := fun _ => 0
  clockTime := 0
  needspoll := false
  posted := []

/-- Both timers expire, and there is room for one event at first. -/
def expiresBoth : List (EtimerOperation 2 Unit 16) :=
  [.etimerSet (some ()) 0 5, .etimerSet none 1 3, .advance 7, .poll 1,
    .poll 1]

theorem expiresBoth_events :
    ∃ after timeline, observeRun (unsetTimers, unsetTimeline unsetTimers)
        expiresBoth = some (after, timeline) ∧
      timeline.events 0 = 1 ∧ timeline.events 1 = 1 := by
  obtain ⟨after, timeline, isAfter, _, events, _⟩ :=
    etimers_run unsetTimers rfl expiresBoth (by decide +kernel)
  refine ⟨after, timeline, isAfter, ?_⟩
  have fates : (observeRun (unsetTimers, unsetTimeline unsetTimers)
      expiresBoth).map (fun observed =>
        (observed.2.fate 0, observed.2.fate 1)) =
          some (.posted, .posted) := by decide +kernel
  rw [isAfter, Option.map_some, Option.some.injEq, Prod.mk.injEq] at fates
  exact ⟨((events 0).resolve_right fun not => not.1 fates.1).2,
    ((events 1).resolve_right fun not => not.1 fates.2).2⟩

/-- A timer that is set is observed seven ticks later. -/
def setOnce : Option (Etimers 2 Unit 16 × Timeline 2 Unit) :=
  observeRun (unsetTimers, unsetTimeline unsetTimers)
    [.etimerSet (some ()) 0 5, .advance 7]

theorem setOnce_isSome : setOnce.isSome := by decide +kernel

theorem setOnce_expired :
    (setOnce.get setOnce_isSome).1.timerExpired 0 ↔
      (setOnce.get setOnce_isSome).2.expiration 0 ≤
        (setOnce.get setOnce_isSome).2.now :=
  timerExpired_run unsetTimers rfl (by decide +kernel)
    (Option.some_get setOnce_isSome).symm (by decide +kernel)
    (by decide +kernel)

/-- A timer that is set twice without a process is linked to itself. -/
theorem setTwice_cycle :
    ¬ ∀ operations : List (EtimerOperation 2 Unit 16),
      ∃ after timeline, observeRun (unsetTimers, unsetTimeline unsetTimers)
          operations = some (after, timeline) ∧
        ∃ list, Linked after.next after.timerlist list := by
  intro ends
  obtain ⟨after, timeline, isAfter, _⟩ :=
    ends [.etimerSet none 0 5, .etimerSet none 0 5]
  have cycle : (observeRun (unsetTimers, unsetTimeline unsetTimers)
      [.etimerSet none 0 5, .etimerSet none 0 5]).isNone := by decide +kernel
  rw [isAfter] at cycle
  simp at cycle

/-- The first timer is due when the second one is set. -/
example : (observeRun (unsetTimers, unsetTimeline unsetTimers)
    [.etimerSet (some ()) 0 5, .advance 10, .etimerSet (some ()) 1 10]).map
      (fun observed => decide (nextTime observed.1 observed.2 ≤
        observed.2.expiration 0)) = some false := by
  decide +kernel

end Etimers

end Contiki.Core
