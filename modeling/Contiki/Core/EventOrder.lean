import Contiki.Core.Process

/-!
# The order of events

Events leave the queue in the order in which `process_post` took them, for
every sequence of calls, if and only if the sum of the two indices of the
queue always fits `process_num_events_t`.
-/

namespace Contiki.Core

open Contiki.Lib

/-- A call of `process_post`, or of `do_event`. -/
inductive QueueCall (Event : Type)
  | post (event : Event)
  | take

/-- The queue, the events that it took and those that it gave back. -/
structure Traffic (Event : Type) where
  queue : EventQueue Event
  posted : List Event
  taken : List Event

namespace Traffic

variable {Event : Type}

def step (capacity : Nat) (traffic : Traffic Event) :
    QueueCall Event → Traffic Event
  | .post event =>
      match traffic.queue.post capacity event with
      | none => traffic
      | some queue =>
          { traffic with
            queue := queue, posted := traffic.posted ++ [event] }
  | .take =>
      match traffic.queue.take capacity with
      | none => traffic
      | some (event, queue) =>
          { traffic with queue := queue, taken := traffic.taken ++ [event] }

def run (capacity : Nat) (traffic : Traffic Event)
    (calls : List (QueueCall Event)) : Traffic Event :=
  calls.foldl (step capacity) traffic

/-- The queue after `process_init`. -/
def initial (events : Nat → Event) : Traffic Event := ⟨⟨events, 0, 0⟩, [], []⟩

variable {capacity : Nat} {traffic : Traffic Event}

/-- The queue holds what has been posted and not taken yet. -/
structure Ordered (capacity : Nat) (traffic : Traffic Event) : Prop where
  posted : traffic.posted = traffic.taken ++ Cyclic.content
    traffic.queue.events capacity traffic.queue.fevent.toNat
    traffic.queue.nevents.toNat
  fevent : traffic.queue.fevent.toNat = traffic.taken.length % capacity
  nevents : traffic.queue.nevents.toNat ≤ capacity

theorem ordered_initial (events : Nat → Event) :
    Ordered capacity (initial events) :=
  ⟨rfl, (Nat.zero_mod capacity).symm, Nat.zero_le capacity⟩

theorem step_post (notFull : traffic.queue.nevents.toNat ≠ capacity)
    (event : Event) :
    traffic.step capacity (.post event) =
      ⟨⟨Function.update traffic.queue.events
          ((traffic.queue.fevent + traffic.queue.nevents).toNat % capacity)
          event, traffic.queue.fevent, traffic.queue.nevents + 1⟩,
        traffic.posted ++ [event], traffic.taken⟩ := by
  simp only [step, EventQueue.post, if_neg notFull]

theorem step_take (waiting : 0 < traffic.queue.nevents.toNat) :
    traffic.step capacity .take =
      ⟨⟨traffic.queue.events,
          UInt8.ofNat ((traffic.queue.fevent.toNat + 1) % capacity),
          traffic.queue.nevents - 1⟩, traffic.posted,
        traffic.taken ++
          [traffic.queue.events traffic.queue.fevent.toNat]⟩ := by
  simp only [step, EventQueue.take, if_pos waiting]

theorem toNat_index (narrow : capacity < 256) {count : Nat}
    (inside : count < capacity) : (UInt8.ofNat count).toNat = count :=
  UInt8.toNat_ofNat_of_lt' (inside.trans narrow)

theorem Ordered.start (ordered : Ordered capacity traffic)
    (positive : 0 < capacity) :
    traffic.queue.fevent.toNat < capacity := by
  rw [ordered.fevent]
  exact Nat.mod_lt _ positive

theorem Ordered.post (ordered : Ordered capacity traffic)
    (positive : 0 < capacity) (small : capacity ≤ 128) (event : Event) :
    Ordered capacity (traffic.step capacity (.post event)) := by
  by_cases isFull : traffic.queue.nevents.toNat = capacity
  · simp only [step, EventQueue.post, if_pos isFull]
    exact ordered
  · have start := ordered.start positive
    have room := Nat.lt_of_le_of_ne ordered.nevents isFull
    have more : (traffic.queue.nevents + 1).toNat =
        traffic.queue.nevents.toNat + 1 := by
      rw [UInt8.toNat_add, UInt8.toNat_one]
      omega
    have fits : traffic.queue.fevent.toNat + traffic.queue.nevents.toNat <
        256 := by omega
    have slot : (traffic.queue.fevent + traffic.queue.nevents).toNat %
        capacity = Cyclic.index capacity traffic.queue.fevent.toNat
          traffic.queue.nevents.toNat := by
      rw [UInt8.toNat_add, Nat.mod_eq_of_lt fits]
      unfold Cyclic.index
      split
      next below =>
        exact Nat.mod_eq_of_lt below
      next wraps =>
        rw [Nat.mod_eq_sub_mod (by omega), Nat.mod_eq_of_lt (by omega)]
    rw [step_post isFull]
    refine ⟨?_, ordered.fevent, ?_⟩
    · dsimp only
      rw [more, slot, Cyclic.content_update room, ← List.append_assoc,
        ← ordered.posted]
    · dsimp only
      omega

theorem Ordered.take (ordered : Ordered capacity traffic)
    (positive : 0 < capacity) (small : capacity ≤ 128) :
    Ordered capacity (traffic.step capacity .take) := by
  by_cases waiting : 0 < traffic.queue.nevents.toNat
  · rw [step_take waiting]
    have start := ordered.start positive
    have most := ordered.nevents
    have less : traffic.queue.nevents.toNat =
        (traffic.queue.nevents - 1).toNat + 1 := by
      have one : (1 : UInt8) ≤ traffic.queue.nevents := by
        rw [UInt8.le_iff_toNat_le, UInt8.toNat_one]
        exact waiting
      rw [UInt8.toNat_sub_of_le _ _ one, UInt8.toNat_one]
      omega
    have next : (UInt8.ofNat ((traffic.queue.fevent.toNat + 1) %
        capacity)).toNat = (traffic.queue.fevent.toNat + 1) % capacity :=
      toNat_index (by omega) (Nat.mod_lt _ positive)
    have index : (traffic.queue.fevent.toNat + 1) % capacity =
        Cyclic.index capacity traffic.queue.fevent.toNat 1 := by
      unfold Cyclic.index
      split
      next below =>
        exact Nat.mod_eq_of_lt below
      next wraps =>
        have last : traffic.queue.fevent.toNat + 1 = capacity := by omega
        rw [last, Nat.mod_self, Nat.sub_self]
    refine ⟨?_, ?_, ?_⟩
    · have room : (traffic.queue.nevents - 1).toNat < capacity := by omega
      have content := Cyclic.content_cons traffic.queue.events start room
      dsimp only
      rw [next, index, List.append_assoc, List.singleton_append, ← content,
        ← less]
      exact ordered.posted
    · dsimp only
      rw [next, ordered.fevent, List.length_append, List.length_singleton,
        Nat.mod_add_mod]
    · dsimp only
      omega
  · simp only [step, EventQueue.take, if_neg waiting]
    exact ordered

theorem Ordered.step (ordered : Ordered capacity traffic)
    (positive : 0 < capacity) (small : capacity ≤ 128)
    (call : QueueCall Event) :
    Ordered capacity (traffic.step capacity call) := by
  cases call with
  | post event =>
      exact ordered.post positive small event
  | take =>
      exact ordered.take positive small

theorem Ordered.run (ordered : Ordered capacity traffic)
    (positive : 0 < capacity) (small : capacity ≤ 128)
    (calls : List (QueueCall Event)) :
    Ordered capacity (traffic.run capacity calls) :=
  List.foldlRecOn calls _ ordered fun _ before call _ =>
    before.step positive small call

/-! ## Queues of more than 128 events -/

/-- The same event has been posted and taken so often, and fills the
memory. -/
def uniform (old : Event) (fevent nevents : UInt8) (posted taken : Nat) :
    Traffic Event :=
  ⟨⟨fun _ => old, fevent, nevents⟩, List.replicate posted old,
    List.replicate taken old⟩

variable {old : Event} {fevent nevents : UInt8} {posted taken : Nat}

theorem uniform_post (notFull : nevents.toNat ≠ capacity) :
    (uniform old fevent nevents posted taken).step capacity (.post old) =
      uniform old fevent (nevents + 1) (posted + 1) taken := by
  have same (slot : Nat) : Function.update (fun _ => old) slot old =
      fun _ => old := Function.update_eq_self slot _
  rw [step_post notFull]
  unfold uniform
  rw [List.replicate_succ', same]

theorem uniform_take (waiting : 0 < nevents.toNat) :
    (uniform old fevent nevents posted taken).step capacity .take =
      uniform old (UInt8.ofNat ((fevent.toNat + 1) % capacity)) (nevents - 1)
        posted (taken + 1) := by
  rw [step_take waiting]
  unfold uniform
  rw [List.replicate_succ']

theorem uniform_pairs (old : Event) (narrow : capacity < 256) (count : Nat)
    (small : count < capacity) :
    (uniform old 0 0 0 0).run capacity
        (List.replicate count [.post old, .take]).flatten =
      uniform old (UInt8.ofNat count) 0 count count := by
  induction count with
  | zero =>
      rfl
  | succ count inductionHypothesis =>
      have before := inductionHypothesis (by omega)
      have start := toNat_index narrow (Nat.lt_of_succ_lt small)
      unfold run at before ⊢
      rw [List.replicate_succ', List.flatten_append, List.foldl_append,
        before, List.flatten_singleton, List.foldl_cons, List.foldl_cons,
        List.foldl_nil, uniform_post (by change 0 ≠ _; omega),
        uniform_take (by decide), start, Nat.mod_eq_of_lt small]
      rfl

theorem uniform_posts (old : Event) (fevent : UInt8) (posted taken : Nat)
    (narrow : capacity < 256) (count : Nat) (room : count ≤ capacity) :
    (uniform old fevent 0 posted taken).run capacity
        (List.replicate count (.post old)) =
      uniform old fevent (UInt8.ofNat count) (posted + count) taken := by
  induction count with
  | zero =>
      rfl
  | succ count inductionHypothesis =>
      have before := inductionHypothesis (by omega)
      have waiting := toNat_index narrow room
      unfold run at before ⊢
      rw [List.replicate_succ', List.foldl_append, before, List.foldl_cons,
        List.foldl_nil, uniform_post (by omega), ← UInt8.ofNat_one,
        ← UInt8.ofNat_add, Nat.add_assoc]

/-- With the sum of the indices at 256, the next event is stored over the
second one that waits. -/
theorem uniform_overtakes (large : 128 < capacity) (narrow : capacity < 256)
    {new : Event} (different : old ≠ new)
    (start : fevent.toNat = capacity - 1)
    (waiting : nevents.toNat = 257 - capacity) :
    ¬ ((uniform old fevent nevents 256 (capacity - 1)).run capacity
        [.post new, .take, .take]).taken <+:
      ((uniform old fevent nevents 256 (capacity - 1)).run capacity
        [.post new, .take, .take]).posted := by
  have more : (nevents + 1).toNat = 258 - capacity := by
    rw [UInt8.toNat_add, UInt8.toNat_one]
    omega
  have slot : (fevent + nevents).toNat % capacity = 0 := by
    have sum : (fevent + nevents).toNat = 0 := by
      rw [UInt8.toNat_add]
      omega
    rw [sum, Nat.zero_mod]
  have wrapped : (UInt8.ofNat ((fevent.toNat + 1) % capacity)).toNat = 0 := by
    have round : fevent.toNat + 1 = capacity := by omega
    rw [round, Nat.mod_self]
    rfl
  have waits : 0 < (nevents + 1).toNat := by omega
  have waitsAgain : 0 < (nevents + 1 - 1).toNat := by
    rw [UInt8.add_sub_cancel]
    omega
  have full : nevents.toNat ≠ capacity := by omega
  have isRun : (uniform old fevent nevents 256 (capacity - 1)).run capacity
        [.post new, .take, .take] =
      (((uniform old fevent nevents 256 (capacity - 1)).step capacity
        (.post new)).step capacity .take).step capacity .take := rfl
  rw [isRun, step_post full, step_take
      (by rw [step_take (by exact waits)]; exact waitsAgain),
    step_take (by exact waits)]
  unfold uniform
  dsimp only
  rw [wrapped, slot, Function.update_self]
  rintro ⟨rest, isPrefix⟩
  have second := congrArg (fun events => events[capacity]?) isPrefix
  have inside : capacity < (List.replicate 256 old).length := by
    rw [List.length_replicate]
    exact narrow
  rw [List.getElem?_append_left inside, List.getElem?_replicate,
    if_pos narrow, List.append_assoc, List.getElem?_append_right
      (by rw [List.length_append, List.length_replicate,
        List.length_singleton]; omega),
    List.length_append, List.length_replicate, List.length_singleton,
    Nat.sub_add_cancel (by omega), Nat.sub_self] at second
  exact different (Option.some.inj second).symm

/-- The events that are taken out of the queue are the posted ones, in the
same order. -/
theorem fifo_iff {num : Nat} {Data : Type} (positive : 0 < capacity)
    (narrow : capacity < 256) :
    (∀ (events : Nat → EventData num Data)
        (calls : List (QueueCall (EventData num Data))),
      ((initial events).run capacity calls).taken <+:
        ((initial events).run capacity calls).posted) ↔
      capacity ≤ 128 := by
  constructor
  · intro inOrder
    by_contra large
    let old : EventData num Data := ⟨0, .null, none⟩
    have different : old ≠ ⟨1, .null, none⟩ := fun same =>
      nomatch congrArg EventData.ev same
    -- the start moves to the last slot before the queue is filled
    have moved := uniform_pairs old narrow (capacity - 1) (by omega)
    have filled := uniform_posts old (UInt8.ofNat (capacity - 1))
      (capacity - 1) (capacity - 1) narrow (257 - capacity) (by omega)
    have sum : capacity - 1 + (257 - capacity) = 256 := by omega
    rw [sum] at filled
    have overtakes := uniform_overtakes (by omega) narrow different
      (toNat_index narrow (show capacity - 1 < capacity by omega))
      (toNat_index narrow (show 257 - capacity < capacity by omega))
    have runs := inOrder (fun _ => old)
      ((List.replicate (capacity - 1) [.post old, .take]).flatten ++
        (List.replicate (257 - capacity) (.post old) ++
          [.post ⟨1, .null, none⟩, .take, .take]))
    unfold run at moved filled runs overtakes
    rw [← filled, ← moved, ← List.foldl_append, ← List.foldl_append]
      at overtakes
    exact overtakes runs
  · intro small events calls
    have ordered := (ordered_initial events).run positive small calls
    exact ⟨_, ordered.posted.symm⟩

/-- The default value of `PROCESS_CONF_NUMEVENTS`. -/
theorem fifo_default :
    (∀ (events : Nat → EventData 1 Nat)
        (calls : List (QueueCall (EventData 1 Nat))),
      ((initial events).run 32 calls).taken <+:
        ((initial events).run 32 calls).posted) ↔ 32 ≤ 128 :=
  fifo_iff (by decide) (by decide)

end Traffic

end Contiki.Core
