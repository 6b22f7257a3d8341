import Contiki.Core.Etimer
import Contiki.Lib.Linked

/-!
# The list of event timers

What each operation does to the list, as long as the list has no cycle.
-/

namespace Contiki.Core

open Contiki.Lib

namespace Etimers

variable {numTimers : Nat} {Process : Type} {width : Nat}

/-! ## The next expiration -/

theorem nearest_spec (timers : Etimers numTimers Process width)
    {rounds : Nat} {head : Option (Fin numTimers)}
    {list : List (Fin numTimers)} (linked : Linked timers.next head list)
    (enough : list.length < rounds) (tdist : BitVec width) :
    ∃ least, timers.nearest rounds head tdist = some least ∧
      least ≤ tdist ∧
      ∀ t ∈ list, least ≤ timers.expirationTime t - timers.clockTime := by
  induction linked generalizing rounds tdist with
  | nil =>
      obtain ⟨rounds, rfl⟩ := Nat.exists_eq_succ_of_ne_zero
        (Nat.ne_of_gt (Nat.zero_lt_of_lt enough))
      exact ⟨tdist, rfl, BitVec.le_refl _, by simp⟩
  | @cons t rest tail inductionHypothesis =>
      obtain ⟨rounds, rfl⟩ := Nat.exists_eq_succ_of_ne_zero
        (Nat.ne_of_gt (Nat.zero_lt_of_lt enough))
      obtain ⟨least, isLeast, below, all⟩ := inductionHypothesis
        (Nat.lt_of_succ_lt_succ enough)
        (if timers.expirationTime t - timers.clockTime < tdist then
          timers.expirationTime t - timers.clockTime else tdist)
      refine ⟨least, isLeast, ?_, fun other member => ?_⟩
      · split at below
        · next nearer =>
            exact BitVec.le_trans below (BitVec.le_of_lt nearer)
        · exact below
      · obtain rfl | inRest := List.mem_cons.1 member
        · split at below
          · exact below
          · next farther =>
              exact BitVec.le_trans below (BitVec.not_lt.1 farther)
        · exact all other inRest

/-- No pending timer expires before the next expiration, as seen from now. -/
def NextIsLeast (timers : Etimers numTimers Process width)
    (list : List (Fin numTimers)) : Prop :=
  ∀ t ∈ list, timers.nextExpiration - timers.clockTime ≤
    timers.expirationTime t - timers.clockTime

variable {timers : Etimers numTimers Process width}
  {list : List (Fin numTimers)}

theorem updateTime_spec (linked : Linked timers.next timers.timerlist list) :
    ∃ value, timers.updateTime =
        some { timers with nextExpiration := value } ∧
      NextIsLeast { timers with nextExpiration := value } list := by
  unfold updateTime
  have short := linked.length_le
  rcases isHead : timers.timerlist with _ | head
  · rw [isHead] at linked
    cases linked
    exact ⟨0, rfl, by simp [NextIsLeast]⟩
  · rw [isHead] at linked
    cases linked with
    | @cons _ rest tail =>
        rw [List.length_cons] at short
        obtain ⟨least, isLeast, below, all⟩ := timers.nearest_spec tail
          (show rest.length < numTimers + 1 by omega)
          (timers.expirationTime head - timers.clockTime)
        dsimp only
        rw [isLeast]
        refine ⟨_, rfl, fun t member => ?_⟩
        change timers.clockTime + least - timers.clockTime ≤
          timers.expirationTime t - timers.clockTime
        rw [add_sub_cancel_left]
        obtain rfl | inRest := List.mem_cons.1 member
        · exact below
        · exact all t inRest

theorem linked_of_nearest (timers : Etimers numTimers Process width)
    {rounds : Nat} {head : Option (Fin numTimers)}
    {tdist least : BitVec width}
    (ends : timers.nearest rounds head tdist = some least) :
    ∃ list, Linked timers.next head list := by
  induction rounds generalizing head tdist with
  | zero =>
      simp [nearest] at ends
  | succ rounds inductionHypothesis =>
      cases head with
      | none =>
          exact ⟨[], Linked.nil⟩
      | some t =>
          obtain ⟨list, linked⟩ := inductionHypothesis ends
          exact ⟨t :: list, Linked.cons linked⟩

theorem linked_of_updateTime {timers after : Etimers numTimers Process width}
    (ends : timers.updateTime = some after) :
    ∃ list, Linked timers.next timers.timerlist list := by
  unfold updateTime at ends
  split at ends
  · next isHead =>
      rw [isHead]
      exact ⟨[], Linked.nil⟩
  · next t isHead =>
      split at ends
      · simp at ends
      · next least isLeast =>
          obtain ⟨list, linked⟩ := timers.linked_of_nearest isLeast
          rw [isHead]
          exact ⟨t :: list, Linked.cons linked⟩

/-! ## Adding a timer -/

theorem onList_spec (timers : Etimers numTimers Process width)
    (timer : Fin numTimers) {rounds : Nat} {head : Option (Fin numTimers)}
    {list : List (Fin numTimers)} (linked : Linked timers.next head list)
    (enough : list.length < rounds) :
    timers.onList timer rounds head = some (decide (timer ∈ list)) := by
  induction linked generalizing rounds with
  | nil =>
      obtain ⟨rounds, rfl⟩ := Nat.exists_eq_succ_of_ne_zero
        (Nat.ne_of_gt (Nat.zero_lt_of_lt enough))
      rfl
  | @cons t rest tail inductionHypothesis =>
      obtain ⟨rounds, rfl⟩ := Nat.exists_eq_succ_of_ne_zero
        (Nat.ne_of_gt (Nat.zero_lt_of_lt enough))
      unfold onList
      split
      · next same =>
          simp [same]
      · next different =>
          rw [inductionHypothesis (Nat.lt_of_succ_lt_succ enough)]
          simp [Ne.symm different]

/-- A timer is on the list, in the context of a process or of none, and the
other timers stay. -/
structure Adds (before after : Etimers numTimers Process width)
    (current : Option Process) (et : Fin numTimers)
    (list listAfter : List (Fin numTimers)) : Prop where
  linked : Linked after.next after.timerlist listAfter
  mem_iff : ∀ t, t ∈ listAfter ↔ t = et ∨ t ∈ list
  p : after.p = Function.update before.p et current
  start : after.start = before.start
  interval : after.interval = before.interval
  clockTime : after.clockTime = before.clockTime
  posted : after.posted = before.posted
  least : NextIsLeast after listAfter

theorem addTimer_spec (linked : Linked timers.next timers.timerlist list)
    (current : Option Process) {et : Fin numTimers}
    (owned : et ∈ list → timers.p et ≠ none) :
    ∃ after listAfter, timers.addTimer current et = some after ∧
      Adds timers after current et list listAfter := by
  have short := linked.length_le
  have isListed : timers.etimerRequestPoll.alreadyListed et =
      some (decide (et ∈ list)) := by
    unfold alreadyListed
    cases isOwner : timers.p et with
    | none =>
        have notListed : et ∉ list := fun member => owned member isOwner
        have isOwner : timers.etimerRequestPoll.p et = none := isOwner
        rw [isOwner]
        simp [notListed]
    | some process =>
        have isOwner : timers.etimerRequestPoll.p et = some process :=
          isOwner
        rw [isOwner]
        exact timers.etimerRequestPoll.onList_spec et linked (by omega)
  unfold addTimer
  dsimp only
  rw [isListed]
  by_cases listed : et ∈ list
  · rw [decide_eq_true listed]
    obtain ⟨value, isValue, least⟩ := @updateTime_spec _ _ _
      { timers.etimerRequestPoll with
        p := Function.update timers.p et current } _ linked
    refine ⟨_, list, isValue, ⟨linked, fun t => ?_, rfl, rfl, rfl, rfl, rfl,
      least⟩⟩
    constructor
    · exact Or.inr
    · rintro (rfl | member)
      · exact listed
      · exact member
  · rw [decide_eq_false listed]
    have pushed := linked.push listed
    obtain ⟨value, isValue, least⟩ := @updateTime_spec _ _ _
      { timers.etimerRequestPoll with
        p := Function.update timers.p et current
        next := Function.update timers.next et timers.timerlist
        timerlist := some et } _ pushed
    exact ⟨_, et :: list, isValue, ⟨pushed, fun t => List.mem_cons, rfl, rfl,
      rfl, rfl, rfl, least⟩⟩

/-- A listed timer that no process has set is linked once more, so that the
list has a cycle. -/
theorem addTimer_twice (linked : Linked timers.next timers.timerlist list)
    (current : Option Process) {et : Fin numTimers} (listed : et ∈ list)
    (notOwned : timers.p et = none) : timers.addTimer current et = none := by
  unfold addTimer alreadyListed etimerRequestPoll
  dsimp only
  rw [notOwned]
  dsimp only
  by_contra ends
  obtain ⟨after, isAfter⟩ := Option.ne_none_iff_exists'.1 ends
  obtain ⟨again, cycle⟩ := linked_of_updateTime isAfter
  exact linked.not_push listed cycle

/-! ## Stopping a timer -/

theorem findBefore_spec (timers : Etimers numTimers Process width)
    (et : Fin numTimers) {rounds : Nat} {head : Option (Fin numTimers)}
    {list : List (Fin numTimers)} (linked : Linked timers.next head list)
    (enough : list.length < rounds) (notHead : head ≠ some et) :
    et ∉ list ∧ timers.findBefore et rounds head = some none ∨
    ∃ initial t final, list = initial ++ t :: et :: final ∧
      timers.findBefore et rounds head = some (some t) := by
  induction linked generalizing rounds with
  | nil =>
      obtain ⟨rounds, rfl⟩ := Nat.exists_eq_succ_of_ne_zero
        (Nat.ne_of_gt (Nat.zero_lt_of_lt enough))
      exact Or.inl ⟨by simp, rfl⟩
  | @cons t rest tail inductionHypothesis =>
      obtain ⟨rounds, rfl⟩ := Nat.exists_eq_succ_of_ne_zero
        (Nat.ne_of_gt (Nat.zero_lt_of_lt enough))
      have different : et ≠ t := fun same => notHead (by rw [same])
      unfold findBefore
      split
      · next isBefore =>
          rw [isBefore] at tail
          cases tail with
          | @cons _ final _ =>
              exact Or.inr ⟨[], t, final, rfl, rfl⟩
      · next notBefore =>
          obtain ⟨notListed, found⟩ | ⟨initial, u, final, isRest, found⟩ :=
            inductionHypothesis (Nat.lt_of_succ_lt_succ enough) notBefore
          · refine Or.inl ⟨fun member => ?_, found⟩
            obtain same | inRest := List.mem_cons.1 member
            · exact different same
            · exact notListed inRest
          · exact Or.inr ⟨t :: initial, u, final, by rw [isRest]; rfl, found⟩

/-- A timer is off the list, and the other timers stay. -/
structure Removes (before after : Etimers numTimers Process width)
    (et : Fin numTimers) (list listAfter : List (Fin numTimers)) : Prop where
  linked : Linked after.next after.timerlist listAfter
  mem_iff : ∀ t, t ∈ listAfter ↔ t ≠ et ∧ t ∈ list
  p : ∀ t, t ≠ et → after.p t = before.p t
  start : after.start = before.start
  interval : after.interval = before.interval
  clockTime : after.clockTime = before.clockTime
  posted : after.posted = before.posted
  least : et ∈ list → NextIsLeast after listAfter
  same : et ∉ list → after.nextExpiration = before.nextExpiration

theorem removeTimer_spec (linked : Linked timers.next timers.timerlist list)
    (et : Fin numTimers) :
    ∃ after listAfter, timers.removeTimer et = some after ∧
      after.p = timers.p ∧ Removes timers after et list listAfter := by
  have short := linked.length_le
  have distinct := linked.nodup
  unfold removeTimer
  split
  · next isHead =>
      rw [isHead] at linked
      cases linked with
      | @cons _ rest tail =>
          obtain ⟨value, isValue, least⟩ := @updateTime_spec _ _ _
            { timers with timerlist := timers.next et } _ tail
          rw [List.nodup_cons] at distinct
          refine ⟨_, rest, isValue, rfl, ⟨tail, fun t => ?_, fun _ _ => rfl,
            rfl, rfl, rfl, rfl, fun _ => least, fun notListed =>
              absurd List.mem_cons_self notListed⟩⟩
          rw [List.mem_cons]
          constructor
          · intro inRest
            refine ⟨?_, Or.inr inRest⟩
            rintro rfl
            exact distinct.1 inRest
          · rintro ⟨different, same | inRest⟩
            · exact absurd same different
            · exact inRest
  · next notHead =>
      obtain ⟨notListed, found⟩ | ⟨initial, u, final, isList, found⟩ :=
        timers.findBefore_spec et linked
          (show list.length < numTimers + 1 by omega) notHead
      · rw [found]
        refine ⟨timers, list, rfl, rfl, ⟨linked, fun t => ?_, fun _ _ => rfl,
          rfl, rfl, rfl, rfl, fun listed => absurd listed notListed,
          fun _ => rfl⟩⟩
        constructor
        · intro member
          refine ⟨?_, member⟩
          rintro rfl
          exact notListed member
        · exact And.right
      · rw [found]
        subst isList
        have unlinked := linked.unlink
        obtain ⟨value, isValue, least⟩ := @updateTime_spec _ _ _
          { timers with
            next := Function.update timers.next u (timers.next et) } _
          unlinked
        refine ⟨_, _, isValue, rfl, ⟨unlinked, fun t => ?_, fun _ _ => rfl,
          rfl, rfl, rfl, rfl, fun _ => least, fun notListed =>
            absurd (by simp) notListed⟩⟩
        rw [List.nodup_append, List.nodup_cons, List.nodup_cons] at distinct
        obtain ⟨_, ⟨notU, notFinal, _⟩, apart⟩ := distinct
        have fresh : ∀ other ∈ initial, other ≠ et := fun other member =>
          apart other member et (by simp)
        have uDifferent : u ≠ et := by
          rintro rfl
          exact notU List.mem_cons_self
        simp only [List.mem_append, List.mem_cons]
        constructor
        · rintro (inInitial | rfl | inFinal)
          · exact ⟨fresh t inInitial, Or.inl inInitial⟩
          · exact ⟨uDifferent, Or.inr (Or.inl rfl)⟩
          · refine ⟨?_, Or.inr (Or.inr (Or.inr inFinal))⟩
            rintro rfl
            exact notFinal inFinal
        · rintro ⟨different, inInitial | same | same | inFinal⟩
          · exact Or.inl inInitial
          · exact Or.inr (Or.inl same)
          · exact absurd same different
          · exact Or.inr (Or.inr inFinal)

theorem etimerStop_spec (linked : Linked timers.next timers.timerlist list)
    (et : Fin numTimers) :
    ∃ after listAfter, timers.etimerStop et = some after ∧
      Removes timers after et list listAfter := by
  obtain ⟨removed, listAfter, isRemoved, sameP, removes⟩ :=
    removeTimer_spec linked et
  unfold etimerStop
  rw [isRemoved]
  refine ⟨_, listAfter, rfl, ⟨removes.linked.update ?_, removes.mem_iff,
    fun t different => ?_, removes.start, removes.interval,
    removes.clockTime, removes.posted, removes.least, removes.same⟩⟩
  · intro member
    exact ((removes.mem_iff et).1 member).1 rfl
  · dsimp only
    rw [Function.update_of_ne different, sameP]

/-! ## The exit of a process -/

section Exit

variable [DecidableEq Process]

variable (process : Process)

theorem dropExited_spec {rounds : Nat}
    {timers : Etimers numTimers Process width} {list : List (Fin numTimers)}
    (linked : Linked timers.next timers.timerlist list)
    (enough : list.length < rounds) :
    ∃ timerlist listAfter, dropExited process rounds timers =
        some { timers with timerlist := timerlist } ∧
      Linked timers.next timerlist listAfter ∧
      (∀ t, timerlist = some t → timers.p t ≠ some process) ∧
      ∀ t, timers.p t ≠ some process → (t ∈ listAfter ↔ t ∈ list) := by
  induction rounds generalizing timers list with
  | zero =>
      exact absurd enough (Nat.not_lt_zero _)
  | succ rounds inductionHypothesis =>
      unfold dropExited
      rcases isHead : timers.timerlist with _ | head
      · rw [isHead] at linked
        have same : timers = { timers with timerlist := none } := by
          rw [← isHead]
        exact ⟨none, list, congrArg some same, linked, by simp,
          fun _ _ => Iff.rfl⟩
      · rw [isHead] at linked
        dsimp only
        split
        · next ofProcess =>
            cases linked with
            | @cons _ rest tail =>
                obtain ⟨timerlist, listAfter, isAfter, linkedAfter, notHead,
                  mem_iff⟩ := @inductionHypothesis
                    { timers with timerlist := timers.next head } _ tail
                    (Nat.lt_of_succ_lt_succ enough)
                refine ⟨timerlist, listAfter, isAfter, linkedAfter, notHead,
                  fun t other => (mem_iff t other).trans ?_⟩
                rw [List.mem_cons]
                constructor
                · exact Or.inr
                · rintro (rfl | inRest)
                  · exact absurd ofProcess other
                  · exact inRest
        · next notOfProcess =>
            refine ⟨some head, list, ?_, linked, fun t same => ?_,
              fun _ _ => Iff.rfl⟩
            · rw [← isHead]
            · rw [Option.some.injEq] at same
              rw [← same]
              exact notOfProcess

theorem unlinkExited_spec {rounds : Nat}
    {timers : Etimers numTimers Process width} {t : Fin numTimers}
    {initial rest : List (Fin numTimers)}
    (linked : Linked timers.next timers.timerlist (initial ++ t :: rest))
    (enough : rest.length < rounds) :
    ∃ next restAfter, unlinkExited process rounds timers t =
        some { timers with next := next } ∧
      Linked next timers.timerlist (initial ++ t :: restAfter) ∧
      ∀ u, u ∈ restAfter ↔ u ∈ rest ∧ timers.p u ≠ some process := by
  induction rounds generalizing timers t initial rest with
  | zero =>
      exact absurd enough (Nat.not_lt_zero _)
  | succ rounds inductionHypothesis =>
      have fromHere := linked.of_append.tail
      unfold unlinkExited
      rcases isNext : timers.next t with _ | u
      · rw [isNext] at fromHere
        cases fromHere
        exact ⟨timers.next, [], rfl, linked, by simp⟩
      · rw [isNext] at fromHere
        cases fromHere with
        | @cons _ final tail =>
            dsimp only
            split
            · next ofProcess =>
                obtain ⟨next, restAfter, isAfter, linkedAfter, mem_iff⟩ :=
                  @inductionHypothesis { timers with
                    next := Function.update timers.next t (timers.next u) }
                    _ _ _ linked.unlink (Nat.lt_of_succ_lt_succ enough)
                refine ⟨next, restAfter, isAfter, linkedAfter, fun other => ?_⟩
                rw [mem_iff, List.mem_cons]
                constructor
                · exact fun both => ⟨Or.inr both.1, both.2⟩
                · rintro ⟨rfl | inFinal, notOf⟩
                  · exact absurd ofProcess notOf
                  · exact ⟨inFinal, notOf⟩
            · next notOfProcess =>
                have split : initial ++ t :: u :: final =
                    (initial ++ [t]) ++ u :: final := by simp
                rw [split] at linked
                obtain ⟨next, restAfter, isAfter, linkedAfter, mem_iff⟩ :=
                  inductionHypothesis linked (Nat.lt_of_succ_lt_succ enough)
                refine ⟨next, u :: restAfter, isAfter, ?_, fun other => ?_⟩
                · simpa using linkedAfter
                · rw [List.mem_cons, mem_iff, List.mem_cons]
                  constructor
                  · rintro (rfl | both)
                    · exact ⟨Or.inl rfl, notOfProcess⟩
                    · exact ⟨Or.inr both.1, both.2⟩
                  · rintro ⟨same | inFinal, notOf⟩
                    · exact Or.inl same
                    · exact Or.inr ⟨inFinal, notOf⟩

theorem etimerExited_spec {timers : Etimers numTimers Process width}
    {list : List (Fin numTimers)}
    (linked : Linked timers.next timers.timerlist list) :
    ∃ timerlist next listAfter, timers.etimerExited process =
        some { timers with timerlist := timerlist, next := next } ∧
      Linked next timerlist listAfter ∧
      ∀ t, t ∈ listAfter ↔ t ∈ list ∧ timers.p t ≠ some process := by
  have short := linked.length_le
  obtain ⟨timerlist, dropped, isDropped, linkedDropped, notHead, mem_iff⟩ :=
    dropExited_spec process linked
      (show list.length < numTimers + 1 by omega)
  unfold etimerExited
  rw [isDropped]
  dsimp only
  rcases timerlist with _ | head
  · cases linkedDropped
    refine ⟨none, timers.next, [], rfl, Linked.nil, fun t => ?_⟩
    simp only [List.not_mem_nil, false_iff, not_and, not_not]
    intro member
    by_contra notOf
    simpa using (mem_iff t notOf).2 member
  · have shortDropped := linkedDropped.length_le
    cases linkedDropped with
    | @cons _ rest tail =>
        rw [List.length_cons] at shortDropped
        obtain ⟨next, restAfter, isAfter, linkedAfter, mem_rest⟩ :=
          @unlinkExited_spec _ _ _ _ process _ { timers with
            timerlist := some head } _ [] _ (Linked.cons tail)
            (show rest.length < numTimers + 1 by omega)
        have headNot := notHead head rfl
        refine ⟨some head, next, _, isAfter, linkedAfter, fun t => ?_⟩
        rw [List.nil_append, List.mem_cons, mem_rest]
        constructor
        · rintro (rfl | both)
          · exact ⟨(mem_iff t headNot).1 List.mem_cons_self, headNot⟩
          · exact ⟨(mem_iff t both.2).1 (List.mem_cons_of_mem head both.1),
              both.2⟩
        · rintro ⟨member, notOf⟩
          obtain same | inRest := List.mem_cons.1 ((mem_iff t notOf).2 member)
          · exact Or.inl same
          · exact Or.inr ⟨inRest, notOf⟩

end Exit

/-! ## The poll -/

theorem findExpired_spec (timers : Etimers numTimers Process width)
    (room : Nat) {rounds : Nat} {head : Option (Fin numTimers)}
    {list : List (Fin numTimers)} (linked : Linked timers.next head list)
    (enough : list.length < rounds) (u : Option (Fin numTimers))
    (polled : Bool) :
    (room = 0 ∨ ∀ t ∈ list, ¬ timers.timerExpired t) ∧
      timers.findExpired room rounds u head polled =
        some (none, polled || list.any timers.timerExpired) ∨
    0 < room ∧ ∃ initial t final before, list = initial ++ t :: final ∧
      timers.timerExpired t ∧
      (initial = [] ∧ before = u ∨
        ∃ first last, initial = first ++ [last] ∧ before = some last) ∧
      timers.findExpired room rounds u head polled =
        some (some (before, t), polled) := by
  induction linked generalizing rounds u polled with
  | nil =>
      obtain ⟨rounds, rfl⟩ := Nat.exists_eq_succ_of_ne_zero
        (Nat.ne_of_gt (Nat.zero_lt_of_lt enough))
      refine Or.inl ⟨Or.inr (by simp), ?_⟩
      rw [List.any_nil, Bool.or_false]
      rfl
  | @cons t rest tail inductionHypothesis =>
      obtain ⟨rounds, rfl⟩ := Nat.exists_eq_succ_of_ne_zero
        (Nat.ne_of_gt (Nat.zero_lt_of_lt enough))
      have enoughRest := Nat.lt_of_succ_lt_succ enough
      unfold findExpired
      by_cases expired : timers.timerExpired t
      · rw [if_pos expired]
        by_cases hasRoom : 0 < room
        · rw [if_pos hasRoom]
          exact Or.inr ⟨hasRoom, [], t, rest, u, rfl, expired,
            Or.inl ⟨rfl, rfl⟩, rfl⟩
        · rw [if_neg hasRoom]
          obtain ⟨_, found⟩ | ⟨positive, _⟩ :=
            inductionHypothesis enoughRest (some t) true
          · refine Or.inl ⟨Or.inl (Nat.eq_zero_of_not_pos hasRoom), ?_⟩
            rw [found, List.any_cons, expired]
            simp
          · exact absurd positive hasRoom
      · rw [if_neg expired]
        obtain ⟨none, found⟩ | ⟨positive, initial, other, final, before,
          isRest, isExpired, isBefore, found⟩ :=
            inductionHypothesis enoughRest (some t) polled
        · refine Or.inl ⟨none.imp_right fun all other member => ?_, ?_⟩
          · obtain rfl | inRest := List.mem_cons.1 member
            · exact expired
            · exact all other inRest
          · rw [found, List.any_cons, Bool.eq_false_iff.2 expired,
              Bool.false_or]
        · refine Or.inr ⟨positive, t :: initial, other, final, before,
            by rw [isRest]; rfl, isExpired, Or.inr ?_, found⟩
          obtain ⟨rfl, rfl⟩ | ⟨first, last, rfl, rfl⟩ := isBefore
          · exact ⟨[], t, rfl, rfl⟩
          · exact ⟨t :: first, last, rfl, rfl⟩

theorem postTimer_linked
    {initial final : List (Fin numTimers)} {t : Fin numTimers}
    {before : Option (Fin numTimers)}
    (linked : Linked timers.next timers.timerlist (initial ++ t :: final))
    (isBefore : initial = [] ∧ before = none ∨
      ∃ first last, initial = first ++ [last] ∧ before = some last) :
    Linked (timers.postTimer before t).next
      (timers.postTimer before t).timerlist (initial ++ final) := by
  have distinct := linked.nodup
  have outside : t ∉ initial ++ final := by
    rw [List.nodup_append, List.nodup_cons] at distinct
    obtain ⟨_, ⟨notFinal, _⟩, apart⟩ := distinct
    rw [List.mem_append]
    rintro (inInitial | inFinal)
    · exact apart t inInitial t List.mem_cons_self rfl
    · exact notFinal inFinal
  obtain ⟨rfl, rfl⟩ | ⟨first, last, rfl, rfl⟩ := isBefore
  · exact linked.tail.update outside
  · have unlinked : Linked (Function.update timers.next last (timers.next t))
        timers.timerlist (first ++ last :: final) :=
      Linked.unlink (by simpa using linked)
    refine Linked.update ?_ outside
    rw [List.append_assoc]
    exact unlinked

theorem NextIsLeast.congr {before after : Etimers numTimers Process width}
    {list listAfter : List (Fin numTimers)} (least : NextIsLeast before list)
    (nextExpiration : after.nextExpiration = before.nextExpiration)
    (clockTime : after.clockTime = before.clockTime)
    (start : after.start = before.start)
    (interval : after.interval = before.interval)
    (subset : ∀ t ∈ listAfter, t ∈ list) : NextIsLeast after listAfter := by
  intro t member
  unfold expirationTime
  rw [nextExpiration, clockTime, start, interval]
  exact least t (subset t member)

/-- Events are posted for these timers, which leave the list, and the other
timers stay. -/
structure Polls (before after : Etimers numTimers Process width) (room : Nat)
    (posts : List (Fin numTimers × Option Process))
    (list listAfter : List (Fin numTimers)) : Prop where
  linked : Linked after.next after.timerlist listAfter
  mem_iff : ∀ t, t ∈ listAfter ↔ t ∈ list ∧ t ∉ posts.map Prod.fst
  posted : after.posted = before.posted ++ posts
  length : posts.length ≤ room
  nodup : (posts.map Prod.fst).Nodup
  post : ∀ event ∈ posts, event.1 ∈ list ∧ before.p event.1 = event.2 ∧
    before.timerExpired event.1
  left : ∀ t ∈ listAfter, before.timerExpired t →
    posts.length = room ∧ after.needspoll
  p : ∀ t ∈ listAfter, after.p t = before.p t
  start : after.start = before.start
  interval : after.interval = before.interval
  clockTime : after.clockTime = before.clockTime
  least : posts ≠ [] → NextIsLeast after listAfter
  same : posts = [] → after.nextExpiration = before.nextExpiration

theorem etimerPoll_spec {rounds room : Nat}
    {timers : Etimers numTimers Process width}
    {list : List (Fin numTimers)}
    (linked : Linked timers.next timers.timerlist list)
    (enough : list.length < rounds) :
    ∃ after posts listAfter, etimerPoll rounds room timers = some after ∧
      Polls timers after room posts list listAfter := by
  induction rounds generalizing room timers list with
  | zero =>
      exact absurd enough (Nat.not_lt_zero _)
  | succ rounds inductionHypothesis =>
      have short := linked.length_le
      unfold etimerPoll
      obtain ⟨none, found⟩ | ⟨positive, initial, t, final, before, rfl,
        expired, isBefore, found⟩ := timers.findExpired_spec room linked
          (show list.length < numTimers + 1 by omega) none false
      · rw [found]
        refine ⟨_, [], list, rfl, ⟨linked, by simp, by simp, Nat.zero_le _,
          by simp, by simp, fun t member isExpired => ?_, fun _ _ => rfl,
          rfl, rfl, rfl, fun some => absurd rfl some, fun _ => rfl⟩⟩
        obtain isFull | notExpired := none
        · refine ⟨by rw [isFull]; rfl, ?_⟩
          have any : list.any timers.timerExpired = true :=
            List.any_eq_true.2 ⟨t, member, isExpired⟩
          simp [any]
        · exact absurd isExpired (notExpired t member)
      · rw [found]
        have distinct := linked.nodup
        have removed := @postTimer_linked _ _ _ { timers with
          needspoll := timers.needspoll || false } _ _ _ _ linked isBefore
        obtain ⟨value, isValue, least⟩ := updateTime_spec removed
        dsimp only
        rw [isValue]
        dsimp only
        obtain ⟨after, posts, listAfter, isAfter, polls⟩ :=
          @inductionHypothesis (room - 1) {
            postTimer { timers with needspoll := timers.needspoll || false }
              before t with nextExpiration := value } _ removed (by
                rw [List.length_append, List.length_cons] at enough
                rw [List.length_append]
                omega)
        have notListed : t ∉ initial ++ final := by
          rw [List.nodup_append, List.nodup_cons] at distinct
          obtain ⟨_, ⟨notFinal, _⟩, apart⟩ := distinct
          rw [List.mem_append]
          rintro (inInitial | inFinal)
          · exact apart t inInitial t List.mem_cons_self rfl
          · exact notFinal inFinal
        have others : ∀ u, u ∈ initial ++ final ↔
            u ≠ t ∧ u ∈ initial ++ t :: final := by
          intro u
          by_cases same : u = t
          · rw [same]
            simp [notListed]
          · simp [same]
        have sameP : ∀ u ∈ initial ++ final,
            (postTimer { timers with needspoll := timers.needspoll || false }
              before t).p u = timers.p u := by
          intro u member
          exact Function.update_of_ne ((others u).1 member).1 _ _
        refine ⟨after, (t, timers.p t) :: posts, listAfter, isAfter,
          ⟨polls.linked, fun u => ?_, ?_, ?_, ?_, fun event member => ?_,
          fun u member isExpired => ?_, fun u member => ?_, polls.start,
          polls.interval, polls.clockTime, fun _ => ?_, fun none => ?_⟩⟩
        · rw [polls.mem_iff, others, List.map_cons, List.mem_cons, not_or]
          tauto
        · rw [polls.posted]
          exact List.append_assoc _ _ _
        · rw [List.length_cons]
          have length := polls.length
          omega
        · rw [List.map_cons, List.nodup_cons]
          refine ⟨fun member => ?_, polls.nodup⟩
          obtain ⟨event, inPosts, isTimer⟩ := List.mem_map.1 member
          have inList := (polls.post event inPosts).1
          rw [isTimer] at inList
          exact notListed inList
        · obtain rfl | inPosts := List.mem_cons.1 member
          · exact ⟨by simp, rfl, expired⟩
          · obtain ⟨inList, isP, isExpired⟩ := polls.post event inPosts
            refine ⟨((others _).1 inList).2, ?_, isExpired⟩
            rw [← isP]
            exact (sameP _ inList).symm
        · obtain ⟨isFull, polled⟩ := polls.left u member isExpired
          refine ⟨?_, polled⟩
          rw [List.length_cons, isFull]
          omega
        · rw [polls.p u member]
          exact sameP u ((polls.mem_iff u).1 member).1
        · by_cases nonePosted : posts = []
          · exact least.congr (polls.same nonePosted) polls.clockTime
              polls.start polls.interval fun u member =>
                ((polls.mem_iff u).1 member).1
          · exact polls.least nonePosted
        · simp at none

end Etimers

end Contiki.Core
