import Mathlib.Data.Fintype.EquivFin
import Mathlib.Logic.Relation

/-!
# Walks

A walk goes from one state to the next until it ends with a result.  Over
finitely many states it ends exactly when it never comes back to a state.
-/

namespace Contiki.Lib.Walk

variable {α β : Type} (next : α → β ⊕ α)

/-- At most `fuel` steps. -/
def walk : Nat → α → Option β
  | 0, _ => none
  | fuel + 1, state =>
      match next state with
      | .inl result => some result
      | .inr later => walk fuel later

def GoesOn (state later : α) : Prop := next state = .inr later

def Ends (state : α) : Prop :=
  ∃ fuel result, walk next fuel state = some result

/-- The walk never comes back to a state. -/
def Acyclic (state : α) : Prop :=
  ∀ later, Relation.ReflTransGen (GoesOn next) state later →
    ¬ Relation.TransGen (GoesOn next) later later

variable {next} {state later : α}

theorem walk_of_result {result : β} (isResult : next state = .inl result)
    (fuel : Nat) : walk next (fuel + 1) state = some result := by
  unfold walk
  rw [isResult]

theorem walk_of_goesOn (goesOn : GoesOn next state later) (fuel : Nat) :
    walk next (fuel + 1) state = walk next fuel later := by
  rw [walk, goesOn]

theorem walk_mono {fuel more : Nat} (enough : fuel ≤ more) {result : β}
    (ends : walk next fuel state = some result) :
    walk next more state = some result := by
  induction fuel generalizing more state with
  | zero =>
      cases ends
  | succ fuel inductionHypothesis =>
      obtain ⟨more, rfl⟩ := Nat.exists_eq_succ_of_ne_zero
        (Nat.ne_of_gt (Nat.lt_of_lt_of_le fuel.succ_pos enough))
      cases step : next state with
      | inl last =>
          rw [walk_of_result step] at ends
          rw [Nat.succ_eq_add_one, walk_of_result step, ends]
      | inr later =>
          rw [walk_of_goesOn step] at ends
          rw [Nat.succ_eq_add_one, walk_of_goesOn step]
          exact inductionHypothesis (Nat.le_of_succ_le_succ enough) ends

theorem Ends.of_result {result : β} (isResult : next state = .inl result) :
    Ends next state :=
  ⟨1, result, walk_of_result isResult 0⟩

theorem GoesOn.ends_iff (goesOn : GoesOn next state later) :
    Ends next state ↔ Ends next later := by
  constructor
  · rintro ⟨fuel, result, ends⟩
    cases fuel with
    | zero =>
        cases ends
    | succ fuel =>
        rw [walk_of_goesOn goesOn] at ends
        exact ⟨fuel, result, ends⟩
  · rintro ⟨fuel, result, ends⟩
    refine ⟨fuel + 1, result, ?_⟩
    rw [walk_of_goesOn goesOn]
    exact ends

theorem Ends.not_cycle (ends : Ends next state) :
    ¬ Relation.TransGen (GoesOn next) state state := by
  obtain ⟨fuel, result, isResult⟩ := ends
  induction fuel generalizing state with
  | zero =>
      cases isResult
  | succ fuel inductionHypothesis =>
      intro cycle
      obtain ⟨later, goesOn, back⟩ := Relation.TransGen.head'_iff.mp cycle
      rw [walk_of_goesOn goesOn] at isResult
      exact inductionHypothesis isResult
        (Relation.TransGen.tail' back goesOn)

theorem Ends.reaches (ends : Ends next state)
    (reaches : Relation.ReflTransGen (GoesOn next) state later) :
    Ends next later := by
  induction reaches with
  | refl =>
      exact ends
  | tail _ goesOn inductionHypothesis =>
      exact goesOn.ends_iff.mp inductionHypothesis

theorem Acyclic.ends [Finite α] (acyclic : Acyclic next state) :
    Ends next state := by
  let Reached := { later //
    Relation.ReflTransGen (GoesOn next) state later }
  let before : Reached → Reached → Prop := fun later earlier =>
    Relation.TransGen (GoesOn next) earlier.val later.val
  have : Finite Reached := Subtype.finite
  have : IsTrans Reached before :=
    ⟨fun _ _ _ first second => second.trans first⟩
  have : Std.Irrefl before :=
    ⟨fun later cycle => acyclic later.val later.property cycle⟩
  have wellFounded : WellFounded before :=
    Finite.wellFounded_of_trans_of_irrefl before
  have all : ∀ reached : Reached, Ends next reached.val := by
    intro reached
    induction reached using wellFounded.induction with
    | _ reached inductionHypothesis =>
        cases step : next reached.val with
        | inl result =>
            exact Ends.of_result step
        | inr later =>
            have goesOn : GoesOn next reached.val later := step
            exact goesOn.ends_iff.mpr (inductionHypothesis
              ⟨later, reached.property.tail goesOn⟩
              (Relation.TransGen.single goesOn))
  exact all ⟨state, Relation.ReflTransGen.refl⟩

theorem acyclic_of_grows (measure : α → Nat)
    (grows : ∀ first second,
      Relation.ReflTransGen (GoesOn next) state first →
      GoesOn next first second → measure first < measure second) :
    Acyclic next state := by
  have further : ∀ first second,
      Relation.ReflTransGen (GoesOn next) state first →
      Relation.TransGen (GoesOn next) first second →
      measure first < measure second := by
    intro first second reaches path
    induction path with
    | single goesOn =>
        exact grows _ _ reaches goesOn
    | tail path goesOn inductionHypothesis =>
        have reachesMiddle := reaches.trans path.to_reflTransGen
        exact inductionHypothesis.trans (grows _ _ reachesMiddle goesOn)
  intro later reaches cycle
  exact Nat.lt_irrefl _ (further later later reaches cycle)

theorem ends_iff_acyclic [Finite α] (state : α) :
    Ends next state ↔ Acyclic next state :=
  ⟨fun ends _ reaches => (ends.reaches reaches).not_cycle, Acyclic.ends⟩

end Contiki.Lib.Walk
