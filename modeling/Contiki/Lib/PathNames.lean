import Mathlib.Data.List.Basic

/-!
# Normal path names

A path name is a list of characters that slashes take apart.  It is settled
when no component between two slashes is empty, `.` or `..`, and normal when
its last component is not `.` or `..` either; a slash may stand at the end.
Names grow at their end, so `SlashReady` says when a slash may be appended.
-/

namespace Contiki.Lib.PathNames

variable {α : Type} (slash period : α)

/-- The components that stand for no name of their own. -/
def empties : List (List α) := [[], [period], [period, period]]

/-- No component between two slashes is empty, `.` or `..`. -/
def Settled (name : List α) : Prop :=
  ∀ component ∈ empties period,
    ¬ (slash :: (component ++ [slash])) <:+: name

/-- What stands behind the last slash is not empty, `.` or `..`. -/
def SlashReady (name : List α) : Prop :=
  ∀ component ∈ empties period, ¬ (slash :: component) <:+ name

/-- No component of an absolute name is empty, `.` or `..`; a slash may end
the name. -/
structure Normal (name : List α) : Prop where
  settled : Settled slash period name
  last : ∀ component ∈ [[period], [period, period]],
    ¬ (slash :: component) <:+ name

instance [DecidableEq α] (name : List α) :
    Decidable (Settled slash period name) :=
  inferInstanceAs (Decidable (∀ component ∈ empties period,
    ¬ (slash :: (component ++ [slash])) <:+: name))

variable {slash period : α}

theorem concat_suffix_concat {front name : List α} {x c : α} :
    front ++ [x] <:+ name ++ [c] ↔ x = c ∧ front <:+ name := by
  rw [List.suffix_concat_iff]
  constructor
  · rintro (empty | ⟨before, equal, suffix⟩)
    · exact absurd (List.append_eq_nil_iff.mp empty).2 (List.cons_ne_nil _ _)
    · obtain ⟨rfl, same⟩ := List.append_inj' equal rfl
      exact ⟨(List.cons.inj same).1, suffix⟩
  · rintro ⟨rfl, suffix⟩
    exact .inr ⟨front, rfl, suffix⟩

theorem Settled.of_infix {name part : List α}
    (settled : Settled slash period name) (inside : part <:+: name) :
    Settled slash period part := by
  intro component member found
  exact settled component member (found.trans inside)

variable {name : List α}

theorem Settled.append_other {c : α}
    (settled : Settled slash period name) (other : c ≠ slash) :
    Settled slash period (name ++ [c]) := by
  intro component member found
  rcases List.infix_concat_iff.mp found with atEnd | inside
  · rw [← List.cons_append, concat_suffix_concat] at atEnd
    exact other atEnd.1.symm
  · exact settled component member inside

theorem Settled.append_others {name more : List α}
    (settled : Settled slash period name) (others : slash ∉ more) :
    Settled slash period (name ++ more) := by
  induction more generalizing name with
  | nil =>
      rwa [List.append_nil]
  | cons c more inductionHypothesis =>
      rw [List.mem_cons, not_or] at others
      rw [← List.singleton_append, ← List.append_assoc]
      exact inductionHypothesis
        (settled.append_other (Ne.symm others.1)) others.2

theorem Settled.append_slash (settled : Settled slash period name)
    (ready : SlashReady slash period name) :
    Settled slash period (name ++ [slash]) := by
  intro component member found
  rcases List.infix_concat_iff.mp found with atEnd | inside
  · rw [← List.cons_append, concat_suffix_concat] at atEnd
    exact ready component member atEnd.2
  · exact settled component member inside

theorem Settled.normal_of_ready (settled : Settled slash period name)
    (ready : SlashReady slash period name) : Normal slash period name := by
  refine ⟨settled, ?_⟩
  intro component member
  exact ready component (List.mem_cons_of_mem _ member)

/-- Where another character than a period ends the name, its last component
is neither `.` nor `..`. -/
theorem Settled.normal_of_last {c : α}
    (settled : Settled slash period (name ++ [c])) (other : c ≠ period) :
    Normal slash period (name ++ [c]) := by
  refine ⟨settled, ?_⟩
  intro component member found
  rcases List.mem_pair.mp member with rfl | rfl
  · rw [show [slash, period] = [slash] ++ [period] from rfl,
      concat_suffix_concat] at found
    exact other found.1.symm
  · rw [show [slash, period, period] = [slash, period] ++ [period] from rfl,
      concat_suffix_concat] at found
    exact other found.1.symm

/-! ## Names stored from their end -/

theorem suffix_reverse {component name : List α} :
    component <:+ name.reverse ↔ component.reverse <+: name := by
  rw [← List.reverse_prefix, List.reverse_reverse]

theorem slashReady_reverse :
    SlashReady slash period name.reverse ↔
      ¬ [slash] <+: name ∧ ¬ [period, slash] <+: name ∧
        ¬ [period, period, slash] <+: name := by
  simp [SlashReady, empties, suffix_reverse]

end Contiki.Lib.PathNames
