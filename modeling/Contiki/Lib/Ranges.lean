import Mathlib

/-!
# Ranges of positions

Disjoint ranges inside an interval that starts at zero have at most as many
positions as the interval, and cover it if they have as many.
-/

namespace Contiki.Lib

/-- The positions from `start` on. -/
structure Range where
  start : Nat
  count : Nat

variable {ranges : List Range}

namespace Range

def Contains (range : Range) (position : Nat) : Prop :=
  range.start ≤ position ∧ position < range.start + range.count

instance (range : Range) (position : Nat) :
    Decidable (range.Contains position) :=
  inferInstanceAs (Decidable (_ ∧ _))

/-- Two ranges have no position in common. -/
def Apart (first second : Range) : Prop :=
  ∀ position, ¬ (first.Contains position ∧ second.Contains position)

theorem apart_iff {first second : Range} :
    first.Apart second ↔ first.count = 0 ∨ second.count = 0 ∨
      first.start + first.count ≤ second.start ∨
      second.start + second.count ≤ first.start := by
  constructor
  · intro apart
    have atFirst := apart first.start
    have atSecond := apart second.start
    simp only [Contains] at atFirst atSecond
    omega
  · intro separate position contains
    simp only [Contains] at contains
    omega

instance (first second : Range) : Decidable (first.Apart second) :=
  decidable_of_iff _ apart_iff.symm

/-- The positions in some of the ranges. -/
def covered : List Range → Finset Nat
  | [] => ∅
  | range :: rest =>
      Finset.Ico range.start (range.start + range.count) ∪ covered rest

theorem mem_covered {position : Nat} :
    position ∈ covered ranges ↔
      ∃ range ∈ ranges, range.Contains position := by
  induction ranges with
  | nil =>
      simp [covered]
  | cons range rest inductionHypothesis =>
      simp [covered, inductionHypothesis, Contains]

theorem card_covered (apart : ranges.Pairwise Apart) :
    (covered ranges).card = (ranges.map Range.count).sum := by
  induction apart with
  | nil =>
      rfl
  | @cons range rest first _ inductionHypothesis =>
      have split : Disjoint
          (Finset.Ico range.start (range.start + range.count))
          (covered rest) := by
        rw [Finset.disjoint_left]
        intro position inside member
        obtain ⟨other, otherMember, contains⟩ := mem_covered.mp member
        exact first other otherMember position
          ⟨Finset.mem_Ico.mp inside, contains⟩
      rw [covered, Finset.card_union_of_disjoint split,
        inductionHypothesis, Nat.card_Ico]
      simp

/-- Disjoint ranges below a bound. -/
structure Packed (ranges : List Range) (size : Nat) : Prop where
  apart : ranges.Pairwise Apart
  inside : ∀ range ∈ ranges, range.start + range.count ≤ size

theorem Packed.covered_subset {size : Nat}
    (packed : Packed ranges size) : covered ranges ⊆ Finset.range size := by
  intro position member
  obtain ⟨range, rangeMember, _, upper⟩ := mem_covered.mp member
  exact Finset.mem_range.mpr
    (Nat.lt_of_lt_of_le upper (packed.inside range rangeMember))

theorem Packed.sum_le {size : Nat}
    (packed : Packed ranges size) : (ranges.map Range.count).sum ≤ size := by
  have bound := Finset.card_le_card packed.covered_subset
  rwa [card_covered packed.apart, Finset.card_range] at bound

/-- Disjoint ranges with as many positions as there are below the bound
contain all of them. -/
theorem Packed.covers {size position : Nat} (packed : Packed ranges size)
    (full : (ranges.map Range.count).sum = size) (below : position < size) :
    ∃ range ∈ ranges, range.Contains position := by
  have same : covered ranges = Finset.range size := by
    apply Finset.eq_of_subset_of_card_le packed.covered_subset
    rw [card_covered packed.apart, Finset.card_range, full]
  rw [← mem_covered, same]
  exact Finset.mem_range.mpr below

theorem Packed.concat {range : Range} {size : Nat}
    (packed : Packed ranges size)
    (apart : ∀ other ∈ ranges, other.Apart range)
    (inside : range.start + range.count ≤ size) :
    Packed (ranges ++ [range]) size where
  apart := by
    rw [List.pairwise_append]
    refine ⟨packed.apart, List.pairwise_singleton _ _, ?_⟩
    intro other member last lastMember
    rw [List.mem_singleton.mp lastMember]
    exact apart other member
  inside := by
    intro other member
    rcases List.mem_append.mp member with member | member
    · exact packed.inside other member
    · rw [List.mem_singleton.mp member]
      exact inside

end Range

end Contiki.Lib
