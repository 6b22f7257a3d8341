import Mathlib.Data.List.Nodup
import Mathlib.Data.List.FinRange
import Mathlib.Data.List.Perm.Subperm
import Mathlib.Logic.Function.Basic

/-!
# Singly linked lists in a memory

The items of a list are nodes of a memory, in which each node has the pointer
to the next one.
-/

namespace Contiki.Lib

variable {Node : Type}

/-- Following the pointers from a head visits these nodes and then ends. -/
inductive Linked (next : Node → Option Node) :
    Option Node → List Node → Prop
  | nil : Linked next none []
  | cons {node : Node} {rest : List Node} :
      Linked next (next node) rest → Linked next (some node) (node :: rest)

namespace Linked

variable {next : Node → Option Node} {head : Option Node} {node : Node}
  {list rest : List Node}

theorem unique (linked : Linked next head list)
    (other : Linked next head rest) : list = rest := by
  induction linked generalizing rest with
  | nil =>
      cases other
      rfl
  | cons _ inductionHypothesis =>
      cases other with
      | cons tail =>
          rw [inductionHypothesis tail]

theorem of_append {initial : List Node}
    (linked : Linked next head (initial ++ node :: rest)) :
    Linked next (some node) (node :: rest) := by
  induction initial generalizing head with
  | nil =>
      cases linked with
      | cons tail =>
          exact cons tail
  | cons first initial inductionHypothesis =>
      cases linked with
      | cons tail =>
          exact inductionHypothesis tail

theorem head_eq (linked : Linked next head (node :: rest)) :
    head = some node := by
  cases linked
  rfl

theorem tail (linked : Linked next head (node :: rest)) :
    Linked next (next node) rest := by
  cases linked with
  | cons tail =>
      exact tail

theorem head_eq_none (linked : Linked next head []) : head = none := by
  cases linked
  rfl

theorem nodup (linked : Linked next head list) : list.Nodup := by
  induction linked with
  | nil =>
      exact List.nodup_nil
  | @cons node rest tail inductionHypothesis =>
      refine List.nodup_cons.2 ⟨fun again => ?_, inductionHypothesis⟩
      obtain ⟨initial, final, split⟩ := List.append_of_mem again
      have repeated : Linked next (some node) (node :: final) := by
        rw [split] at tail
        exact tail.of_append
      have same := repeated.unique (cons tail)
      have lengths := congrArg List.length same
      rw [split] at lengths
      simp only [List.length_cons, List.length_append] at lengths
      omega

theorem congr {later : Node → Option Node} (linked : Linked next head list)
    (same : ∀ node ∈ list, later node = next node) :
    Linked later head list := by
  induction linked with
  | nil =>
      exact nil
  | @cons node rest tail inductionHypothesis =>
      refine cons ?_
      rw [same node List.mem_cons_self]
      exact inductionHypothesis fun other member =>
        same other (List.mem_cons_of_mem node member)

theorem follows {initial later : List Node}
    {nextLater : Node → Option Node}
    (linked : Linked next head (initial ++ node :: rest))
    (same : ∀ other ∈ initial, nextLater other = next other)
    (linkedLater : Linked nextLater head later) :
    ∃ restLater, later = initial ++ restLater ∧
      Linked nextLater (some node) restLater := by
  induction initial generalizing head later with
  | nil =>
      have isHead : head = some node := linked.head_eq
      subst isHead
      exact ⟨later, rfl, linkedLater⟩
  | cons first initial inductionHypothesis =>
      have isHead : head = some first := linked.head_eq
      subst isHead
      cases linkedLater with
      | @cons _ tailLater linkedTail =>
          rw [same first List.mem_cons_self] at linkedTail
          obtain ⟨restLater, isRest, linkedRest⟩ := inductionHypothesis
            linked.tail (fun other member =>
              same other (List.mem_cons_of_mem first member)) linkedTail
          exact ⟨restLater, by rw [isRest]; rfl, linkedRest⟩

theorem relink {initial restLater : List Node}
    {nextLater : Node → Option Node}
    (linked : Linked next head (initial ++ node :: rest))
    (same : ∀ other ∈ initial, nextLater other = next other)
    (linkedLater : Linked nextLater (nextLater node) restLater) :
    Linked nextLater head (initial ++ node :: restLater) := by
  induction initial generalizing head with
  | nil =>
      have isHead : head = some node := linked.head_eq
      subst isHead
      exact cons linkedLater
  | cons first initial inductionHypothesis =>
      have isHead : head = some first := linked.head_eq
      subst isHead
      refine cons ?_
      rw [same first List.mem_cons_self]
      exact inductionHypothesis linked.tail fun other member =>
        same other (List.mem_cons_of_mem first member)

variable [DecidableEq Node]

theorem update {value : Option Node} (linked : Linked next head list)
    (outside : node ∉ list) :
    Linked (Function.update next node value) head list := by
  refine linked.congr fun other member => Function.update_of_ne ?_ _ _
  rintro rfl
  exact outside member

theorem push (linked : Linked next head list) (new : node ∉ list) :
    Linked (Function.update next node head) (some node) (node :: list) := by
  refine cons ?_
  rw [Function.update_self]
  exact linked.update new

theorem not_push (linked : Linked next head list) (member : node ∈ list)
    {later : List Node} :
    ¬ Linked (Function.update next node head) (some node) later := by
  intro cycle
  obtain ⟨initial, final, rfl⟩ := List.append_of_mem member
  have fresh : ∀ other ∈ initial,
      Function.update next node head other = next other := by
    intro other inInitial
    refine Function.update_of_ne ?_ _ _
    rintro rfl
    have distinct := linked.nodup
    rw [List.nodup_append] at distinct
    exact distinct.2.2 other inInitial other List.mem_cons_self rfl
  cases cycle with
  | @cons _ tail linkedTail =>
      have fromHead := linkedTail
      rw [Function.update_self] at fromHead
      obtain ⟨restLater, isTail, linkedRest⟩ :=
        linked.follows fresh fromHead
      have same := linkedRest.unique (cons linkedTail)
      have lengths := congrArg List.length same
      rw [isTail] at lengths
      simp only [List.length_cons, List.length_append] at lengths
      omega

theorem unlink {initial : List Node} {before : Node}
    (linked : Linked next head (initial ++ before :: node :: rest)) :
    Linked (Function.update next before (next node)) head
      (initial ++ before :: rest) := by
  have distinct := linked.nodup
  induction initial generalizing head with
  | nil =>
      rw [List.nil_append, List.nodup_cons] at distinct
      have isHead : head = some before := linked.head_eq
      subst isHead
      refine cons ?_
      rw [Function.update_self]
      exact linked.tail.tail.update fun member =>
        distinct.1 (List.mem_cons_of_mem node member)
  | cons first initial inductionHypothesis =>
      rw [List.cons_append, List.nodup_cons] at distinct
      have isHead : head = some first := linked.head_eq
      subst isHead
      refine cons ?_
      rw [Function.update_of_ne]
      · exact inductionHypothesis linked.tail distinct.2
      · rintro rfl
        exact distinct.1 (List.mem_append_right initial List.mem_cons_self)

theorem length_le {number : Nat} {next : Fin number → Option (Fin number)}
    {head : Option (Fin number)} {list : List (Fin number)}
    (linked : Linked next head list) : list.length ≤ number := by
  have short := (List.subperm_of_subset linked.nodup
    fun node _ => List.mem_finRange node).length_le
  rwa [List.length_finRange] at short

end Linked

end Contiki.Lib
