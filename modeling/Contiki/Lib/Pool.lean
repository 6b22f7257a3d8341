import Mathlib.Data.List.FinRange
import Mathlib.Data.List.Nodup
import Mathlib.Data.List.Perm.Subperm
import Mathlib.Data.List.TakeWhile
import Mathlib.Logic.Function.Basic

/-!
# Pools of objects

A static array of objects with a flag for each that is in use, and a list of
the objects in use in the order in which they were taken.  Taking an object
does not clear it: what its last owner stored is still there.
-/

namespace Contiki.Lib

/-- An array of `size` objects. -/
structure Pool (size : Nat) (α : Type) where
  slots : Fin size → α
  used : Fin size → Bool
  list : List (Fin size)

namespace Pool

variable {size : Nat} {α : Type}

/-- The first object that is not in use. -/
def firstFree (pool : Pool size α) : Option (Fin size) :=
  (List.finRange size).find? fun slot => !pool.used slot

def set (pool : Pool size α) (slot : Fin size) (object : α) :
    Pool size α :=
  { pool with slots := Function.update pool.slots slot object }

/-- Take an object into use, at the end of the list. -/
def take (pool : Pool size α) (slot : Fin size) : Pool size α :=
  { pool with
    used := Function.update pool.used slot true
    list := pool.list.erase slot ++ [slot] }

/-- Take an object into use, at the front of the list. -/
def push (pool : Pool size α) (slot : Fin size) : Pool size α :=
  { pool with
    used := Function.update pool.used slot true
    list := slot :: pool.list.erase slot }

def release (pool : Pool size α) (slot : Fin size) : Pool size α :=
  { pool with
    used := Function.update pool.used slot false
    list := pool.list.erase slot }

/-- The object behind another one in the list. -/
def next (pool : Pool size α) (slot : Fin size) : Option (Fin size) :=
  (pool.list.dropWhile (· ≠ slot)).tail.head?

/-- The list has every object in use once. -/
structure Consistent (pool : Pool size α) : Prop where
  nodup : pool.list.Nodup
  mem_iff : ∀ slot, slot ∈ pool.list ↔ pool.used slot = true

/-- An object, and whether it is in use, are the same in both pools. -/
def SameAt (slot : Fin size) (before after : Pool size α) : Prop :=
  after.slots slot = before.slots slot ∧
    (slot ∈ after.list ↔ slot ∈ before.list)

theorem SameAt.trans {slot : Fin size} {first second third : Pool size α}
    (left : SameAt slot first second) (right : SameAt slot second third) :
    SameAt slot first third :=
  ⟨right.1.trans left.1, right.2.trans left.2⟩

theorem slots_set (pool : Pool size α) (slot other : Fin size)
    (object : α) :
    (pool.set slot object).slots other =
      if other = slot then object else pool.slots other :=
  Function.update_apply _ _ _ _

variable {pool : Pool size α}

theorem used_of_firstFree {slot : Fin size}
    (found : pool.firstFree = some slot) : pool.used slot = false := by
  have free := List.find?_some found
  simpa using free

theorem not_mem_of_firstFree (consistent : pool.Consistent) {slot : Fin size}
    (found : pool.firstFree = some slot) : slot ∉ pool.list := by
  rw [consistent.mem_iff, used_of_firstFree found]
  exact Bool.false_ne_true

variable {slot other : Fin size}

theorem mem_take :
    other ∈ (pool.take slot).list ↔ other = slot ∨ other ∈ pool.list := by
  simp only [take, List.mem_append, List.mem_singleton]
  by_cases same : other = slot
  · simp [same]
  · simp [same, List.mem_erase_of_ne same]

theorem mem_release (nodup : pool.list.Nodup) {slot other : Fin size} :
    other ∈ (pool.release slot).list ↔
      other ≠ slot ∧ other ∈ pool.list := by
  simp only [release, nodup.mem_erase_iff]

theorem sameAt_set (object : α) (different : other ≠ slot) :
    SameAt other pool (pool.set slot object) :=
  ⟨Function.update_of_ne different _ _, Iff.rfl⟩

theorem sameAt_take
    (different : other ≠ slot) : SameAt other pool (pool.take slot) :=
  ⟨rfl, by simp [mem_take, different]⟩

theorem sameAt_release (different : other ≠ slot) :
    SameAt other pool (pool.release slot) :=
  ⟨rfl, List.mem_erase_of_ne different⟩

theorem Consistent.set (consistent : pool.Consistent)
    (slot : Fin size) (object : α) : (pool.set slot object).Consistent :=
  ⟨consistent.nodup, consistent.mem_iff⟩

theorem Consistent.take (consistent : pool.Consistent) (slot : Fin size) :
    (pool.take slot).Consistent where
  nodup := by
    refine (consistent.nodup.erase slot).append
      (List.nodup_singleton slot) ?_
    rw [List.disjoint_singleton]
    exact consistent.nodup.not_mem_erase
  mem_iff := by
    intro other
    rw [mem_take]
    by_cases same : other = slot
    · simp [same, Pool.take]
    · simp [same, Pool.take, consistent.mem_iff]

theorem Consistent.release (consistent : pool.Consistent) (slot : Fin size) :
    (pool.release slot).Consistent where
  nodup := consistent.nodup.erase slot
  mem_iff := by
    intro other
    rw [mem_release consistent.nodup]
    by_cases same : other = slot
    · simp [same, Pool.release]
    · simp [same, Pool.release, consistent.mem_iff]

theorem Consistent.length_le
    (consistent : pool.Consistent) : pool.list.length ≤ size := by
  have short := (List.subperm_of_subset consistent.nodup
    fun slot _ => List.mem_finRange slot).length_le
  rwa [List.length_finRange] at short

theorem mem_of_next {slot next : Fin size}
    (found : pool.next slot = some next) : next ∈ pool.list := by
  have behind : next ∈ (pool.list.dropWhile (· ≠ slot)).tail :=
    List.mem_of_mem_head? found
  exact List.dropWhile_sublist _ |>.subset (List.mem_of_mem_tail behind)

theorem next_of_append {slot : Fin size} {initial rest : List (Fin size)}
    (isList : pool.list = initial ++ slot :: rest)
    (notBefore : slot ∉ initial) : pool.next slot = rest.head? := by
  unfold next
  have different : ∀ other ∈ initial, decide (other ≠ slot) = true := by
    intro other member
    rw [decide_eq_true_iff]
    rintro rfl
    exact notBefore member
  rw [isList, List.dropWhile_append_of_pos different,
    List.dropWhile_cons_of_neg (by simp), List.tail_cons]

theorem next_of_not_mem {slot : Fin size}
    (unused : slot ∉ pool.list) : pool.next slot = none := by
  unfold next
  have different : ∀ other ∈ pool.list, decide (other ≠ slot) = true := by
    intro other member
    rw [decide_eq_true_iff]
    rintro rfl
    exact unused member
  rw [List.dropWhile_eq_nil_iff.2 different]
  rfl

end Pool

end Contiki.Lib
