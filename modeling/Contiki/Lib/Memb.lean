import Mathlib.Data.List.FinRange
import Mathlib.Data.List.Nodup
import Mathlib.Data.List.Perm.Basic
import Mathlib.Logic.Function.Basic

/-!
# Memory blocks

A static array of blocks with a flag for each that is in use.
-/

namespace Contiki.Lib

/-- Which of `num` blocks are in use. -/
abbrev Memb (num : Nat) := Fin num → Bool

namespace Memb

variable {num : Nat}

/-- The first block that is not in use. -/
def firstFree (memb : Memb num) : Option (Fin num) :=
  (List.finRange num).find? fun block => !memb block

/-- `memb_alloc` -/
def membAlloc (memb : Memb num) : Option (Fin num) × Memb num :=
  match memb.firstFree with
  | some block => (some block, Function.update memb block true)
  | none => (none, memb)

/-- `memb_free` for a block or `NULL`. -/
def membFree (memb : Memb num) (block : Option (Fin num)) : Memb num :=
  match block with
  | some block => Function.update memb block false
  | none => memb

def allocated (memb : Memb num) : List (Fin num) :=
  (List.finRange num).filter fun block => memb block

theorem membAlloc_cases (memb : Memb num) :
    (∃ block, memb block = false ∧
      memb.membAlloc = (some block, Function.update memb block true)) ∨
    memb.membAlloc = (none, memb) := by
  unfold membAlloc
  cases isFree : memb.firstFree with
  | none => exact Or.inr rfl
  | some block =>
      have unused := List.find?_some isFree
      exact Or.inl ⟨block, by simpa using unused, rfl⟩

theorem allocated_perm {memb : Memb num} {blocks : List (Fin num)}
    (nodup : blocks.Nodup)
    (mem_iff : ∀ block, memb block = true ↔ block ∈ blocks) :
    memb.allocated.Perm blocks := by
  apply (List.perm_ext_iff_of_nodup
    ((List.nodup_finRange num).filter _) nodup).mpr
  intro block
  rw [List.mem_filter, ← mem_iff]
  simp

end Memb

end Contiki.Lib
