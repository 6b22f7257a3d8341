import Mathlib.Data.List.Basic
import Mathlib.Logic.Function.Basic

/-!
# Cyclic buffers

A buffer of `size` cells that is used in a cyclic way: what is stored from a
cell on, and how a write behind it extends that.
-/

namespace Contiki.Lib.Cyclic

variable {α : Type}

/-- The cell that is `offset` cells after another one. -/
def index (size start offset : Nat) : Nat :=
  if start + offset < size then start + offset else start + offset - size

/-- What is stored in some cells from a cell on. -/
def content (buffer : Nat → α) (size start count : Nat) : List α :=
  (List.range count).map fun offset => buffer (index size start offset)

theorem index_ne {size start first second : Nat} (isBefore : first < second)
    (isOffset : second < size) :
    index size start first ≠ index size start second := by
  unfold index
  split <;> split <;> omega

section Index

variable {size start : Nat} (inside : start < size)

include inside

theorem index_lt {offset : Nat} (isOffset : offset < size) :
    index size start offset < size := by
  unfold index
  split <;> omega

theorem index_zero : index size start 0 = start :=
  if_pos inside

theorem index_index {first second : Nat}
    (isSum : first + second ≤ size) :
    index size (index size start first) second =
      index size start (first + second) := by
  unfold index
  split <;> split <;> split <;> omega

theorem index_eq_start {offset : Nat} (isOffset : offset ≤ size) :
    index size start offset = start ↔ offset = 0 ∨ offset = size := by
  unfold index
  split <;> omega

end Index

variable (buffer : Nat → α)

theorem content_succ (size start count : Nat) :
    content buffer size start (count + 1) =
      content buffer size start count ++
        [buffer (index size start count)] := by
  unfold content
  rw [List.range_succ, List.map_append]
  rfl

variable {size start count : Nat}

/-- The first cell, and what is stored from the cell behind it on. -/
theorem content_cons (inside : start < size) (room : count < size) :
    content buffer size start (count + 1) =
      buffer start :: content buffer size (index size start 1) count := by
  unfold content
  rw [List.range_succ_eq_map, List.map_cons, List.map_map,
    index_zero inside]
  congr 1
  apply List.map_congr_left
  intro offset isOffset
  have isBefore := List.mem_range.mp isOffset
  change buffer _ = buffer _
  rw [index_index inside (by omega), Nat.add_comm 1 offset]

theorem content_update_of_ne {buffer : Nat → α} {size start count cell : Nat}
    (outside : ∀ offset < count, index size start offset ≠ cell)
    (value : α) :
    content (Function.update buffer cell value) size start count =
      content buffer size start count := by
  apply List.map_congr_left
  intro offset isOffset
  exact Function.update_of_ne (outside offset (List.mem_range.mp isOffset))
    _ _

theorem content_update {buffer : Nat → α} {size start count : Nat}
    (room : count < size) (value : α) :
    content (Function.update buffer (index size start count) value) size
        start (count + 1) =
      content buffer size start count ++ [value] := by
  rw [content_succ, Function.update_self]
  congr 1
  exact content_update_of_ne
    (fun offset isBefore => index_ne isBefore room) value

/-- What is stored in cells that do not reach the end of the buffer. -/
theorem content_of_le (isBefore : start + count ≤ size) :
    content buffer size start count = (List.range' start count).map buffer := by
  unfold content
  rw [List.range'_eq_map_range, List.map_map]
  apply List.map_congr_left
  intro offset isOffset
  have isCell : start + offset < size := by
    have isCount := List.mem_range.mp isOffset
    omega
  rw [index, if_pos isCell]
  rfl

/-- What is stored in cells at the end and at the start of the buffer. -/
theorem content_of_ge (inside : start < size) (wraps : size ≤ start + count) :
    content buffer size start count =
      (List.range' start (size - start)).map buffer ++
        (List.range' 0 (start + count - size)).map buffer := by
  have split : count = (size - start) + (start + count - size) := by omega
  have first : content buffer size start (size - start) =
      (List.range' start (size - start)).map buffer :=
    content_of_le buffer (by omega)
  rw [← first]
  unfold content
  conv_lhs => rw [split]
  rw [List.range_add, List.map_append, List.map_map, List.range'_eq_map_range,
    List.map_map]
  congr 1
  apply List.map_congr_left
  intro offset isOffset
  have isCount := List.mem_range.mp isOffset
  have wrapped : index size start (size - start + offset) = 0 + offset := by
    unfold index
    split <;> omega
  exact congrArg buffer wrapped

end Contiki.Lib.Cyclic
