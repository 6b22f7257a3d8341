import Mathlib.Tactic.Common

/-!
# Byte-addressed memories

A memory assigns a byte to every address.  `ByteMem.read` is the contents of
a block of addresses and `ByteMem.write` stores a list of bytes at
consecutive addresses; everything outside the stored block keeps its value.
-/

namespace Contiki.Lib

/-- A memory that assigns a byte to every address. -/
abbrev ByteMem := Nat → UInt8

variable (memory : ByteMem) (offset : Nat)

namespace ByteMem

/-- The `count` bytes from `offset` on. -/
def read (memory : ByteMem) : Nat → Nat → List UInt8
  | _, 0 => []
  | offset, count + 1 =>
      memory offset :: read memory (offset + 1) count

/-- Store `bytes` at `offset` and the addresses after it. -/
def write (memory : ByteMem) (offset : Nat) (bytes : List UInt8) :
    ByteMem := fun address =>
  if address < offset then memory address
  else (bytes[address - offset]?).getD (memory address)

/-- The memory whose first bytes are `bytes` and whose rest is zero. -/
def ofList (bytes : List UInt8) : ByteMem := fun address =>
  bytes.getD address 0

@[simp]
theorem read_zero : memory.read offset 0 = [] := rfl

theorem read_succ (offset count : Nat) :
    memory.read offset (count + 1) =
      memory offset :: memory.read (offset + 1) count := rfl

@[simp]
theorem length_read (offset count : Nat) :
    (memory.read offset count).length = count := by
  induction count generalizing offset with
  | zero =>
      rfl
  | succ count inductionHypothesis =>
      simp [read_succ, inductionHypothesis]

theorem getElem?_read (offset count index : Nat) :
    (memory.read offset count)[index]? =
      if index < count then some (memory (offset + index))
      else none := by
  induction count generalizing offset index with
  | zero =>
      simp
  | succ count inductionHypothesis =>
      cases index with
      | zero =>
          simp [read_succ]
      | succ index =>
          simp only [read_succ, List.getElem?_cons_succ,
            inductionHypothesis, Nat.succ_lt_succ_iff]
          rw [show offset + 1 + index = offset + (index + 1) by omega]

@[simp]
theorem getElem_read (offset count index : Nat)
    (bound : index < (memory.read offset count).length) :
    (memory.read offset count)[index] = memory (offset + index) := by
  have inside : index < count := by
    simpa using bound
  have found := getElem?_read memory offset count index
  rw [if_pos inside, List.getElem?_eq_getElem bound] at found
  exact Option.some.inj found

theorem read_add (offset first second : Nat) :
    memory.read offset (first + second) =
      memory.read offset first ++
        memory.read (offset + first) second := by
  induction first generalizing offset with
  | zero =>
      simp
  | succ first inductionHypothesis =>
      rw [show first + 1 + second = (first + second) + 1 by omega,
        read_succ, read_succ, inductionHypothesis,
        show offset + 1 + first = offset + (first + 1) by omega]
      rfl

theorem drop_read (offset count dropped : Nat) :
    (memory.read offset count).drop dropped =
      memory.read (offset + dropped) (count - dropped) := by
  apply List.ext_getElem (by simp)
  intro index leftBound _
  simp only [List.length_drop, length_read] at leftBound
  simp [Nat.add_assoc]

theorem read_congr
    {first second : ByteMem} {offset count : Nat}
    (agree : ∀ address, offset ≤ address → address < offset + count →
      first address = second address) :
    first.read offset count = second.read offset count := by
  apply List.ext_getElem (by simp)
  intro index leftBound _
  simp only [length_read] at leftBound
  simpa using agree (offset + index) (by omega) (by omega)

theorem apply_of_read_eq
    {first second : ByteMem} {offset count address : Nat}
    (same : first.read offset count = second.read offset count)
    (lower : offset ≤ address) (upper : address < offset + count) :
    first address = second address := by
  have element := congrArg (fun bytes => bytes[address - offset]?) same
  have index : offset + (address - offset) = address := by omega
  simp only [getElem?_read] at element
  rw [if_pos (by omega), if_pos (by omega), index] at element
  exact Option.some.inj element

/-- A block has the contents `bytes` exactly when each of its addresses
holds the byte of that position. -/
theorem read_eq_iff
    {memory : ByteMem} {offset : Nat} {bytes : List UInt8} :
    memory.read offset bytes.length = bytes ↔
      ∀ index (bound : index < bytes.length),
        memory (offset + index) = bytes[index] := by
  constructor
  · intro same index bound
    have readBound :
        index < (memory.read offset bytes.length).length := by
      simpa using bound
    have found := getElem_read memory offset bytes.length index readBound
    rw [← found]
    exact List.getElem_of_eq same readBound
  · intro pointwise
    apply List.ext_getElem (by simp)
    intro index _ rightBound
    simpa using pointwise index rightBound

theorem write_of_lt
    {memory : ByteMem} {offset address : Nat} {bytes : List UInt8}
    (before : address < offset) :
    memory.write offset bytes address = memory address := by
  simp [write, before]

theorem write_of_ge
    {memory : ByteMem} {offset address : Nat} {bytes : List UInt8}
    (after : offset + bytes.length ≤ address) :
    memory.write offset bytes address = memory address := by
  have notBefore : ¬ address < offset := by omega
  have outside : bytes[address - offset]? = none :=
    List.getElem?_eq_none (by omega)
  simp [write, notBefore, outside]

theorem write_outside
    {memory : ByteMem} {offset address : Nat} {bytes : List UInt8}
    (outside : address < offset ∨ offset + bytes.length ≤ address) :
    memory.write offset bytes address = memory address := by
  rcases outside with before | after
  · exact write_of_lt before
  · exact write_of_ge after

theorem write_inside
    {memory : ByteMem} {offset : Nat} (index : Nat) {bytes : List UInt8}
    (bound : index < bytes.length) :
    memory.write offset bytes (offset + index) = bytes[index] := by
  have notBefore : ¬ offset + index < offset := by omega
  simp [write, notBefore, bound]

@[simp]
theorem write_nil : memory.write offset [] = memory := by
  funext address
  simp [write]

@[simp]
theorem read_write_self (bytes : List UInt8) :
    (memory.write offset bytes).read offset bytes.length = bytes :=
  read_eq_iff.mpr fun index bound => write_inside index bound

theorem read_write_of_length
    {memory : ByteMem} {offset count : Nat} {bytes : List UInt8}
    (length : bytes.length = count) :
    (memory.write offset bytes).read offset count = bytes := by
  rw [← length, read_write_self]

theorem read_write_disjoint
    {memory : ByteMem} {offset count target : Nat}
    {bytes : List UInt8}
    (disjoint :
      offset + count ≤ target ∨ target + bytes.length ≤ offset) :
    (memory.write target bytes).read offset count =
      memory.read offset count := by
  apply read_congr
  intro address lower upper
  exact write_outside (by omega)

theorem write_read_apply
    (target source : ByteMem) (offset count address : Nat) :
    target.write offset (source.read offset count) address =
      if offset ≤ address ∧ address < offset + count then source address
      else target address := by
  split
  · next inside =>
      have index : offset + (address - offset) = address := by omega
      have bound : address - offset <
          (source.read offset count).length := by
        rw [length_read]
        omega
      have written : target.write offset (source.read offset count)
          (offset + (address - offset)) = _ := write_inside _ bound
      rw [getElem_read, index] at written
      exact written
  · next outside =>
      exact write_outside (by simp; omega)

theorem write_comm
    {memory : ByteMem} {offset target : Nat} {first second : List UInt8}
    (disjoint : offset + first.length ≤ target ∨
      target + second.length ≤ offset) :
    (memory.write offset first).write target second =
      (memory.write target second).write offset first := by
  funext address
  by_cases inFirst : offset ≤ address ∧ address < offset + first.length
  · have position : offset + (address - offset) = address := by omega
    rw [write_outside (by omega), ← position,
      write_inside _ (by omega), write_inside _ (by omega)]
  · have kept : ((memory.write target second).write offset first) address =
        memory.write target second address := write_outside (by omega)
    rw [kept]
    by_cases inSecond :
        target ≤ address ∧ address < target + second.length
    · have position : target + (address - target) = address := by omega
      rw [← position, write_inside _ (by omega),
        write_inside _ (by omega)]
    · rw [write_outside (by omega), write_outside (by omega),
        write_outside (by omega)]

@[simp]
theorem read_ofList (bytes : List UInt8) :
    (ofList bytes).read 0 bytes.length = bytes :=
  read_eq_iff.mpr fun index bound => by
    simp [ofList, bound]

/-! ## Stores that do not depend on the memory -/

/-- What `store` leaves at the `positions` does not depend on the memory, and
elsewhere it depends on the byte at the same address. -/
def Fills (store : ByteMem → ByteMem) (positions : Nat → Prop) : Prop :=
  ∀ (first second : ByteMem) (position : Nat),
    (positions position ∨ first position = second position) →
      store first position = store second position

theorem fills_id : Fills (fun memory => memory) fun _ => False :=
  fun _ _ _ agree => agree.resolve_left not_false

theorem Fills.write {store : ByteMem → ByteMem}
    {positions : Nat → Prop} (fills : Fills store positions)
    (offset : Nat) (bytes : List UInt8) :
    Fills (fun memory => (store memory).write offset bytes)
      fun position => positions position ∨
        (offset ≤ position ∧ position < offset + bytes.length) := by
  intro first second position agree
  by_cases inside : offset ≤ position ∧ position < offset + bytes.length
  · have index : offset + (position - offset) = position := by omega
    dsimp only
    rw [← index, write_inside _ (by omega), write_inside _ (by omega)]
  · dsimp only
    rw [write_outside (by omega), write_outside (by omega)]
    exact fills _ _ _
      (agree.imp_left fun either => either.resolve_right inside)

theorem Fills.mono {store : ByteMem → ByteMem}
    {positions fewer : Nat → Prop} (fills : Fills store positions)
    (subset : ∀ position, fewer position → positions position) :
    Fills store fewer :=
  fun _ _ _ agree => fills _ _ _ (agree.imp_left (subset _))

/-! ## Memory from an address on -/

/-- The memory that starts at an address. -/
def shift (memory : ByteMem) (base : Nat) : ByteMem :=
  fun address => memory (base + address)

@[simp]
theorem shift_apply (base address : Nat) :
    memory.shift base address = memory (base + address) := rfl

@[simp]
theorem read_shift (base offset count : Nat) :
    (memory.shift base).read offset count =
      memory.read (base + offset) count := by
  apply List.ext_getElem (by simp)
  intro index _ _
  simp [Nat.add_assoc]

/-- The memory holds a list of bytes at an address. -/
def Holds (memory : ByteMem) (base : Nat) (bytes : List UInt8) : Prop :=
  memory.read base bytes.length = bytes

instance (memory : ByteMem) (base : Nat) (bytes : List UInt8) :
    Decidable (memory.Holds base bytes) :=
  inferInstanceAs (Decidable (_ = _))

theorem holds_append {memory : ByteMem} {base : Nat}
    {first second : List UInt8} :
    memory.Holds base (first ++ second) ↔
      memory.Holds base first ∧
        memory.Holds (base + first.length) second := by
  rw [Holds, List.length_append, read_add]
  constructor
  · intro both
    exact List.append_inj both (by simp)
  · rintro ⟨left, right⟩
    rw [Holds] at left right
    rw [left, right]

theorem holds_shift {memory : ByteMem} {base : Nat}
    {bytes : List UInt8} :
    (memory.shift base).Holds 0 bytes ↔ memory.Holds base bytes := by
  rw [Holds, Holds, read_shift, Nat.add_zero]

theorem Holds.apply {memory : ByteMem} {base : Nat}
    {bytes : List UInt8} (holds : memory.Holds base bytes) (index : Nat)
    (bound : index < bytes.length) :
    memory (base + index) = bytes[index] :=
  read_eq_iff.mp holds index bound

end ByteMem

end Contiki.Lib
