import Contiki.Lib.ByteMem
import Mathlib.Algebra.Order.Ring.Int

/-!
# Attributes and their values

`attribute.h`, and the conversions of `result.c` between the values in memory
and their physical representation in a row.
-/

namespace Contiki.Antelope

open Contiki.Lib

/-- The widths of `int` and `long` on a little-endian machine. -/
structure Machine where
  intBits : Nat
  longBits : Nat
  sixteen_le : 16 ≤ intBits
  thirtyTwo_le : 32 ≤ longBits
  int_le_long : intBits ≤ longBits

theorem sixteen_le_thirtyTwo : 16 ≤ 32 := by decide

theorem thirtyTwo_le_self : 32 ≤ 32 := Nat.le_refl 32

def Machine.ilp32 : Machine where
  intBits := 32
  longBits := 32
  sixteen_le := sixteen_le_thirtyTwo
  thirtyTwo_le := thirtyTwo_le_self
  int_le_long := thirtyTwo_le_self

/-- The value of a signed integer of `bits` bits that is assigned
`number`. -/
def signed (bits : Nat) (number : Int) : Int :=
  number.bmod (2 ^ bits)

/-- `db_result_t` -/
inductive DbResult where
  | finished
  | gotRow
  | ok
  | limitError
  | allocationError
  | storageError
  | parsingError
  | nameError
  | relationalError
  | typeError
  | implementationError
  | indexError
  | busyError
  | inconsistencyError
  | argumentError
  deriving DecidableEq

/-- `DB_ERROR` -/
def DbResult.isError : DbResult → Bool
  | .finished | .gotRow | .ok => false
  | _ => true

/-- `domain_t` -/
inductive Domain where
  | unspecified
  | int
  | long
  | string
  | float
  deriving DecidableEq

/-- `attribute_value_t`: the union has a number or the address of a string,
which is given by the memory from there on. -/
structure AttributeValue where
  domain : Domain
  number : Int
  string : ByteMem

/-- `VALUE_INT` of a union whose `long` is set. -/
def AttributeValue.int (machine : Machine) (value : AttributeValue) : Int :=
  signed machine.intBits value.number

/-- `VALUE_LONG` -/
def AttributeValue.long (machine : Machine) (value : AttributeValue) : Int :=
  signed machine.longBits value.number

/-- The sizes that the parser gives to the attributes of a domain, and the
least size that `relation_attribute_add` accepts. -/
def Domain.Sized (domain : Domain) (elementSize : Nat) : Prop :=
  match domain with
  | .int => elementSize = 2
  | .long => elementSize = 4
  | _ => 0 < elementSize

/-- The domains of attributes that have values. -/
def Domain.Valued : Domain → Prop
  | .int | .long | .string => True
  | _ => False

instance (domain : Domain) : Decidable domain.Valued := by
  unfold Domain.Valued
  cases domain <;> infer_instance

/-- `attribute_t`, without its index and its aggregation. -/
structure Attribute where
  name : String
  domain : Domain
  elementSize : Nat
  /-- `ATTRIBUTE_FLAG_NO_STORE` -/
  noStore : Bool
  sized : domain.Sized elementSize

theorem sized_int : Domain.int.Sized 2 := rfl

theorem Attribute.elementSize_pos (attr : Attribute) :
    0 < attr.elementSize := by
  obtain ⟨_, domain, elementSize, _, sized⟩ := attr
  cases domain with
  | int =>
      have isTwo : elementSize = 2 := sized
      exact isTwo ▸ Nat.zero_lt_two
  | long =>
      have isFour : elementSize = 4 := sized
      exact isFour ▸ Nat.zero_lt_succ 3
  | unspecified =>
      exact sized
  | string =>
      exact sized
  | float =>
      exact sized

/-- The byte that `unsigned char` keeps of a number. -/
def byte (number : Int) : UInt8 :=
  UInt8.ofNat (number % 2 ^ 8).toNat

/-- `db_value_to_phy` -/
def dbValueToPhy (machine : Machine) (attr : Attribute)
    (value : AttributeValue) : Except DbResult (List UInt8) :=
  match attr.domain with
  | .string =>
      .ok ((value.string.read 0 attr.elementSize).set
        (attr.elementSize - 1) 0)
  | .int =>
      let intValue := value.int machine
      .ok [byte (intValue >>> (8 : Nat)), byte intValue]
  | .long =>
      let longValue := value.long machine
      .ok [byte (longValue >>> (24 : Nat)), byte (longValue >>> (16 : Nat)),
        byte (longValue >>> (8 : Nat)), byte longValue]
  | _ => .error .typeError

/-- The number in two bytes, most significant first. -/
def twoBytes (bytes : ByteMem) : Int :=
  (bytes 0).toNat * 2 ^ 8 + (bytes 1).toNat

/-- The number in four bytes, most significant first. -/
def fourBytes (bytes : ByteMem) : Int :=
  (bytes 0).toNat * 2 ^ 24 + (bytes 1).toNat * 2 ^ 16 +
    (bytes 2).toNat * 2 ^ 8 + (bytes 3).toNat

/-- `db_phy_to_value`, for the representation at the start of `bytes`. -/
def dbPhyToValue (machine : Machine) (attr : Attribute)
    (bytes : ByteMem) : Except DbResult AttributeValue :=
  let value number string : AttributeValue :=
    { domain := attr.domain, number := number, string := string }
  match attr.domain with
  | .string =>
      .ok (value 0 (bytes.write (attr.elementSize - 1) [0]))
  | .int => .ok (value (signed machine.intBits (twoBytes bytes)) bytes)
  | .long => .ok (value (signed machine.longBits (fourBytes bytes)) bytes)
  | _ => .error .typeError

/-! ## Data -/

/-- What a user stores in an attribute. -/
inductive Datum where
  | number (value : Int)
  | text (characters : List UInt8)
  deriving DecidableEq

/-- The string at the start of `bytes`, of less than `limit` characters. -/
def cString (bytes : ByteMem) (limit : Nat) : List UInt8 :=
  (bytes.read 0 limit).takeWhile (· ≠ 0)

/-- The datum of a value that has been read from an attribute. -/
def AttributeValue.datum (machine : Machine) (attr : Attribute)
    (value : AttributeValue) : Datum :=
  match value.domain with
  | .int => .number (value.int machine)
  | .long => .number (value.long machine)
  | _ => .text (cString value.string attr.elementSize)

/-- The data in the domain of an attribute. -/
def Attribute.InDomain (attr : Attribute) : Datum → Prop
  | .number value =>
      (attr.domain = .int ∧ -2 ^ 15 ≤ value ∧ value < 2 ^ 15) ∨
        (attr.domain = .long ∧ -2 ^ 31 ≤ value ∧ value < 2 ^ 31)
  | .text characters =>
      attr.domain = .string ∧
        characters.length < attr.elementSize ∧ 0 ∉ characters

/-- A value that the parser makes of a literal. -/
def AttributeValue.IsLiteral (value : AttributeValue) : Datum → Prop
  | .number number => value.domain = .int ∧ value.number = number
  | .text characters =>
      value.domain = .string ∧
        value.string.read 0 (characters.length + 1) = characters ++ [0]

/-- The machine reads the number of a datum back: a negative number only if
it has the width of the attribute. -/
def Attribute.Signed (machine : Machine) (attr : Attribute) :
    Datum → Prop
  | .number value =>
      0 ≤ value ∨ (attr.domain = .int ∧ machine.intBits = 16) ∨
        (attr.domain = .long ∧ machine.longBits = 32)
  | .text _ => True

/-! ## Round trips -/

theorem toNat_byte (number : Int) :
    ((byte number).toNat : Int) = number % 2 ^ 8 := by
  unfold byte
  rw [UInt8.toNat_ofNat']
  omega

theorem signed_of_mem {bits : Nat} {number : Int} (pos : 0 < bits)
    (lower : -2 ^ (bits - 1) ≤ number) (upper : number < 2 ^ (bits - 1)) :
    signed bits number = number := by
  cases bits with
  | zero => exact absurd pos (Nat.lt_irrefl 0)
  | succ bits =>
  rw [Nat.add_sub_cancel] at lower upper
  unfold signed
  have double : (2 ^ (bits + 1) : Nat) = 2 * 2 ^ bits := Nat.pow_succ'
  refine Int.bmod_eq_of_le ?_ ?_
  · push_cast [double]
    omega
  · push_cast [double]
    omega

variable {machine : Machine}

theorem AttributeValue.int_of_mem
    {value : AttributeValue} (lower : -2 ^ 15 ≤ value.number)
    (upper : value.number < 2 ^ 15) : value.int machine = value.number := by
  have wide := machine.sixteen_le
  have power : (2 : Int) ^ 15 ≤ 2 ^ (machine.intBits - 1) :=
    pow_le_pow_right₀ (by decide) (by omega)
  exact signed_of_mem (by omega) (by omega) (by omega)

theorem AttributeValue.long_of_mem
    {value : AttributeValue} (lower : -2 ^ 31 ≤ value.number)
    (upper : value.number < 2 ^ 31) : value.long machine = value.number := by
  have wide := machine.thirtyTwo_le
  have power : (2 : Int) ^ 31 ≤ 2 ^ (machine.longBits - 1) :=
    pow_le_pow_right₀ (by decide) (by omega)
  exact signed_of_mem (by omega) (by omega) (by omega)

theorem signed_signed (bits : Nat) (number : Int) :
    signed bits (signed bits number) = signed bits number := by
  unfold signed
  exact Int.bmod_bmod

/-- A number of `width + 1` bits that is read into a wider integer. -/
theorem signed_emod_eq_iff {bits width : Nat} {number : Int}
    (wide : width + 1 ≤ bits) (lower : -2 ^ width ≤ number)
    (upper : number < 2 ^ width) :
    signed bits (number % 2 ^ (width + 1)) = number ↔
      0 ≤ number ∨ bits = width + 1 := by
  have double : (2 : Int) ^ (width + 1) = 2 ^ width + 2 ^ width := by
    rw [pow_succ]
    omega
  have positive : (0 : Int) < 2 ^ width := pow_pos (by decide) width
  by_cases negative : number < 0
  · have isShifted : number % 2 ^ (width + 1) =
        number + 2 ^ (width + 1) := by
      rw [← Int.add_emod_right]
      exact Int.emod_eq_of_lt (by omega) (by omega)
    rw [isShifted]
    by_cases same : bits = width + 1
    · subst same
      have isNumber : signed (width + 1) (number + 2 ^ (width + 1)) =
          signed (width + 1) number := by
        unfold signed
        exact_mod_cast Int.add_bmod_right number (2 ^ (width + 1))
      rw [isNumber, signed_of_mem (Nat.succ_pos width) lower upper]
      simp
    · have wider : (2 : Int) ^ (width + 1) ≤ 2 ^ (bits - 1) :=
        pow_le_pow_right₀ (by decide) (by omega)
      rw [signed_of_mem (by omega) (by omega) (by omega)]
      omega
  · have isNumber : number % 2 ^ (width + 1) = number :=
      Int.emod_eq_of_lt (by omega) (by omega)
    have wider : (2 : Int) ^ width ≤ 2 ^ (bits - 1) :=
      pow_le_pow_right₀ (by decide) (by omega)
    rw [isNumber, signed_of_mem (by omega) (by omega) (by omega)]
    simp [Int.not_lt.1 negative]

theorem twoBytes_of_read {number : Int} {row : ByteMem}
    (stored : row.read 0 2 = [byte (number >>> (8 : Nat)), byte number]) :
    twoBytes row = number % 2 ^ (15 + 1) := by
  obtain ⟨high, rest⟩ := List.cons.inj stored
  obtain ⟨low, -⟩ := List.cons.inj rest
  unfold twoBytes
  rw [high, low, toNat_byte, toNat_byte, Int.shiftRight_eq_div_pow]
  omega

theorem fourBytes_of_read {number : Int} {row : ByteMem}
    (stored : row.read 0 4 = [byte (number >>> (24 : Nat)),
      byte (number >>> (16 : Nat)), byte (number >>> (8 : Nat)),
      byte number]) :
    fourBytes row = number % 2 ^ (31 + 1) := by
  obtain ⟨first, rest⟩ := List.cons.inj stored
  obtain ⟨second, rest⟩ := List.cons.inj rest
  obtain ⟨third, rest⟩ := List.cons.inj rest
  obtain ⟨fourth, -⟩ := List.cons.inj rest
  unfold fourBytes
  rw [first, second, third, fourth, toNat_byte, toNat_byte, toNat_byte,
    toNat_byte, Int.shiftRight_eq_div_pow, Int.shiftRight_eq_div_pow,
    Int.shiftRight_eq_div_pow]
  omega

theorem takeWhile_of_prefix {characters rest : List UInt8}
    (noZero : 0 ∉ characters) :
    (characters ++ 0 :: rest).takeWhile (· ≠ 0) = characters := by
  have characterNeZero : ∀ character ∈ characters,
      decide (character ≠ 0) = true := by
    intro character member
    rw [decide_eq_true_iff]
    rintro rfl
    exact noZero member
  rw [List.takeWhile_append_of_pos characterNeZero,
    List.takeWhile_cons_of_neg (by simp), List.append_nil]

theorem cString_of_read {string row : ByteMem} {characters : List UInt8}
    {size : Nat} (isText : string.read 0 (characters.length + 1) =
      characters ++ [0])
    (short : characters.length < size) (noZero : 0 ∉ characters)
    (stored : row.read 0 size = (string.read 0 size).set (size - 1) 0) :
    cString (row.write (size - 1) [0]) size = characters := by
  have lastByte : row (size - 1) = 0 := by
    have found := congrArg (fun bytes => bytes[size - 1]?) stored
    rw [ByteMem.getElem?_read, if_pos (by omega), Nat.zero_add,
      List.getElem?_set_self (by rw [ByteMem.length_read]; omega)] at found
    exact Option.some.inj found
  have unchanged : row.write (size - 1) [0] = row := by
    funext address
    by_cases isLast : address = size - 1
    · subst isLast
      rw [lastByte]
      exact @ByteMem.write_inside row (size - 1) 0 [0] Nat.zero_lt_one
    · exact ByteMem.write_outside (by simp only [List.length_singleton]; omega)
  have split : size = (characters.length + 1) +
      (size - (characters.length + 1)) := by omega
  unfold cString
  rw [unchanged, stored, split, ByteMem.read_add, isText, ← split,
    List.append_assoc, List.set_append_right _ _ (by omega)]
  cases size - 1 - characters.length with
  | zero => exact takeWhile_of_prefix noZero
  | succ index => exact takeWhile_of_prefix noZero

/-- What is written for a literal of the domain, and when it is read
back. -/
theorem dbPhyToValue_dbValueToPhy {attr : Attribute}
    {datum : Datum} {value : AttributeValue} (inDomain : attr.InDomain datum)
    (literal : value.IsLiteral datum) :
    ∃ bytes, dbValueToPhy machine attr value = .ok bytes ∧
      bytes.length = attr.elementSize ∧
      ∀ row : ByteMem, row.read 0 attr.elementSize = bytes →
        ∃ decoded, dbPhyToValue machine attr row = .ok decoded ∧
          (decoded.datum machine attr = datum ↔
            attr.Signed machine datum) := by
  obtain ⟨_, domain, elementSize, _, sized⟩ := attr
  cases datum with
  | number number =>
      obtain ⟨-, rfl⟩ := literal
      rcases inDomain with ⟨isInt, lower, upper⟩ | ⟨isLong, lower, upper⟩
      · dsimp only at isInt
        subst isInt
        have isTwo : elementSize = 2 := sized
        subst isTwo
        have isNumber := @AttributeValue.int_of_mem machine value lower upper
        refine ⟨_, rfl, rfl, fun row stored => ⟨_, rfl, ?_⟩⟩
        rw [isNumber] at stored
        unfold AttributeValue.datum AttributeValue.int
        dsimp only
        rw [twoBytes_of_read stored, signed_signed, Datum.number.injEq,
          signed_emod_eq_iff machine.sixteen_le (by omega) (by omega)]
        simp [Attribute.Signed]
      · dsimp only at isLong
        subst isLong
        have isFour : elementSize = 4 := sized
        subst isFour
        have isNumber := @AttributeValue.long_of_mem machine value lower upper
        refine ⟨_, rfl, rfl, fun row stored => ⟨_, rfl, ?_⟩⟩
        rw [isNumber] at stored
        unfold AttributeValue.datum AttributeValue.long
        dsimp only
        rw [fourBytes_of_read stored, signed_signed, Datum.number.injEq,
          signed_emod_eq_iff machine.thirtyTwo_le (by omega) (by omega)]
        simp [Attribute.Signed]
  | text characters =>
      obtain ⟨isString, short, noZero⟩ := inDomain
      obtain ⟨-, isText⟩ := literal
      dsimp only at isString short
      subst isString
      refine ⟨_, rfl, by simp, fun row stored => ⟨_, rfl, ?_⟩⟩
      unfold AttributeValue.datum
      dsimp only
      rw [cString_of_read isText short noZero stored]
      simp [Attribute.Signed]

/-! ## The datum in a row -/

/-- The datum of an attribute whose representation starts at `bytes`. -/
def Attribute.datumAt (machine : Machine) (attr : Attribute)
    (bytes : ByteMem) : Except DbResult Datum :=
  (dbPhyToValue machine attr bytes).map
    (AttributeValue.datum machine attr)

theorem Attribute.datumAt_congr {attr : Attribute} {first second : ByteMem}
    (same : first.read 0 attr.elementSize =
      second.read 0 attr.elementSize) :
    attr.datumAt machine first = attr.datumAt machine second := by
  obtain ⟨name, domain, elementSize, noStore, sized⟩ := attr
  have agree : ∀ address, address < elementSize →
      first address = second address := fun address bound =>
    ByteMem.apply_of_read_eq same (Nat.zero_le _) (by simpa using bound)
  cases domain with
  | unspecified => rfl
  | float => rfl
  | int =>
      have isTwo : elementSize = 2 := sized
      subst isTwo
      have isSame : twoBytes first = twoBytes second := by
        unfold twoBytes
        rw [agree 0 (by decide), agree 1 (by decide)]
      exact congrArg (fun number => Except.ok (Datum.number
        (signed machine.intBits (signed machine.intBits number)))) isSame
  | long =>
      have isFour : elementSize = 4 := sized
      subst isFour
      have isSame : fourBytes first = fourBytes second := by
        unfold fourBytes
        rw [agree 0 (by decide), agree 1 (by decide), agree 2 (by decide),
          agree 3 (by decide)]
      exact congrArg (fun number => Except.ok (Datum.number
        (signed machine.longBits (signed machine.longBits number)))) isSame
  | string =>
      have isSame : (first.write (elementSize - 1) [0]).read 0 elementSize =
          (second.write (elementSize - 1) [0]).read 0 elementSize := by
        refine ByteMem.read_congr fun address _ bound => ?_
        unfold ByteMem.write
        rw [agree address (by simpa using bound)]
      exact congrArg (fun characters => Except.ok (Datum.text
        (characters.takeWhile (· ≠ 0)))) isSame

end Contiki.Antelope
