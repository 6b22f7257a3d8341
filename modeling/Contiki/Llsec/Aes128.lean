import Contiki.Lib.ByteMem
import Mathlib.Data.List.Nodup
import Mathlib.Tactic.IntervalCases

/-!
# AES-128

`aes-128.c` encrypts a block in place.  The rounds are the ones of the
standard, and no two blocks have the same ciphertext under a key.
-/

namespace Contiki.Llsec.Aes128

open Contiki.Lib

/-! ## The code -/

def sboxTable : List UInt8 :=
  [0x63, 0x7c, 0x77, 0x7b, 0xf2, 0x6b, 0x6f, 0xc5, 0x30, 0x01, 0x67, 0x2b,
    0xfe, 0xd7, 0xab, 0x76, 0xca, 0x82, 0xc9, 0x7d, 0xfa, 0x59, 0x47, 0xf0,
    0xad, 0xd4, 0xa2, 0xaf, 0x9c, 0xa4, 0x72, 0xc0, 0xb7, 0xfd, 0x93, 0x26,
    0x36, 0x3f, 0xf7, 0xcc, 0x34, 0xa5, 0xe5, 0xf1, 0x71, 0xd8, 0x31, 0x15,
    0x04, 0xc7, 0x23, 0xc3, 0x18, 0x96, 0x05, 0x9a, 0x07, 0x12, 0x80, 0xe2,
    0xeb, 0x27, 0xb2, 0x75, 0x09, 0x83, 0x2c, 0x1a, 0x1b, 0x6e, 0x5a, 0xa0,
    0x52, 0x3b, 0xd6, 0xb3, 0x29, 0xe3, 0x2f, 0x84, 0x53, 0xd1, 0x00, 0xed,
    0x20, 0xfc, 0xb1, 0x5b, 0x6a, 0xcb, 0xbe, 0x39, 0x4a, 0x4c, 0x58, 0xcf,
    0xd0, 0xef, 0xaa, 0xfb, 0x43, 0x4d, 0x33, 0x85, 0x45, 0xf9, 0x02, 0x7f,
    0x50, 0x3c, 0x9f, 0xa8, 0x51, 0xa3, 0x40, 0x8f, 0x92, 0x9d, 0x38, 0xf5,
    0xbc, 0xb6, 0xda, 0x21, 0x10, 0xff, 0xf3, 0xd2, 0xcd, 0x0c, 0x13, 0xec,
    0x5f, 0x97, 0x44, 0x17, 0xc4, 0xa7, 0x7e, 0x3d, 0x64, 0x5d, 0x19, 0x73,
    0x60, 0x81, 0x4f, 0xdc, 0x22, 0x2a, 0x90, 0x88, 0x46, 0xee, 0xb8, 0x14,
    0xde, 0x5e, 0x0b, 0xdb, 0xe0, 0x32, 0x3a, 0x0a, 0x49, 0x06, 0x24, 0x5c,
    0xc2, 0xd3, 0xac, 0x62, 0x91, 0x95, 0xe4, 0x79, 0xe7, 0xc8, 0x37, 0x6d,
    0x8d, 0xd5, 0x4e, 0xa9, 0x6c, 0x56, 0xf4, 0xea, 0x65, 0x7a, 0xae, 0x08,
    0xba, 0x78, 0x25, 0x2e, 0x1c, 0xa6, 0xb4, 0xc6, 0xe8, 0xdd, 0x74, 0x1f,
    0x4b, 0xbd, 0x8b, 0x8a, 0x70, 0x3e, 0xb5, 0x66, 0x48, 0x03, 0xf6, 0x0e,
    0x61, 0x35, 0x57, 0xb9, 0x86, 0xc1, 0x1d, 0x9e, 0xe1, 0xf8, 0x98, 0x11,
    0x69, 0xd9, 0x8e, 0x94, 0x9b, 0x1e, 0x87, 0xe9, 0xce, 0x55, 0x28, 0xdf,
    0x8c, 0xa1, 0x89, 0x0d, 0xbf, 0xe6, 0x42, 0x68, 0x41, 0x99, 0x2d, 0x0f,
    0xb0, 0x54, 0xbb, 0x16]

def sbox (value : UInt8) : UInt8 := sboxTable.getD value.toNat 0

def galoisMul2 (value : UInt8) : UInt8 :=
  if value >>> 7 = 0 then value <<< 1 else value <<< 1 ^^^ 0x1b

/-- A loop over the first bytes of a block, each of which is written. -/
def forBytes (change : Nat → UInt8 → UInt8) (count : Nat) (state : ByteMem) :
    ByteMem :=
  (List.range count).foldl
    (fun state i => Function.update state i (change i (state i))) state

def store (index : Nat) (value : UInt8) (state : ByteMem) : ByteMem :=
  Function.update state index value

def nextKey (previous : ByteMem) (rcon : UInt8) (key : ByteMem) : ByteMem :=
  let key := store 0 (sbox (previous 13) ^^^ previous 0 ^^^ rcon) key
  let key := store 1 (sbox (previous 14) ^^^ previous 1) key
  let key := store 2 (sbox (previous 15) ^^^ previous 2) key
  let key := store 3 (sbox (previous 12) ^^^ previous 3) key
  (List.range' 4 12).foldl
    (fun key j => store j (previous j ^^^ key (j - 4)) key) key

/-- The round keys, and the constant for the next one.  They are stored over
`stale` ones. -/
def setKey (key : ByteMem) (stale : Nat → ByteMem) : Nat → ByteMem × UInt8
  | 0 => (key, 0x01)
  | i + 1 =>
      let (previous, rcon) := setKey key stale i
      (nextKey previous rcon (stale (i + 1)), galoisMul2 rcon)

/-- The rows of a block, which lie four bytes apart, are rotated. -/
def shiftRow (state : ByteMem) : ByteMem :=
  let buf1 := state 1
  let state := store 1 (state 5) state
  let state := store 5 (state 9) state
  let state := store 9 (state 13) state
  let state := store 13 buf1 state
  let buf1 := state 2
  let buf2 := state 6
  let state := store 2 (state 10) state
  let state := store 6 (state 14) state
  let state := store 10 buf1 state
  let state := store 14 buf2 state
  let buf1 := state 15
  let state := store 15 (state 11) state
  let state := store 11 (state 7) state
  let state := store 7 (state 3) state
  store 3 buf1 state

/-- One pass of the loop over the columns. -/
def mixColumn (state : ByteMem) (i : Nat) : ByteMem :=
  let buf4 := 4 * i
  let buf1 := state buf4 ^^^ state (buf4 + 1) ^^^ state (buf4 + 2) ^^^
    state (buf4 + 3)
  let buf2 := state buf4
  let buf3 := galoisMul2 (state buf4 ^^^ state (buf4 + 1))
  let state := store buf4 (state buf4 ^^^ buf3 ^^^ buf1) state
  let buf3 := galoisMul2 (state (buf4 + 1) ^^^ state (buf4 + 2))
  let state := store (buf4 + 1) (state (buf4 + 1) ^^^ buf3 ^^^ buf1) state
  let buf3 := galoisMul2 (state (buf4 + 2) ^^^ state (buf4 + 3))
  let state := store (buf4 + 2) (state (buf4 + 2) ^^^ buf3 ^^^ buf1) state
  let buf3 := galoisMul2 (state (buf4 + 3) ^^^ buf2)
  store (buf4 + 3) (state (buf4 + 3) ^^^ buf3 ^^^ buf1) state

def addRoundKey (key state : ByteMem) : ByteMem :=
  forBytes (fun i byte => byte ^^^ key i) 16 state

def encryptRound (roundKeys : Nat → ByteMem) (state : ByteMem)
    (round : Nat) : ByteMem :=
  let state := forBytes (fun _ => sbox) 16 state
  let state := shiftRow state
  let state :=
    if round < 10 then (List.range 4).foldl mixColumn state else state
  addRoundKey (roundKeys round) state

def encrypt (roundKeys : Nat → ByteMem) (state : ByteMem) : ByteMem :=
  (List.range' 1 10).foldl (encryptRound roundKeys)
    (addRoundKey (roundKeys 0) state)

/-- An example of the standard. -/
example : (encrypt
    (fun round => (setKey (fun i => UInt8.ofNat i) (fun _ _ => 0) round).1)
    fun i => UInt8.ofNat (17 * i)).read 0 16 =
      [0x69, 0xc4, 0xe0, 0xd8, 0x6a, 0x7b, 0x04, 0x30, 0xd8, 0xcd, 0xb7,
        0x80, 0x70, 0xb4, 0xc5, 0x5a] := by
  decide +kernel

/-! ## The rounds of the standard -/

def subBytes (state : ByteMem) : ByteMem := fun i => sbox (state i)

def shiftRows (state : ByteMem) : ByteMem :=
  fun i => state ((i + 4 * (i % 4)) % 16)

/-- The byte that is some bytes further in the same column. -/
def further (i count : Nat) : Nat := 4 * (i / 4) + (i + count) % 4

def mixColumns (state : ByteMem) : ByteMem := fun i =>
  galoisMul2 (state i) ^^^
    (galoisMul2 (state (further i 1)) ^^^ state (further i 1)) ^^^
    state (further i 2) ^^^ state (further i 3)

def cipherRound (roundKeys : Nat → ByteMem) (state : ByteMem)
    (round : Nat) : ByteMem := fun i =>
  (if round < 10 then mixColumns (shiftRows (subBytes state))
    else shiftRows (subBytes state)) i ^^^ roundKeys round i

def cipher (roundKeys : Nat → ByteMem) (state : ByteMem) : ByteMem :=
  (List.range' 1 10).foldl (cipherRound roundKeys)
    fun i => state i ^^^ roundKeys 0 i

def SameBlock (first second : ByteMem) : Prop :=
  ∀ i < 16, first i = second i

variable {first second state : ByteMem} {roundKeys : Nat → ByteMem}

/-! ## Loops that write in place -/

theorem forBytes_apply (change : Nat → UInt8 → UInt8) (count : Nat)
    (state : ByteMem) (i : Nat) :
    forBytes change count state i =
      if i < count then change i (state i) else state i := by
  unfold forBytes
  induction count with
  | zero =>
      rfl
  | succ count inductionHypothesis =>
      rw [List.range_succ, List.foldl_append, List.foldl_cons, List.foldl_nil]
      by_cases isLast : i = count
      · subst isLast
        rw [Function.update_self, inductionHypothesis,
          if_neg (Nat.lt_irrefl i), if_pos (Nat.lt_succ_self i)]
      · rw [Function.update_of_ne isLast, inductionHypothesis]
        have same : i < count + 1 ↔ i < count := by omega
        rw [if_congr same rfl rfl]

theorem shiftRow_same (state : ByteMem) :
    SameBlock (shiftRow state) (shiftRows state) := by
  intro i inside
  interval_cases i <;> rfl

/-- What the loop over the columns stores in a byte. -/
def mixedByte (state : ByteMem) (i : Nat) : UInt8 :=
  state i ^^^ galoisMul2 (state i ^^^ state (further i 1)) ^^^
    (state (4 * (i / 4)) ^^^ state (4 * (i / 4) + 1) ^^^
      state (4 * (i / 4) + 2) ^^^ state (4 * (i / 4) + 3))

theorem mixColumn_apply (state : ByteMem) (column i : Nat) :
    mixColumn state column i =
      if i / 4 = column then mixedByte state i else state i := by
  unfold mixColumn store
  split
  next inside =>
    subst inside
    have position : i = 4 * (i / 4) + i % 4 := by omega
    have next : (i + 1) % 4 = (i % 4 + 1) % 4 := by omega
    have small : i % 4 < 4 := Nat.mod_lt i (by decide)
    unfold mixedByte further
    rw [next]
    generalize i / 4 = column at position
    generalize i % 4 = row at position small
    subst position
    interval_cases row <;> simp
  next outside =>
    rw [Function.update_of_ne (by omega), Function.update_of_ne (by omega),
      Function.update_of_ne (by omega), Function.update_of_ne (by omega)]

/-- The columns are mixed one after another, and each from its own bytes. -/
theorem mixLoop_apply (state : ByteMem) (count i : Nat) :
    (List.range count).foldl mixColumn state i =
      if i / 4 < count then mixedByte state i else state i := by
  induction count generalizing i with
  | zero =>
      rfl
  | succ count inductionHypothesis =>
      rw [List.range_succ, List.foldl_append, List.foldl_cons, List.foldl_nil,
        mixColumn_apply]
      by_cases isLast : i / 4 = count
      · have unmixed : ∀ j, j / 4 = count →
            (List.range count).foldl mixColumn state j = state j := by
          intro j isColumn
          rw [inductionHypothesis, if_neg (by omega)]
        unfold mixedByte further
        rw [if_pos isLast, if_pos (by omega), unmixed i isLast,
          unmixed _ (by omega), unmixed _ (by omega), unmixed _ (by omega),
          unmixed _ (by omega), unmixed _ (by omega)]
      · have same : i / 4 < count + 1 ↔ i / 4 < count := by omega
        rw [if_neg isLast, inductionHypothesis, if_congr same rfl rfl]

/-! ## Arithmetic -/

theorem shiftRight_le_one (value : UInt8) :
    value >>> 7 = 0 ∨ value >>> 7 = 1 := by
  have bound := value.toNat_lt
  have shifted : (value >>> 7).toNat = value.toNat / 128 := by
    rw [UInt8.toNat_shiftRight, Nat.shiftRight_eq_div_pow]
    rfl
  have small : (value >>> 7).toNat = 0 ∨ (value >>> 7).toNat = 1 := by omega
  exact small.imp UInt8.toNat_inj.mp UInt8.toNat_inj.mp

theorem galoisMul2_xor (a b : UInt8) :
    galoisMul2 (a ^^^ b) = galoisMul2 a ^^^ galoisMul2 b := by
  unfold galoisMul2
  rw [UInt8.shiftRight_xor, UInt8.shiftLeft_xor]
  cases shiftRight_le_one a with
  | inl first =>
      cases shiftRight_le_one b with
      | inl second =>
          simp [first, second]
      | inr second =>
          simp [first, second, UInt8.xor_assoc]
  | inr first =>
      cases shiftRight_le_one b with
      | inl second =>
          simp [first, second]
          ac_rfl
      | inr second =>
          simp [first, second]
          have pairs : a <<< 1 ^^^ (0x1b : UInt8) ^^^
                (b <<< 1 ^^^ (0x1b : UInt8)) =
              a <<< 1 ^^^ b <<< 1 ^^^ ((0x1b : UInt8) ^^^ (0x1b : UInt8)) := by
            ac_rfl
          rw [pairs, UInt8.xor_self, UInt8.xor_zero]

theorem sbox_injective : Function.Injective sbox := by
  intro a b same
  have nodup : (sboxTable.map UInt8.toNat).Nodup := by decide +kernel
  have length : sboxTable.length = 256 := by decide +kernel
  have inside (value : UInt8) : value.toNat < sboxTable.length := by
    rw [length]
    exact value.toNat_lt
  unfold sbox at same
  rw [List.getD_eq_getElem?_getD, List.getD_eq_getElem?_getD,
    List.getElem?_eq_getElem (inside a), List.getElem?_eq_getElem (inside b),
    Option.getD_some, Option.getD_some, nodup.of_map.getElem_inj_iff] at same
  exact UInt8.toNat_inj.mp same

/-- The byte of a column as the code computes it, with the sum of the
column. -/
theorem mixed_eq (a b c d : UInt8) :
    a ^^^ galoisMul2 (a ^^^ b) ^^^ (a ^^^ b ^^^ c ^^^ d) =
      galoisMul2 a ^^^ (galoisMul2 b ^^^ b) ^^^ c ^^^ d := by
  rw [galoisMul2_xor]
  have pairs : a ^^^ (galoisMul2 a ^^^ galoisMul2 b) ^^^
      (a ^^^ b ^^^ c ^^^ d) = a ^^^ a ^^^
        (galoisMul2 a ^^^ (galoisMul2 b ^^^ b) ^^^ c ^^^ d) := by
    ac_rfl
  rw [pairs, UInt8.xor_self, UInt8.zero_xor]

theorem columnSum_eq (state : ByteMem) (i : Nat) :
    state (4 * (i / 4)) ^^^ state (4 * (i / 4) + 1) ^^^
        state (4 * (i / 4) + 2) ^^^ state (4 * (i / 4) + 3) =
      state i ^^^ state (further i 1) ^^^ state (further i 2) ^^^
        state (further i 3) := by
  have position : i = 4 * (i / 4) + i % 4 := by omega
  have small : i % 4 < 4 := Nat.mod_lt i (by decide)
  have sums (count : Nat) : (i + count) % 4 = (i % 4 + count) % 4 := by omega
  unfold further
  rw [sums 1, sums 2, sums 3]
  have first : state i = state (4 * (i / 4) + i % 4) := congrArg state position
  rw [first]
  generalize i / 4 = column
  generalize i % 4 = row at small
  interval_cases row <;> simp <;> ac_rfl

theorem mixedByte_eq (state : ByteMem) (i : Nat) :
    mixedByte state i = mixColumns state i := by
  unfold mixedByte mixColumns
  rw [columnSum_eq, mixed_eq]

/-! ## The code computes the cipher of the standard -/

theorem addRoundKey_same (key : ByteMem) (same : SameBlock first second) :
    SameBlock (addRoundKey key first) fun i => second i ^^^ key i := by
  intro i inside
  unfold addRoundKey
  rw [forBytes_apply, if_pos inside, same i inside]

theorem further_lt {i : Nat} (inside : i < 16) (count : Nat) :
    further i count < 16 := by
  unfold further
  omega

theorem mixColumns_same (same : SameBlock first second) :
    SameBlock (mixColumns first) (mixColumns second) := by
  intro i inside
  unfold mixColumns
  rw [same i inside, same _ (further_lt inside 1),
    same _ (further_lt inside 2), same _ (further_lt inside 3)]

theorem shiftRows_subBytes_same (same : SameBlock first second) :
    SameBlock (shiftRows (subBytes first)) (shiftRows (subBytes second)) := by
  intro i _
  exact congrArg sbox (same _ (Nat.mod_lt _ (by decide)))

theorem cipherRound_same (roundKeys : Nat → ByteMem)
    (same : SameBlock first second) (round : Nat) :
    SameBlock (cipherRound roundKeys first round)
      (cipherRound roundKeys second round) := by
  have shifted := shiftRows_subBytes_same same
  intro i inside
  unfold cipherRound
  split
  · rw [mixColumns_same shifted i inside]
  · rw [shifted i inside]

theorem encryptRound_same (roundKeys : Nat → ByteMem) (state : ByteMem)
    (round : Nat) :
    SameBlock (encryptRound roundKeys state round)
      (cipherRound roundKeys state round) := by
  have substituted : SameBlock (forBytes (fun _ => sbox) 16 state)
      (subBytes state) := by
    intro i inside
    rw [forBytes_apply, if_pos inside]
    rfl
  have shifted : SameBlock (shiftRow (forBytes (fun _ => sbox) 16 state))
      (shiftRows (subBytes state)) := by
    intro i inside
    rw [shiftRow_same _ i inside]
    exact substituted _ (Nat.mod_lt _ (by decide))
  apply addRoundKey_same
  split
  next =>
    intro i inside
    rw [mixLoop_apply, if_pos (by omega), mixedByte_eq,
      mixColumns_same shifted i inside]
  next =>
    exact shifted

theorem encrypt_same (roundKeys : Nat → ByteMem) (state : ByteMem) :
    SameBlock (encrypt roundKeys state) (cipher roundKeys state) := by
  have rounds : ∀ (list : List Nat) (first second : ByteMem),
      SameBlock first second →
        SameBlock (list.foldl (encryptRound roundKeys) first)
          (list.foldl (cipherRound roundKeys) second) := by
    intro list
    induction list with
    | nil =>
        exact fun _ _ same => same
    | cons round list inductionHypothesis =>
        intro first second same
        apply inductionHypothesis
        intro i inside
        rw [encryptRound_same roundKeys first round i inside]
        exact cipherRound_same roundKeys same round i inside
  exact rounds _ _ _ (addRoundKey_same _ fun _ _ => rfl)

theorem read_block_iff :
    first.read 0 16 = second.read 0 16 ↔ SameBlock first second :=
  ⟨fun same i inside =>
      ByteMem.apply_of_read_eq same (Nat.zero_le i) (by omega),
    fun same => ByteMem.read_congr fun i _ inside => same i (by omega)⟩

/-- The in-place rounds with the sum of each column are the rounds of the
standard. -/
theorem encrypt_eq_cipher (roundKeys : Nat → ByteMem) (state : ByteMem) :
    (encrypt roundKeys state).read 0 16 =
      (cipher roundKeys state).read 0 16 :=
  read_block_iff.mpr (encrypt_same roundKeys state)

/-! ## Blocks can be decrypted -/

theorem mixed_twice (a b c d : UInt8) :
    let first := galoisMul2 a ^^^ (galoisMul2 b ^^^ b) ^^^ c ^^^ d
    let second := galoisMul2 b ^^^ (galoisMul2 c ^^^ c) ^^^ d ^^^ a
    let third := galoisMul2 c ^^^ (galoisMul2 d ^^^ d) ^^^ a ^^^ b
    let fourth := galoisMul2 d ^^^ (galoisMul2 a ^^^ a) ^^^ b ^^^ c
    galoisMul2 first ^^^ (galoisMul2 second ^^^ second) ^^^ third ^^^
        fourth =
      a ^^^ galoisMul2 (galoisMul2 (a ^^^ c)) := by
  simp only [galoisMul2_xor]
  generalize galoisMul2 (galoisMul2 a) = ttA
  generalize galoisMul2 (galoisMul2 b) = ttB
  generalize galoisMul2 (galoisMul2 c) = ttC
  generalize galoisMul2 a = tA
  generalize galoisMul2 b = tB
  generalize galoisMul2 c = tC
  generalize galoisMul2 d = tD
  calc
    _ = ttB ^^^ ttB ^^^ (tA ^^^ tA) ^^^ (tB ^^^ tB) ^^^
          (tC ^^^ tC ^^^ (tC ^^^ tC)) ^^^ (tD ^^^ tD ^^^ (tD ^^^ tD)) ^^^
          (a ^^^ a) ^^^ (b ^^^ b) ^^^ (c ^^^ c) ^^^ (d ^^^ d) ^^^
          (a ^^^ (ttA ^^^ ttC)) := by
      ac_rfl
    _ = a ^^^ (ttA ^^^ ttC) := by
      simp only [UInt8.xor_self, UInt8.zero_xor]

theorem further_further (i count more : Nat) :
    further (further i count) more = further i (count + more) := by
  unfold further
  omega

theorem further_four_add (i count : Nat) :
    further i (4 + count) = further i count := by
  unfold further
  omega

theorem further_zero (i : Nat) : further i 0 = i := by
  unfold further
  omega

theorem mixColumns_twice (state : ByteMem) (i : Nat) :
    mixColumns (mixColumns state) i =
      state i ^^^
        galoisMul2 (galoisMul2 (state i ^^^ state (further i 2))) := by
  have four : further i 4 = i := (further_four_add i 0).trans (further_zero i)
  have five := further_four_add i 1
  have six := further_four_add i 2
  rw [← mixed_twice (state i) (state (further i 1)) (state (further i 2))
    (state (further i 3))]
  unfold mixColumns
  simp only [further_further, Nat.reduceAdd, four, five, six]

theorem eq_of_mixed {a b c d : UInt8}
    (here : a ^^^ galoisMul2 (galoisMul2 (a ^^^ c)) =
      b ^^^ galoisMul2 (galoisMul2 (b ^^^ d)))
    (there : c ^^^ galoisMul2 (galoisMul2 (c ^^^ a)) =
      d ^^^ galoisMul2 (galoisMul2 (d ^^^ b))) : a = b := by
  rw [UInt8.xor_comm c a, UInt8.xor_comm d b] at there
  have sums (x y t : UInt8) : x ^^^ t ^^^ (y ^^^ t) = x ^^^ y := by
    have pairs : x ^^^ t ^^^ (y ^^^ t) = x ^^^ y ^^^ (t ^^^ t) := by
      ac_rfl
    rw [pairs, UInt8.xor_self, UInt8.xor_zero]
  have same : a ^^^ c = b ^^^ d := by
    rw [← sums a c, here, there, sums]
  rw [same] at here
  exact (UInt8.xor_left_inj _).mp here

theorem mixColumns_injective
    (same : SameBlock (mixColumns first) (mixColumns second)) :
    SameBlock first second := by
  have twice := mixColumns_same same
  intro i inside
  have here := twice i inside
  have there := twice _ (further_lt inside 2)
  rw [mixColumns_twice, mixColumns_twice] at here there
  rw [further_further, further_four_add i 0, further_zero] at there
  exact eq_of_mixed here there

theorem shiftRows_subBytes_injective
    (same : SameBlock (shiftRows (subBytes first))
      (shiftRows (subBytes second))) : SameBlock first second := by
  intro i inside
  have shifted := same ((i + 12 * (i % 4)) % 16) (Nat.mod_lt _ (by decide))
  have back : ((i + 12 * (i % 4)) % 16 +
      4 * ((i + 12 * (i % 4)) % 16 % 4)) % 16 = i := by
    omega
  unfold shiftRows at shifted
  rw [back] at shifted
  exact sbox_injective shifted

theorem cipherRound_injective {round : Nat}
    (same : SameBlock (cipherRound roundKeys first round)
      (cipherRound roundKeys second round)) : SameBlock first second := by
  apply shiftRows_subBytes_injective
  unfold cipherRound at same
  split at same
  next =>
    apply mixColumns_injective
    exact fun i inside => (UInt8.xor_left_inj _).mp (same i inside)
  next =>
    exact fun i inside => (UInt8.xor_left_inj _).mp (same i inside)

theorem cipher_same_iff (roundKeys : Nat → ByteMem) :
    SameBlock (cipher roundKeys first) (cipher roundKeys second) ↔
      SameBlock first second := by
  have rounds : ∀ (list : List Nat) (first second : ByteMem),
      SameBlock (list.foldl (cipherRound roundKeys) first)
          (list.foldl (cipherRound roundKeys) second) ↔
        SameBlock first second := by
    intro list
    induction list with
    | nil =>
        exact fun _ _ => Iff.rfl
    | cons round list inductionHypothesis =>
        intro first second
        rw [List.foldl_cons, List.foldl_cons, inductionHypothesis]
        exact ⟨cipherRound_injective,
          fun same => cipherRound_same roundKeys same round⟩
  unfold cipher
  rw [rounds]
  exact forall₂_congr fun i _ => UInt8.xor_left_inj _

/-- Two blocks have the same ciphertext under any round keys only if they are
the same. -/
theorem encrypt_eq_iff (roundKeys : Nat → ByteMem)
    (first second : ByteMem) :
    (encrypt roundKeys first).read 0 16 =
        (encrypt roundKeys second).read 0 16 ↔
      first.read 0 16 = second.read 0 16 := by
  rw [read_block_iff, read_block_iff]
  refine Iff.trans ?_ (cipher_same_iff roundKeys)
  exact forall₂_congr fun i inside => by
    rw [encrypt_same _ first i inside, encrypt_same _ second i inside]

end Contiki.Llsec.Aes128
