import Contiki.Lib.PathNames
import Mathlib.Algebra.Order.Group.Nat
import Mathlib.Data.UInt

/-!
# File names of requests

`urlconv_tofilename` of `urlconv.c`.  What it has written of the buffer up to
`to` is a list with the byte at `to` first; no result is an access outside the
buffer or behind the zero that ends the request.
-/

namespace Contiki.Apps

open Contiki.Lib.PathNames

def isoNumber : UInt8 := 0x23

def isoPercent : UInt8 := 0x25

def isoPeriod : UInt8 := 0x2e

def isoSlash : UInt8 := 0x2f

def isoQuestion : UInt8 := 0x3f

/-- `"/index.htm"` with its zero. -/
def httpIndexHtm : List UInt8 :=
  [0x2f, 0x69, 0x6e, 0x64, 0x65, 0x78, 0x2e, 0x68, 0x74, 0x6d, 0]

/-- `wwwroot` as far as `wwwrootlen`. -/
structure WwwRoot where
  bytes : List UInt8
  fits : bytes.length ≤ 40

/-- Before `urlconv_init` the prefix is empty. -/
def WwwRoot.empty : WwwRoot := ⟨[], Nat.zero_le 40⟩

/-- `urlconv_init`; no contents is a file that cannot be read. -/
def urlconvInit (root : WwwRoot) : Option (List UInt8) → WwwRoot
  | none => root
  | some contents =>
      ⟨contents.take 40, List.length_take_le 40 contents⟩

def WwwRoot.wwwrootlen (root : WwwRoot) : UInt8 :=
  UInt8.ofNat root.bytes.length

/-- `strncpy` of as many bytes as `wwwroot` has. -/
def strncpy (source : List UInt8) : List UInt8 :=
  let text := source.takeWhile (· ≠ 0)
  text ++ List.replicate (source.length - text.length) 0

/-! ## Decoding -/

/-- `(byte | 0x20) ^ 0x30`, and whether it is the value of a digit. -/
def hexValue (byte : UInt8) : UInt8 × Bool :=
  let hex := (byte ||| 0x20) ^^^ 0x30
  if 0x50 < hex ∧ hex < 0x57 then (hex - 0x47, true)
  else if 9 < hex then (hex, false)
  else (hex, true)

/-- The two digits behind a `%`. -/
def decodeEscape : List UInt8 → Option (UInt8 × List UInt8)
  | [] => none
  | first :: source =>
      let hex1 := hexValue first
      if hex1.2 then
        match source with
        | [] => none
        | second :: rest =>
            let hex2 := hexValue second
            if hex2.2 then some (hex2.1 ||| (hex1.1 <<< 4), rest)
            else some (hex2.1, rest)
      else some (0, source)

/-- The next character and the rest of the request. -/
def decode : List UInt8 → Option (UInt8 × List UInt8)
  | [] => none
  | c :: source =>
      if c = isoNumber ∨ c = isoQuestion then some (0, source)
      else if c = isoPercent then decodeEscape source
      else some (c, source)

/-! ## Normalizing -/

/-- `dest` up to `to`, from its end, and `len`. -/
structure Conv where
  written : List UInt8
  len : UInt8
  deriving DecidableEq

/-- The loop back to the slash before. -/
def walkBack : List UInt8 → UInt8 → Option Conv
  | [], _ => none
  | last :: before, len =>
      if last = isoSlash then some ⟨last :: before, len⟩
      else walkBack before (len - 1)

/-- The cases at a slash or at the end, with whether they continue the
loop. -/
def endComponent (conv : Conv) : Option (Bool × Conv) :=
  match conv.written with
  | [] => none
  | last :: before =>
      if last = isoSlash then some (true, conv)
      else if last = isoPeriod then
        match before with
        | [] => none
        | second :: earlier =>
            if second = isoSlash then
              some (true, ⟨before, conv.len - 1⟩)
            else if second = isoPeriod then
              match earlier with
              | [] => none
              | third :: front =>
                  if third = isoSlash then
                    if conv.len - 2 = 0 then
                      some (true, ⟨earlier, conv.len - 2⟩)
                    else
                      (walkBack front (conv.len - 3)).map
                        fun back => (true, back)
                  else some (false, conv)
            else some (false, conv)
      else some (false, conv)

/-- Store a character into a buffer of `size` bytes. -/
def put (size : Nat) (c : UInt8) (conv : Conv) : Option Conv :=
  if c = 0 then some conv
  else if conv.written.length < size then
    some ⟨c :: conv.written, conv.len + 1⟩
  else none

/-- The character that is taken for `c`. -/
def checked (maxlen : UInt8) (c len : UInt8) : UInt8 :=
  if c < 0x20 ∨ 0x7e < c then 0
  else if maxlen ≤ len then 0
  else c

def convert (size : Nat) (c : UInt8) (conv : Conv) : Option Conv :=
  if c = isoSlash ∨ c = 0 then
    match endComponent conv with
    | none => none
    | some (true, next) => some next
    | some (false, next) => put size c next
  else put size c conv

/-- The loop over the request; every pass reads a character, so that its
length is fuel enough. -/
def convertLoop (size : Nat) (maxlen : UInt8) :
    Nat → List UInt8 → Conv → Option Conv
  | 0, _, _ => none
  | fuel + 1, source, conv =>
      match decode source with
      | none => none
      | some (raw, rest) =>
          let c := checked maxlen raw conv.len
          match convert size c conv with
          | none => none
          | some next =>
              if c = 0 then some next
              else convertLoop size maxlen fuel rest next

/-- The name with its zero: a directory gets an `index.htm` that fits. -/
def finalName (maxlen : UInt8) (conv : Conv) : List UInt8 :=
  if conv.written.head? = some isoSlash ∧
      conv.len.toNat + httpIndexHtm.length - 3 < maxlen.toNat then
    conv.written.tail.reverse ++ httpIndexHtm
  else conv.written.reverse ++ [0]

/-- The end of the name is written into a buffer of `size` bytes. -/
def finish (size : Nat) (maxlen : UInt8) (conv : Conv) :
    Option (List UInt8) :=
  if (finalName maxlen conv).length ≤ size then
    some (finalName maxlen conv)
  else none

/-- `dest` before the loop. -/
def start (root : WwwRoot) : Conv :=
  ⟨(isoSlash :: strncpy root.bytes).reverse, 0⟩

/-- `maxlen` in the loop: the room behind the prefix. -/
def loopRoom (root : WwwRoot) (maxlen : UInt8) : UInt8 :=
  maxlen - (2 + root.wwwrootlen)

/-- `urlconv_tofilename` into a buffer of `maxlen` bytes: the bytes that it
holds up to the zero that ends the name. -/
def urlconvTofilename (root : WwwRoot) (source : List UInt8)
    (maxlen : UInt8) : Option (List UInt8) :=
  if (start root).written.length ≤ maxlen.toNat then
    match convertLoop maxlen.toNat (loopRoom root maxlen) source.length
        source (start root) with
    | none => none
    | some conv => finish maxlen.toNat (loopRoom root maxlen) conv
  else none

/-! ## Requests -/

/-- A request and the zero that ends it. -/
def Terminated (source : List UInt8) : Prop :=
  ∃ request, 0 ∉ request ∧ source = request ++ [0]

theorem Terminated.cases {source : List UInt8}
    (terminated : Terminated source) :
    source = [0] ∨ ∃ c rest, source = c :: rest ∧ Terminated rest := by
  obtain ⟨request, nonzero, rfl⟩ := terminated
  cases request with
  | nil =>
      exact .inl rfl
  | cons c request =>
      exact .inr ⟨c, request ++ [0], rfl, request,
        fun member => nonzero (List.mem_cons_of_mem _ member), rfl⟩

/-- What is read of a request: a character that ends the name, or there is
more of the request. -/
def Decoded (source : List UInt8) (result : Option (UInt8 × List UInt8)) :
    Prop :=
  ∃ c rest, result = some (c, rest) ∧ rest.length < source.length ∧
    (c < 0x20 ∨ Terminated rest)

theorem decodeEscape_terminated {source : List UInt8}
    (terminated : Terminated source) :
    Decoded source (decodeEscape source) := by
  rcases terminated.cases with rfl | ⟨first, source, rfl, more⟩
  · exact ⟨0, [], by decide, by decide, .inl (by decide)⟩
  cases valid : (hexValue first).2 with
  | false =>
      exact ⟨0, source, by simp [decodeEscape, valid], by simp,
        .inr more⟩
  | true =>
      rcases more.cases with rfl | ⟨second, rest, rfl, others⟩
      · have ending : hexValue 0 = (0x10, false) := by
          decide
        exact ⟨0x10, [], by simp [decodeEscape, valid, ending],
          by simp, .inl (by decide)⟩
      · cases second_valid : (hexValue second).2 with
        | false =>
            exact ⟨_, rest, by simp [decodeEscape, valid, second_valid]; rfl,
              by simp only [List.length_cons]; omega, .inr others⟩
        | true =>
            exact ⟨_, rest, by simp [decodeEscape, valid, second_valid]; rfl,
              by simp only [List.length_cons]; omega, .inr others⟩

theorem decode_terminated {source : List UInt8}
    (terminated : Terminated source) :
    Decoded source (decode source) := by
  rcases terminated.cases with rfl | ⟨c, source, rfl, more⟩
  · exact ⟨0, [], by decide, by decide, .inl (by decide)⟩
  simp only [decode]
  split
  next =>
    exact ⟨0, source, rfl, by simp, .inr more⟩
  next =>
    split
    next =>
      obtain ⟨value, rest, found, shorter, others⟩ :=
        decodeEscape_terminated more
      exact ⟨value, rest, found, by simp only [List.length_cons]; omega,
        others⟩
    next =>
      exact ⟨c, source, rfl, by simp, .inr more⟩

theorem checked_cases (maxlen c len : UInt8) :
    checked maxlen c len = 0 ∨
      checked maxlen c len = c ∧ ¬ c < 0x20 ∧ len < maxlen := by
  unfold checked
  split
  next =>
    exact .inl rfl
  next printable =>
    split
    next =>
      exact .inl rfl
    next short =>
      exact .inr ⟨rfl, fun low => printable (.inl low),
        UInt8.not_le.mp short⟩

end Contiki.Apps
