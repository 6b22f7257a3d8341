import Mathlib.Data.List.Basic

/-!
# The JSON parser

`apps/json/jsonparse.c` moves over a text from one element to the next, with a
stack of what is open.
-/

namespace Contiki.Json

/-! ## Characters and types -/

def quote : UInt8 := 34

def comma : UInt8 := 44

def dot : UInt8 := 46

def colon : UInt8 := 58

def lbracket : UInt8 := 91

def backslash : UInt8 := 92

def rbracket : UInt8 := 93

def lbrace : UInt8 := 123

def rbrace : UInt8 := 125

def isSpace (c : UInt8) : Bool :=
  c = 32 || c = 10

def isDigit (c : UInt8) : Bool :=
  48 ≤ c && c ≤ 57

/-- `JSON_TYPE_ERROR` -/
def typeError : UInt8 := 0

/-- `JSON_TYPE_STRING` -/
def typeString : UInt8 := 34

/-- `JSON_TYPE_NUMBER` -/
def typeNumber : UInt8 := 48

/-- `JSON_TYPE_PAIR_NAME` -/
def typePairName : UInt8 := 78

/-- `JSON_ERROR_OK` and the errors that the parser reports. -/
inductive JsonError where
  | ok
  | syntaxError
  | unexpectedArray
  | unexpectedEndOfArray
  | unexpectedString
  deriving DecidableEq

/-- `struct jsonparse_state`; the text ends with a zero.  The last element of
the stack comes first. -/
structure JsonparseState where
  json : List UInt8
  pos : Nat
  vstart : Nat
  vlen : Nat
  vtype : UInt8
  error : JsonError
  stack : List UInt8
  deriving DecidableEq

namespace JsonparseState

/-- The text from the present position on. -/
def rest (state : JsonparseState) : List UInt8 :=
  state.json.drop state.pos

/-- `push`; the element is stored outside of the stack if this is full. -/
def push (maxDepth : Nat) (state : JsonparseState) (c : UInt8) :
    Option JsonparseState :=
  if maxDepth ≤ state.stack.length then none
  else some { state with stack := c :: state.stack, vtype := 0 }

/-- `pop` -/
def pop (state : JsonparseState) : JsonparseState :=
  { state with stack := state.stack.tail }

/-- `jsonparse_get_type` -/
def getType (state : JsonparseState) : UInt8 :=
  state.stack.headD 0

/-- The characters that the loop of `atomic` takes for a string, to its quote
or to the end of the text. -/
def stringLoop : List UInt8 → Nat
  | [] => 1
  | [c] =>
      if c = 0 ∨ c = quote then 1 else if c = backslash then 3 else 2
  | c :: skipped :: rest =>
      if c = 0 ∨ c = quote then 1
      else if c = backslash then 2 + stringLoop rest
      else 1 + stringLoop (skipped :: rest)

/-- The characters that the loop of `atomic` takes for a number. -/
def numberLoop (chars : List UInt8) : Nat :=
  (chars.takeWhile fun c => isDigit c || c = dot).length

/-- `atomic` -/
def atomic (state : JsonparseState) (type : UInt8) : JsonparseState :=
  if type = typeNumber then
    let pos := state.pos + numberLoop state.rest
    -- the first character has been taken before
    let vstart := state.pos - 1
    { state with pos, vtype := type, vstart, vlen := pos - vstart }
  else
    let pos := state.pos + stringLoop state.rest
    { state with pos, vtype := type, vstart := state.pos,
                 vlen := pos - state.pos - 1 }

/-- `skip_ws` -/
def skipWs (state : JsonparseState) : JsonparseState :=
  { state with pos := state.pos + (state.rest.takeWhile isSpace).length }

/-- `jsonparse_setup`; the type of the value is what was there before. -/
def jsonparseSetup (json : List UInt8) (vtype : UInt8) : JsonparseState where
  json
  pos := 0
  vstart := 0
  vlen := 0
  vtype
  error := .ok
  stack := []

/-- The end of a call that reports an error. -/
def fail (state : JsonparseState) (error : JsonError) :
    UInt8 × JsonparseState :=
  (typeError, { state with error })

/-- The `switch` of `jsonparse_next`, for a character in the type `s`. -/
def dispatch (maxDepth : Nat) (state : JsonparseState) (c s : UInt8) :
    Option (UInt8 × JsonparseState) :=
  if c = lbrace then
    (state.push maxDepth c).map fun state => (c, state)
  else if c = rbrace then
    let popped := if s = colon ∧ state.vtype ≠ 0 then state.pop else state
    let s :=
      if s = colon ∧ state.vtype ≠ 0 then state.pop.getType else s
    if s = lbrace then some (c, popped.pop)
    else some (popped.fail .syntaxError)
  else if c = rbracket then
    if s = lbracket then some (c, state.pop)
    else some (state.fail .unexpectedEndOfArray)
  else if c = colon then
    (state.push maxDepth c).map fun state => (c, state)
  else if c = comma then
    if s = colon ∧ state.vtype ≠ 0 then some (c, state.pop)
    else if s = lbracket then some (c, state)
    else some (state.fail .syntaxError)
  else if c = quote then
    if s = lbrace ∨ s = lbracket ∨ s = colon then
      let type := if s = lbrace then typePairName else c
      some (type, state.atomic type)
    else some (state.fail .unexpectedString)
  else if c = lbracket then
    if s = lbrace ∨ s = lbracket ∨ s = colon then
      (state.push maxDepth c).map fun state => (c, state)
    else some (state.fail .unexpectedArray)
  else if (s = colon ∨ s = lbracket) ∧ isDigit c = true then
    some (typeNumber, state.atomic typeNumber)
  else some (0, state)

/-- `jsonparse_next` -/
def jsonparseNext (maxDepth : Nat) (state : JsonparseState) :
    Option (UInt8 × JsonparseState) :=
  let state := state.skipWs
  let c := state.rest.headD 0
  dispatch maxDepth { state with pos := state.pos + 1 } c state.getType

/-- `jsonparse_has_next` -/
def hasNext (state : JsonparseState) : Bool :=
  state.pos < state.json.length

end JsonparseState

/-! ## All calls -/

/-- What a call of `jsonparse_next` returns, and what it leaves in the state:
the depth, the start and the length of a string or a number, and the error. -/
structure Call where
  type : UInt8
  depth : Nat
  extent : Option (Nat × Nat)
  error : JsonError
  deriving DecidableEq

/-- A call, or a call that leaves the stack. -/
inductive Outcome where
  | call (call : Call)
  | overflow
  deriving DecidableEq

def observe (type : UInt8) (state : JsonparseState) : Call where
  type
  depth := state.stack.length
  extent :=
    if type = typePairName ∨ type = typeString ∨ type = typeNumber then
      some (state.vstart, state.vlen)
    else none
  error := state.error

/-- The calls of `jsonparse_next` while `jsonparse_has_next`, at most
`calls` of them. -/
def parseFrom (maxDepth : Nat) : Nat → JsonparseState → List Outcome
  | 0, _ => []
  | calls + 1, state =>
      if state.hasNext then
        match state.jsonparseNext maxDepth with
        | some (type, next) =>
            .call (observe type next) :: parseFrom maxDepth calls next
        | none => [.overflow]
      else []

/-- All calls for a text; each of them moves on. -/
def parse (maxDepth : Nat) (json : List UInt8) (vtype : UInt8) :
    List Outcome :=
  parseFrom maxDepth json.length (JsonparseState.jsonparseSetup json vtype)

end Contiki.Json
