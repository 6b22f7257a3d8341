import Contiki.Antelope.Relation

/-!
# Queries

The tokens of a query, the description `aql_adt_t` that the parser makes of
it, and the functions of `aql-parser.c` for insertions.

The lexer has no result for the token at the end of the input, `NONE`.
-/

namespace Contiki.Antelope

open Contiki.Lib

/-! ## Tokens -/

/-- `token_t` with the value of the token; the keywords that none of the
modelled functions looks for are the same. -/
inductive Token where
  | leftParen
  | rightParen
  | comma
  | equal
  | notEqual
  | gt
  | lt
  | geq
  | leq
  | add
  | sub
  | mul
  | div
  | and
  | or
  | into
  | end_
  | otherKeyword
  | identifier (name : String)
  | stringValue (characters : List UInt8)
  | integerValue (value : Int)
  deriving DecidableEq

/-- `lexer_t` -/
structure Lexer where
  input : List Token
  prevPos : List Token

namespace Lexer

/-- `lexer_start` -/
def start (input : List Token) : Lexer where
  input := input
  prevPos := input

/-- `lexer_next` -/
def next (lexer : Lexer) : Option Token × Lexer :=
  match lexer.input with
  | [] => (none, { input := [], prevPos := [] })
  | token :: input =>
      (some token, { input := input, prevPos := token :: input })

/-- `lexer_rewind` -/
def rewind (lexer : Lexer) : Lexer :=
  { lexer with input := lexer.prevPos }

end Lexer

/-! ## The description of a query -/

/-- `aql_status_t`, which the macros of the parser mix with truth values. -/
abbrev AqlStatus := Nat

/-- `OK` -/
def AqlStatus.ok : AqlStatus := 2

/-- `SYNTAX_ERROR` -/
def AqlStatus.syntaxError : AqlStatus := 3

/-- `AQL_ERROR` -/
def aqlError (status : AqlStatus) : Bool := 3 ≤ status

/-- `PARSE`, for what the function to call returns. -/
def parse (status : AqlStatus) : AqlStatus :=
  if aqlError status then 0 else 1

/-- `AQL_RELATION_LIMIT` -/
def aqlRelationLimit : Nat := 3

/-- `RELATION_NAME_LENGTH` -/
def relationNameLength : Nat := 10

/-- `AQL_ATTRIBUTE_LIMIT` -/
def aqlAttributeLimit : Nat := 5

/-- `DB_MAX_CHAR_SIZE_PER_ROW` -/
def dbMaxCharSizePerRow : Nat := 64

/-- `attribute_value_t` in the description of a query: a string is at an
offset of `char_buf`, or it could not be saved. -/
structure AqlValue where
  domain : Domain
  number : Int
  string : Option Nat

/-- `aql_adt_t`, as far as insertions use it, with `char_buf` and
`next_free_offset`. -/
structure Adt where
  relations : List String
  /-- A name has been stored behind its entry of `relations`. -/
  overrun : Bool
  values : Nat → AqlValue
  valueCount : Nat
  charBuf : ByteMem
  nextFreeOffset : Nat

namespace Adt

/-- `aql_clear` -/
def clear (adt : Adt) : Adt :=
  { adt with
    relations := []
    valueCount := 0
    charBuf := adt.charBuf.write 0 [0]
    nextFreeOffset := 0 }

/-- `AQL_ADD_RELATION`, which looks neither at the number of entries nor at
their size. -/
def addRelation (adt : Adt) (name : String) : Adt :=
  { adt with
    relations := adt.relations ++ [name]
    overrun := adt.overrun ||
      decide (aqlRelationLimit ≤ adt.relations.length ∨
        relationNameLength < name.length) }

/-- `save_char` -/
def saveChar (adt : Adt) (characters : List UInt8) : Option Nat × Adt :=
  if dbMaxCharSizePerRow < characters.length + adt.nextFreeOffset then
    (none, adt)
  else
    (some adt.nextFreeOffset,
      { adt with
        charBuf := adt.charBuf.write adt.nextFreeOffset characters
        nextFreeOffset := adt.nextFreeOffset + characters.length })

def setValue (adt : Adt) (value : AqlValue) : Adt :=
  { adt with
    values := Function.update adt.values adt.valueCount value
    valueCount := adt.valueCount + 1 }

/-- `aql_add_value` for `DOMAIN_INT`. -/
def addNumber (adt : Adt) (number : Int) : Adt :=
  if adt.valueCount = aqlAttributeLimit then adt
  else adt.setValue { domain := .int, number := number, string := none }

/-- `aql_add_value` for `DOMAIN_STRING`. -/
def addString (adt : Adt) (characters : List UInt8) : Adt :=
  if adt.valueCount = aqlAttributeLimit then adt
  else
    let (string, adt) := adt.saveChar (characters ++ [0])
    adt.setValue { domain := .string, number := 0, string := string }

/-- The array of values; `null` is the memory at address zero. -/
def attributeValues (adt : Adt) (null : ByteMem) (index : Nat) :
    AttributeValue :=
  let value := adt.values index
  { domain := value.domain
    number := value.number
    string :=
      match value.string with
      | some offset => adt.charBuf.shift offset
      | none => null }

end Adt

/-! ## Parsing insertions -/

/-- `CONSUME` -/
def consume (token : Token) (lexer : Lexer) : AqlStatus × Lexer :=
  let (found, lexer) := lexer.next
  (if found = some token then .ok else .syntaxError, lexer)

/-- `parse_relations` -/
def parseRelations : Nat → Lexer → Adt → AqlStatus × Lexer × Adt
  | 0, lexer, adt => (.syntaxError, lexer, adt)
  | fuel + 1, lexer, adt =>
      let (found, lexer) := lexer.next
      match found with
      | some (.identifier name) =>
          let adt := adt.addRelation name
          let (found, lexer) := lexer.next
          if found = some .comma then
            let (status, lexer, adt) := parseRelations fuel lexer adt
            if parse status = 0 then (.syntaxError, lexer, adt)
            else (.ok, lexer, adt)
          else (.ok, lexer.rewind, adt)
      | _ => (.syntaxError, lexer, adt)

/-- `parse_values` -/
def parseValues : Nat → Lexer → Adt → AqlStatus × Lexer × Adt
  | 0, lexer, adt => (.syntaxError, lexer, adt)
  | fuel + 1, lexer, adt =>
      let (found, lexer) := lexer.next
      let added :=
        match found with
        | some (.stringValue characters) => some (adt.addString characters)
        | some (.integerValue value) => some (adt.addNumber value)
        | _ => none
      match added with
      | none => (.syntaxError, lexer, adt)
      | some adt =>
          let (found, lexer) := lexer.next
          if found = some .comma then
            let (status, lexer, adt) := parseValues fuel lexer adt
            (parse status, lexer, adt)
          else (.ok, lexer.rewind, adt)

/-- `parse_insert`; no list needs more turns than it has tokens. -/
def parseInsert (lexer : Lexer) (adt : Adt) : AqlStatus × Adt :=
  let fuel := lexer.input.length + 1
  let (status, lexer) := consume .leftParen lexer
  if aqlError status then (.syntaxError, adt)
  else
    let (status, lexer, adt) := parseValues fuel lexer adt
    if parse status = 0 then (.syntaxError, adt)
    else
      let (status, lexer) := consume .rightParen lexer
      if aqlError status then (.syntaxError, adt)
      else
        let (status, lexer) := consume .into lexer
        if aqlError status then (.syntaxError, adt)
        else
          let (status, _, adt) := parseRelations fuel lexer adt
          if parse status = 0 then (.syntaxError, adt) else (.ok, adt)

/-- `aql_parse` of a query with these tokens behind `INSERT`. -/
def parseInsertQuery (tokens : List Token) (adt : Adt) : AqlStatus × Adt :=
  parseInsert (.start tokens) adt.clear

end Contiki.Antelope
