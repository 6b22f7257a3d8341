import Contiki.Antelope.Cardinality

/-!
# Insertions by queries

What the parser makes of the value list of an insertion, and what
`db_query` does with the relation.
-/

namespace Contiki.Antelope

open Contiki.Lib

variable {machine : Machine}

/-! ## Value lists -/

def commaSeparated : List Token → List Token
  | [] => []
  | [item] => [item]
  | item :: second :: items =>
      item :: .comma :: commaSeparated (second :: items)

/-- An insertion: the tokens of its value list, the relation and the tokens
behind it. -/
structure InsertQuery where
  items : List Token
  notEmpty : items ≠ []
  name : String
  rest : List Token

/-- The tokens behind `INSERT`. -/
def InsertQuery.tokens (query : InsertQuery) : List Token :=
  .leftParen :: (commaSeparated query.items ++
    .rightParen :: .into :: .identifier query.name :: query.rest)

/-- The names that `parse_relations` takes. -/
def relationNames : List Token → List String
  | .identifier name :: .comma :: tokens => name :: relationNames tokens
  | .identifier name :: _ => [name]
  | _ => []

/-- The relations of the insertion fit into `relations`. -/
structure InsertQuery.NamesFit (query : InsertQuery) : Prop where
  few : (relationNames (.identifier query.name :: query.rest)).length ≤
    aqlRelationLimit
  short : ∀ name ∈ relationNames (.identifier query.name :: query.rest),
    name.length ≤ relationNameLength

/-- The datum that a token is in a value list. -/
def Token.datum : Token → Option Datum
  | .stringValue characters => some (.text characters)
  | .integerValue value => some (.number value)
  | _ => none

/-- The values that the parser takes of a list which it accepts: it also
accepts one token that is no value behind the last value. -/
def leading : List Token → Option (List Datum)
  | [] => none
  | item :: items =>
      match item.datum with
      | none => none
      | some datum =>
          match items with
          | [] => some [datum]
          | second :: items =>
              if second.datum = none ∧ items = [] then some [datum]
              else (leading (second :: items)).map (datum :: ·)

/-- `aql_add_value` -/
def Adt.add (adt : Adt) : Datum → Adt
  | .text characters => adt.addString characters
  | .number number => adt.addNumber number

theorem parseValues_of_other {item : Token} (noDatum : item.datum = none)
    (fuel : Nat) (input prevPos : List Token) (adt : Adt) :
    parseValues (fuel + 1) ⟨item :: input, prevPos⟩ adt =
      (.syntaxError, ⟨input, item :: input⟩, adt) := by
  cases item with
  | stringValue characters => exact absurd noDatum (by rintro ⟨⟩)
  | integerValue value => exact absurd noDatum (by rintro ⟨⟩)
  | _ => rfl

theorem parseValues_of_last {item token : Token} {datum : Datum}
    (isDatum : item.datum = some datum) (notComma : token ≠ .comma)
    (fuel : Nat) (input prevPos : List Token) (adt : Adt) :
    parseValues (fuel + 1) ⟨item :: token :: input, prevPos⟩ adt =
      (.ok, ⟨token :: input, token :: input⟩, adt.add datum) := by
  have notSome : ¬ (some token = some Token.comma) := fun same =>
    notComma (Option.some.inj same)
  cases item with
  | stringValue characters =>
      obtain rfl := Option.some.inj isDatum
      exact if_neg notSome
  | integerValue value =>
      obtain rfl := Option.some.inj isDatum
      exact if_neg notSome
  | _ => exact absurd isDatum (by rintro ⟨⟩)

theorem parseValues_of_comma {item : Token} {datum : Datum}
    (isDatum : item.datum = some datum) (fuel : Nat)
    (input prevPos : List Token) (adt : Adt) :
    parseValues (fuel + 1) ⟨item :: .comma :: input, prevPos⟩ adt =
      let (status, lexer, adt) :=
        parseValues fuel ⟨input, .comma :: input⟩ (adt.add datum)
      (parse status, lexer, adt) := by
  cases item with
  | stringValue characters =>
      obtain rfl := Option.some.inj isDatum
      rfl
  | integerValue value =>
      obtain rfl := Option.some.inj isDatum
      rfl
  | _ => exact absurd isDatum (by rintro ⟨⟩)

theorem aqlError_parse (status : AqlStatus) :
    aqlError (parse status) = false := by
  unfold parse
  split
  · rfl
  · rfl

/-- What `parse_values` leaves, in front of the closing parenthesis if it
accepts the list. -/
theorem parseValues_spec {items : List Token} (notEmpty : items ≠ [])
    {fuel : Nat} (enough : items.length ≤ fuel) (adt : Adt)
    (prevPos tail : List Token) :
    let outcome := parseValues fuel
      ⟨commaSeparated items ++ .rightParen :: tail, prevPos⟩ adt
    (∀ data, leading items = some data →
      aqlError outcome.1 = false ∧
        outcome.2.1.input = .rightParen :: tail ∧
          outcome.2.2 = data.foldl Adt.add adt) ∧
      (leading items = none →
        (aqlError outcome.1 = true ∧
          (∀ first ∈ items.head?, first.datum = none) ∧
            outcome.2.1.input = (commaSeparated items ++
              .rightParen :: tail).tail) ∨
          outcome.2.1.input.head? = some .comma) := by
  induction items generalizing fuel adt prevPos with
  | nil => exact absurd rfl notEmpty
  | cons item items inductionHypothesis =>
      cases fuel with
      | zero => exact absurd enough (Nat.not_succ_le_zero _)
      | succ fuel =>
      intro outcome
      cases isDatum : item.datum with
      | none =>
          have isNone : leading (item :: items) = none := by
            unfold leading
            rw [isDatum]
          have isFirst : commaSeparated (item :: items) ++
              .rightParen :: tail = item ::
                (commaSeparated (item :: items) ++
                  .rightParen :: tail).tail := by
            cases items <;> rfl
          have isOutcome : outcome = _ := congrArg
            (fun input => parseValues (fuel + 1) ⟨input, prevPos⟩ adt)
              isFirst
          rw [parseValues_of_other isDatum] at isOutcome
          rw [isOutcome]
          refine ⟨fun data isData => ?_,
            fun _ => Or.inl ⟨rfl, ?_, rfl⟩⟩
          · exact absurd (isNone.symm.trans isData) (by rintro ⟨⟩)
          · rintro _ ⟨⟩
            exact isDatum
      | some datum =>
          cases items with
          | nil =>
              have isData : leading [item] = some [datum] := by
                unfold leading
                rw [isDatum]
              have isOutcome : outcome = (.ok, ⟨.rightParen :: tail,
                  .rightParen :: tail⟩, adt.add datum) :=
                parseValues_of_last isDatum (by decide) fuel tail prevPos adt
              rw [isData, isOutcome]
              refine ⟨?_, by rintro ⟨⟩⟩
              rintro data ⟨⟩
              exact ⟨rfl, rfl, rfl⟩
          | cons second items =>
              have isOutcome : outcome = _ := parseValues_of_comma isDatum
                fuel (commaSeparated (second :: items) ++
                  .rightParen :: tail) prevPos adt
              dsimp only at isOutcome
              by_cases junk : second.datum = none ∧ items = []
              · obtain ⟨noDatum, rfl⟩ := junk
                have isData : leading [item, second] = some [datum] := by
                  unfold leading
                  rw [isDatum]
                  exact if_pos ⟨noDatum, rfl⟩
                cases fuel with
                | zero =>
                    exact absurd (Nat.le_of_succ_le_succ enough)
                      (Nat.not_succ_le_zero _)
                | succ fuel =>
                have isJunk := parseValues_of_other noDatum fuel
                  (.rightParen :: tail)
                  (.comma :: (commaSeparated [second] ++
                    .rightParen :: tail)) (adt.add datum)
                have isSecond : commaSeparated [second] ++
                    .rightParen :: tail =
                      second :: .rightParen :: tail := rfl
                rw [isSecond] at isOutcome isJunk
                rw [isJunk] at isOutcome
                rw [isData, isOutcome]
                refine ⟨?_, by rintro ⟨⟩⟩
                rintro data ⟨⟩
                exact ⟨rfl, rfl, rfl⟩
              · have isLeading : leading (item :: second :: items) =
                    (leading (second :: items)).map (datum :: ·) := by
                  rw [leading]
                  rw [isDatum]
                  exact if_neg junk
                obtain ⟨accepts, rejects⟩ := inductionHypothesis (by simp)
                  (Nat.le_of_succ_le_succ enough) (adt.add datum)
                  (.comma :: (commaSeparated (second :: items) ++
                    .rightParen :: tail))
                rw [isOutcome, isLeading]
                constructor
                · intro data isData
                  obtain ⟨rest, isRest, rfl⟩ :=
                    Option.map_eq_some_iff.1 isData
                  obtain ⟨-, isInput, isAdt⟩ := accepts rest isRest
                  exact ⟨aqlError_parse _, isInput, isAdt⟩
                · intro isNone
                  have noRest := Option.map_eq_none_iff.1 isNone
                  rcases rejects noRest with ⟨-, noDatum, isInput⟩ | isComma
                  · cases items with
                    | nil => exact absurd ⟨noDatum second rfl, rfl⟩ junk
                    | cons third items =>
                        refine Or.inr ?_
                        dsimp only
                        rw [isInput]
                        rfl
                  · exact Or.inr isComma

theorem length_le_length_commaSeparated (items : List Token) :
    items.length ≤ (commaSeparated items).length := by
  induction items with
  | nil => exact le_refl _
  | cons item items inductionHypothesis =>
      cases items with
      | nil => exact le_refl _
      | cons second items =>
          unfold commaSeparated
          rw [List.length_cons, List.length_cons, List.length_cons]
          exact Nat.succ_le_succ (Nat.le_succ_of_le inductionHypothesis)

variable (adt : Adt) (fuel : Nat)

theorem parseRelations_keeps (lexer : Lexer) (adt : Adt) :
    (∃ more, (parseRelations fuel lexer adt).2.2.relations =
        adt.relations ++ more) ∧
      (parseRelations fuel lexer adt).2.2.values = adt.values ∧
        (parseRelations fuel lexer adt).2.2.charBuf = adt.charBuf := by
  induction fuel generalizing lexer adt with
  | zero => exact ⟨⟨[], (List.append_nil _).symm⟩, rfl, rfl⟩
  | succ fuel inductionHypothesis =>
      unfold parseRelations
      dsimp only
      split
      · rename_i name _
        split
        · obtain ⟨⟨more, isMore⟩, values, charBuf⟩ :=
            inductionHypothesis lexer.next.2.next.2 (adt.addRelation name)
          have added : (parseRelations fuel lexer.next.2.next.2
              (adt.addRelation name)).2.2.relations =
                adt.relations ++ (name :: more) := by
            rw [isMore]
            exact List.append_assoc _ _ _
          split
          · exact ⟨⟨_, added⟩, values, charBuf⟩
          · exact ⟨⟨_, added⟩, values, charBuf⟩
        · exact ⟨⟨[name], rfl⟩, rfl, rfl⟩
      · exact ⟨⟨[], (List.append_nil _).symm⟩, rfl, rfl⟩

theorem parseRelations_head {lexer : Lexer} {name : String}
    (isName : lexer.next.1 = some (.identifier name)) {adt : Adt}
    (noRelations : adt.relations = []) :
    (parseRelations (fuel + 1) lexer adt).2.2.relations.head? =
      some name := by
  have isAdded : (adt.addRelation name).relations = [name] := by
    unfold Adt.addRelation
    rw [noRelations]
    rfl
  unfold parseRelations
  dsimp only
  rw [isName]
  dsimp only
  split
  · obtain ⟨⟨more, isMore⟩, -, -⟩ := parseRelations_keeps fuel
      lexer.next.2.next.2 (adt.addRelation name)
    have isHead : (parseRelations fuel lexer.next.2.next.2
        (adt.addRelation name)).2.2.relations.head? = some name := by
      rw [isMore, isAdded]
      rfl
    split
    · exact isHead
    · exact isHead
  · exact congrArg List.head? isAdded

theorem parseRelations_overrun {lexer : Lexer} {adt : Adt}
    (intact : adt.overrun = false)
    (few : adt.relations.length + (relationNames lexer.input).length ≤
      aqlRelationLimit)
    (short : ∀ name ∈ relationNames lexer.input,
      name.length ≤ relationNameLength) :
    (parseRelations fuel lexer adt).2.2.overrun = false := by
  induction fuel generalizing lexer adt with
  | zero => exact intact
  | succ fuel inductionHypothesis =>
      obtain ⟨input, prevPos⟩ := lexer
      have added {name : String} (room : adt.relations.length <
          aqlRelationLimit) (isShort : name.length ≤ relationNameLength) :
          (adt.addRelation name).overrun = false := by
        unfold Adt.addRelation
        dsimp only
        rw [intact, Bool.false_or, decide_eq_false (by omega)]
      cases input with
      | nil => exact intact
      | cons token input =>
      cases token with
      | identifier name =>
          cases input with
          | nil => exact added few (short name List.mem_cons_self)
          | cons second input =>
              by_cases isComma : second = .comma
              · subst isComma
                change adt.relations.length +
                  (relationNames input).length.succ ≤ _ at few
                change ∀ other ∈ name :: relationNames input, _ at short
                have rest := @inductionHypothesis
                  ⟨input, .comma :: input⟩ (adt.addRelation name)
                  (added (by omega) (short name List.mem_cons_self))
                  (by
                    unfold Adt.addRelation
                    dsimp only
                    rw [List.length_append, List.length_singleton]
                    omega)
                  fun other member =>
                    short other (List.mem_cons_of_mem _ member)
                unfold parseRelations Lexer.next
                dsimp only
                rw [if_pos rfl]
                split
                · exact rest
                · exact rest
              · have notComma : ¬ some second = some Token.comma :=
                  fun same => isComma (Option.some.inj same)
                have names : relationNames (.identifier name :: second ::
                    input) = [name] := by
                  cases second with
                  | comma => exact absurd rfl isComma
                  | _ => rfl
                rw [names] at few short
                unfold parseRelations Lexer.next
                dsimp only
                rw [if_neg notComma]
                exact added few (short name List.mem_cons_self)
      | _ => exact intact

theorem consume_of_head (token : Token) (input prevPos : List Token) :
    consume token ⟨token :: input, prevPos⟩ =
      (.ok, ⟨input, token :: input⟩) := by
  unfold consume Lexer.next
  dsimp only
  rw [if_pos rfl]

theorem consume_of_other {token : Token} {lexer : Lexer}
    (other : lexer.input.head? ≠ some token) :
    aqlError (consume token lexer).1 = true := by
  obtain ⟨input, prevPos⟩ := lexer
  unfold consume Lexer.next
  cases input with
  | nil =>
      dsimp only
      rw [if_neg (by rintro ⟨⟩)]
      rfl
  | cons found input =>
      have notSame : ¬ some found = some token := other
      dsimp only
      rw [if_neg notSame]
      rfl

/-! ## The array of values -/

/-- The domain that the parser gives to a datum. -/
def Datum.domain : Datum → Domain
  | .number _ => .int
  | .text _ => .string

/-- A string is saved at the free offset. -/
def Adt.save (adt : Adt) (characters : List UInt8) : Adt :=
  { adt with
    charBuf := adt.charBuf.write adt.nextFreeOffset (characters ++ [0])
    nextFreeOffset := adt.nextFreeOffset + (characters.length + 1) }

/-- What `aql_add_value` does: it drops a value behind the last slot, and it
leaves a string that does not fit without its characters. -/
theorem Adt.add_cases (datum : Datum) :
    (adt.valueCount = aqlAttributeLimit ∧ adt.add datum = adt) ∨
      adt.valueCount ≠ aqlAttributeLimit ∧
        ((∃ number, datum = .number number ∧
          adt.add datum = adt.setValue ⟨.int, number, none⟩) ∨
        (∃ characters, datum = .text characters ∧
          characters.length + 1 + adt.nextFreeOffset ≤
              dbMaxCharSizePerRow ∧
            adt.add datum = (adt.save characters).setValue
              ⟨.string, 0, some adt.nextFreeOffset⟩) ∨
          ∃ characters, datum = .text characters ∧
            dbMaxCharSizePerRow <
                characters.length + 1 + adt.nextFreeOffset ∧
              adt.add datum = adt.setValue ⟨.string, 0, none⟩) := by
  by_cases full : adt.valueCount = aqlAttributeLimit
  · refine Or.inl ⟨full, ?_⟩
    cases datum with
    | number number => exact if_pos full
    | text characters => exact if_pos full
  · refine Or.inr ⟨full, ?_⟩
    cases datum with
    | number number =>
        exact Or.inl ⟨number, rfl, if_neg full⟩
    | text characters =>
        refine Or.inr ?_
        have isAdd : adt.add (.text characters) =
            (adt.saveChar (characters ++ [0])).2.setValue
              ⟨.string, 0, (adt.saveChar (characters ++ [0])).1⟩ :=
          if_neg full
        have isLength : (characters ++ [(0 : UInt8)]).length =
            characters.length + 1 := by simp
        by_cases fits : characters.length + 1 + adt.nextFreeOffset ≤
            dbMaxCharSizePerRow
        · refine Or.inl ⟨characters, rfl, fits, ?_⟩
          have saves : adt.saveChar (characters ++ [0]) =
              (some adt.nextFreeOffset, adt.save characters) := by
            unfold Adt.saveChar Adt.save
            rw [isLength, if_neg (Nat.not_lt.2 fits)]
          rw [isAdd, saves]
        · refine Or.inr ⟨characters, rfl, Nat.lt_of_not_le fits, ?_⟩
          have drops : adt.saveChar (characters ++ [0]) = (none, adt) := by
            unfold Adt.saveChar
            rw [isLength, if_pos (Nat.lt_of_not_le fits)]
          rw [isAdd, drops]

theorem Adt.add_overrun (datum : Datum) :
    (adt.add datum).overrun = adt.overrun := by
  rcases adt.add_cases datum with ⟨-, same⟩ | ⟨-, ⟨_, -, same⟩ |
    ⟨_, -, -, same⟩ | ⟨_, -, -, same⟩⟩ <;>
    rw [same] <;> rfl

theorem Adt.foldl_add_overrun (data : List Datum) :
    (data.foldl Adt.add adt).overrun = adt.overrun := by
  induction data generalizing adt with
  | nil => rfl
  | cons datum data inductionHypothesis =>
      rw [List.foldl_cons, inductionHypothesis, Adt.add_overrun]

theorem parseValues_overrun (lexer : Lexer) (adt : Adt) :
    (parseValues fuel lexer adt).2.2.overrun = adt.overrun := by
  induction fuel generalizing lexer adt with
  | zero => rfl
  | succ fuel inductionHypothesis =>
      have added (datum : Datum) := adt.add_overrun datum
      unfold parseValues
      dsimp only
      split
      · rfl
      · rename_i after isAdded
        have same : after.overrun = adt.overrun := by
          split at isAdded
          · rename_i characters _
            cases isAdded
            exact added (.text characters)
          · rename_i value _
            cases isAdded
            exact added (.number value)
          · cases isAdded
        split
        · exact (inductionHypothesis _ _).trans same
        · exact same

theorem Adt.add_spec {adt : Adt} (atMost : adt.valueCount ≤ aqlAttributeLimit)
    (datum : Datum) :
    (adt.add datum).relations = adt.relations ∧
      (adt.add datum).valueCount =
          min (adt.valueCount + 1) aqlAttributeLimit ∧
        (∀ index, index ≠ adt.valueCount →
          (adt.add datum).values index = adt.values index) ∧
          (adt.valueCount < aqlAttributeLimit →
            ((adt.add datum).values adt.valueCount).domain =
              datum.domain) ∧
            ∀ address, address < adt.nextFreeOffset →
              (adt.add datum).charBuf address = adt.charBuf address := by
  rcases adt.add_cases datum with ⟨full, same⟩ | ⟨notFull, ⟨number, rfl,
    same⟩ | ⟨characters, rfl, -, same⟩ | ⟨characters, rfl, -, same⟩⟩
  · rw [same]
    exact ⟨rfl, by omega, fun _ _ => rfl, fun room => by omega,
      fun _ _ => rfl⟩
  all_goals
    rw [same]
    refine ⟨rfl, ?_, fun index other => ?_, fun _ => ?_, ?_⟩
    · unfold Adt.setValue
      dsimp only [Adt.save]
      omega
    · exact Function.update_of_ne other _ _
    · unfold Adt.setValue
      dsimp only [Adt.save]
      rw [Function.update_self]
      rfl
  · exact fun _ _ => rfl
  · intro address isBefore
    exact ByteMem.write_of_lt isBefore
  · exact fun _ _ => rfl

/-- The slots after adding data: the domains of those that are filled, and
the others as before. -/
theorem Adt.foldl_add_spec {adt : Adt}
    (atMost : adt.valueCount ≤ aqlAttributeLimit) (data : List Datum) :
    (data.foldl Adt.add adt).relations = adt.relations ∧
      (∀ index, (index < adt.valueCount ∨
          min (adt.valueCount + data.length) aqlAttributeLimit ≤ index) →
        (data.foldl Adt.add adt).values index = adt.values index) ∧
        ∀ position datum, data[position]? = some datum →
          adt.valueCount + position < aqlAttributeLimit →
            ((data.foldl Adt.add adt).values
              (adt.valueCount + position)).domain = datum.domain := by
  induction data generalizing adt with
  | nil =>
      exact ⟨rfl, fun _ _ => rfl, by simp⟩
  | cons datum data inductionHypothesis =>
      obtain ⟨sameRelations, count, others, domain, -⟩ :=
        Adt.add_spec atMost datum
      obtain ⟨keeps, unchanged, domains⟩ := @inductionHypothesis
        (adt.add datum) (by omega)
      rw [List.foldl_cons]
      refine ⟨keeps.trans sameRelations, fun index outside => ?_,
        fun position found isFound isRoom => ?_⟩
      · rw [List.length_cons] at outside
        by_cases isSlot : index = adt.valueCount
        · subst isSlot
          have full : adt.valueCount = aqlAttributeLimit := by omega
          rw [unchanged _ (Or.inr (by omega))]
          rcases adt.add_cases datum with ⟨-, same⟩ | ⟨notFull, -⟩
          · rw [same]
          · exact absurd full notFull
        · rw [unchanged index (by omega), others index isSlot]
      · cases position with
        | zero =>
            obtain rfl := Option.some.inj isFound
            rw [Nat.add_zero] at isRoom ⊢
            rw [unchanged _ (Or.inl (by omega))]
            exact domain isRoom
        | succ position =>
            have isCount : (adt.add datum).valueCount =
                adt.valueCount + 1 := by omega
            have isDomain := domains position found isFound (by omega)
            rw [isCount] at isDomain
            rw [Nat.add_comm position 1, ← Nat.add_assoc]
            exact isDomain

/-- The parser refuses the value list of an insertion, or it takes the values
and goes on with the relations. -/
theorem parseInsertQuery_cases (query : InsertQuery) (adt : Adt) :
    let outcome := parseInsertQuery query.tokens adt
    (leading query.items = none ∧ aqlError outcome.1 = true ∧
        outcome.2.overrun = adt.overrun) ∨
      ∃ data turns, leading query.items = some data ∧
        outcome.2 = (parseRelations (turns + 1)
          ⟨.identifier query.name :: query.rest,
            .into :: .identifier query.name :: query.rest⟩
          (data.foldl Adt.add adt.clear)).2.2 := by
  intro outcome
  have isOutcome : outcome = parseInsert (.start query.tokens) adt.clear :=
    rfl
  generalize isFuel : (Lexer.start query.tokens).input.length + 1 = fuel
  have enough : query.items.length ≤ fuel := by
    have atMost := length_le_length_commaSeparated query.items
    rw [← isFuel]
    unfold Lexer.start InsertQuery.tokens
    rw [List.length_cons, List.length_append]
    omega
  unfold parseInsert at isOutcome
  rw [isFuel] at isOutcome
  have begins : consume .leftParen (.start query.tokens) = _ :=
    consume_of_head .leftParen _ _
  rw [begins] at isOutcome
  dsimp only at isOutcome
  rw [if_neg (by decide)] at isOutcome
  obtain ⟨takes, rejects⟩ := parseValues_spec query.notEmpty enough
    adt.clear (.leftParen :: (commaSeparated query.items ++ .rightParen ::
      .into :: .identifier query.name :: query.rest))
    (.into :: .identifier query.name :: query.rest)
  have keeps := parseValues_overrun fuel
    ⟨commaSeparated query.items ++ .rightParen :: .into ::
      .identifier query.name :: query.rest,
      .leftParen :: (commaSeparated query.items ++ .rightParen :: .into ::
        .identifier query.name :: query.rest)⟩ adt.clear
  generalize parseValues fuel _ adt.clear = values
    at isOutcome takes rejects keeps
  obtain ⟨status, lexer, after⟩ := values
  dsimp only at isOutcome takes rejects keeps
  cases isLeading : leading query.items with
  | none =>
      refine Or.inl ⟨rfl, ?_⟩
      rw [isOutcome]
      split
      · exact ⟨rfl, keeps⟩
      · rename_i notError
        rcases rejects isLeading with ⟨isError, -, -⟩ | isComma
        · exact absurd (if_pos isError) notError
        · rw [if_pos (consume_of_other (by rw [isComma]; decide))]
          exact ⟨rfl, keeps⟩
  | some data =>
      obtain ⟨notError, isInput, isAdt⟩ := takes data isLeading
      obtain ⟨input, prevPos⟩ := lexer
      dsimp only at isInput
      subst isInput
      have parsed : ¬ parse status = 0 := by
        unfold parse
        rw [notError]
        decide
      rw [if_neg parsed, consume_of_head] at isOutcome
      dsimp only at isOutcome
      rw [if_neg (by decide), consume_of_head] at isOutcome
      dsimp only at isOutcome
      rw [if_neg (by decide), isAdt] at isOutcome
      obtain ⟨turns, rfl⟩ : ∃ turns, fuel = turns + 1 := ⟨_, isFuel.symm⟩
      refine Or.inr ⟨data, turns, rfl, ?_⟩
      rw [isOutcome]
      split
      · rfl
      · rfl

theorem parseInsertQuery_spec (query : InsertQuery) (adt : Adt) :
    let outcome := parseInsertQuery query.tokens adt
    aqlError outcome.1 = false → ∃ data, leading query.items = some data ∧
      outcome.2.relations.head? = some query.name ∧
        outcome.2.values = (data.foldl Adt.add adt.clear).values ∧
          outcome.2.charBuf = (data.foldl Adt.add adt.clear).charBuf := by
  intro outcome accepts
  obtain ⟨-, isError, -⟩ | ⟨data, turns, isLeading, isAdt⟩ :=
    parseInsertQuery_cases query adt
  · exact absurd (isError.symm.trans accepts) (by decide)
  · have isHead := @parseRelations_head turns
      ⟨.identifier query.name :: query.rest,
        .into :: .identifier query.name :: query.rest⟩ _ rfl
      (data.foldl Adt.add adt.clear)
      (Adt.foldl_add_spec (Nat.zero_le _) data).1
    obtain ⟨-, values, charBuf⟩ := parseRelations_keeps (turns + 1)
      ⟨.identifier query.name :: query.rest,
        .into :: .identifier query.name :: query.rest⟩
      (data.foldl Adt.add adt.clear)
    refine ⟨data, isLeading, ?_⟩
    rw [show outcome.2 = _ from isAdt]
    exact ⟨isHead, values, charBuf⟩

/-- The parser stores no name of an insertion behind its entry when the names
fit. -/
theorem parseInsertQuery_overrun (query : InsertQuery) {adt : Adt}
    (intact : adt.overrun = false)
    (namesFit : ∀ data, leading query.items = some data → query.NamesFit) :
    (parseInsertQuery query.tokens adt).2.overrun = false := by
  obtain ⟨-, -, same⟩ | ⟨data, turns, isLeading, isAdt⟩ :=
    parseInsertQuery_cases query adt
  · exact same.trans intact
  · obtain ⟨few, short⟩ := namesFit data isLeading
    rw [isAdt]
    refine parseRelations_overrun (turns + 1)
      ((Adt.foldl_add_overrun _ _).trans intact) ?_ short
    rw [(Adt.foldl_add_spec (Nat.zero_le _) data).1]
    exact (Nat.zero_add _).trans_le few

/-! ## Literals -/

/-- The bytes of `char_buf` that data take. -/
def charSize (data : List Datum) : Nat :=
  (data.map fun datum =>
    match datum with
    | .text characters => characters.length + 1
    | .number _ => 0).sum

theorem charSize_cons (datum : Datum) (data : List Datum) :
    charSize (datum :: data) = charSize [datum] + charSize data := by
  unfold charSize
  rw [List.map_cons, List.sum_cons, List.map_singleton, List.sum_singleton]

theorem Adt.nextFreeOffset_add (datum : Datum) :
    adt.nextFreeOffset ≤ (adt.add datum).nextFreeOffset ∧
      (adt.add datum).nextFreeOffset ≤
        adt.nextFreeOffset + charSize [datum] := by
  rcases adt.add_cases datum with ⟨-, same⟩ | ⟨-, ⟨number, rfl, same⟩ |
    ⟨characters, rfl, -, same⟩ | ⟨characters, rfl, -, same⟩⟩
  · rw [same]
    exact ⟨le_refl _, Nat.le_add_right _ _⟩
  · rw [same]
    exact ⟨le_refl _, Nat.le_add_right _ _⟩
  · rw [same]
    exact ⟨Nat.le_add_right _ _, le_refl _⟩
  · rw [same]
    exact ⟨le_refl _, Nat.le_add_right _ _⟩

theorem Adt.charBuf_foldl_add {adt : Adt}
    (atMost : adt.valueCount ≤ aqlAttributeLimit) (data : List Datum)
    (address : Nat) (isBefore : address < adt.nextFreeOffset) :
    (data.foldl Adt.add adt).charBuf address = adt.charBuf address := by
  induction data generalizing adt with
  | nil => rfl
  | cons datum data inductionHypothesis =>
      obtain ⟨-, count, -, -, sameBytes⟩ := Adt.add_spec atMost datum
      obtain ⟨grows, -⟩ := adt.nextFreeOffset_add datum
      rw [List.foldl_cons, inductionHypothesis (by omega) (by omega)]
      exact sameBytes address isBefore

theorem Adt.isLiteral_foldl_add {adt : Adt} {data : List Datum}
    (few : adt.valueCount + data.length ≤ aqlAttributeLimit)
    (room : adt.nextFreeOffset + charSize data ≤ dbMaxCharSizePerRow)
    (null : ByteMem) (position : Nat) (datum : Datum)
    (isDatum : data[position]? = some datum) :
    ((data.foldl Adt.add adt).attributeValues null
      (adt.valueCount + position)).IsLiteral datum := by
  induction data generalizing adt position with
  | nil => exact absurd isDatum (by simp)
  | cons first data inductionHypothesis =>
      rw [List.length_cons] at few
      rw [charSize_cons] at room
      have atMost : adt.valueCount ≤ aqlAttributeLimit := by omega
      obtain ⟨-, count, -, -, -⟩ := Adt.add_spec atMost first
      obtain ⟨-, grows⟩ := adt.nextFreeOffset_add first
      have isCount : (adt.add first).valueCount = adt.valueCount + 1 := by
        omega
      rw [List.foldl_cons]
      cases position with
      | succ position =>
          have isLiteral := @inductionHypothesis (adt.add first)
            (by omega) (by omega) position isDatum
          rw [isCount] at isLiteral
          rw [Nat.add_comm position 1, ← Nat.add_assoc]
          exact isLiteral
      | zero =>
          obtain rfl := Option.some.inj isDatum
          obtain ⟨-, unchanged, -⟩ := @Adt.foldl_add_spec
            (adt.add first) (by omega) data
          have isSlot := unchanged adt.valueCount (Or.inl (by omega))
          unfold Adt.attributeValues
          rw [Nat.add_zero, isSlot]
          rcases adt.add_cases first with ⟨full, -⟩ | ⟨-, ⟨number, rfl,
            same⟩ | ⟨characters, rfl, -, same⟩ | ⟨characters, rfl, long,
              -⟩⟩
          · omega
          · rw [same]
            unfold Adt.setValue
            dsimp only
            rw [Function.update_self]
            exact ⟨rfl, rfl⟩
          · have saved : (adt.add (.text characters)).values
                adt.valueCount = ⟨.string, 0, some adt.nextFreeOffset⟩ := by
              rw [same]
              exact Function.update_self _ _ _
            rw [saved]
            refine ⟨rfl, ?_⟩
            dsimp only
            rw [ByteMem.read_shift, Nat.add_zero]
            have isFree : (adt.add (.text characters)).nextFreeOffset =
                adt.nextFreeOffset + (characters.length + 1) := by
              rw [same]
              rfl
            have isBuf : (adt.add (.text characters)).charBuf =
                adt.charBuf.write adt.nextFreeOffset
                  (characters ++ [0]) := by
              rw [same]
              rfl
            have unchangedBytes : (data.foldl Adt.add
                (adt.add (.text characters))).charBuf.read
                  adt.nextFreeOffset (characters.length + 1) =
                (adt.add (.text characters)).charBuf.read
                  adt.nextFreeOffset (characters.length + 1) :=
              ByteMem.read_congr fun address _ bound =>
                Adt.charBuf_foldl_add (by omega) data address (by omega)
            rw [unchangedBytes, isBuf]
            exact ByteMem.read_write_of_length (by simp)
          · have isSize : charSize [Datum.text characters] =
                characters.length + 1 := rfl
            omega

end Contiki.Antelope
