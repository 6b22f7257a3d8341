import Contiki.Json.Parser

/-!
# JSON objects and the calls for them

The calls for the text of an object yield its tokens exactly when the value of
each pair leaves its type in the state and nothing comes after the object.
-/

namespace Contiki.Json

open JsonparseState

/-! ## Values -/

mutual

/-- A JSON value, with the characters of its strings and numbers as they are
in the text. -/
inductive Value where
  | string (chars : List UInt8)
  | number (digits : List UInt8)
  | array (items : Items)
  | object (members : Members)

inductive Items where
  | nil
  | cons (item : Value) (rest : Items)

inductive Members where
  | nil
  | cons (name : List UInt8) (value : Value) (rest : Members)

end

/-- The characters between two quotes: a quote or a backslash comes after a
backslash only. -/
def validChars : List UInt8 → Bool
  | [] => true
  | [c] => c ≠ 0 && c ≠ quote && c ≠ backslash
  | c :: escaped :: rest =>
      c ≠ 0 && c ≠ quote &&
        if c = backslash then escaped ≠ 0 && validChars rest
        else validChars (escaped :: rest)

def validDigits : List UInt8 → Bool
  | [] => false
  | c :: rest => isDigit c && rest.all fun c => isDigit c || c = dot

mutual

def Value.valid : Value → Bool
  | .string chars => validChars chars
  | .number digits => validDigits digits
  | .array items => items.valid
  | .object members => members.valid

def Items.valid : Items → Bool
  | .nil => true
  | .cons item rest => item.valid && rest.valid

def Members.valid : Members → Bool
  | .nil => true
  | .cons name value rest => validChars name && value.valid && rest.valid

end

def Value.isObject : Value → Bool
  | .object _ => true
  | _ => false

/-! ## Tokens -/

inductive Token where
  | openObject
  | closeObject
  | openArray
  | closeArray
  | colon
  | comma
  | name (chars : List UInt8)
  | string (chars : List UInt8)
  | number (digits : List UInt8)
  deriving DecidableEq

namespace Token

def text : Token → List UInt8
  | .openObject => [lbrace]
  | .closeObject => [rbrace]
  | .openArray => [lbracket]
  | .closeArray => [rbracket]
  | .colon => [Json.colon]
  | .comma => [Json.comma]
  | .name chars => quote :: chars ++ [quote]
  | .string chars => quote :: chars ++ [quote]
  | .number digits => digits

/-- What `jsonparse_next` returns for a token. -/
def type : Token → UInt8
  | .openObject => lbrace
  | .closeObject => rbrace
  | .openArray => lbracket
  | .closeArray => rbracket
  | .colon => Json.colon
  | .comma => Json.comma
  | .name _ => typePairName
  | .string _ => typeString
  | .number _ => typeNumber

/-- The start and the length of the characters of a token in the text. -/
def extent (start : Nat) : Token → Option (Nat × Nat)
  | .name chars => some (start + 1, chars.length)
  | .string chars => some (start + 1, chars.length)
  | .number digits => some (start, digits.length)
  | _ => none

def isNumber : Token → Bool
  | .number _ => true
  | _ => false

end Token

mutual

/-- The tokens of a value, each with the number of brackets and pairs that are
open after it. -/
def Value.tokens (depth : Nat) : Value → List (Token × Nat)
  | .string chars => [(.string chars, depth)]
  | .number digits => [(.number digits, depth)]
  | .array .nil => [(.openArray, depth + 1), (.closeArray, depth)]
  | .array (.cons item rest) =>
      (.openArray, depth + 1) ::
        (item.tokens (depth + 1) ++ rest.tokens (depth + 1) ++
          [(.closeArray, depth)])
  | .object .nil => [(.openObject, depth + 1), (.closeObject, depth)]
  | .object (.cons name value rest) =>
      (.openObject, depth + 1) :: (.name name, depth + 1) ::
        (.colon, depth + 2) ::
          (value.tokens (depth + 2) ++ rest.tokens (depth + 1) ++
            [(.closeObject, depth)])

/-- The tokens of the items after the first one. -/
def Items.tokens (depth : Nat) : Items → List (Token × Nat)
  | .nil => []
  | .cons item rest =>
      (.comma, depth) :: (item.tokens depth ++ rest.tokens depth)

/-- The tokens of the members after the first one. -/
def Members.tokens (depth : Nat) : Members → List (Token × Nat)
  | .nil => []
  | .cons name value rest =>
      (.comma, depth) :: (.name name, depth) :: (.colon, depth + 1) ::
        (value.tokens (depth + 1) ++ rest.tokens depth)

end

/-! ## Types that are left in the state -/

mutual

/-- After the value there is a type in the state: it is a string or a number,
or what is last in it leaves a type. -/
def Value.marks : Value → Bool
  | .string _ => true
  | .number _ => true
  | .array .nil => false
  | .array (.cons item rest) => rest.marks item.marks
  | .object .nil => false
  | .object (.cons _ _ _) => true

/-- The same for the items after another one. -/
def Items.marks (before : Bool) : Items → Bool
  | .nil => before
  | .cons item rest => rest.marks item.marks

end

mutual

/-- The value of each pair leaves a type. -/
def Value.accepted : Value → Bool
  | .string _ => true
  | .number _ => true
  | .array items => items.accepted
  | .object members => members.accepted

def Items.accepted : Items → Bool
  | .nil => true
  | .cons item rest => item.accepted && rest.accepted

def Members.accepted : Members → Bool
  | .nil => true
  | .cons _ value rest => value.accepted && value.marks && rest.accepted

end

/-! ## Tokens and the stack -/

def ValueTop (stack : List UInt8) : Prop :=
  stack.headD 0 = colon ∨ stack.headD 0 = lbracket

/-- The parser takes a token; the stack and the type of the last value, before
and after it. -/
inductive Accepts : Token → List UInt8 → UInt8 → List UInt8 → UInt8 → Prop
    where
  | openObject (stack : List UInt8) (vtype : UInt8) :
      Accepts .openObject stack vtype (lbrace :: stack) 0
  | closeEmpty (stack : List UInt8) (vtype : UInt8) :
      Accepts .closeObject (lbrace :: stack) vtype stack vtype
  | closePair (stack : List UInt8) (vtype : UInt8) (marked : vtype ≠ 0) :
      Accepts .closeObject (colon :: lbrace :: stack) vtype stack vtype
  | openArray (stack : List UInt8) (vtype : UInt8) (top : ValueTop stack) :
      Accepts .openArray stack vtype (lbracket :: stack) 0
  | closeArray (stack : List UInt8) (vtype : UInt8) :
      Accepts .closeArray (lbracket :: stack) vtype stack vtype
  | colon (stack : List UInt8) (vtype : UInt8) :
      Accepts .colon stack vtype (Json.colon :: stack) 0
  | commaPair (stack : List UInt8) (vtype : UInt8) (marked : vtype ≠ 0) :
      Accepts .comma (Json.colon :: stack) vtype stack vtype
  | commaItem (stack : List UInt8) (vtype : UInt8) :
      Accepts .comma (lbracket :: stack) vtype (lbracket :: stack) vtype
  | name (stack : List UInt8) (vtype : UInt8) (chars : List UInt8)
      (valid : validChars chars = true) :
      Accepts (.name chars) (lbrace :: stack) vtype (lbrace :: stack)
        typePairName
  | string (stack : List UInt8) (vtype : UInt8) (chars : List UInt8)
      (valid : validChars chars = true) (top : ValueTop stack) :
      Accepts (.string chars) stack vtype stack typeString
  | number (stack : List UInt8) (vtype : UInt8) (digits : List UInt8)
      (valid : validDigits digits = true) (top : ValueTop stack) :
      Accepts (.number digits) stack vtype stack typeNumber

/-- The parser reports an error at a token: the last value has left no
type. -/
inductive Rejects : Token → List UInt8 → UInt8 → Prop where
  | closeObject (stack : List UInt8) :
      Rejects .closeObject (colon :: stack) 0
  | comma (stack : List UInt8) : Rejects .comma (colon :: stack) 0

/-- The parser takes some tokens and is at their depths. -/
inductive Steps : List (Token × Nat) → List UInt8 → UInt8 → List UInt8 →
    UInt8 → Prop where
  | nil (stack : List UInt8) (vtype : UInt8) :
      Steps [] stack vtype stack vtype
  | cons {token : Token} {depth : Nat} {rest : List (Token × Nat)}
      {first second third : List UInt8} {before between after : UInt8}
      (accepts : Accepts token first before second between)
      (isDepth : second.length = depth)
      (steps : Steps rest second between third after) :
      Steps ((token, depth) :: rest) first before third after

/-- The parser takes some tokens and then reports an error. -/
inductive Fails : List (Token × Nat) → List UInt8 → UInt8 → Prop where
  | here {token : Token} {depth : Nat} {rest : List (Token × Nat)}
      {stack : List UInt8} {vtype : UInt8}
      (rejects : Rejects token stack vtype) :
      Fails ((token, depth) :: rest) stack vtype
  | later {token : Token} {depth : Nat} {rest : List (Token × Nat)}
      {first second : List UInt8} {before between : UInt8}
      (accepts : Accepts token first before second between)
      (isDepth : second.length = depth)
      (fails : Fails rest second between) :
      Fails ((token, depth) :: rest) first before

variable {first second : List (Token × Nat)}

theorem Steps.append
    {stack middle last : List UInt8} {before between after : UInt8}
    (earlier : Steps first stack before middle between)
    (later : Steps second middle between last after) :
    Steps (first ++ second) stack before last after := by
  induction earlier with
  | nil => exact later
  | cons accepts isDepth _ inductionHypothesis =>
      exact .cons accepts isDepth (inductionHypothesis later)

theorem Fails.after {stack middle : List UInt8} {before between : UInt8}
    (earlier : Steps first stack before middle between)
    (later : Fails second middle between) :
    Fails (first ++ second) stack before := by
  induction earlier with
  | nil => exact later
  | cons accepts isDepth _ inductionHypothesis =>
      exact .later accepts isDepth (inductionHypothesis later)

theorem Fails.append {first : List (Token × Nat)} {stack : List UInt8}
    {before : UInt8} (fails : Fails first stack before)
    (second : List (Token × Nat)) :
    Fails (first ++ second) stack before := by
  induction fails with
  | here rejects => exact .here rejects
  | later accepts isDepth _ inductionHypothesis =>
      exact .later accepts isDepth inductionHypothesis

/-! ## Values on the stack -/

/-- The tokens of a value that is accepted lead back to the stack, and those
of another one to an error. -/
def ValueRuns (tokens : List (Token × Nat)) (accepted marks : Bool)
    (stack : List UInt8) (vtype : UInt8) : Prop :=
  accepted = true ∧ (∃ after, Steps tokens stack vtype stack after ∧
      (after ≠ 0 ↔ marks = true)) ∨
    accepted = false ∧ Fails tokens stack vtype

theorem ValueRuns.append
    {accepted marks later laterMarks : Bool} {stack : List UInt8}
    {vtype : UInt8} (runs : ValueRuns first accepted marks stack vtype)
    (next : ∀ between, (between ≠ 0 ↔ marks = true) →
      ValueRuns second later laterMarks stack between) :
    ValueRuns (first ++ second) (accepted && later) laterMarks stack
      vtype := by
  rcases runs with ⟨isAccepted, between, steps, marked⟩ | ⟨notAccepted, fails⟩
  · rw [isAccepted, Bool.true_and]
    rcases next between marked with
      ⟨isLater, after, laterSteps, laterMarked⟩ | ⟨notLater, fails⟩
    · exact Or.inl ⟨isLater, after, steps.append laterSteps, laterMarked⟩
    · exact Or.inr ⟨notLater, fails.after steps⟩
  · rw [notAccepted, Bool.false_and]
    exact Or.inr ⟨rfl, fails.append second⟩

/-- What follows a value in an object, up to the end of the object. -/
def MembersRun (tokens : List (Token × Nat)) (accepted : Bool)
    (stack : List UInt8) (vtype : UInt8) : Prop :=
  accepted = true ∧ (∃ after, after ≠ 0 ∧
      Steps tokens (colon :: lbrace :: stack) vtype stack after) ∨
    accepted = false ∧ Fails tokens (colon :: lbrace :: stack) vtype

theorem unmarked_fails (rest : Members) (depth closing : Nat)
    (stack : List UInt8) :
    Fails (rest.tokens depth ++ [(.closeObject, closing)])
      (colon :: stack) 0 := by
  cases rest with
  | nil => exact .here (.closeObject stack)
  | cons name value rest => exact .here (.comma stack)

theorem ValueTop.colon (stack : List UInt8) :
    ValueTop (Json.colon :: stack) := Or.inl rfl

theorem ValueTop.lbracket (stack : List UInt8) :
    ValueTop (Json.lbracket :: stack) := Or.inr rfl

theorem pair_runs {tokens : List (Token × Nat)} {accepted marks : Bool}
    {stack : List UInt8} {rest : Members} {depth closing : Nat}
    (value : ValueRuns tokens accepted marks (colon :: lbrace :: stack) 0)
    (members : ∀ vtype, vtype ≠ 0 →
      MembersRun (rest.tokens depth ++ [(.closeObject, closing)])
        rest.accepted stack vtype) :
    MembersRun (tokens ++ (rest.tokens depth ++ [(.closeObject, closing)]))
      (accepted && marks && rest.accepted) stack 0 := by
  rcases value with ⟨isAccepted, between, steps, marked⟩ |
    ⟨notAccepted, fails⟩
  · rw [isAccepted, Bool.true_and]
    cases marks with
    | true =>
        rw [Bool.true_and]
        rcases members between (marked.mpr rfl) with
          ⟨isLater, after, laterMarked, laterSteps⟩ | ⟨notLater, fails⟩
        · exact Or.inl ⟨isLater, after, laterMarked, steps.append laterSteps⟩
        · exact Or.inr ⟨notLater, fails.after steps⟩
    | false =>
        have unmarked : between = 0 := by
          by_contra isMarked
          exact Bool.false_ne_true (marked.mp isMarked)
        rw [unmarked] at steps
        exact Or.inr ⟨rfl, (unmarked_fails rest depth closing _).after steps⟩
  · rw [notAccepted, Bool.false_and, Bool.false_and]
    exact Or.inr ⟨rfl, fails.append _⟩

/-- An object after its opening brace or after a comma. -/
def ObjectRun (tokens : List (Token × Nat)) (accepted : Bool)
    (stack : List UInt8) (vtype : UInt8) : Prop :=
  accepted = true ∧ (∃ after, after ≠ 0 ∧
      Steps tokens (lbrace :: stack) vtype stack after) ∨
    accepted = false ∧ Fails tokens (lbrace :: stack) vtype

theorem MembersRun.pair {tokens : List (Token × Nat)} {accepted : Bool}
    {stack name : List UInt8} (run : MembersRun tokens accepted stack 0)
    (valid : validChars name = true) {depth : Nat}
    (isDepth : depth = stack.length) (vtype : UInt8) :
    ObjectRun ((.name name, depth + 1) :: (.colon, depth + 2) :: tokens)
      accepted stack vtype := by
  have first := Accepts.name stack vtype name valid
  have second := Accepts.colon (lbrace :: stack) typePairName
  rcases run with ⟨isAccepted, after, marked, steps⟩ | ⟨notAccepted, fails⟩
  · exact Or.inl ⟨isAccepted, after, marked,
      .cons first (by rw [isDepth]; rfl)
        (.cons second (by rw [isDepth]; rfl) steps)⟩
  · exact Or.inr ⟨notAccepted,
      .later first (by rw [isDepth]; rfl)
        (.later second (by rw [isDepth]; rfl) fails)⟩

theorem ObjectRun.comma {tokens : List (Token × Nat)} {accepted : Bool}
    {stack : List UInt8} {vtype : UInt8}
    (run : ObjectRun tokens accepted stack vtype) (marked : vtype ≠ 0)
    {depth : Nat} (isDepth : (lbrace :: stack).length = depth) :
    MembersRun ((.comma, depth) :: tokens) accepted stack vtype := by
  have first := Accepts.commaPair (lbrace :: stack) vtype marked
  rcases run with ⟨isAccepted, after, marked, steps⟩ | ⟨notAccepted, fails⟩
  · exact Or.inl ⟨isAccepted, after, marked, .cons first isDepth steps⟩
  · exact Or.inr ⟨notAccepted, .later first isDepth fails⟩

theorem ObjectRun.braces {tokens : List (Token × Nat)} {accepted : Bool}
    {stack : List UInt8} (run : ObjectRun tokens accepted stack 0)
    (vtype : UInt8) :
    ValueRuns ((.openObject, stack.length + 1) :: tokens) accepted true
      stack vtype := by
  have first := Accepts.openObject stack vtype
  rcases run with ⟨isAccepted, after, marked, steps⟩ | ⟨notAccepted, fails⟩
  · exact Or.inl ⟨isAccepted, after, .cons first rfl steps,
      fun _ => rfl, fun _ => marked⟩
  · exact Or.inr ⟨notAccepted, .later first rfl fails⟩

theorem ValueRuns.brackets {tokens : List (Token × Nat)}
    {accepted marks : Bool} {stack : List UInt8}
    (runs : ValueRuns tokens accepted marks (lbracket :: stack) 0)
    {vtype : UInt8} (top : ValueTop stack) :
    ValueRuns ((.openArray, stack.length + 1) ::
      (tokens ++ [(.closeArray, stack.length)])) accepted marks stack
        vtype := by
  have first := Accepts.openArray stack vtype top
  rcases runs with ⟨isAccepted, after, steps, marked⟩ | ⟨notAccepted, fails⟩
  · have last := Accepts.closeArray stack after
    exact Or.inl ⟨isAccepted, after,
      .cons first rfl (steps.append (.cons last rfl (.nil _ _))), marked⟩
  · exact Or.inr ⟨notAccepted, .later first rfl (fails.append _)⟩

theorem ValueRuns.cons {tokens : List (Token × Nat)} {accepted marks : Bool}
    {stack : List UInt8} {vtype : UInt8}
    (runs : ValueRuns tokens accepted marks stack vtype) {token : Token}
    (accepts : Accepts token stack vtype stack vtype) {depth : Nat}
    (isDepth : stack.length = depth) :
    ValueRuns ((token, depth) :: tokens) accepted marks stack vtype := by
  rcases runs with ⟨isAccepted, after, steps, marked⟩ | ⟨notAccepted, fails⟩
  · exact Or.inl ⟨isAccepted, after, .cons accepts isDepth steps, marked⟩
  · exact Or.inr ⟨notAccepted, .later accepts isDepth fails⟩

theorem typeString_ne_zero : typeString ≠ 0 := by decide

theorem typeNumber_ne_zero : typeNumber ≠ 0 := by decide

mutual

theorem Value.runs : ∀ (value : Value) {stack : List UInt8} (vtype : UInt8),
    value.valid = true → (value.isObject = false → ValueTop stack) →
      ValueRuns (value.tokens stack.length) value.accepted value.marks stack
        vtype
  | .string chars, stack, vtype, valid, top =>
      Or.inl ⟨rfl, typeString,
        .cons (.string stack vtype chars valid (top rfl)) rfl (.nil _ _),
        fun _ => rfl, fun _ => typeString_ne_zero⟩
  | .number digits, stack, vtype, valid, top =>
      Or.inl ⟨rfl, typeNumber,
        .cons (.number stack vtype digits valid (top rfl)) rfl (.nil _ _),
        fun _ => rfl, fun _ => typeNumber_ne_zero⟩
  | .array .nil, stack, vtype, _, top =>
      Or.inl ⟨rfl, 0,
        .cons (.openArray stack vtype (top rfl)) rfl
          (.cons (.closeArray stack 0) rfl (.nil _ _)),
        fun marked => absurd rfl marked,
        fun marked => absurd marked Bool.false_ne_true⟩
  | .array (.cons item rest), stack, vtype, valid, top => by
      have valids := Bool.and_eq_true_iff.mp valid
      have first := item.runs 0 valids.1 fun _ => ValueTop.lbracket stack
      have all := first.append fun between marked =>
        rest.runs between item.marks marked valids.2
      rw [Value.tokens]
      exact all.brackets (top rfl)
  | .object .nil, stack, vtype, _, _ =>
      Or.inl ⟨rfl, 0,
        .cons (.openObject stack vtype) rfl
          (.cons (.closeEmpty stack 0) rfl (.nil _ _)),
        fun marked => absurd rfl marked,
        fun marked => absurd marked Bool.false_ne_true⟩
  | .object (.cons name value rest), stack, vtype, valid, _ => by
      have valids := Bool.and_eq_true_iff.mp valid
      have names := Bool.and_eq_true_iff.mp valids.1
      have run := pair_runs
        (value.runs 0 names.2 fun _ => ValueTop.colon (lbrace :: stack))
        fun vtype marked => rest.runs vtype marked valids.2
      rw [Value.tokens, List.append_assoc]
      exact (run.pair names.1 rfl 0).braces vtype

theorem Items.runs : ∀ (items : Items) {stack : List UInt8} (vtype : UInt8)
    (before : Bool), (vtype ≠ 0 ↔ before = true) → items.valid = true →
      ValueRuns (items.tokens (stack.length + 1)) items.accepted
        (items.marks before) (lbracket :: stack) vtype
  | .nil, stack, vtype, before, marked, _ =>
      Or.inl ⟨rfl, vtype, .nil _ _, marked⟩
  | .cons item rest, stack, vtype, before, _, valid => by
      have valids := Bool.and_eq_true_iff.mp valid
      have first := item.runs vtype valids.1 fun _ =>
        ValueTop.lbracket stack
      have all := first.append fun between marked =>
        rest.runs between item.marks marked valids.2
      rw [Items.tokens]
      exact all.cons (.commaItem stack vtype) rfl

theorem Members.runs : ∀ (members : Members) {stack : List UInt8}
    (vtype : UInt8), vtype ≠ 0 → members.valid = true →
      MembersRun (members.tokens (stack.length + 1) ++
        [(.closeObject, stack.length)]) members.accepted stack vtype
  | .nil, stack, vtype, marked, _ =>
      Or.inl ⟨rfl, vtype, marked,
        .cons (.closePair stack vtype marked) rfl (.nil _ _)⟩
  | .cons name value rest, stack, vtype, marked, valid => by
      have valids := Bool.and_eq_true_iff.mp valid
      have names := Bool.and_eq_true_iff.mp valids.1
      have run := pair_runs
        (value.runs 0 names.2 fun _ => ValueTop.colon (lbrace :: stack))
        fun vtype marked => rest.runs vtype marked valids.2
      rw [Members.tokens, List.cons_append, List.cons_append,
        List.cons_append, List.append_assoc]
      exact (run.pair names.1 rfl vtype).comma marked rfl

end

/-! ## Strings and numbers -/

theorem stringLoop_eq {chars : List UInt8} (valid : validChars chars = true)
    (rest : List UInt8) :
    stringLoop (chars ++ quote :: rest) = chars.length + 1 := by
  induction chars using validChars.induct with
  | case1 =>
      cases rest <;> rfl
  | case2 c =>
      unfold validChars at valid
      rw [Bool.and_eq_true, Bool.and_eq_true, decide_eq_true_iff,
        decide_eq_true_iff, decide_eq_true_iff] at valid
      rw [List.singleton_append, stringLoop,
        if_neg (not_or_intro valid.1.1 valid.1.2), if_neg valid.2]
      cases rest <;> rfl
  | case3 c escaped tail skipped inductionHypothesis =>
      unfold validChars at valid
      rw [Bool.and_eq_true, Bool.and_eq_true, decide_eq_true_iff,
        decide_eq_true_iff] at valid
      rw [List.cons_append, List.cons_append, stringLoop,
        if_neg (not_or_intro valid.1.1 valid.1.2)]
      by_cases isEscape : c = backslash
      · rw [if_pos isEscape, Bool.and_eq_true] at valid
        rw [if_pos isEscape, skipped valid.2.2]
        exact Nat.add_comm 2 (tail.length + 1)
      · rw [if_neg isEscape] at valid
        rw [if_neg isEscape, ← List.cons_append,
          inductionHypothesis valid.2]
        exact Nat.add_comm 1 ((escaped :: tail).length + 1)

/-- The text goes on with something that is no part of a number. -/
def EndsNumber (rest : List UInt8) : Prop :=
  ∀ c ∈ rest.head?, (isDigit c || c = dot) = false

theorem numberLoop_eq {digits rest : List UInt8}
    (valid : (digits.all fun c => isDigit c || c = dot) = true)
    (ends : EndsNumber rest) :
    numberLoop (digits ++ rest) = digits.length := by
  have none : rest.takeWhile (fun c => isDigit c || c = dot) = [] := by
    cases rest with
    | nil => rfl
    | cons c rest =>
        apply List.takeWhile_cons_of_neg
        rw [ends c rfl]
        exact Bool.false_ne_true
  unfold numberLoop
  rw [List.takeWhile_append_of_pos fun c isDigit =>
    List.all_eq_true.mp valid c isDigit, none, List.append_nil]

theorem isDigit_not_isSpace {c : UInt8} (digit : isDigit c = true) :
    isSpace c = false := by
  unfold isDigit at digit
  unfold isSpace
  rw [Bool.and_eq_true, decide_eq_true_iff, decide_eq_true_iff,
    UInt8.le_iff_toNat_le] at digit
  rw [Bool.or_eq_false_iff, decide_eq_false_iff_not,
    decide_eq_false_iff_not]
  have lower : 48 ≤ c.toNat := digit.1
  constructor
  · intro same
    rw [same] at lower
    exact absurd lower (by decide)
  · intro same
    rw [same] at lower
    exact absurd lower (by decide)

theorem isDigit_ne {c other : UInt8} (digit : isDigit c = true)
    (notDigit : isDigit other = false) : c ≠ other := by
  intro same
  rw [same, notDigit] at digit
  exact Bool.false_ne_true digit

/-! ## The switch -/

section Switch

variable {maxDepth : Nat} {state : JsonparseState} {s : UInt8}

theorem dispatch_lbrace :
    state.dispatch maxDepth lbrace s =
      (state.push maxDepth lbrace).map fun state => (lbrace, state) :=
  if_pos rfl

theorem dispatch_colon :
    state.dispatch maxDepth Json.colon s =
      (state.push maxDepth Json.colon).map fun state =>
        (Json.colon, state) := by
  unfold dispatch
  rw [if_neg (by decide), if_neg (by decide), if_neg (by decide),
    if_pos rfl]

theorem dispatch_rbrace_pair (isPair : s = Json.colon ∧ state.vtype ≠ 0) :
    state.dispatch maxDepth rbrace s =
      if state.pop.getType = lbrace then some (rbrace, state.pop.pop)
      else some (state.pop.fail .syntaxError) := by
  unfold dispatch
  rw [if_neg (by decide), if_pos rfl]
  dsimp only
  rw [if_pos isPair, if_pos isPair]

theorem dispatch_rbrace_not_pair
    (notPair : ¬ (s = Json.colon ∧ state.vtype ≠ 0)) :
    state.dispatch maxDepth rbrace s =
      if s = lbrace then some (rbrace, state.pop)
      else some (state.fail .syntaxError) := by
  unfold dispatch
  rw [if_neg (by decide), if_pos rfl]
  dsimp only
  rw [if_neg notPair, if_neg notPair]

theorem dispatch_rbracket :
    state.dispatch maxDepth rbracket s =
      if s = lbracket then some (rbracket, state.pop)
      else some (state.fail .unexpectedEndOfArray) := by
  unfold dispatch
  rw [if_neg (by decide), if_neg (by decide), if_pos rfl]

theorem dispatch_comma :
    state.dispatch maxDepth comma s =
      if s = Json.colon ∧ state.vtype ≠ 0 then some (comma, state.pop)
      else if s = lbracket then some (comma, state)
      else some (state.fail .syntaxError) := by
  unfold dispatch
  rw [if_neg (by decide), if_neg (by decide), if_neg (by decide),
    if_neg (by decide), if_pos rfl]

theorem dispatch_quote :
    state.dispatch maxDepth quote s =
      if s = lbrace ∨ s = lbracket ∨ s = Json.colon then
        let type := if s = lbrace then typePairName else quote
        some (type, state.atomic type)
      else some (state.fail .unexpectedString) := by
  unfold dispatch
  rw [if_neg (by decide), if_neg (by decide), if_neg (by decide),
    if_neg (by decide), if_neg (by decide), if_pos rfl]

theorem dispatch_lbracket :
    state.dispatch maxDepth lbracket s =
      if s = lbrace ∨ s = lbracket ∨ s = Json.colon then
        (state.push maxDepth lbracket).map fun state => (lbracket, state)
      else some (state.fail .unexpectedArray) := by
  unfold dispatch
  rw [if_neg (by decide), if_neg (by decide), if_neg (by decide),
    if_neg (by decide), if_neg (by decide), if_neg (by decide),
    if_pos rfl]

theorem dispatch_digit {c : UInt8} (digit : isDigit c = true)
    (isTop : s = Json.colon ∨ s = lbracket) :
    state.dispatch maxDepth c s =
      some (typeNumber, state.atomic typeNumber) := by
  unfold dispatch
  rw [if_neg (isDigit_ne digit rfl), if_neg (isDigit_ne digit rfl),
    if_neg (isDigit_ne digit rfl), if_neg (isDigit_ne digit rfl),
    if_neg (isDigit_ne digit rfl), if_neg (isDigit_ne digit rfl),
    if_neg (isDigit_ne digit rfl), if_pos ⟨isTop, digit⟩]

/-- `push` when there is room. -/
theorem push_of_lt {c : UInt8}
    (fits : (c :: state.stack).length < maxDepth) :
    state.push maxDepth c =
      some { state with stack := c :: state.stack, vtype := 0 } := by
  unfold JsonparseState.push
  apply if_neg
  rw [List.length_cons] at fits
  omega

end Switch

/-! ## One token -/

/-- The first character of a token that is accepted is no white space. -/
theorem Accepts.text_cons {token : Token} {first second : List UInt8}
    {before after : UInt8} (accepts : Accepts token first before second after) :
    ∃ c tail, token.text = c :: tail ∧ isSpace c = false := by
  cases accepts with
  | number _ _ digits valid =>
      cases digits with
      | nil => exact absurd valid Bool.false_ne_true
      | cons c tail =>
          have digit := (Bool.and_eq_true_iff.mp valid).1
          exact ⟨c, tail, rfl, isDigit_not_isSpace digit⟩
  | name => exact ⟨quote, _, rfl, rfl⟩
  | string => exact ⟨quote, _, rfl, rfl⟩
  | openObject => exact ⟨lbrace, [], rfl, rfl⟩
  | closeEmpty => exact ⟨rbrace, [], rfl, rfl⟩
  | closePair => exact ⟨rbrace, [], rfl, rfl⟩
  | openArray => exact ⟨lbracket, [], rfl, rfl⟩
  | closeArray => exact ⟨rbracket, [], rfl, rfl⟩
  | colon => exact ⟨Json.colon, [], rfl, rfl⟩
  | commaPair => exact ⟨Json.comma, [], rfl, rfl⟩
  | commaItem => exact ⟨Json.comma, [], rfl, rfl⟩

/-- The state after a token. -/
structure Taken (state : JsonparseState) (start : Nat) (token : Token)
    (stack : List UInt8) (vtype : UInt8) (next : JsonparseState) : Prop where
  json : next.json = state.json
  pos : next.pos = start + token.text.length
  stack : next.stack = stack
  vtype : next.vtype = vtype
  error : next.error = state.error
  extent : ∀ extent ∈ token.extent start,
    next.vstart = extent.1 ∧ next.vlen = extent.2

variable {state : JsonparseState}

theorem atomic_string {type : UInt8}
    {chars rest : List UInt8} (isString : type ≠ typeNumber)
    (valid : validChars chars = true)
    (isRest : state.rest = chars ++ quote :: rest) :
    state.atomic type =
      { state with pos := state.pos + (chars.length + 1), vtype := type,
                   vstart := state.pos, vlen := chars.length } := by
  unfold atomic
  rw [if_neg isString, isRest, stringLoop_eq valid]
  dsimp only
  rw [Nat.add_sub_cancel_left, Nat.add_sub_cancel]

theorem atomic_number {digits rest : List UInt8}
    (valid : (digits.all fun c => isDigit c || c = dot) = true)
    (ends : EndsNumber rest) (isRest : state.rest = digits ++ rest) :
    state.atomic typeNumber =
      { state with pos := state.pos + digits.length, vtype := typeNumber,
                   vstart := state.pos - 1,
                   vlen := state.pos + digits.length - (state.pos - 1) } := by
  unfold atomic
  rw [if_pos rfl, isRest, numberLoop_eq valid ends]

theorem text_end {start : Nat}
    (isPos : state.pos = start + 1) (chars : List UInt8) :
    state.pos + (chars.length + 1) =
      start + (quote :: chars ++ [quote]).length := by
  rw [isPos, List.length_append, List.length_cons, List.length_singleton]
  omega

theorem string_extent {start : Nat}
    (isPos : state.pos = start + 1) {chars : List UInt8} :
    ∀ extent ∈ some (start + 1, chars.length),
      state.pos = extent.1 ∧ chars.length = extent.2 := by
  intro extent isExtent
  cases isExtent
  exact ⟨isPos, rfl⟩

/-- The `switch` for a token that is accepted, after its first character. -/
theorem dispatch_accepts {maxDepth start : Nat} {state : JsonparseState}
    {token : Token} {stack : List UInt8} {vtype : UInt8}
    (accepts : Accepts token state.stack state.vtype stack vtype)
    (fits : stack.length < maxDepth) {rest : List UInt8}
    (isPos : state.pos = start + 1)
    (isRest : state.rest = token.text.tail ++ rest)
    (ends : token.isNumber = true → EndsNumber rest) :
    ∃ next, state.dispatch maxDepth (token.text.headD 0) state.getType =
        some (token.type, next) ∧
      Taken state start token stack vtype next := by
  generalize isStack : state.stack = before at accepts
  generalize isVtype : state.vtype = old at accepts
  have isTop : state.getType = before.headD 0 := by
    rw [← isStack]
    rfl
  cases accepts with
  | openObject =>
      rw [← isStack] at fits
      exact ⟨_, dispatch_lbrace.trans
          (congrArg (Option.map _) (push_of_lt fits)),
        rfl, isPos, congrArg (lbrace :: ·) isStack, rfl, rfl,
        fun _ isExtent => nomatch isExtent⟩
  | closeEmpty =>
      have notPair : ¬ (state.getType = Json.colon ∧ state.vtype ≠ 0) := by
        rw [isTop]
        exact fun pair => absurd pair.1 (by decide : lbrace ≠ Json.colon)
      exact ⟨_, (dispatch_rbrace_not_pair notPair).trans (if_pos isTop),
        rfl, isPos, congrArg List.tail isStack, isVtype, rfl,
        fun _ isExtent => nomatch isExtent⟩
  | closePair _ _ marked =>
      have isObject : state.pop.getType = lbrace :=
        congrArg (fun stack => stack.tail.headD 0) isStack
      exact ⟨_, (dispatch_rbrace_pair ⟨isTop, isVtype ▸ marked⟩).trans
          (if_pos isObject),
        rfl, isPos, congrArg (fun stack => stack.tail.tail) isStack, isVtype,
        rfl, fun _ isExtent => nomatch isExtent⟩
  | openArray _ _ top =>
      rw [← isStack] at fits top
      have allowed : state.getType = lbrace ∨ state.getType = lbracket ∨
          state.getType = Json.colon :=
        Or.inr (Or.symm top)
      exact ⟨_, (dispatch_lbracket.trans (if_pos allowed)).trans
          (congrArg (Option.map _) (push_of_lt fits)),
        rfl, isPos, congrArg (lbracket :: ·) isStack, rfl, rfl,
        fun _ isExtent => nomatch isExtent⟩
  | closeArray =>
      exact ⟨_, dispatch_rbracket.trans (if_pos isTop),
        rfl, isPos, congrArg List.tail isStack, isVtype, rfl,
        fun _ isExtent => nomatch isExtent⟩
  | colon =>
      rw [← isStack] at fits
      exact ⟨_, dispatch_colon.trans
          (congrArg (Option.map _) (push_of_lt fits)),
        rfl, isPos, congrArg (Json.colon :: ·) isStack, rfl, rfl,
        fun _ isExtent => nomatch isExtent⟩
  | commaPair _ _ marked =>
      exact ⟨_, dispatch_comma.trans (if_pos ⟨isTop, isVtype ▸ marked⟩),
        rfl, isPos, congrArg List.tail isStack, isVtype, rfl,
        fun _ isExtent => nomatch isExtent⟩
  | commaItem =>
      have notPair : ¬ (state.getType = Json.colon ∧ state.vtype ≠ 0) := by
        rw [isTop]
        exact fun pair => absurd pair.1 (by decide : lbracket ≠ Json.colon)
      exact ⟨_, (dispatch_comma.trans (if_neg notPair)).trans (if_pos isTop),
        rfl, isPos, isStack, isVtype, rfl, fun _ isExtent => nomatch isExtent⟩
  | name _ _ chars valid =>
      have isRest : state.rest = chars ++ quote :: rest := by
        rw [isRest]
        simp [Token.text]
      have isObject : state.getType = lbrace := isTop
      have isCall : state.dispatch maxDepth quote state.getType =
          some (typePairName, state.atomic typePairName) := by
        rw [dispatch_quote, if_pos (Or.inl isObject)]
        dsimp only
        rw [if_pos isObject]
      refine ⟨_, isCall, ?_⟩
      rw [atomic_string (by decide) valid isRest]
      exact ⟨rfl, text_end isPos chars, isStack, rfl, rfl,
        string_extent isPos⟩
  | string _ _ chars valid top =>
      have isRest : state.rest = chars ++ quote :: rest := by
        rw [isRest]
        simp [Token.text]
      have notObject : state.getType ≠ lbrace := by
        rcases top with top | top
        · rw [isTop, top]
          decide
        · rw [isTop, top]
          decide
      have allowed : state.getType = lbrace ∨ state.getType = lbracket ∨
          state.getType = Json.colon := by
        rw [isTop]
        exact Or.inr (Or.symm top)
      have isCall : state.dispatch maxDepth quote state.getType =
          some (typeString, state.atomic typeString) := by
        rw [dispatch_quote, if_pos allowed]
        dsimp only
        rw [if_neg notObject]
        rfl
      refine ⟨_, isCall, ?_⟩
      rw [atomic_string (by decide) valid isRest]
      exact ⟨rfl, text_end isPos chars, isStack, rfl, rfl,
        string_extent isPos⟩
  | number _ _ digits valid top =>
      cases digits with
      | nil => exact absurd valid Bool.false_ne_true
      | cons c digits =>
          have valids := Bool.and_eq_true_iff.mp valid
          have allowed : state.getType = Json.colon ∨
              state.getType = lbracket := by
            rw [isTop]
            exact top
          refine ⟨_, dispatch_digit valids.1 allowed, ?_⟩
          rw [atomic_number valids.2 (ends rfl) isRest]
          refine ⟨rfl, ?_, isStack, rfl, rfl, ?_⟩
          · show state.pos + digits.length = start + (digits.length + 1)
            omega
          · intro extent isExtent
            cases isExtent
            constructor
            · show state.pos - 1 = start
              omega
            · show state.pos + digits.length - (state.pos - 1) =
                digits.length + 1
              omega

end Contiki.Json
