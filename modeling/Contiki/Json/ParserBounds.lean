import Contiki.Json.ParserErrors

/-!
# The parser and the end of the text

A text need not end with a zero: what lies behind its last character is not
known to the parser.  A call may read the text and store on the stack, and
nothing else.
-/

namespace Contiki.Json

/-- What goes wrong in a call: it reads a character outside of the text, or
stores outside of the stack. -/
inductive Fault where
  | read
  | store
  deriving DecidableEq

/-- The characters that the loop of `atomic` takes for a string, if these are
all that it reads. -/
def stringWithin : List UInt8 → Option Nat
  | [] => none
  | [c] => if c = 0 ∨ c = quote then some 1 else none
  | c :: skipped :: rest =>
      if c = 0 ∨ c = quote then some 1
      else if c = backslash then (stringWithin rest).map (· + 2)
      else (stringWithin (skipped :: rest)).map (· + 1)

/-- The characters that the loop of `atomic` takes for a number, if it finds
one behind them. -/
def numberWithin : List UInt8 → Option Nat
  | [] => none
  | c :: rest =>
      if isDigit c || c = dot then (numberWithin rest).map (· + 1) else some 0

/-- What may come in a pair, in an array or in an object. -/
def Allowed (s : UInt8) : Prop :=
  s = lbrace ∨ s = lbracket ∨ s = colon

instance (s : UInt8) : Decidable (Allowed s) :=
  inferInstanceAs (Decidable (_ ∨ _))

def StartsString (c s : UInt8) : Prop :=
  c = quote ∧ Allowed s

instance (c s : UInt8) : Decidable (StartsString c s) :=
  inferInstanceAs (Decidable (_ ∧ _))

def StartsNumber (c s : UInt8) : Prop :=
  (s = colon ∨ s = lbracket) ∧ isDigit c = true

instance (c s : UInt8) : Decidable (StartsNumber c s) :=
  inferInstanceAs (Decidable (_ ∧ _))

def Opens (c s : UInt8) : Prop :=
  c = lbrace ∨ c = colon ∨ c = lbracket ∧ Allowed s

variable {c s : UInt8}

theorem StartsNumber.not_string (number : StartsNumber c s) :
    ¬ StartsString c s := by
  rintro ⟨rfl, _⟩
  exact absurd number.2 (by decide)

namespace JsonparseState

/-- `atomic` reads nothing outside of the text. -/
def readsWithin (state : JsonparseState) (c s : UInt8) : Bool :=
  if StartsString c s then (stringWithin state.rest).isSome
  else if StartsNumber c s then (numberWithin state.rest).isSome
  else true

/-- The state when a character has been taken. -/
def pastChar (state : JsonparseState) : JsonparseState :=
  { state.skipWs with pos := state.skipWs.pos + 1 }

/-- `jsonparse_next` for a text without a terminator. -/
def nextWithin (maxDepth : Nat) (state : JsonparseState) :
    Except Fault (UInt8 × JsonparseState) :=
  match state.skipWs.rest with
  | [] => .error .read
  | c :: _ =>
      if state.pastChar.readsWithin c state.getType then
        match state.pastChar.dispatch maxDepth c state.getType with
        | some result => .ok result
        | none => .error .store
      else .error .read

variable {maxDepth : Nat} {state : JsonparseState} {c : UInt8}
  {more : List UInt8}

theorem nextWithin_nil (text : state.skipWs.rest = []) :
    state.nextWithin maxDepth = .error .read := by
  unfold nextWithin
  rw [text]

theorem nextWithin_cons (text : state.skipWs.rest = c :: more) :
    state.nextWithin maxDepth =
      if state.pastChar.readsWithin c state.getType then
        match state.pastChar.dispatch maxDepth c state.getType with
        | some result => .ok result
        | none => .error .store
      else .error .read := by
  unfold nextWithin
  rw [text]

theorem rest_pastChar (text : state.skipWs.rest = c :: more) :
    state.pastChar.rest = more := by
  have dropped : (state.skipWs.json.drop state.skipWs.pos).drop 1 = more := by
    rw [show state.skipWs.json.drop state.skipWs.pos = c :: more from text]
    rfl
  rw [List.drop_drop] at dropped
  exact dropped

theorem length_rest (state : JsonparseState)
    (within : state.pos ≤ state.json.length) :
    state.pos + state.rest.length = state.json.length := by
  unfold rest
  rw [List.length_drop]
  omega

end JsonparseState

/-! ## Strings and numbers that end -/

/-- A string ends within the characters. -/
inductive Closes : List UInt8 → Prop where
  | last {c : UInt8} {rest : List UInt8} (ends : c = 0 ∨ c = quote) :
      Closes (c :: rest)
  | escaped {skipped : UInt8} {rest : List UInt8} (closes : Closes rest) :
      Closes (backslash :: skipped :: rest)
  | plain {c : UInt8} {rest : List UInt8} (goesOn : ¬ (c = 0 ∨ c = quote))
      (unescaped : c ≠ backslash) (closes : Closes rest) :
      Closes (c :: rest)

theorem not_closes_nil : ¬ Closes [] :=
  fun closes => nomatch closes

theorem closes_escaped_iff {c skipped : UInt8} {rest : List UInt8}
    (isEscape : c = backslash) :
    Closes (c :: skipped :: rest) ↔ Closes rest := by
  subst isEscape
  constructor
  · intro closes
    cases closes with
    | last ends =>
        exact absurd ends (by decide)
    | escaped closes =>
        exact closes
    | plain _ unescaped _ =>
        exact absurd rfl unescaped
  · exact Closes.escaped

theorem closes_plain_iff {c : UInt8} {rest : List UInt8}
    (goesOn : ¬ (c = 0 ∨ c = quote)) (unescaped : c ≠ backslash) :
    Closes (c :: rest) ↔ Closes rest := by
  constructor
  · intro closes
    cases closes with
    | last ends =>
        exact absurd ends goesOn
    | escaped _ =>
        exact absurd rfl unescaped
    | plain _ _ closes =>
        exact closes
  · exact Closes.plain goesOn unescaped

theorem not_closes_backslash : ¬ Closes [backslash] := by
  intro closes
  cases closes with
  | last ends =>
      exact absurd ends (by decide)
  | plain _ unescaped _ =>
      exact unescaped rfl

variable (chars : List UInt8)

/-- The loop for a string reads only the text exactly when the string ends. -/
theorem isSome_stringWithin_iff :
    (stringWithin chars).isSome = true ↔ Closes chars := by
  induction chars using stringWithin.induct with
  | case1 =>
      exact iff_of_false Bool.false_ne_true not_closes_nil
  | case2 c ends =>
      unfold stringWithin
      rw [if_pos ends]
      exact iff_of_true rfl (.last ends)
  | case3 c goesOn =>
      unfold stringWithin
      rw [if_neg goesOn]
      refine iff_of_false Bool.false_ne_true fun closes => ?_
      by_cases isEscape : c = backslash
      · subst isEscape
        exact not_closes_backslash closes
      · exact not_closes_nil ((closes_plain_iff goesOn isEscape).mp closes)
  | case4 c skipped rest ends =>
      unfold stringWithin
      rw [if_pos ends]
      exact iff_of_true rfl (.last ends)
  | case5 skipped rest goesOn inductionHypothesis =>
      unfold stringWithin
      rw [if_neg goesOn, if_pos rfl, Option.isSome_map, inductionHypothesis,
        closes_escaped_iff rfl]
  | case6 c skipped rest goesOn unescaped inductionHypothesis =>
      unfold stringWithin
      rw [if_neg goesOn, if_neg unescaped, Option.isSome_map,
        inductionHypothesis, closes_plain_iff goesOn unescaped]

open JsonparseState

theorem stringLoop_le {chars : List UInt8} (closes : Closes chars) :
    stringLoop chars ≤ chars.length := by
  induction closes with
  | @last c rest ends =>
      cases rest with
      | nil =>
          rw [stringLoop, if_pos ends]
          exact Nat.le_refl _
      | cons skipped rest =>
          rw [stringLoop, if_pos ends]
          exact Nat.succ_le_succ (Nat.zero_le _)
  | @escaped skipped rest _ inductionHypothesis =>
      rw [stringLoop, if_neg (by decide), if_pos rfl, List.length_cons,
        List.length_cons]
      omega
  | @plain c rest goesOn unescaped closes inductionHypothesis =>
      cases rest with
      | nil =>
          exact absurd closes not_closes_nil
      | cons skipped rest =>
          rw [stringLoop, if_neg goesOn, if_neg unescaped, List.length_cons]
          omega

/-- The loop for a number reads only the text exactly when something else
follows on the number. -/
theorem isSome_numberWithin_iff :
    (numberWithin chars).isSome = true ↔
      ∃ c ∈ chars, (isDigit c || c = dot) = false := by
  induction chars with
  | nil =>
      exact iff_of_false Bool.false_ne_true fun ⟨_, member, _⟩ =>
        List.not_mem_nil member
  | cons c rest inductionHypothesis =>
      unfold numberWithin
      rw [List.exists_mem_cons_iff]
      by_cases part : (isDigit c || c = dot) = true
      · rw [if_pos part, Option.isSome_map, inductionHypothesis, part]
        exact (or_iff_right (fun isFalse => nomatch isFalse)).symm
      · rw [if_neg part]
        exact iff_of_true rfl (Or.inl (Bool.eq_false_iff.mpr part))

theorem numberLoop_le : numberLoop chars ≤ chars.length :=
  (List.takeWhile_sublist _).length_le

/-! ## The switch -/

namespace JsonparseState

variable {maxDepth : Nat} {state : JsonparseState} {c s : UInt8}

/-- What the `switch` does with a character that neither is pushed nor begins
a string or a number. -/
structure Steady (state : JsonparseState)
    (result : Option (UInt8 × JsonparseState)) : Prop where
  exists_eq : ∃ type next, result = some (type, next) ∧
    next.json = state.json ∧ next.pos = state.pos ∧
      next.stack.length ≤ state.stack.length

theorem steady_pop (type : UInt8) : Steady state (some (type, state.pop)) :=
  ⟨type, _, rfl, rfl, rfl, by
    unfold pop
    rw [List.length_tail]
    exact Nat.sub_le _ 1⟩

theorem steady_fail (error : JsonError) :
    Steady state (some (state.fail error)) :=
  ⟨_, _, rfl, rfl, rfl, Nat.le_refl _⟩

theorem steady_same (type : UInt8) : Steady state (some (type, state)) :=
  ⟨_, _, rfl, rfl, rfl, Nat.le_refl _⟩

theorem Steady.of_pop {result : Option (UInt8 × JsonparseState)}
    (steady : Steady state.pop result) : Steady state result := by
  obtain ⟨type, next, isResult, json, pos, depth⟩ := steady
  refine ⟨type, next, isResult, json, pos, depth.trans ?_⟩
  unfold pop
  rw [List.length_tail]
  exact Nat.sub_le _ 1

theorem dispatch_steady (maxDepth : Nat) (state : JsonparseState)
    (notOpens : ¬ Opens c s) (noString : ¬ StartsString c s)
    (noNumber : ¬ StartsNumber c s) :
    Steady state (state.dispatch maxDepth c s) := by
  by_cases isLbrace : c = lbrace
  · exact absurd (Or.inl isLbrace) notOpens
  by_cases isRbrace : c = rbrace
  · subst isRbrace
    by_cases isPair : s = Json.colon ∧ state.vtype ≠ 0
    · rw [dispatch_rbrace_pair isPair]
      split
      · exact (steady_pop _).of_pop
      · exact (steady_fail _).of_pop
    · rw [dispatch_rbrace_not_pair isPair]
      split
      · exact steady_pop _
      · exact steady_fail _
  by_cases isRbracket : c = rbracket
  · subst isRbracket
    rw [dispatch_rbracket]
    split
    · exact steady_pop _
    · exact steady_fail _
  by_cases isColon : c = Json.colon
  · exact absurd (Or.inr (Or.inl isColon)) notOpens
  by_cases isComma : c = comma
  · subst isComma
    rw [dispatch_comma]
    split
    · exact steady_pop _
    · split
      · exact steady_same _
      · exact steady_fail _
  by_cases isQuote : c = quote
  · subst isQuote
    have refused : ¬ (s = lbrace ∨ s = lbracket ∨ s = Json.colon) :=
      fun allowed => noString ⟨rfl, allowed⟩
    rw [dispatch_quote, if_neg refused]
    exact steady_fail _
  by_cases isLbracket : c = lbracket
  · subst isLbracket
    have refused : ¬ (s = lbrace ∨ s = lbracket ∨ s = Json.colon) :=
      fun allowed => notOpens (Or.inr (Or.inr ⟨rfl, allowed⟩))
    rw [dispatch_lbracket, if_neg refused]
    exact steady_fail _
  have plain : Plain c := ⟨isLbrace, isRbrace, isRbracket, isColon, isComma,
    isQuote, isLbracket⟩
  have refused : ¬ ((s = Json.colon ∨ s = Json.lbracket) ∧
      isDigit c = true) := noNumber
  rw [plain.dispatch, if_neg refused]
  exact steady_same _

theorem dispatch_opens (maxDepth : Nat) (state : JsonparseState)
    (opens : Opens c s) :
    state.dispatch maxDepth c s =
      (state.push maxDepth c).map fun state => (c, state) := by
  rcases opens with rfl | rfl | ⟨rfl, allowed⟩
  · exact dispatch_lbrace
  · exact dispatch_colon
  · exact dispatch_lbracket.trans (if_pos allowed)

def stringType (s : UInt8) : UInt8 :=
  if s = lbrace then typePairName else quote

theorem stringType_ne (s : UInt8) : stringType s ≠ typeNumber := by
  unfold stringType
  split
  · decide
  · decide

theorem dispatch_string (maxDepth : Nat) (state : JsonparseState)
    (string : StartsString c s) :
    state.dispatch maxDepth c s =
      some (stringType s, state.atomic (stringType s)) := by
  obtain ⟨rfl, allowed⟩ := string
  exact dispatch_quote.trans (if_pos allowed)

/-! ## One call -/

/-- `pos` and `depth` are inside of their bounds. -/
structure Within (maxDepth : Nat) (state : JsonparseState) : Prop where
  pos : state.pos ≤ state.json.length
  depth : state.stack.length < maxDepth

/-- The call reads only characters of the text, keeps `pos` and `depth` inside
of their bounds, and reports what is nested too deeply. -/
structure CallSafe (maxDepth : Nat) (state : JsonparseState)
    (result : UInt8 × JsonparseState) : Prop where
  ok : state.nextWithin maxDepth = .ok result
  within : Within maxDepth result.2
  reports : ∀ c more, state.skipWs.rest = c :: more →
    Opens c state.getType → maxDepth ≤ state.stack.length + 1 →
    result.1 = typeError ∧ result.2.error ≠ .ok

/-- What a call needs: a character behind the white space, the end of a string
or of a number that begins with it, and room on the stack for another
element. -/
structure CallFits (maxDepth : Nat) (state : JsonparseState) : Prop where
  text : state.skipWs.rest ≠ []
  string : ∀ c more, state.skipWs.rest = c :: more →
    StartsString c state.getType → Closes more
  number : ∀ c more, state.skipWs.rest = c :: more →
    StartsNumber c state.getType →
    ∃ other ∈ more, (isDigit other || other = dot) = false
  room : ∀ c more, state.skipWs.rest = c :: more →
    Opens c state.getType → state.stack.length + 1 < maxDepth

variable {more : List UInt8}

/-- `atomic` reads only the text exactly when its string or number ends
there. -/
theorem readsWithin_iff (text : state.skipWs.rest = c :: more) (s : UInt8) :
    state.pastChar.readsWithin c s = true ↔
      (StartsString c s → Closes more) ∧
        (StartsNumber c s →
          ∃ other ∈ more, (isDigit other || other = dot) = false) := by
  unfold readsWithin
  rw [rest_pastChar text]
  by_cases string : StartsString c s
  · have noNumber : ¬ StartsNumber c s :=
      fun number => number.not_string string
    rw [if_pos string, isSome_stringWithin_iff, forall_prop_of_true string,
      forall_prop_of_false noNumber, and_true]
  · rw [if_neg string, forall_prop_of_false string, true_and]
    by_cases number : StartsNumber c s
    · rw [if_pos number, isSome_numberWithin_iff,
        forall_prop_of_true number]
    · rw [if_neg number, forall_prop_of_false number]
      exact iff_of_true rfl trivial

theorem pos_pastChar_le (text : state.skipWs.rest = c :: more) :
    state.pastChar.pos + more.length = state.json.length := by
  have some : state.skipWs.pos < state.json.length := by
    by_contra outside
    have none : state.skipWs.rest = [] :=
      List.drop_eq_nil_of_le (Nat.le_of_not_lt outside)
    rw [none] at text
    cases text
  rw [← rest_pastChar text]
  exact length_rest state.pastChar some

theorem within_string (within : Within maxDepth state)
    (text : state.skipWs.rest = c :: more) (closes : Closes more)
    (type : UInt8) (isString : type ≠ typeNumber) :
    Within maxDepth (state.pastChar.atomic type) := by
  have inside := pos_pastChar_le text
  have taken := stringLoop_le closes
  rw [atomic_string_eq isString, rest_pastChar text]
  exact ⟨show state.pastChar.pos + stringLoop more ≤ state.json.length by
    omega, within.depth⟩

theorem within_number (within : Within maxDepth state)
    (text : state.skipWs.rest = c :: more) :
    Within maxDepth (state.pastChar.atomic typeNumber) := by
  have inside := pos_pastChar_le text
  have taken := numberLoop_le more
  rw [atomic_number_eq, rest_pastChar text]
  exact ⟨show state.pastChar.pos + numberLoop more ≤ state.json.length by
    omega, within.depth⟩

theorem within_pastChar (within : Within maxDepth state)
    (text : state.skipWs.rest = c :: more) :
    Within maxDepth state.pastChar := by
  have inside := pos_pastChar_le text
  exact ⟨show state.pastChar.pos ≤ state.json.length by omega, within.depth⟩

theorem Steady.within {result : UInt8 × JsonparseState}
    (steady : Steady state (some result)) (within : Within maxDepth state) :
    Within maxDepth result.2 := by
  obtain ⟨type, next, isResult, json, pos, depth⟩ := steady
  rw [Option.some.inj isResult]
  refine ⟨?_, Nat.lt_of_le_of_lt depth within.depth⟩
  rw [pos, json]
  exact within.pos

theorem nextWithin_of_dispatch {result : UInt8 × JsonparseState}
    (text : state.skipWs.rest = c :: more)
    (reads : state.pastChar.readsWithin c state.getType = true)
    (dispatched : state.pastChar.dispatch maxDepth c state.getType =
      some result) :
    state.nextWithin maxDepth = .ok result := by
  rw [nextWithin_cons text, if_pos reads, dispatched]

theorem CallFits.safe (within : Within maxDepth state)
    (fits : CallFits maxDepth state) :
    ∃ result, CallSafe maxDepth state result := by
  cases text : state.skipWs.rest with
  | nil =>
      exact absurd text fits.text
  | cons c more =>
      have reads := (readsWithin_iff text state.getType).mpr
        ⟨fits.string c more text, fits.number c more text⟩
      have noReport : ∀ (result : UInt8 × JsonparseState) (c' : UInt8)
          (more' : List UInt8), state.skipWs.rest = c' :: more' →
          Opens c' state.getType → maxDepth ≤ state.stack.length + 1 →
          result.1 = typeError ∧ result.2.error ≠ .ok :=
        fun _ c' more' text' opens full =>
          absurd full (Nat.not_le_of_lt (fits.room c' more' text' opens))
      have within' := within_pastChar within text
      by_cases opens : Opens c state.getType
      · have room : (c :: state.pastChar.stack).length < maxDepth :=
          fits.room c more text opens
        have pushed := dispatch_opens maxDepth state.pastChar opens
        rw [push_of_lt room] at pushed
        exact ⟨_, nextWithin_of_dispatch text reads pushed,
          ⟨within'.pos, room⟩, noReport _⟩
      by_cases string : StartsString c state.getType
      · exact ⟨_, nextWithin_of_dispatch text reads
          (dispatch_string maxDepth state.pastChar string),
          within_string within text (fits.string c more text string) _
            (stringType_ne _), noReport _⟩
      by_cases number : StartsNumber c state.getType
      · exact ⟨_, nextWithin_of_dispatch text reads
          (dispatch_digit number.2 number.1),
          within_number within text, noReport _⟩
      have steady := dispatch_steady maxDepth state.pastChar opens string
        number
      obtain ⟨type, next, dispatched, _⟩ := steady.exists_eq
      rw [dispatched] at steady
      exact ⟨_, nextWithin_of_dispatch text reads dispatched,
        steady.within within', noReport _⟩

theorem CallSafe.fits {result : UInt8 × JsonparseState}
    (safe : CallSafe maxDepth state result) : CallFits maxDepth state := by
  have ok := safe.ok
  cases text : state.skipWs.rest with
  | nil =>
      rw [nextWithin_nil text] at ok
      cases ok
  | cons c more =>
      rw [nextWithin_cons text] at ok
      split at ok
      · next reads =>
          have ends := (readsWithin_iff text state.getType).mp reads
          constructor
          · rw [text]
            exact List.cons_ne_nil c more
          · intro c' more' text' string
            rw [text] at text'
            cases text'
            exact ends.1 string
          · intro c' more' text' number
            rw [text] at text'
            cases text'
            exact ends.2 number
          · intro c' more' text' opens
            rw [text] at text'
            cases text'
            rw [dispatch_opens maxDepth state.pastChar opens] at ok
            cases pushed : state.pastChar.push maxDepth c with
            | none =>
                rw [pushed] at ok
                cases ok
            | some next =>
                rw [pushed] at ok
                have depth := safe.within.depth
                rw [← Except.ok.inj ok] at depth
                unfold push at pushed
                split at pushed
                · cases pushed
                · rw [← Option.some.inj pushed] at depth
                  exact depth
      · cases ok

/-! ## All calls -/

/-- The states of the parser for a text, as long as each call fits. -/
inductive Reaches (maxDepth : Nat) (text : List UInt8) (vtype : UInt8) :
    JsonparseState → Prop where
  | setup : Reaches maxDepth text vtype (jsonparseSetup text vtype)
  | next {state : JsonparseState} {result : UInt8 × JsonparseState}
      (reaches : Reaches maxDepth text vtype state)
      (more : state.hasNext = true) (fits : CallFits maxDepth state)
      (call : state.nextWithin maxDepth = .ok result) :
      Reaches maxDepth text vtype result.2

theorem Reaches.within {text : List UInt8} {vtype : UInt8}
    (positive : 0 < maxDepth) (reaches : Reaches maxDepth text vtype state) :
    Within maxDepth state := by
  induction reaches with
  | setup =>
      exact ⟨Nat.zero_le _, positive⟩
  | next _ _ fits call inductionHypothesis =>
      obtain ⟨result, safe⟩ := fits.safe inductionHypothesis
      have same := safe.ok.symm.trans call
      rw [← Except.ok.inj same]
      exact safe.within

/-- The parser after the brace of `{ `. -/
def afterBrace : JsonparseState :=
  { jsonparseSetup [lbrace, 32] 0 with pos := 1, stack := [lbrace] }

/-- The second call for `{ ` reads behind the text. -/
theorem trailingSpace_read :
    (jsonparseSetup [lbrace, 32] 0).nextWithin jsonparseMaxDepth =
        .ok (lbrace, afterBrace) ∧
      afterBrace.hasNext = true ∧
      afterBrace.nextWithin jsonparseMaxDepth = .error .read :=
  ⟨rfl, rfl, rfl⟩

/-- While all calls fit, the parser stays inside of its bounds, and the next
call is safe if and only if it fits. -/
theorem jsonparse_bounds (maxDepth : Nat) (positive : 0 < maxDepth)
    (text : List UInt8) (vtype : UInt8) (state : JsonparseState)
    (reaches : Reaches maxDepth text vtype state) :
    Within maxDepth state ∧
      ((∃ result, CallSafe maxDepth state result) ↔
        CallFits maxDepth state) := by
  have within := reaches.within positive
  exact ⟨within, fun ⟨_, safe⟩ => safe.fits, fun fits => fits.safe within⟩

theorem Reaches.call {text : List UInt8} {vtype : UInt8}
    {result : UInt8 × JsonparseState}
    (reaches : Reaches maxDepth text vtype state)
    (more : state.hasNext = true) (room : state.stack.length + 1 < maxDepth)
    (call : state.nextWithin maxDepth = .ok result)
    (within : Within maxDepth result.2) :
    Reaches maxDepth text vtype result.2 := by
  have safe : CallSafe maxDepth state result :=
    ⟨call, within, fun _ _ _ _ full =>
      absurd full (Nat.not_le_of_lt room)⟩
  exact .next reaches more safe.fits call

/-- `{"a":[1]}` -/
def nestedText : List UInt8 :=
  [lbrace, quote, 97, quote, colon, lbracket, 49, rbracket, rbrace]

/-- The parser after the bracket of the text. -/
def afterBracket : JsonparseState :=
  { jsonparseSetup nestedText 0 with
    pos := 6, vstart := 2, vlen := 1, stack := [lbracket, colon, lbrace] }

theorem reaches_afterBracket :
    Reaches jsonparseMaxDepth nestedText 0 afterBracket := by
  have start : Reaches jsonparseMaxDepth nestedText 0 _ := .setup
  have brace := start.call rfl (by decide) rfl ⟨by decide, by decide⟩
  have name := brace.call rfl (by decide) rfl ⟨by decide, by decide⟩
  have pair := name.call rfl (by decide) rfl ⟨by decide, by decide⟩
  exact pair.call rfl (by decide) rfl ⟨by decide, by decide⟩

theorem jsonparse_bounds_afterBracket :
    Within jsonparseMaxDepth afterBracket ∧
      ((∃ result, CallSafe jsonparseMaxDepth afterBracket result) ↔
        CallFits jsonparseMaxDepth afterBracket) :=
  jsonparse_bounds jsonparseMaxDepth (by decide) nestedText 0 afterBracket
    reaches_afterBracket

end JsonparseState

end Contiki.Json
