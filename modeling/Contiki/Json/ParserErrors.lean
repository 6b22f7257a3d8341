import Mathlib.Data.List.TakeWhile
import Contiki.Json.ParserCalls

/-!
# Closing brackets that match nothing

A text with such a bracket makes the parser report an error, unless the stack
is left before the first error.
-/

namespace Contiki.Json

open JsonparseState

/-! ## Scanning a text -/

/-- Whether a character of a text is in a string. -/
inductive Mode where
  | outside
  | inside
  | escaped
  deriving DecidableEq

/-- Some closing bracket outside of strings is not for the innermost bracket
that is open. -/
def mismatched : Mode → List UInt8 → List UInt8 → Bool
  | _, _, [] => false
  | .escaped, brackets, _ :: rest => mismatched .inside brackets rest
  | .inside, brackets, c :: rest =>
      if c = quote then mismatched .outside brackets rest
      else if c = backslash then mismatched .escaped brackets rest
      else mismatched .inside brackets rest
  | .outside, brackets, c :: rest =>
      if c = lbrace ∨ c = lbracket then
        mismatched .outside (c :: brackets) rest
      else if c = rbrace then
        brackets.headD 0 ≠ lbrace || mismatched .outside brackets.tail rest
      else if c = rbracket then
        brackets.headD 0 ≠ lbracket || mismatched .outside brackets.tail rest
      else if c = quote then mismatched .inside brackets rest
      else mismatched .outside brackets rest

/-- More than `maxDepth` brackets and colons are open before the first
character that must not come: a closing bracket or a comma after a pair without
a value, a closing bracket that is not for the innermost bracket, a comma
outside of objects and arrays, or a string or an array outside of them. -/
def outgrows (maxDepth : Nat) :
    Mode → List UInt8 → Bool → List UInt8 → Bool
  | _, _, _, [] => false
  | .escaped, stack, typed, _ :: rest =>
      outgrows maxDepth .inside stack typed rest
  | .inside, stack, typed, c :: rest =>
      if c = quote then outgrows maxDepth .outside stack typed rest
      else if c = backslash then outgrows maxDepth .escaped stack typed rest
      else outgrows maxDepth .inside stack typed rest
  | .outside, stack, typed, c :: rest =>
      let top := stack.headD 0
      if c = lbrace ∨ c = colon then
        maxDepth ≤ stack.length ||
          outgrows maxDepth .outside (c :: stack) false rest
      else if c = rbrace then
        if top = colon ∧ typed = true then
          stack.tail.headD 0 = lbrace &&
            outgrows maxDepth .outside stack.tail.tail typed rest
        else
          top = lbrace && outgrows maxDepth .outside stack.tail typed rest
      else if c = rbracket then
        top = lbracket && outgrows maxDepth .outside stack.tail typed rest
      else if c = comma then
        if top = colon ∧ typed = true then
          outgrows maxDepth .outside stack.tail typed rest
        else top = lbracket && outgrows maxDepth .outside stack typed rest
      else if c = quote then
        (top = lbrace || top = lbracket || top = colon) &&
          outgrows maxDepth .inside stack true rest
      else if c = lbracket then
        (top = lbrace || top = lbracket || top = colon) &&
          (maxDepth ≤ stack.length ||
            outgrows maxDepth .outside (c :: stack) false rest)
      else
        outgrows maxDepth .outside stack
          (typed || isDigit c && (top = colon || top = lbracket)) rest

/-! ## Strings in a scan -/

/-- How a scan goes over a string. -/
structure ScansStrings (scan : Mode → List UInt8 → Bool) : Prop where
  nil : ∀ mode, scan mode [] = false
  escaped : ∀ c rest, scan .escaped (c :: rest) = scan .inside rest
  inside : ∀ c rest, scan .inside (c :: rest) =
    if c = quote then scan .outside rest
    else if c = backslash then scan .escaped rest
    else scan .inside rest

theorem mismatched_scansStrings (brackets : List UInt8) :
    ScansStrings fun mode => mismatched mode brackets where
  nil mode := by
    cases mode <;> rfl
  escaped _ _ := rfl
  inside _ _ := rfl

variable {c : UInt8} (maxDepth : Nat)

theorem outgrows_scansStrings (stack : List UInt8) (typed : Bool) :
    ScansStrings fun mode => outgrows maxDepth mode stack typed where
  nil mode := by
    cases mode <;> rfl
  escaped _ _ := rfl
  inside _ _ := rfl

/-- The loop for a string goes to where the scan is outside of it again. -/
theorem ScansStrings.skips {scan : Mode → List UInt8 → Bool}
    (scans : ScansStrings scan) {text : List UInt8} (noZero : 0 ∉ text) :
    scan .inside text = scan .outside (text.drop (stringLoop text)) := by
  induction text using stringLoop.induct with
  | case1 => rw [List.drop_nil, scans.nil, scans.nil]
  | case2 c isEnd =>
      have isQuote : c = quote := isEnd.resolve_left fun isZero =>
        noZero (isZero ▸ List.mem_cons_self)
      rw [scans.inside, if_pos isQuote, stringLoop, if_pos isEnd]
      rfl
  | case3 notEnd =>
      rw [scans.inside, if_neg (not_or.mp notEnd).2, if_pos rfl,
        stringLoop, if_neg notEnd, if_pos rfl, scans.nil]
      exact (scans.nil .outside).symm
  | case4 c notEnd notEscape =>
      rw [scans.inside, if_neg (not_or.mp notEnd).2, if_neg notEscape,
        stringLoop, if_neg notEnd, if_neg notEscape, scans.nil]
      exact (scans.nil .outside).symm
  | case5 c skipped rest isEnd =>
      have isQuote : c = quote := isEnd.resolve_left fun isZero =>
        noZero (isZero ▸ List.mem_cons_self)
      rw [scans.inside, if_pos isQuote, stringLoop, if_pos isEnd]
      rfl
  | case6 skipped rest notEnd inductionHypothesis =>
      have noZero' : 0 ∉ rest := fun isIn =>
        noZero (List.mem_cons_of_mem _ (List.mem_cons_of_mem _ isIn))
      rw [scans.inside, if_neg (not_or.mp notEnd).2, if_pos rfl,
        scans.escaped, stringLoop, if_neg notEnd, if_pos rfl,
        inductionHypothesis noZero', Nat.add_comm 2]
      rfl
  | case7 c skipped rest notEnd notEscape inductionHypothesis =>
      have noZero' : 0 ∉ skipped :: rest := fun isIn =>
        noZero (List.mem_cons_of_mem _ isIn)
      rw [scans.inside, if_neg (not_or.mp notEnd).2, if_neg notEscape,
        stringLoop, if_neg notEnd, if_neg notEscape,
        inductionHypothesis noZero', Nat.add_comm 1]
      rfl

/-! ## White space and numbers in a scan -/

/-- A character that is no bracket, quote, colon or comma. -/
structure Plain (c : UInt8) : Prop where
  lbrace : c ≠ lbrace
  rbrace : c ≠ rbrace
  rbracket : c ≠ rbracket
  colon : c ≠ colon
  comma : c ≠ comma
  quote : c ≠ quote
  lbracket : c ≠ lbracket

theorem isSpace_plain (space : isSpace c = true) : Plain c := by
  unfold isSpace at space
  rw [Bool.or_eq_true, decide_eq_true_iff, decide_eq_true_iff] at space
  rcases space with isBlank | isNewline
  · rw [isBlank]
    constructor <;> decide
  · rw [isNewline]
    constructor <;> decide

theorem isDigit_plain (digit : isDigit c = true) : Plain c := by
  constructor <;> exact isDigit_ne digit rfl

theorem dot_plain : Plain dot := by
  constructor <;> decide

theorem Plain.mismatched (plain : Plain c) (brackets rest : List UInt8) :
    mismatched .outside brackets (c :: rest) =
      mismatched .outside brackets rest := by
  rw [Json.mismatched, if_neg (not_or_intro plain.lbrace plain.lbracket),
    if_neg plain.rbrace, if_neg plain.rbracket, if_neg plain.quote]

theorem Plain.outgrows (plain : Plain c) (maxDepth : Nat)
    (stack : List UInt8) (typed : Bool) (rest : List UInt8) :
    outgrows maxDepth .outside stack typed (c :: rest) =
      outgrows maxDepth .outside stack
        (typed || isDigit c &&
          (stack.headD 0 = Json.colon || stack.headD 0 = Json.lbracket))
        rest := by
  rw [Json.outgrows, if_neg (not_or_intro plain.lbrace plain.colon),
    if_neg plain.rbrace, if_neg plain.rbracket, if_neg plain.comma,
    if_neg plain.quote, if_neg plain.lbracket]

theorem mismatched_plains {plains : List UInt8}
    (allPlain : ∀ c ∈ plains, Plain c) (brackets rest : List UInt8) :
    mismatched .outside brackets (plains ++ rest) =
      mismatched .outside brackets rest := by
  induction plains with
  | nil => rfl
  | cons c plains inductionHypothesis =>
      rw [List.cons_append, (allPlain c List.mem_cons_self).mismatched]
      exact inductionHypothesis fun c isIn =>
        allPlain c (List.mem_cons_of_mem _ isIn)

theorem outgrows_spaces {spaces : List UInt8}
    (allSpaces : ∀ c ∈ spaces, isSpace c = true) (maxDepth : Nat)
    (stack : List UInt8) (typed : Bool) (rest : List UInt8) :
    outgrows maxDepth .outside stack typed (spaces ++ rest) =
      outgrows maxDepth .outside stack typed rest := by
  induction spaces with
  | nil => rfl
  | cons c spaces inductionHypothesis =>
      have space := allSpaces c List.mem_cons_self
      have notDigit : isDigit c = false := by
        have mark := isSpace_mark space
        exact (Bool.or_eq_false_iff.mp mark).1
      rw [List.cons_append, (isSpace_plain space).outgrows, notDigit,
        Bool.false_and, Bool.or_false]
      exact inductionHypothesis fun c isIn =>
        allSpaces c (List.mem_cons_of_mem _ isIn)

theorem outgrows_digits {digits : List UInt8}
    (allPlain : ∀ c ∈ digits, Plain c) (maxDepth : Nat)
    (stack rest : List UInt8) :
    outgrows maxDepth .outside stack true (digits ++ rest) =
      outgrows maxDepth .outside stack true rest := by
  induction digits with
  | nil => rfl
  | cons c digits inductionHypothesis =>
      rw [List.cons_append, (allPlain c List.mem_cons_self).outgrows,
        Bool.true_or]
      exact inductionHypothesis fun c isIn =>
        allPlain c (List.mem_cons_of_mem _ isIn)

/-! ## The scan and the calls -/

def brackets (stack : List UInt8) : List UInt8 :=
  stack.filter fun c => c ≠ colon

/-- The scan of the text from a state on. -/
def JsonparseState.mismatches (state : JsonparseState) : Bool :=
  mismatched .outside (brackets state.stack) state.rest

def JsonparseState.outgrown (maxDepth : Nat) (state : JsonparseState) : Bool :=
  outgrows maxDepth .outside state.stack (state.vtype ≠ 0) state.rest

/-- A call and the scan of the text that was there before it. -/
inductive Followed (maxDepth : Nat) (outgrown mismatches : Bool) (pos : Nat)
    (json : List UInt8) : Option (UInt8 × JsonparseState) → Prop where
  | overflow (grows : outgrown = true) :
      Followed maxDepth outgrown mismatches pos json none
  | error {type : UInt8} {next : JsonparseState}
      (reports : next.error ≠ .ok) (fits : outgrown = false) :
      Followed maxDepth outgrown mismatches pos json (some (type, next))
  | taken {type : UInt8} {next : JsonparseState} (ok : next.error = .ok)
      (sameOutgrown : next.outgrown maxDepth = outgrown)
      (sameMismatches : next.mismatches = mismatches)
      (moved : pos ≤ next.pos) (sameJson : next.json = json) :
      Followed maxDepth outgrown mismatches pos json (some (type, next))

theorem stack_eq_cons {stack : List UInt8} {c : UInt8}
    (top : stack.headD 0 = c) (notZero : c ≠ 0) :
    stack = c :: stack.tail := by
  cases stack with
  | nil => exact absurd top.symm notZero
  | cons first rest =>
      cases top
      rfl

theorem Followed.push {maxDepth : Nat} {state : JsonparseState} {c : UInt8}
    (ok : state.error = .ok) {outgrown mismatches : Bool}
    (isOutgrown : outgrown = (maxDepth ≤ state.stack.length ||
      outgrows maxDepth .outside (c :: state.stack) false state.rest))
    (isMismatched : mismatches =
      mismatched .outside (brackets (c :: state.stack)) state.rest) :
    Followed maxDepth outgrown mismatches state.pos state.json
      ((state.push maxDepth c).map fun state => (c, state)) := by
  unfold JsonparseState.push
  by_cases full : maxDepth ≤ state.stack.length
  · rw [if_pos full]
    apply Followed.overflow
    rw [isOutgrown, decide_eq_true full, Bool.true_or]
  · rw [if_neg full]
    rw [decide_eq_false full, Bool.false_or] at isOutgrown
    exact .taken ok isOutgrown.symm isMismatched.symm (Nat.le_refl _) rfl

variable {state : JsonparseState}

theorem atomic_rest_string {type : UInt8} (isString : type ≠ typeNumber) :
    (state.atomic type).rest =
      state.rest.drop (stringLoop state.rest) := by
  unfold atomic
  rw [if_neg isString]
  exact List.drop_drop.symm

theorem atomic_rest_number (state : JsonparseState) :
    (state.atomic typeNumber).rest =
      state.rest.drop (numberLoop state.rest) := by
  unfold atomic
  rw [if_pos rfl]
  exact List.drop_drop.symm

theorem atomic_string_eq {type : UInt8} (isString : type ≠ typeNumber) :
    state.atomic type =
      { state with pos := state.pos + stringLoop state.rest, vtype := type,
                   vstart := state.pos,
                   vlen := state.pos + stringLoop state.rest - state.pos -
                     1 } := by
  unfold atomic
  exact if_neg isString

theorem atomic_number_eq (state : JsonparseState) :
    state.atomic typeNumber =
      { state with pos := state.pos + numberLoop state.rest,
                   vtype := typeNumber, vstart := state.pos - 1,
                   vlen := state.pos + numberLoop state.rest -
                     (state.pos - 1) } := by
  unfold atomic
  exact if_pos rfl

theorem Followed.string {maxDepth : Nat} {state : JsonparseState}
    {type : UInt8} (ok : state.error = .ok) (noZero : 0 ∉ state.rest)
    (isString : type ≠ typeNumber) (notZero : type ≠ 0) :
    Followed maxDepth (outgrows maxDepth .inside state.stack true state.rest)
      (mismatched .inside (brackets state.stack) state.rest) state.pos
      state.json (some (type, state.atomic type)) := by
  have isRest := @atomic_rest_string state type isString
  have isAtomic := @atomic_string_eq state type isString
  have isStack : (state.atomic type).stack = state.stack := by
    rw [isAtomic]
  have isTyped : ((state.atomic type).vtype ≠ 0 : Bool) = true := by
    rw [isAtomic]
    exact decide_eq_true notZero
  apply Followed.taken
  · rw [isAtomic]
    exact ok
  · unfold JsonparseState.outgrown
    rw [isRest, isStack, isTyped]
    exact ((outgrows_scansStrings maxDepth state.stack true).skips
      noZero).symm
  · unfold JsonparseState.mismatches
    rw [isRest, isStack]
    exact ((mismatched_scansStrings (brackets state.stack)).skips
      noZero).symm
  · rw [isAtomic]
    exact Nat.le_add_right _ _
  · rw [isAtomic]

theorem takeWhile_append_drop (taken : UInt8 → Bool) (text : List UInt8) :
    text.takeWhile taken ++ text.drop (text.takeWhile taken).length =
      text := by
  have isSplit : text.takeWhile taken ++ text.dropWhile taken = text :=
    List.takeWhile_append_dropWhile
  have isDrop : text.drop (text.takeWhile taken).length =
      text.dropWhile taken := by
    have isLeft : (text.takeWhile taken ++ text.dropWhile taken).drop
        (text.takeWhile taken).length = text.dropWhile taken :=
      List.drop_left
    rw [isSplit] at isLeft
    exact isLeft
  rw [isDrop, isSplit]

theorem Followed.number {maxDepth : Nat} {state : JsonparseState}
    (ok : state.error = .ok) :
    Followed maxDepth (outgrows maxDepth .outside state.stack true state.rest)
      (mismatched .outside (brackets state.stack) state.rest) state.pos
      state.json (some (typeNumber, state.atomic typeNumber)) := by
  have isRest := atomic_rest_number state
  have isAtomic := atomic_number_eq state
  have isStack : (state.atomic typeNumber).stack = state.stack := by
    rw [isAtomic]
  have isTyped : ((state.atomic typeNumber).vtype ≠ 0 : Bool) = true := by
    rw [isAtomic]
    exact decide_eq_true typeNumber_ne_zero
  have allPlain : ∀ c ∈ state.rest.takeWhile (fun c => isDigit c || c = dot),
      Plain c := by
    intro c isIn
    have isPart := List.mem_takeWhile_imp isIn
    rw [Bool.or_eq_true, decide_eq_true_iff] at isPart
    rcases isPart with digit | isDot
    · exact isDigit_plain digit
    · rw [isDot]
      exact dot_plain
  have isSplit : state.rest =
      state.rest.takeWhile (fun c => isDigit c || c = dot) ++
        (state.atomic typeNumber).rest := by
    rw [isRest]
    exact (takeWhile_append_drop _ state.rest).symm
  apply Followed.taken
  · rw [isAtomic]
    exact ok
  · unfold JsonparseState.outgrown
    rw [isStack, isTyped, isSplit, outgrows_digits allPlain]
  · unfold JsonparseState.mismatches
    rw [isStack, isSplit, mismatched_plains allPlain]
  · rw [isAtomic]
    exact Nat.le_add_right _ _
  · rw [isAtomic]

theorem Followed.pop {maxDepth : Nat} {state : JsonparseState} {c : UInt8}
    (ok : state.error = .ok) {outgrown mismatches : Bool}
    {stack : List UInt8}
    (isOutgrown : outgrown =
      outgrows maxDepth .outside stack (state.vtype ≠ 0) state.rest)
    (isMismatched : mismatches =
      mismatched .outside (brackets stack) state.rest) :
    Followed maxDepth outgrown mismatches state.pos state.json
      (some (c, { state with stack })) :=
  .taken ok isOutgrown.symm isMismatched.symm (Nat.le_refl _) rfl

theorem Followed.fail {maxDepth pos : Nat} {json : List UInt8}
    {state : JsonparseState} {outgrown mismatches : Bool} {error : JsonError}
    (isError : error ≠ .ok) (fits : outgrown = false) :
    Followed maxDepth outgrown mismatches pos json
      (some (state.fail error)) :=
  .error isError fits

theorem rbrace_followed (ok : state.error = .ok) :
    Followed maxDepth
      (outgrows maxDepth .outside state.stack (state.vtype ≠ 0)
        (rbrace :: state.rest))
      (mismatched .outside (brackets state.stack) (rbrace :: state.rest))
      state.pos state.json (state.dispatch maxDepth rbrace state.getType) := by
  have isMismatched (below : List UInt8)
      (isBrackets : brackets state.stack = lbrace :: brackets below) :
      mismatched .outside (brackets state.stack) (rbrace :: state.rest) =
        mismatched .outside (brackets below) state.rest := by
    rw [mismatched, if_neg (by decide), if_pos rfl, isBrackets]
    rfl
  rw [outgrows, if_neg (by decide), if_pos rfl]
  by_cases isPair : state.getType = colon ∧ state.vtype ≠ 0
  · have isTyped : state.stack.headD 0 = colon ∧
        ((state.vtype ≠ 0 : Bool) = true) :=
      ⟨isPair.1, decide_eq_true isPair.2⟩
    rw [dispatch_rbrace_pair isPair, if_pos isTyped]
    by_cases isObject : state.pop.getType = lbrace
    · have isTop : state.stack.tail.headD 0 = lbrace := isObject
      have isStack := stack_eq_cons isPair.1 (by decide)
      have isBelow := stack_eq_cons isTop (by decide)
      rw [if_pos isObject, isTop, decide_eq_true rfl, Bool.true_and]
      apply Followed.pop ok rfl
      apply isMismatched
      rw [isStack, isBelow]
      rfl
    · have notTop : state.stack.tail.headD 0 ≠ lbrace := isObject
      rw [if_neg isObject, decide_eq_false notTop, Bool.false_and]
      exact .fail (by decide) rfl
  · have notTyped : ¬ (state.stack.headD 0 = colon ∧
        ((state.vtype ≠ 0 : Bool) = true)) :=
      fun both => isPair ⟨both.1, of_decide_eq_true both.2⟩
    rw [dispatch_rbrace_not_pair isPair, if_neg notTyped]
    by_cases isObject : state.getType = lbrace
    · have isTop : state.stack.headD 0 = lbrace := isObject
      have isStack := stack_eq_cons isTop (by decide)
      rw [if_pos isObject, isTop, decide_eq_true rfl, Bool.true_and]
      apply Followed.pop ok rfl
      apply isMismatched
      rw [isStack]
      rfl
    · have notTop : state.stack.headD 0 ≠ lbrace := isObject
      rw [if_neg isObject, decide_eq_false notTop, Bool.false_and]
      exact .fail (by decide) rfl

theorem rbracket_followed (ok : state.error = .ok) :
    Followed maxDepth
      (outgrows maxDepth .outside state.stack (state.vtype ≠ 0)
        (rbracket :: state.rest))
      (mismatched .outside (brackets state.stack) (rbracket :: state.rest))
      state.pos state.json
      (state.dispatch maxDepth rbracket state.getType) := by
  rw [outgrows, if_neg (by decide), if_neg (by decide), if_pos rfl,
    mismatched, if_neg (by decide), if_neg (by decide), if_pos rfl,
    dispatch_rbracket]
  by_cases isArray : state.getType = lbracket
  · have isTop : state.stack.headD 0 = lbracket := isArray
    have isStack := stack_eq_cons isTop (by decide)
    rw [if_pos isArray, isTop, decide_eq_true rfl, Bool.true_and]
    apply Followed.pop ok rfl
    rw [isStack]
    rfl
  · have notTop : state.stack.headD 0 ≠ lbracket := isArray
    rw [if_neg isArray, decide_eq_false notTop, Bool.false_and]
    exact .fail (by decide) rfl

theorem comma_followed (ok : state.error = .ok) :
    Followed maxDepth
      (outgrows maxDepth .outside state.stack (state.vtype ≠ 0)
        (comma :: state.rest))
      (mismatched .outside (brackets state.stack) (comma :: state.rest))
      state.pos state.json (state.dispatch maxDepth comma state.getType) := by
  have isMismatched :
      mismatched .outside (brackets state.stack) (comma :: state.rest) =
        mismatched .outside (brackets state.stack) state.rest := by
    rw [mismatched, if_neg (by decide), if_neg (by decide),
      if_neg (by decide), if_neg (by decide)]
  rw [outgrows, if_neg (by decide), if_neg (by decide), if_neg (by decide),
    if_pos rfl, isMismatched, dispatch_comma]
  by_cases isPair : state.getType = colon ∧ state.vtype ≠ 0
  · have isTyped : state.stack.headD 0 = colon ∧
        ((state.vtype ≠ 0 : Bool) = true) :=
      ⟨isPair.1, decide_eq_true isPair.2⟩
    have isStack := stack_eq_cons isPair.1 (by decide)
    rw [if_pos isPair, if_pos isTyped]
    apply Followed.pop ok rfl
    rw [isStack]
    rfl
  · have notTyped : ¬ (state.stack.headD 0 = colon ∧
        ((state.vtype ≠ 0 : Bool) = true)) :=
      fun both => isPair ⟨both.1, of_decide_eq_true both.2⟩
    rw [if_neg isPair, if_neg notTyped]
    by_cases isArray : state.getType = lbracket
    · have isTop : state.stack.headD 0 = lbracket := isArray
      rw [if_pos isArray, isTop, decide_eq_true rfl, Bool.true_and]
      exact .taken ok rfl rfl (Nat.le_refl _) rfl
    · have notTop : state.stack.headD 0 ≠ lbracket := isArray
      rw [if_neg isArray, decide_eq_false notTop, Bool.false_and]
      exact .fail (by decide) rfl

theorem allowed_iff (state : JsonparseState) :
    (state.getType = lbrace ∨ state.getType = lbracket ∨
        state.getType = colon) ↔
      (state.stack.headD 0 = lbrace || state.stack.headD 0 = lbracket ||
        state.stack.headD 0 = colon) = true := by
  rw [Bool.or_eq_true, Bool.or_eq_true, decide_eq_true_iff,
    decide_eq_true_iff, decide_eq_true_iff, or_assoc]
  rfl

/-- The `switch` for another character. -/
theorem Plain.dispatch (plain : Plain c) {maxDepth : Nat}
    {state : JsonparseState} {s : UInt8} :
    state.dispatch maxDepth c s =
      if (s = Json.colon ∨ s = Json.lbracket) ∧ isDigit c = true then
        some (typeNumber, state.atomic typeNumber)
      else some (0, state) := by
  unfold JsonparseState.dispatch
  rw [if_neg plain.lbrace, if_neg plain.rbrace, if_neg plain.rbracket,
    if_neg plain.colon, if_neg plain.comma, if_neg plain.quote,
    if_neg plain.lbracket]

/-- The `switch` and the scan. -/
theorem dispatch_followed
    (ok : state.error = .ok) (noZero : 0 ∉ state.rest) (c : UInt8) :
    Followed maxDepth
      (outgrows maxDepth .outside state.stack (state.vtype ≠ 0)
        (c :: state.rest))
      (mismatched .outside (brackets state.stack) (c :: state.rest))
      state.pos state.json (state.dispatch maxDepth c state.getType) := by
  by_cases isLbrace : c = lbrace
  · subst isLbrace
    rw [dispatch_lbrace]
    exact .push ok rfl rfl
  by_cases isRbrace : c = rbrace
  · subst isRbrace
    exact rbrace_followed maxDepth ok
  by_cases isRbracket : c = rbracket
  · subst isRbracket
    exact rbracket_followed maxDepth ok
  by_cases isColon : c = colon
  · subst isColon
    rw [dispatch_colon]
    exact .push ok rfl rfl
  by_cases isComma : c = comma
  · subst isComma
    exact comma_followed maxDepth ok
  by_cases isQuote : c = quote
  · subst isQuote
    rw [outgrows, if_neg (by decide), if_neg (by decide),
      if_neg (by decide), if_neg (by decide), if_pos rfl, mismatched,
      if_neg (by decide), if_neg (by decide), if_neg (by decide),
      if_pos rfl, dispatch_quote]
    by_cases allowed : state.getType = lbrace ∨ state.getType = lbracket ∨
        state.getType = colon
    · rw [if_pos allowed, (allowed_iff state).mp allowed, Bool.true_and]
      dsimp only
      apply Followed.string ok noZero
      · split <;> decide
      · split <;> decide
    · rw [if_neg allowed,
        Bool.eq_false_iff.mpr (mt (allowed_iff state).mpr allowed),
        Bool.false_and]
      exact .fail (by decide) rfl
  by_cases isLbracket : c = lbracket
  · subst isLbracket
    rw [outgrows, if_neg (by decide), if_neg (by decide),
      if_neg (by decide), if_neg (by decide), if_neg (by decide),
      if_pos rfl, mismatched, if_pos (by decide), dispatch_lbracket]
    by_cases allowed : state.getType = lbrace ∨ state.getType = lbracket ∨
        state.getType = colon
    · rw [if_pos allowed, (allowed_iff state).mp allowed, Bool.true_and]
      exact .push ok rfl rfl
    · rw [if_neg allowed,
        Bool.eq_false_iff.mpr (mt (allowed_iff state).mpr allowed),
        Bool.false_and]
      exact .fail (by decide) rfl
  have plain : Plain c := ⟨isLbrace, isRbrace, isRbracket, isColon, isComma,
    isQuote, isLbracket⟩
  rw [plain.outgrows, plain.mismatched, plain.dispatch]
  by_cases isNumber : (state.getType = colon ∨ state.getType = lbracket) ∧
      isDigit c = true
  · have isTyped : (state.stack.headD 0 = colon ||
        state.stack.headD 0 = lbracket : Bool) = true := by
      rw [Bool.or_eq_true, decide_eq_true_iff, decide_eq_true_iff]
      exact isNumber.1
    rw [if_pos isNumber, isNumber.2, isTyped, Bool.true_and, Bool.or_true]
    exact .number ok
  · have isSame : ((state.vtype ≠ 0 : Bool) || isDigit c &&
        (state.stack.headD 0 = colon || state.stack.headD 0 = lbracket)) =
          (state.vtype ≠ 0 : Bool) := by
      have isFalse : (isDigit c && (state.stack.headD 0 = colon ||
          state.stack.headD 0 = lbracket : Bool)) = false := by
        apply Bool.eq_false_iff.mpr
        intro isTrue
        rw [Bool.and_eq_true, Bool.or_eq_true, decide_eq_true_iff,
          decide_eq_true_iff] at isTrue
        exact isNumber ⟨isTrue.2, isTrue.1⟩
      rw [isFalse, Bool.or_false]
    rw [if_neg isNumber, isSame]
    exact .taken ok rfl rfl (Nat.le_refl _) rfl

theorem Followed.of_le {maxDepth first second : Nat} {json : List UInt8}
    {outgrown mismatches : Bool}
    {result : Option (UInt8 × JsonparseState)}
    (followed : Followed maxDepth outgrown mismatches second json result)
    (isLess : first ≤ second) :
    Followed maxDepth outgrown mismatches first json result := by
  cases followed with
  | overflow grows => exact .overflow grows
  | error reports fits => exact .error reports fits
  | taken ok sameOutgrown sameMismatches moved sameJson =>
      exact .taken ok sameOutgrown sameMismatches (isLess.trans moved)
        sameJson

theorem zero_plain : Plain 0 := by
  constructor <;> decide

theorem scan_headD (stack : List UInt8) (typed : Bool) (text : List UInt8) :
    outgrows maxDepth .outside stack typed (text.headD 0 :: text.drop 1) =
        outgrows maxDepth .outside stack typed text ∧
      mismatched .outside (brackets stack) (text.headD 0 :: text.drop 1) =
        mismatched .outside (brackets stack) text := by
  cases text with
  | nil =>
      exact ⟨zero_plain.outgrows maxDepth stack typed [],
        zero_plain.mismatched (brackets stack) []⟩
  | cons c rest => exact ⟨rfl, rfl⟩

theorem jsonparseNext_followed
    (ok : state.error = .ok) (noZero : 0 ∉ state.json) :
    Followed maxDepth (state.outgrown maxDepth) state.mismatches
      (state.pos + 1) state.json (state.jsonparseNext maxDepth) := by
  have isSpaces : ∀ c ∈ state.rest.takeWhile isSpace, isSpace c = true :=
    fun _ isIn => List.mem_takeWhile_imp isIn
  have isSplit : state.rest =
      state.rest.takeWhile isSpace ++ state.skipWs.rest :=
    (takeWhile_append_drop isSpace state.rest).symm.trans
      (congrArg (state.rest.takeWhile isSpace ++ ·) List.drop_drop)
  have isMoved : (state.skipWs.after 1).rest = state.skipWs.rest.drop 1 :=
    List.drop_drop.symm
  have noZero' : 0 ∉ (state.skipWs.after 1).rest := fun isIn =>
    noZero (List.mem_of_mem_drop isIn)
  have ends := scan_headD maxDepth state.stack (state.vtype ≠ 0)
    state.skipWs.rest
  have followed := dispatch_followed maxDepth (c := state.skipWs.rest.headD 0)
    (show (state.skipWs.after 1).error = .ok from ok) noZero'
  have isOutgrown : state.outgrown maxDepth =
      outgrows maxDepth .outside state.stack (state.vtype ≠ 0)
        state.skipWs.rest := by
    unfold JsonparseState.outgrown
    rw [isSplit, outgrows_spaces isSpaces]
  have isMismatched : state.mismatches =
      mismatched .outside (brackets state.stack) state.skipWs.rest := by
    unfold JsonparseState.mismatches
    rw [isSplit, mismatched_plains fun c isIn =>
      isSpace_plain (isSpaces c isIn)]
  rw [isMoved] at followed
  rw [isOutgrown, isMismatched, ← ends.1, ← ends.2]
  exact followed.of_le (Nat.add_le_add_right (Nat.le_add_right _ _) 1)

/-! ## All calls and the scan -/

theorem parseFrom_outgrown {maxDepth : Nat} (calls : Nat) :
    ∀ {state : JsonparseState}, state.error = .ok → 0 ∉ state.json →
      state.outgrown maxDepth = true →
        ¬ Reports (parseFrom maxDepth calls state) := by
  induction calls with
  | zero =>
      intro state _ _ _ reports
      obtain ⟨call, isIn, -⟩ := reports
      exact absurd isIn List.not_mem_nil
  | succ calls inductionHypothesis =>
      intro state ok noZero grows reports
      have followed := jsonparseNext_followed maxDepth ok noZero
      obtain ⟨call, isIn, isError⟩ := reports
      unfold parseFrom at isIn
      split at isIn
      · generalize state.jsonparseNext maxDepth = result at followed isIn
        cases followed with
        | overflow _ => cases List.mem_singleton.mp isIn
        | error _ fits => exact absurd (grows.symm.trans fits) (by decide)
        | taken ok' sameOutgrown _ _ sameJson =>
            rcases List.mem_cons.mp isIn with isFirst | isLater
            · cases isFirst
              exact isError ok'
            · exact inductionHypothesis ok' (sameJson ▸ noZero)
                (sameOutgrown.trans grows) ⟨call, isLater, isError⟩
      · exact absurd isIn List.not_mem_nil

/-- A mismatched bracket makes a call report an error if the stack is not
left before. -/
theorem parseFrom_mismatches {maxDepth : Nat} (calls : Nat) :
    ∀ {state : JsonparseState}, state.error = .ok → 0 ∉ state.json →
      state.rest.length ≤ calls → state.outgrown maxDepth = false →
        state.mismatches = true →
          Reports (parseFrom maxDepth calls state) := by
  induction calls with
  | zero =>
      intro state _ _ isLess _ isMismatched
      have isEnd : state.rest = [] :=
        List.length_eq_zero_iff.mp (Nat.le_zero.mp isLess)
      unfold JsonparseState.mismatches at isMismatched
      rw [isEnd] at isMismatched
      exact absurd isMismatched Bool.false_ne_true
  | succ calls inductionHypothesis =>
      intro state ok noZero isLess fits isMismatched
      have more : state.rest ≠ [] := by
        intro isEnd
        unfold JsonparseState.mismatches at isMismatched
        rw [isEnd] at isMismatched
        exact Bool.false_ne_true isMismatched
      have followed := jsonparseNext_followed maxDepth ok noZero
      rw [parseFrom, if_pos (hasNext_of_rest more)]
      generalize state.jsonparseNext maxDepth = result at followed
      cases followed with
      | overflow grows => exact absurd (grows.symm.trans fits) (by decide)
      | error reports _ => exact ⟨_, List.mem_cons_self, reports⟩
      | @taken _ next ok' sameOutgrown sameMismatches moved sameJson =>
          have isLess' : next.rest.length ≤ calls := by
            unfold JsonparseState.rest at isLess ⊢
            rw [List.length_drop] at isLess ⊢
            rw [sameJson]
            omega
          obtain ⟨call, isIn, isError⟩ := inductionHypothesis ok'
            (sameJson ▸ noZero) isLess' (sameOutgrown.trans fits)
            (sameMismatches.trans isMismatched)
          exact ⟨call, List.mem_cons_of_mem _ isIn, isError⟩

/-- The type of the last value does not matter where nothing is open. -/
theorem outgrows_typed (typed : Bool) (text : List UInt8) :
    outgrows maxDepth .outside [] typed text =
      outgrows maxDepth .outside [] false text := by
  induction text with
  | nil => rfl
  | cons c rest inductionHypothesis =>
      have notColon : (0 : UInt8) ≠ colon := by decide
      have notLbrace : (0 : UInt8) ≠ lbrace := by decide
      have notLbracket : (0 : UInt8) ≠ lbracket := by decide
      simp only [outgrows, List.headD_nil, notColon, notLbrace, notLbracket,
        decide_false, false_and, if_false, Bool.false_and, Bool.or_self,
        Bool.and_false, Bool.or_false, inductionHypothesis]

theorem parse_mismatched {maxDepth : Nat} {text : List UInt8}
    (noZero : 0 ∉ text)
    (isMismatched : mismatched .outside [] text = true) (vtype : UInt8) :
    Reports (parse maxDepth text vtype) ↔
      outgrows maxDepth .outside [] false text = false := by
  have isFits : (jsonparseSetup text vtype).outgrown maxDepth =
      outgrows maxDepth .outside [] false text :=
    outgrows_typed maxDepth (vtype ≠ 0) text
  constructor
  · intro reports
    apply Bool.eq_false_iff.mpr
    intro grows
    exact parseFrom_outgrown text.length rfl noZero (isFits.trans grows)
      reports
  · intro fits
    exact parseFrom_mismatches text.length rfl noZero (Nat.le_refl _)
      (isFits.trans fits) isMismatched

/-! ## The language of the parser -/

/-- `JSONPARSE_MAX_DEPTH` -/
def jsonparseMaxDepth : Nat := 10

/-- `{"a":{}}`, an object in a pair. -/
def emptyInPair : List Placed :=
  [⟨[], .openObject, 1⟩, ⟨[], .name [97], 1⟩, ⟨[], .colon, 2⟩,
    ⟨[], .openObject, 3⟩, ⟨[], .closeObject, 2⟩, ⟨[], .closeObject, 0⟩]

/-- The tokens of an object are not yielded, without any white space and with
room on the stack. -/
theorem emptyInPair_not_expected :
    ∃ members : Members, members.valid = true ∧
      LaysOut emptyInPair ((Value.object members).tokens 0) ∧
      (∀ placed ∈ emptyInPair, placed.depth < jsonparseMaxDepth) ∧
      parse jsonparseMaxDepth (layoutText emptyInPair) 0 ≠
        expected 0 emptyInPair :=
  ⟨.cons [97] (.object .nil) .nil, by decide, ⟨by decide, by decide⟩,
    by decide, by decide +kernel⟩

/-- The calls for the text of an object yield its tokens exactly when the value
of each pair leaves a type and nothing comes after the object, and a closing
bracket that matches nothing is reported exactly when the stack is not left
before the first error. -/
theorem jsonparse_language (maxDepth : Nat) (vtype : UInt8) :
    (∀ (members : Members) (layout : List Placed) (trailing : List UInt8),
      members.valid = true →
      LaysOut layout ((Value.object members).tokens 0) →
      trailing.all isSpace = true →
      (∀ placed ∈ layout, placed.depth < maxDepth) →
      (parse maxDepth (layoutText layout ++ trailing) vtype =
          expected 0 layout ↔
        members.accepted = true ∧ trailing = [])) ∧
    ∀ text : List UInt8, 0 ∉ text → mismatched .outside [] text = true →
      (Reports (parse maxDepth text vtype) ↔
        outgrows maxDepth .outside [] false text = false) :=
  ⟨fun _ _ _ valid lays spaces depths =>
      parse_object valid lays spaces depths vtype,
    fun _ noZero isMismatched =>
      parse_mismatched noZero isMismatched vtype⟩

/-- `{"a": 1}` is yielded, and `{]` is reported. -/
theorem numberInPair_expected :
    parse jsonparseMaxDepth (layoutText
        [⟨[], .openObject, 1⟩, ⟨[], .name [97], 1⟩, ⟨[], .colon, 2⟩,
          ⟨[32], .number [49], 2⟩, ⟨[], .closeObject, 0⟩] ++ []) 0 =
      expected 0 [⟨[], .openObject, 1⟩, ⟨[], .name [97], 1⟩, ⟨[], .colon, 2⟩,
        ⟨[32], .number [49], 2⟩, ⟨[], .closeObject, 0⟩] ∧
    Reports (parse jsonparseMaxDepth [lbrace, rbracket] 0) :=
  ⟨((jsonparse_language jsonparseMaxDepth 0).1
      (.cons [97] (.number [49]) .nil) _ [] (by decide)
      ⟨by decide, by decide⟩ (by decide) (by decide)).mpr
      ⟨by decide, by decide⟩,
    ((jsonparse_language jsonparseMaxDepth 0).2 [lbrace, rbracket]
      (by decide) (by decide)).mpr (by decide)⟩

end Contiki.Json
