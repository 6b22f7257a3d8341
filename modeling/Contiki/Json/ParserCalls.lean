import Mathlib.Data.List.Chain
import Contiki.Json.ParserRuns

/-!
# The calls for a text of tokens

`jsonparse_next` is called until the end of a text in which white space stands
before the tokens and after the last one.
-/

namespace Contiki.Json

open JsonparseState

/-! ## Texts -/

/-- A token with the white space before it, and the depth after it. -/
structure Placed where
  space : List UInt8
  token : Token
  depth : Nat
  deriving DecidableEq

namespace Placed

def text (placed : Placed) : List UInt8 :=
  placed.space ++ placed.token.text

/-- The call that a token at `pos` is to have. -/
def call (pos : Nat) (placed : Placed) : Call where
  type := placed.token.type
  depth := placed.depth
  extent := placed.token.extent (pos + placed.space.length)
  error := .ok

end Placed

def layoutText (layout : List Placed) : List UInt8 :=
  layout.flatMap Placed.text

/-- The calls that placed tokens are to have, the first of them at `pos`. -/
def expected (pos : Nat) : List Placed → List Outcome
  | [] => []
  | placed :: rest =>
      .call (placed.call pos) :: expected (pos + placed.text.length) rest

/-- The tokens are placed with white space between them. -/
structure LaysOut (layout : List Placed) (tokens : List (Token × Nat)) :
    Prop where
  tokens : layout.map (fun placed => (placed.token, placed.depth)) = tokens
  spaces : ∀ placed ∈ layout, placed.space.all isSpace = true

theorem LaysOut.nil {layout : List Placed} (lays : LaysOut layout []) :
    layout = [] :=
  List.map_eq_nil_iff.mp lays.tokens

theorem LaysOut.cons {layout : List Placed} {token : Token} {depth : Nat}
    {tokens : List (Token × Nat)}
    (lays : LaysOut layout ((token, depth) :: tokens)) :
    ∃ space rest, layout = ⟨space, token, depth⟩ :: rest ∧
      space.all isSpace = true ∧ LaysOut rest tokens := by
  cases layout with
  | nil => exact absurd lays.tokens (List.cons_ne_nil _ _).symm
  | cons placed rest =>
      have heads := List.cons_eq_cons.mp lays.tokens
      obtain ⟨space, first, depth⟩ := placed
      cases heads.1
      exact ⟨space, rest, rfl, lays.spaces _ List.mem_cons_self,
        heads.2, fun placed isIn =>
          lays.spaces placed (List.mem_cons_of_mem _ isIn)⟩

/-! ## Numbers -/

/-- A number does not come right after another one. -/
def Separated (tokens : List (Token × Nat)) : Prop :=
  tokens.IsChain fun first second =>
    first.1.isNumber = true → second.1.isNumber = false

theorem Separated.append {first second : List (Token × Nat)}
    (isFirst : Separated first) (isSecond : Separated second)
    (mark : ∀ token ∈ second.head?, token.1.isNumber = false) :
    Separated (first ++ second) :=
  List.isChain_append.mpr
    ⟨isFirst, isSecond, fun _ _ token isHead _ => mark token isHead⟩

theorem Separated.cons {token : Token} {depth : Nat}
    {tokens : List (Token × Nat)} (isRest : Separated tokens)
    (mark : token.isNumber = false) :
    Separated ((token, depth) :: tokens) := by
  cases tokens with
  | nil => exact List.IsChain.singleton _
  | cons second rest =>
      apply List.IsChain.cons_cons _ isRest
      exact fun number => absurd (number.symm.trans mark) (by decide)

theorem Separated.singleton (token : Token × Nat) : Separated [token] :=
  List.IsChain.singleton _

theorem Items.tokens_head (items : Items) (depth : Nat) :
    ∀ token ∈ (items.tokens depth).head?, token.1.isNumber = false := by
  cases items with
  | nil => exact fun _ isHead => nomatch isHead
  | cons item rest =>
      intro token isHead
      cases isHead
      rfl

theorem Members.tokens_head (members : Members) (depth : Nat) :
    ∀ token ∈ (members.tokens depth).head?, token.1.isNumber = false := by
  cases members with
  | nil => exact fun _ isHead => nomatch isHead
  | cons name value rest =>
      intro token isHead
      cases isHead
      rfl

mutual

theorem Value.separated : ∀ (value : Value) (depth : Nat),
    Separated (value.tokens depth)
  | .string _, _ => .singleton _
  | .number _, _ => .singleton _
  | .array .nil, _ => (Separated.singleton _).cons rfl
  | .array (.cons item rest), depth => by
      have items := (item.separated (depth + 1)).append
        (rest.separated (depth + 1)) (rest.tokens_head (depth + 1))
      rw [Value.tokens]
      apply Separated.cons _ rfl
      apply items.append (.singleton _)
      intro token isHead
      cases isHead
      rfl
  | .object .nil, _ => (Separated.singleton _).cons rfl
  | .object (.cons name value rest), depth => by
      have members := (value.separated (depth + 2)).append
        (rest.separated (depth + 1)) (rest.tokens_head (depth + 1))
      rw [Value.tokens]
      apply Separated.cons _ rfl
      apply Separated.cons _ rfl
      apply Separated.cons _ rfl
      apply members.append (.singleton _)
      intro token isHead
      cases isHead
      rfl

theorem Items.separated : ∀ (items : Items) (depth : Nat),
    Separated (items.tokens depth)
  | .nil, _ => .nil
  | .cons item rest, depth => by
      rw [Items.tokens]
      apply Separated.cons _ rfl
      exact (item.separated depth).append (rest.separated depth)
        (rest.tokens_head depth)

theorem Members.separated : ∀ (members : Members) (depth : Nat),
    Separated (members.tokens depth)
  | .nil, _ => .nil
  | .cons name value rest, depth => by
      rw [Members.tokens]
      apply Separated.cons _ rfl
      apply Separated.cons _ rfl
      apply Separated.cons _ rfl
      exact (value.separated (depth + 1)).append (rest.separated depth)
        (rest.tokens_head depth)

end

variable {maxDepth : Nat} {state : JsonparseState} {token : Token}

theorem Token.text_mark (mark : token.isNumber = false) :
    ∃ c tail, token.text = c :: tail ∧ (isDigit c || c = dot) = false := by
  cases token with
  | number => exact absurd mark.symm Bool.false_ne_true
  | openObject => exact ⟨lbrace, [], rfl, rfl⟩
  | closeObject => exact ⟨rbrace, [], rfl, rfl⟩
  | openArray => exact ⟨lbracket, [], rfl, rfl⟩
  | closeArray => exact ⟨rbracket, [], rfl, rfl⟩
  | colon => exact ⟨Json.colon, [], rfl, rfl⟩
  | comma => exact ⟨Json.comma, [], rfl, rfl⟩
  | name chars => exact ⟨quote, _, rfl, rfl⟩
  | string chars => exact ⟨quote, _, rfl, rfl⟩

theorem isSpace_mark {c : UInt8} (space : isSpace c = true) :
    (isDigit c || c = dot) = false := by
  unfold isSpace at space
  rw [Bool.or_eq_true, decide_eq_true_iff, decide_eq_true_iff] at space
  rcases space with isBlank | isNewline
  · rw [isBlank]
    rfl
  · rw [isNewline]
    rfl

theorem EndsNumber.space {space : List UInt8}
    (spaces : space.all isSpace = true) {rest : List UInt8}
    (ends : EndsNumber rest) : EndsNumber (space ++ rest) := by
  cases space with
  | nil => exact ends
  | cons c space =>
      intro first isHead
      cases isHead
      exact isSpace_mark (Bool.and_eq_true_iff.mp spaces).1

theorem EndsNumber.trailing {trailing : List UInt8}
    (spaces : trailing.all isSpace = true) : EndsNumber trailing := by
  have ends : EndsNumber (trailing ++ []) :=
    EndsNumber.space spaces fun _ isHead => nomatch isHead
  rw [List.append_nil] at ends
  exact ends

/-- A number ends where the next token, or the end of the text, comes. -/
theorem Separated.ends {depth : Nat}
    {tokens : List (Token × Nat)} {layout : List Placed}
    {trailing : List UInt8} (separated : Separated ((token, depth) :: tokens))
    (lays : LaysOut layout tokens) (spaces : trailing.all isSpace = true)
    (number : token.isNumber = true) :
    EndsNumber (layoutText layout ++ trailing) := by
  cases tokens with
  | nil =>
      rw [lays.nil]
      exact EndsNumber.trailing spaces
  | cons second tokens =>
      obtain ⟨second, place⟩ := second
      obtain ⟨space, rest, isLayout, isSpaces, _⟩ := lays.cons
      have mark := (List.isChain_cons_cons.mp separated).1 number
      obtain ⟨c, tail, isText, isMark⟩ := Token.text_mark mark
      rw [isLayout]
      unfold layoutText
      rw [List.flatMap_cons, Placed.text, List.append_assoc,
        List.append_assoc]
      apply EndsNumber.space isSpaces
      rw [isText]
      intro first isHead
      cases isHead
      exact isMark

/-! ## One call -/

def JsonparseState.after (state : JsonparseState) (count : Nat) :
    JsonparseState :=
  { state with pos := state.pos + count }

theorem rest_after {state next : JsonparseState} {first second : List UInt8}
    (isRest : state.rest = first ++ second) (json : next.json = state.json)
    (pos : next.pos = state.pos + first.length) : next.rest = second := by
  unfold JsonparseState.rest at isRest ⊢
  rw [json, pos, ← List.drop_drop, isRest, List.drop_left]

/-- `skip_ws` takes the white space before a token. -/
theorem skipWs_eq {space tail : List UInt8}
    {c : UInt8} (spaces : space.all isSpace = true)
    (mark : isSpace c = false) (isRest : state.rest = space ++ c :: tail) :
    state.skipWs = state.after space.length := by
  have none : (c :: tail).takeWhile isSpace = [] := by
    apply List.takeWhile_cons_of_neg
    rw [mark]
    exact Bool.false_ne_true
  unfold skipWs
  rw [isRest, List.takeWhile_append_of_pos fun c isIn =>
    List.all_eq_true.mp spaces c isIn, none, List.append_nil]
  rfl

theorem jsonparseNext_eq {space tail : List UInt8} {c : UInt8}
    (spaces : space.all isSpace = true) (mark : isSpace c = false)
    (isRest : state.rest = space ++ c :: tail) :
    state.jsonparseNext maxDepth =
      (state.after (space.length + 1)).dispatch maxDepth c
        state.getType := by
  have isAfter : (state.after space.length).rest = c :: tail :=
    rest_after isRest rfl rfl
  unfold jsonparseNext
  rw [skipWs_eq spaces mark isRest]
  dsimp only
  rw [isAfter]
  rfl

theorem next_accepts {stack : List UInt8} {vtype : UInt8}
    (accepts : Accepts token state.stack state.vtype stack vtype)
    (fits : stack.length < maxDepth) {space rest : List UInt8}
    (spaces : space.all isSpace = true)
    (isRest : state.rest = space ++ (token.text ++ rest))
    (ends : token.isNumber = true → EndsNumber rest) :
    ∃ next, state.jsonparseNext maxDepth = some (token.type, next) ∧
      Taken state (state.pos + space.length) token stack vtype next := by
  obtain ⟨c, tail, isText, mark⟩ := accepts.text_cons
  have isChars : state.rest = space ++ c :: (tail ++ rest) := by
    rw [isRest, isText]
    rfl
  have isSplit : state.rest = (space ++ [c]) ++ (tail ++ rest) := by
    rw [isChars, List.append_assoc]
    rfl
  have isLength : (space ++ [c]).length = space.length + 1 := by
    rw [List.length_append, List.length_singleton]
  have isAfter : (state.after (space.length + 1)).rest =
      token.text.tail ++ rest := by
    rw [isText, ← isLength]
    exact rest_after isSplit rfl rfl
  have accepts' : Accepts token (state.after (space.length + 1)).stack
      (state.after (space.length + 1)).vtype stack vtype := accepts
  obtain ⟨next, isCall, taken⟩ :=
    dispatch_accepts accepts' fits rfl isAfter ends
  rw [isText] at isCall
  exact ⟨next, (jsonparseNext_eq spaces mark isChars).trans isCall,
    taken.json, taken.pos, taken.stack, taken.vtype, taken.error,
    taken.extent⟩

theorem next_rejects (rejects : Rejects token state.stack state.vtype)
    {space rest : List UInt8} (spaces : space.all isSpace = true)
    (isRest : state.rest = space ++ (token.text ++ rest)) :
    ∃ next, state.jsonparseNext maxDepth = some (typeError, next) ∧
      next.error = .syntaxError := by
  generalize isStack : state.stack = stack at rejects
  generalize isVtype : state.vtype = vtype at rejects
  have isTop : state.getType = stack.headD 0 := by
    rw [← isStack]
    rfl
  have unmarked (isZero : vtype = 0) : ¬ (state.getType = colon ∧
      (state.after (space.length + 1)).vtype ≠ 0) :=
    fun pair => pair.2 (isVtype.trans isZero)
  cases rejects with
  | closeObject below =>
      have notObject : state.getType ≠ lbrace := by
        rw [isTop]
        exact (by decide : colon ≠ lbrace)
      exact ⟨_, (jsonparseNext_eq spaces rfl isRest).trans
        ((dispatch_rbrace_not_pair (unmarked rfl)).trans
          (if_neg notObject)), rfl⟩
  | comma below =>
      have notItem : state.getType ≠ lbracket := by
        rw [isTop]
        exact (by decide : colon ≠ lbracket)
      exact ⟨_, (jsonparseNext_eq spaces rfl isRest).trans
        (dispatch_comma.trans ((if_neg (unmarked rfl)).trans
          (if_neg notItem))), rfl⟩

theorem Taken.observe {state next : JsonparseState} {start depth : Nat}
    {token : Token} {stack : List UInt8} {vtype : UInt8}
    (taken : Taken state start token stack vtype next)
    (isDepth : stack.length = depth) (isOk : state.error = .ok) :
    observe token.type next = ⟨token.type, depth, token.extent start, .ok⟩ := by
  have isNext : next.error = .ok := taken.error.trans isOk
  have isLength : next.stack.length = depth := by
    rw [taken.stack, isDepth]
  have extent := taken.extent
  unfold Json.observe
  rw [isNext, isLength]
  cases token with
  | name chars =>
      have bounds := extent _ rfl
      rw [bounds.1, bounds.2]
      rfl
  | string chars =>
      have bounds := extent _ rfl
      rw [bounds.1, bounds.2]
      rfl
  | number digits =>
      have bounds := extent _ rfl
      rw [bounds.1, bounds.2]
      rfl
  | openObject => rfl
  | closeObject => rfl
  | openArray => rfl
  | closeArray => rfl
  | colon => rfl
  | comma => rfl

/-! ## All calls -/

theorem hasNext_of_rest (more : state.rest ≠ []) : state.hasNext = true := by
  unfold hasNext
  apply decide_eq_true
  by_contra outside
  exact more (List.drop_eq_nil_of_le (Nat.le_of_not_lt outside))

theorem not_hasNext_of_rest (none : state.rest = []) :
    state.hasNext = false := by
  unfold hasNext
  apply decide_eq_false
  exact Nat.not_lt_of_le (List.drop_eq_nil_iff.mp none)

theorem parseFrom_next {maxDepth calls : Nat} {state next : JsonparseState}
    {type : UInt8} (more : state.rest ≠ [])
    (isCall : state.jsonparseNext maxDepth = some (type, next)) :
    parseFrom maxDepth (calls + 1) state =
      .call (observe type next) :: parseFrom maxDepth calls next := by
  rw [parseFrom, if_pos (hasNext_of_rest more), isCall]

/-- The tokens that are still to come in a text. -/
structure Reading (maxDepth : Nat) (tokens : List (Token × Nat))
    (layout : List Placed) (trailing : List UInt8) (state : JsonparseState)
    (calls : Nat) : Prop where
  lays : LaysOut layout tokens
  separated : Separated tokens
  spaces : trailing.all isSpace = true
  depths : ∀ token ∈ tokens, token.2 < maxDepth
  ok : state.error = .ok
  rest : state.rest = layoutText layout ++ trailing
  calls : state.rest.length ≤ calls

theorem layoutText_cons (placed : Placed) (rest : List Placed)
    (trailing : List UInt8) :
    layoutText (placed :: rest) ++ trailing =
      placed.space ++ (placed.token.text ++ (layoutText rest ++ trailing)) := by
  unfold layoutText
  rw [List.flatMap_cons, Placed.text, List.append_assoc, List.append_assoc]

theorem Token.rest_ne_nil {c : UInt8}
    {tail space rest chars : List UInt8} (isText : token.text = c :: tail)
    (isRest : chars = space ++ (token.text ++ rest)) : chars ≠ [] := by
  rw [isRest, isText]
  exact List.append_ne_nil_of_right_ne_nil space (List.cons_ne_nil c _)

theorem Reading.more {maxDepth calls : Nat} {tokens : List (Token × Nat)}
    {layout : List Placed} {trailing : List UInt8} {state : JsonparseState}
    (reading : Reading maxDepth tokens layout trailing state calls)
    (more : state.rest ≠ []) : ∃ left, calls = left + 1 := by
  apply Nat.exists_eq_succ_of_ne_zero
  intro isZero
  have isLess := reading.calls
  rw [isZero] at isLess
  exact more (List.length_eq_zero_iff.mp (Nat.le_zero.mp isLess))

theorem Reading.step {maxDepth calls depth : Nat} {token : Token}
    {tokens : List (Token × Nat)} {layout : List Placed}
    {trailing stack : List UInt8} {vtype : UInt8} {state : JsonparseState}
    (reading : Reading maxDepth ((token, depth) :: tokens) layout trailing
      state calls)
    (accepts : Accepts token state.stack state.vtype stack vtype)
    (isDepth : stack.length = depth) :
    ∃ placed rest left next, layout = placed :: rest ∧
      parseFrom maxDepth calls state =
        .call (placed.call state.pos) :: parseFrom maxDepth left next ∧
      next.pos = state.pos + placed.text.length ∧ next.stack = stack ∧
      next.vtype = vtype ∧
      Reading maxDepth tokens rest trailing next left := by
  obtain ⟨space, rest, isLayout, spaces, lays⟩ := reading.lays.cons
  have isRest : state.rest =
      space ++ (token.text ++ (layoutText rest ++ trailing)) := by
    rw [reading.rest, isLayout, layoutText_cons]
  have fits : stack.length < maxDepth := by
    rw [isDepth]
    exact reading.depths (token, depth) List.mem_cons_self
  obtain ⟨next, isCall, taken⟩ := next_accepts accepts fits spaces isRest
    (reading.separated.ends lays reading.spaces)
  obtain ⟨c, tail, isText, _⟩ := accepts.text_cons
  have notEmpty := Token.rest_ne_nil isText isRest
  obtain ⟨left, isCalls⟩ := reading.more notEmpty
  have isPos : next.pos = state.pos + (space ++ token.text).length := by
    rw [taken.pos, List.length_append, Nat.add_assoc]
  have isNext : next.rest = layoutText rest ++ trailing := by
    apply rest_after _ taken.json isPos
    rw [isRest, List.append_assoc]
  refine ⟨⟨space, token, depth⟩, rest, left, next, isLayout, ?_, isPos,
    taken.stack, taken.vtype, lays, reading.separated.tail, reading.spaces,
    ?_, taken.error.trans reading.ok, isNext, ?_⟩
  · rw [isCalls, parseFrom_next notEmpty isCall,
      taken.observe isDepth reading.ok]
    rfl
  · exact fun token isIn =>
      reading.depths token (List.mem_cons_of_mem _ isIn)
  · have isLess : state.rest.length ≤ left + 1 := isCalls ▸ reading.calls
    rw [isRest, isText, List.length_append, List.length_append,
      List.length_cons] at isLess
    rw [isNext]
    omega

theorem Steps.calls {maxDepth : Nat} {tokens : List (Token × Nat)}
    {first last : List UInt8} {before after : UInt8}
    (steps : Steps tokens first before last after) :
    ∀ {layout : List Placed} {trailing : List UInt8}
      {state : JsonparseState} {calls : Nat},
      Reading maxDepth tokens layout trailing state calls →
      state.stack = first → state.vtype = before →
      ∃ left next, parseFrom maxDepth calls state =
          expected state.pos layout ++ parseFrom maxDepth left next ∧
        next.rest = trailing ∧ trailing.length ≤ left := by
  induction steps with
  | nil stack vtype =>
      intro layout trailing state calls reading _ _
      have isRest := reading.rest
      have isLess := reading.calls
      rw [reading.lays.nil] at isRest ⊢
      rw [isRest] at isLess
      exact ⟨calls, state, rfl, isRest, isLess⟩
  | cons accepts isDepth _ inductionHypothesis =>
      intro layout trailing state calls reading isStack isVtype
      rw [← isStack, ← isVtype] at accepts
      obtain ⟨placed, rest, left, next, isLayout, isCalls, isPos, isStack',
        isVtype', reading'⟩ := reading.step accepts isDepth
      obtain ⟨left', last, isRun, isRest, isLess⟩ :=
        inductionHypothesis reading' isStack' isVtype'
      refine ⟨left', last, ?_, isRest, isLess⟩
      rw [isCalls, isRun, isLayout, expected, isPos]
      rfl

def Reports (outcomes : List Outcome) : Prop :=
  ∃ call, .call call ∈ outcomes ∧ call.error ≠ .ok

theorem Rejects.text_cons {stack : List UInt8}
    {vtype : UInt8} (rejects : Rejects token stack vtype) :
    ∃ c tail, token.text = c :: tail := by
  cases rejects with
  | closeObject => exact ⟨rbrace, [], rfl⟩
  | comma => exact ⟨Json.comma, [], rfl⟩

theorem Fails.reports {tokens : List (Token × Nat)}
    {first : List UInt8} {before : UInt8} (fails : Fails tokens first before) :
    ∀ {layout : List Placed} {trailing : List UInt8}
      {state : JsonparseState} {calls : Nat},
      Reading maxDepth tokens layout trailing state calls →
      state.stack = first → state.vtype = before →
      Reports (parseFrom maxDepth calls state) := by
  induction fails with
  | here rejects =>
      intro layout trailing state calls reading isStack isVtype
      rw [← isStack, ← isVtype] at rejects
      obtain ⟨space, rest, isLayout, spaces, _⟩ := reading.lays.cons
      have isRest := reading.rest
      rw [isLayout, layoutText_cons] at isRest
      obtain ⟨next, isCall, isError⟩ :
          ∃ next, state.jsonparseNext maxDepth = some (typeError, next) ∧
            next.error = .syntaxError :=
        next_rejects rejects spaces isRest
      obtain ⟨c, tail, isText⟩ := rejects.text_cons
      have notEmpty := Token.rest_ne_nil isText isRest
      obtain ⟨left, isCalls⟩ := reading.more notEmpty
      rw [isCalls, parseFrom_next notEmpty isCall]
      refine ⟨_, List.mem_cons_self, ?_⟩
      rw [observe, isError]
      exact (by decide : JsonError.syntaxError ≠ .ok)
  | later accepts isDepth _ inductionHypothesis =>
      intro layout trailing state calls reading isStack isVtype
      rw [← isStack, ← isVtype] at accepts
      obtain ⟨placed, rest, left, next, _, isCalls, _, isStack', isVtype',
        reading'⟩ := reading.step accepts isDepth
      obtain ⟨call, isIn, isError⟩ :=
        inductionHypothesis reading' isStack' isVtype'
      rw [isCalls]
      exact ⟨call, List.mem_cons_of_mem _ isIn, isError⟩

/-! ## Objects -/

theorem expected_not_reports (layout : List Placed) (pos : Nat) :
    ¬ Reports (expected pos layout) := by
  induction layout generalizing pos with
  | nil => exact fun ⟨_, isIn, _⟩ => absurd isIn List.not_mem_nil
  | cons placed rest inductionHypothesis =>
      rintro ⟨call, isIn, isError⟩
      rcases List.mem_cons.mp isIn with isFirst | isLater
      · cases isFirst
        exact isError rfl
      · exact inductionHypothesis _ ⟨call, isLater, isError⟩

/-- There are no calls at the end of a text, and there is one before it. -/
theorem parseFrom_eq_nil {maxDepth calls : Nat} {state : JsonparseState}
    (isLess : state.rest.length ≤ calls) :
    parseFrom maxDepth calls state = [] ↔ state.rest = [] := by
  constructor
  · intro isNone
    by_contra more
    cases calls with
    | zero =>
        exact more (List.length_eq_zero_iff.mp (Nat.le_zero.mp isLess))
    | succ calls =>
        rw [parseFrom, if_pos (hasNext_of_rest more)] at isNone
        split at isNone
        · exact List.cons_ne_nil _ _ isNone
        · exact List.cons_ne_nil _ _ isNone
  · intro isEnd
    cases calls with
    | zero => rfl
    | succ calls =>
        rw [parseFrom, not_hasNext_of_rest isEnd]
        rfl

theorem parse_object {members : Members}
    (valid : members.valid = true) {layout : List Placed}
    (lays : LaysOut layout ((Value.object members).tokens 0))
    {trailing : List UInt8} (spaces : trailing.all isSpace = true)
    (depths : ∀ placed ∈ layout, placed.depth < maxDepth) (vtype : UInt8) :
    parse maxDepth (layoutText layout ++ trailing) vtype =
        expected 0 layout ↔
      members.accepted = true ∧ trailing = [] := by
  have reading : Reading maxDepth ((Value.object members).tokens 0) layout
      trailing (jsonparseSetup (layoutText layout ++ trailing) vtype)
      (layoutText layout ++ trailing).length := by
    refine ⟨lays, (Value.object members).separated 0, spaces, ?_, rfl, rfl,
      Nat.le_of_eq rfl⟩
    rw [← lays.tokens]
    intro token isIn
    obtain ⟨placed, isPlaced, isToken⟩ := List.mem_map.mp isIn
    rw [← isToken]
    exact depths placed isPlaced
  have runs : ValueRuns ((Value.object members).tokens 0)
      members.accepted (Value.object members).marks [] vtype := by
    have top (notObject : (Value.object members).isObject = false) :
        ValueTop [] :=
      absurd notObject.symm Bool.false_ne_true
    have runs := (Value.object members).runs vtype valid top
    rw [Value.accepted] at runs
    exact runs
  unfold parse
  rcases runs with ⟨isAccepted, after, steps, _⟩ | ⟨notAccepted, fails⟩
  · obtain ⟨left, next, isRun, isRest, isLess⟩ :=
      steps.calls reading rfl rfl
    rw [← isRest] at isLess
    have isStart : (jsonparseSetup (layoutText layout ++ trailing)
        vtype).pos = 0 := rfl
    rw [isRun, isStart, List.append_right_eq_self, parseFrom_eq_nil isLess,
      isRest]
    exact ⟨fun isEnd => ⟨isAccepted, isEnd⟩, fun both => both.2⟩
  · have reports := fails.reports reading rfl rfl
    constructor
    · intro same
      rw [same] at reports
      exact absurd reports (expected_not_reports layout 0)
    · intro both
      exact absurd (notAccepted.symm.trans both.1) Bool.false_ne_true

end Contiki.Json
