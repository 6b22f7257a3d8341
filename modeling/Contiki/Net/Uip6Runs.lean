import Contiki.Net.Uip6

/-!
# The way through the extension headers

When the loops of `uip_process` end, and where the upper-layer protocol
starts.
-/

namespace Contiki.Net.Uip6

open Contiki.Lib

variable {env : Uip6Env}

/-- No option of the header at `base` leads back to itself, with offsets of
eight bits. -/
def OptionsFit (env : Uip6Env) (buf : ByteMem) (base : Nat) : Prop :=
  Walk.Acyclic (optionStep env buf base) 2

theorem optionsEnd_iff (env : Uip6Env) (buf : ByteMem) (base : Nat) :
    (∃ fuel result, extHdrOptionsProcess env fuel buf base =
        some result) ↔ OptionsFit env buf base :=
  Walk.ends_iff_acyclic 2

/-- The number of bytes of the option at the offset. -/
def optionBytes (buf : ByteMem) (base : Nat) (offset : UInt8) : Nat :=
  let option := base + offset.toNat
  if buf option = uipExtHdrOptPad1 then 1
  else (buf (option + (1 : Nat))).toNat + 2

theorem optionsFit_of_short {buf : ByteMem} {base : Nat}
    (short : ∀ offset,
      Relation.ReflTransGen (Walk.GoesOn (optionStep env buf base)) 2
        offset →
      offset.toNat < extHdrBytes buf base →
      offset.toNat + optionBytes buf base offset ≤ 255) :
    OptionsFit env buf base := by
  refine Walk.acyclic_of_grows UInt8.toNat fun first second reaches goesOn =>
    ?_
  unfold Walk.GoesOn optionStep at goesOn
  dsimp only at goesOn
  by_cases inside : first.toNat < extHdrBytes buf base
  · have fits := short first reaches inside
    rw [if_pos inside] at goesOn
    unfold optionBytes at fits
    dsimp only at fits
    split at goesOn
    · next isPad =>
        rw [if_pos isPad] at fits
        obtain rfl := Sum.inr.inj goesOn
        rw [@toNat_add_of_le first 1 1 rfl fits]
        exact Nat.lt_succ_self _
    next notPad =>
    rw [if_neg notPad] at fits
    have skipped : first.toNat < (first + (buf (base + first.toNat +
        (1 : Nat)) + 2)).toNat := by
      rw [toNat_add_of_le _ fits]
      · omega
      · rw [UInt8.ofNat_add, UInt8.ofNat_toNat]
        rfl
    split at goesOn
    · rw [← Sum.inr.inj goesOn]
      exact skipped
    split at goesOn
    · split at goesOn
      · split at goesOn <;> cases goesOn
      · cases goesOn
    split at goesOn
    · rw [← Sum.inr.inj goesOn]
      exact skipped
    split at goesOn
    · cases goesOn
    · split at goesOn <;> cases goesOn
  · rw [if_neg inside] at goesOn
    cases goesOn

namespace ExtState

variable {state later : ExtState}

def Passes (env : Uip6Env) (state later : ExtState) : Prop :=
  ∃ fuel, state.headerStep env fuel = .inr later

def LoopEnds (env : Uip6Env) (state : ExtState) : Prop :=
  ∃ fuel outcome, state.headerLoop env fuel = some outcome

/-- `uip_ext_len` is the sum of the lengths up to its width. -/
def Counts (state : ExtState) : Prop :=
  state.extLen = UInt8.ofNat state.passed.sum

/-! ## Fuel -/

variable {fuel more : Nat}

theorem optionsHeader_mono (enough : fuel ≤ more)
    (ends : state.optionsHeader env fuel ≠ .inl none) :
    state.optionsHeader env more = state.optionsHeader env fuel := by
  unfold optionsHeader at *
  cases isResult : extHdrOptionsProcess env fuel state.buf state.base with
  | none =>
      rw [isResult] at ends
      exact absurd rfl ends
  | some result =>
      have same : extHdrOptionsProcess env more state.buf state.base =
          some result :=
        Walk.walk_mono enough isResult
      rw [same]

theorem headerStep_mono (enough : fuel ≤ more)
    (ends : state.headerStep env fuel ≠ .inl none) :
    state.headerStep env more = state.headerStep env fuel := by
  unfold headerStep at *
  split
  · rfl
  next notUpper =>
  rw [if_neg notUpper] at ends
  cases isBit : state.optionsBit with
  | none =>
      rfl
  | some bit =>
      rw [isBit] at ends
      exact optionsHeader_mono enough ends

theorem walk_headerStep_mono {fuel more rounds others : Nat}
    (enough : fuel ≤ more) (enoughRounds : rounds ≤ others)
    {outcome : Outcome}
    (ends : (Walk.walk (headerStep env fuel) rounds state).join =
      some outcome) :
    (Walk.walk (headerStep env more) others state).join = some outcome := by
  induction rounds generalizing others state with
  | zero =>
      cases ends
  | succ rounds inductionHypothesis =>
      obtain ⟨others, rfl⟩ := Nat.exists_eq_succ_of_ne_zero
        (Nat.ne_of_gt (Nat.lt_of_lt_of_le rounds.succ_pos enoughRounds))
      rw [Nat.succ_eq_add_one]
      cases step : state.headerStep env fuel with
      | inl last =>
          rw [Walk.walk_of_result step] at ends
          have isLast : last = some outcome := ends
          have same := @headerStep_mono env state _ _ enough
            (by rw [step, isLast]; exact nofun)
          rw [Walk.walk_of_result (same.trans step), isLast]
          rfl
      | inr later =>
          rw [Walk.walk_of_goesOn step] at ends
          have same := @headerStep_mono env state _ _ enough
            (by rw [step]; exact nofun)
          rw [Walk.walk_of_goesOn (same.trans step)]
          exact inductionHypothesis (Nat.le_of_succ_le_succ enoughRounds) ends

theorem headerLoop_mono (enough : fuel ≤ more)
    {outcome : Outcome} (ends : state.headerLoop env fuel = some outcome) :
    state.headerLoop env more = some outcome :=
  walk_headerStep_mono enough enough ends

theorem Passes.headerLoop_iff (passes : Passes env state later)
    (outcome : Outcome) :
    (∃ fuel, state.headerLoop env fuel = some outcome) ↔
      ∃ fuel, later.headerLoop env fuel = some outcome := by
  obtain ⟨enough, step⟩ := passes
  have step_of_le : ∀ fuel, enough ≤ fuel →
      state.headerStep env fuel = .inr later := by
    intro fuel le
    rw [headerStep_mono le (by rw [step]; exact nofun), step]
  constructor
  · rintro ⟨fuel, ends⟩
    refine ⟨fuel + enough + 1, ?_⟩
    have more := walk_headerStep_mono (Nat.le_add_right fuel (enough + 1))
      (Nat.le_add_right fuel (enough + 1)) ends
    rw [← Nat.add_assoc, Walk.walk_of_goesOn (step_of_le _ (by omega))]
      at more
    exact walk_headerStep_mono (Nat.le_refl _) (Nat.le_succ _) more
  · rintro ⟨fuel, ends⟩
    refine ⟨fuel + enough + 1, ?_⟩
    unfold headerLoop
    rw [Walk.walk_of_goesOn (step_of_le _ (by omega))]
    exact walk_headerStep_mono (by omega) (by omega) ends

/-! ## One header -/

theorem not_isUpper_of_optionsBit {bit : UInt8}
    (isBit : state.optionsBit = some bit) : ¬ state.isUpper env := by
  have isOptions : state.next = uipProtoHbho ∨ state.next = uipProtoDesto := by
    unfold optionsBit at isBit
    split at isBit
    · next isHbho =>
        exact Or.inl isHbho
    split at isBit
    · next isDesto =>
        exact Or.inr isDesto
    · cases isBit
  unfold isUpper
  cases isOptions with
  | inl isHbho =>
      rw [isHbho]
      simp [uipProtoHbho, uipProtoTcp, uipProtoUdp, uipProtoIcmp6]
  | inr isDesto =>
      rw [isDesto]
      simp [uipProtoDesto, uipProtoTcp, uipProtoUdp, uipProtoIcmp6]

theorem optionsHeader_ends_iff (env : Uip6Env) (state : ExtState) :
    (∃ fuel, state.optionsHeader env fuel ≠ .inl none) ↔
      OptionsFit env state.buf state.base := by
  rw [← optionsEnd_iff]
  refine exists_congr fun fuel => ?_
  unfold optionsHeader
  cases extHdrOptionsProcess env fuel state.buf state.base with
  | none =>
      simp
  | some result =>
      cases result with
      | _ =>
          simp

/-- The options of the next header end, if it has options. -/
def OptionsEnd (env : Uip6Env) (state : ExtState) : Prop :=
  ∀ bit, state.optionsBit = some bit → OptionsFit env state.buf state.base

theorem headerStep_ends_iff (env : Uip6Env) (state : ExtState) :
    (∃ fuel, state.headerStep env fuel ≠ .inl none) ↔
      state.OptionsEnd env := by
  unfold OptionsEnd
  cases isBit : state.optionsBit with
  | none =>
      refine iff_of_true ⟨0, ?_⟩ nofun
      unfold headerStep
      rw [isBit]
      split
      · simp
      dsimp only
      split
      · split
        · simp
        · split <;> simp
      · simp
  | some bit =>
      have ends : _ ↔ OptionsFit env state.buf state.base :=
        optionsHeader_ends_iff env (state.mark bit)
      have notUpper := @not_isUpper_of_optionsBit env state bit isBit
      unfold headerStep
      simp only [if_neg notUpper, isBit]
      simpa using ends

theorem Counts.pass (counts : state.Counts) (buf : ByteMem) :
    (state.pass buf).Counts := by
  unfold Counts ExtState.pass
  dsimp only
  rw [List.sum_append, List.sum_singleton, counts, UInt8.ofNat_add,
    UInt8.ofNat_add, UInt8.ofNat_toNat]

/-- The headers that are not in the bitmap. -/
def left (bitmap : UInt8) : Nat :=
  (if bitmap &&& bitmapHbho ≠ 0 then 0 else 1) +
    (if bitmap &&& bitmapDesto1 ≠ 0 then 0 else 1) +
    (if bitmap &&& bitmapDesto2 ≠ 0 then 0 else 1) +
    (if bitmap &&& bitmapRouting ≠ 0 then 0 else 1)

theorem left_mark : ∀ bitmap : UInt8, ∀ bit ∈ [bitmapHbho, bitmapDesto1,
    bitmapDesto2, bitmapRouting], bitmap &&& bit = 0 →
      left (bitmap ||| bit) < left bitmap := by
  decide +kernel

theorem clear_of_optionsBit {bit : UInt8}
    (isBit : state.optionsBit = some bit) :
    bit ∈ [bitmapHbho, bitmapDesto1, bitmapDesto2, bitmapRouting] ∧
      state.bitmap &&& bit = 0 := by
  unfold optionsBit at isBit
  split at isBit
  · split at isBit
    · cases isBit
    · next clear =>
        obtain rfl := Option.some.inj isBit
        exact ⟨by simp, not_not.mp clear⟩
  split at isBit
  · split at isBit
    · split at isBit
      · cases isBit
      · next clear =>
          obtain rfl := Option.some.inj isBit
          exact ⟨by simp, not_not.mp clear⟩
    · next clear =>
        obtain rfl := Option.some.inj isBit
        exact ⟨by simp, not_not.mp clear⟩
  · cases isBit

theorem Passes.isPass (passes : Passes env state later) :
    ∃ bit buf, bit ∈ [bitmapHbho, bitmapDesto1, bitmapDesto2,
        bitmapRouting] ∧ state.bitmap &&& bit = 0 ∧
      later = (state.mark bit).pass buf := by
  obtain ⟨fuel, step⟩ := passes
  unfold headerStep at step
  split at step
  · cases step
  split at step
  · next bit isBit =>
      obtain ⟨member, clear⟩ := clear_of_optionsBit isBit
      unfold optionsHeader at step
      split at step
      · cases step
      · next buf _ =>
          exact ⟨bit, buf, member, clear, (Sum.inr.inj step).symm⟩
      · cases step
      · cases step
  split at step
  · split at step
    · cases step
    next clear =>
    split at step
    · cases step
    · exact ⟨bitmapRouting, state.buf, by simp, not_not.mp clear,
        (Sum.inr.inj step).symm⟩
  · cases step

theorem Passes.left_lt (passes : Passes env state later) :
    left later.bitmap < left state.bitmap := by
  obtain ⟨bit, buf, member, clear, rfl⟩ := passes.isPass
  exact left_mark state.bitmap bit member clear

theorem Passes.counts (passes : Passes env state later)
    (counts : state.Counts) : later.Counts := by
  obtain ⟨bit, buf, -, -, rfl⟩ := passes.isPass
  exact @Counts.pass (state.mark bit) counts buf

/-! ## The header loop -/

theorem headerStep_upper {fuel : Nat} {final : ExtState}
    (isUpper : state.headerStep env fuel = .inl (some (.upper final))) :
    final = state ∧ state.isUpper env := by
  unfold headerStep at isUpper
  split at isUpper
  · next upper =>
      cases isUpper
      exact ⟨rfl, upper⟩
  split at isUpper
  · unfold optionsHeader at isUpper
    split at isUpper <;> cases isUpper
  split at isUpper
  · split at isUpper
    · cases isUpper
    · split at isUpper <;> cases isUpper
  · cases isUpper

theorem walk_headerStep_upper {fuel rounds : Nat} {final : ExtState}
    (ends : (Walk.walk (headerStep env fuel) rounds state).join =
      some (.upper final)) :
    Relation.ReflTransGen (Passes env) state final ∧ final.isUpper env := by
  induction rounds generalizing state with
  | zero =>
      cases ends
  | succ rounds inductionHypothesis =>
      cases step : state.headerStep env fuel with
      | inl last =>
          rw [Walk.walk_of_result step] at ends
          have isLast : last = some (.upper final) := ends
          obtain ⟨rfl, upper⟩ := headerStep_upper (step.trans (by rw [isLast]))
          exact ⟨Relation.ReflTransGen.refl, upper⟩
      | inr later =>
          rw [Walk.walk_of_goesOn step] at ends
          obtain ⟨passes, upper⟩ := inductionHypothesis ends
          exact ⟨Relation.ReflTransGen.head ⟨fuel, step⟩ passes, upper⟩

theorem headerLoop_of_isUpper (upper : state.isUpper env) :
    state.headerLoop env 1 = some (.upper state) := by
  have step : state.headerStep env 1 = .inl (some (.upper state)) := by
    unfold headerStep
    rw [if_pos upper]
  unfold headerLoop
  rw [Walk.walk_of_result step]
  rfl

theorem LoopEnds.optionsEnd (ends : state.LoopEnds env) :
    state.OptionsEnd env := by
  obtain ⟨fuel, outcome, isOutcome⟩ := ends
  apply (headerStep_ends_iff env state).mp
  refine ⟨fuel, ?_⟩
  intro step
  unfold headerLoop at isOutcome
  cases fuel with
  | zero =>
      cases isOutcome
  | succ fuel =>
      rw [Walk.walk_of_result step] at isOutcome
      cases isOutcome

theorem loopEnds_of_optionsEnd
    (fits : ∀ later, Relation.ReflTransGen (Passes env) state later →
      later.OptionsEnd env) : state.LoopEnds env := by
  induction isLeft : left state.bitmap using Nat.strong_induction_on
    generalizing state with
  | _ number inductionHypothesis =>
      obtain ⟨fuel, ends⟩ := (headerStep_ends_iff env state).mpr
        (fits state Relation.ReflTransGen.refl)
      cases step : state.headerStep env fuel with
      | inl last =>
          cases last with
          | none =>
              exact absurd step ends
          | some outcome =>
              refine ⟨fuel + 1, outcome, ?_⟩
              have same := headerStep_mono (Nat.le_succ fuel) ends
              unfold headerLoop
              rw [Walk.walk_of_result (same.trans step)]
              rfl
      | inr later =>
          have passes : Passes env state later := ⟨fuel, step⟩
          obtain ⟨enough, outcome, isOutcome⟩ := inductionHypothesis
            (left later.bitmap) (isLeft ▸ passes.left_lt)
            (fun other follows =>
              fits other (Relation.ReflTransGen.head passes follows)) rfl
          obtain ⟨more, isEarlier⟩ :=
            (passes.headerLoop_iff outcome).mpr ⟨enough, isOutcome⟩
          exact ⟨more, outcome, isEarlier⟩

end ExtState

/-! ## Packets -/

variable {buf : ByteMem} {received : UInt16}

theorem enter_mono {fuel more : Nat} (enough : fuel ≤ more)
    (ends : enter env fuel buf received ≠ .inl none) :
    enter env more buf received = enter env fuel buf received := by
  unfold enter at *
  dsimp only at *
  split
  · rfl
  next accepted =>
  rw [if_neg accepted] at ends
  split
  · next isHopByHop =>
      rw [if_pos isHopByHop] at ends
      have same := @ExtState.optionsHeader_mono env
        ((startState buf).mark bitmapHbho) _ _ enough (by
          intro without
          rw [without] at ends
          exact ends rfl)
      rw [same]
  · rfl

/-- The options that a router looks at first end. -/
def FirstFits (env : Uip6Env) (buf : ByteMem) (received : UInt16) : Prop :=
  accepts buf received → env.confRouter ∧ (startState buf).next =
    uipProtoHbho → OptionsFit env buf uipIphLen

theorem enter_ends_iff (env : Uip6Env) (buf : ByteMem)
    (received : UInt16) :
    (∃ fuel, enter env fuel buf received ≠ .inl none) ↔
      FirstFits env buf received := by
  unfold FirstFits enter
  dsimp only
  by_cases accepted : accepts buf received
  · simp only [if_neg (not_not.mpr accepted), imp_iff_right accepted]
    by_cases isHopByHop : env.confRouter ∧
        (startState buf).next = uipProtoHbho
    · simp only [if_pos isHopByHop, imp_iff_right isHopByHop]
      have ends : _ ↔ OptionsFit env buf uipIphLen :=
        ExtState.optionsHeader_ends_iff env
          ((startState buf).mark bitmapHbho)
      rw [← ends]
      refine exists_congr fun fuel => not_congr ?_
      cases ((startState buf).mark bitmapHbho).optionsHeader env fuel with
      | inl outcome =>
          simp
      | inr state =>
          dsimp only
          split <;> simp
    · simp only [if_neg isHopByHop]
      refine iff_of_true ⟨0, ?_⟩ (fun router => absurd router isHopByHop)
      split <;> simp
  · simp [accepted]

/-- The states that the header loop starts with. -/
def Entered (env : Uip6Env) (buf : ByteMem) (received : UInt16)
    (state : ExtState) : Prop :=
  ∃ fuel, enter env fuel buf received = .inr state

/-- The header loop comes to the state. -/
def Comes (env : Uip6Env) (buf : ByteMem) (received : UInt16)
    (state : ExtState) : Prop :=
  ∃ entered, Entered env buf received entered ∧
    Relation.ReflTransGen (ExtState.Passes env) entered state

variable {state : ExtState}

theorem Entered.counts
    (entered : Entered env buf received state) : state.Counts := by
  have start : ((startState buf).mark bitmapHbho).Counts := by
    unfold ExtState.Counts
    rfl
  obtain ⟨fuel, isState⟩ := entered
  unfold enter at isState
  dsimp only at isState
  split at isState
  · cases isState
  split at isState
  · split at isState
    · cases isState
    next first passed =>
    split at isState
    · obtain rfl := Sum.inr.inj isState
      unfold ExtState.optionsHeader at passed
      split at passed
      · cases passed
      · next later _ =>
          obtain rfl := Sum.inr.inj passed
          exact start.pass later
      · cases passed
      · cases passed
    · cases isState
  split at isState
  · obtain rfl := Sum.inr.inj isState
    exact start
  · cases isState

theorem Comes.counts
    (comes : Comes env buf received state) : state.Counts := by
  obtain ⟨entered, isEntered, follows⟩ := comes
  induction follows with
  | refl =>
      exact isEntered.counts
  | tail _ passes inductionHypothesis =>
      exact passes.counts inductionHypothesis

theorem enter_result {fuel : Nat} {outcome : Outcome}
    (isOutcome : enter env fuel buf received = .inl (some outcome)) :
    outcome = .gone := by
  unfold enter at isOutcome
  dsimp only at isOutcome
  split at isOutcome
  · exact (Option.some.inj (Sum.inl.inj isOutcome)).symm
  split at isOutcome
  · split at isOutcome
    · next last without =>
        obtain rfl := Sum.inl.inj isOutcome
        unfold ExtState.optionsHeader at without
        split at without
        · cases without
        · cases without
        · exact (Option.some.inj (Sum.inl.inj without)).symm
        · exact (Option.some.inj (Sum.inl.inj without)).symm
    · split at isOutcome
      · cases isOutcome
      · exact (Option.some.inj (Sum.inl.inj isOutcome)).symm
  split at isOutcome
  · cases isOutcome
  · exact (Option.some.inj (Sum.inl.inj isOutcome)).symm

theorem Entered.uipProcess_iff
    (entered : Entered env buf received state) (outcome : Outcome) :
    (∃ fuel, uipProcess env fuel buf received = some outcome) ↔
      ∃ fuel, state.headerLoop env fuel = some outcome := by
  obtain ⟨enough, isState⟩ := entered
  have enter_of_le : ∀ fuel, enough ≤ fuel →
      enter env fuel buf received = .inr state := by
    intro fuel le
    rw [enter_mono le (by rw [isState]; exact nofun), isState]
  constructor
  · rintro ⟨fuel, ends⟩
    unfold uipProcess at ends
    cases early : enter env fuel buf received with
    | inl last =>
        rw [early] at ends
        have notNone : enter env fuel buf received ≠ .inl none := by
          have isLast : last = some outcome := ends
          rw [early, isLast]
          exact nofun
        have same := enter_mono (Nat.le_add_right fuel enough) notNone
        rw [enter_of_le _ (Nat.le_add_left enough fuel), early] at same
        cases same
    | inr other =>
        have notNone : enter env fuel buf received ≠ .inl none := by
          rw [early]
          exact nofun
        have same := enter_mono (Nat.le_add_right fuel enough) notNone
        rw [enter_of_le _ (Nat.le_add_left enough fuel), early] at same
        obtain rfl := Sum.inr.inj same
        rw [early] at ends
        exact ⟨fuel, ends⟩
  · rintro ⟨fuel, ends⟩
    refine ⟨fuel + enough, ?_⟩
    unfold uipProcess
    rw [enter_of_le _ (Nat.le_add_left enough fuel)]
    exact ExtState.headerLoop_mono (Nat.le_add_right fuel enough) ends

/-- A state of the loop leads on to the end of the packet. -/
theorem Comes.uipProcess_iff
    (comes : Comes env buf received state) (outcome : Outcome) :
    (∃ fuel, uipProcess env fuel buf received = some outcome) ↔
      ∃ fuel, state.headerLoop env fuel = some outcome := by
  obtain ⟨entered, isEntered, follows⟩ := comes
  rw [isEntered.uipProcess_iff]
  induction follows with
  | refl =>
      exact Iff.rfl
  | tail _ passes inductionHypothesis =>
      exact inductionHypothesis.trans (passes.headerLoop_iff outcome)

theorem comes_of_upper {fuel : Nat} {state : ExtState}
    (upper : uipProcess env fuel buf received = some (.upper state)) :
    Comes env buf received state ∧ state.isUpper env := by
  unfold uipProcess at upper
  cases isEntered : enter env fuel buf received with
  | inl outcome =>
      rw [isEntered] at upper
      have isOutcome : outcome = some (.upper state) := upper
      rw [isOutcome] at isEntered
      cases enter_result isEntered
  | inr entered =>
      rw [isEntered] at upper
      obtain ⟨follows, isUpper⟩ := ExtState.walk_headerStep_upper upper
      exact ⟨⟨entered, ⟨fuel, isEntered⟩, follows⟩, isUpper⟩

/-- Both loops end, and an upper-layer protocol starts behind the headers that
were passed and inside of the packet. -/
structure HeadersHandled (env : Uip6Env) (buf : ByteMem)
    (received : UInt16) : Prop where
  ends : ∃ fuel outcome, uipProcess env fuel buf received = some outcome
  offset : ∀ fuel state,
    uipProcess env fuel buf received = some (.upper state) →
    state.base = uipIphLen + state.passed.sum ∧
      state.base ≤ (uipLen buf).toNat

/-- No option leads back to itself, and behind the last header, the sum of the
lengths has eight bits and does not reach behind the packet. -/
structure HeadersFit (env : Uip6Env) (buf : ByteMem) (received : UInt16) :
    Prop where
  first : FirstFits env buf received
  options : ∀ state, Comes env buf received state → state.OptionsEnd env
  upper : ∀ state, Comes env buf received state → state.isUpper env →
    state.passed.sum ≤ 255 ∧
      uipIphLen + state.passed.sum ≤ (uipLen buf).toNat

theorem HeadersHandled.fit (handled : HeadersHandled env buf received) :
    HeadersFit env buf received := by
  obtain ⟨fuel, outcome, isOutcome⟩ := handled.ends
  constructor
  case first =>
    apply (enter_ends_iff env buf received).mp
    refine ⟨fuel, ?_⟩
    intro without
    unfold uipProcess at isOutcome
    rw [without] at isOutcome
    cases isOutcome
  case options =>
    intro state comes
    obtain ⟨enough, isLoop⟩ :=
      (comes.uipProcess_iff outcome).mp ⟨fuel, isOutcome⟩
    exact ExtState.LoopEnds.optionsEnd ⟨enough, outcome, isLoop⟩
  case upper =>
    intro state comes isUpper
    obtain ⟨enough, isEnd⟩ := (comes.uipProcess_iff (.upper state)).mpr
      ⟨1, ExtState.headerLoop_of_isUpper isUpper⟩
    obtain ⟨offset, inside⟩ := handled.offset enough state isEnd
    have width := state.extLen.toNat_lt
    unfold ExtState.base at offset inside
    omega

theorem HeadersFit.handled (fit : HeadersFit env buf received) :
    HeadersHandled env buf received := by
  constructor
  case ends =>
    obtain ⟨fuel, entered⟩ := (enter_ends_iff env buf received).mpr fit.first
    cases isEntered : enter env fuel buf received with
    | inl last =>
        cases last with
        | none =>
            exact absurd isEntered entered
        | some outcome =>
            refine ⟨fuel, outcome, ?_⟩
            unfold uipProcess
            rw [isEntered]
    | inr state =>
        have isState : Entered env buf received state := ⟨fuel, isEntered⟩
        obtain ⟨enough, outcome, isOutcome⟩ :=
          ExtState.loopEnds_of_optionsEnd fun later follows =>
            fit.options later ⟨state, isState, follows⟩
        obtain ⟨more, isEnd⟩ := (isState.uipProcess_iff outcome).mpr
          ⟨enough, isOutcome⟩
        exact ⟨more, outcome, isEnd⟩
  case offset =>
    intro fuel state upper
    obtain ⟨comes, isUpper⟩ := comes_of_upper upper
    obtain ⟨small, inside⟩ := fit.upper state comes isUpper
    have counts : state.extLen.toNat = state.passed.sum := by
      rw [comes.counts, UInt8.toNat_ofNat']
      exact Nat.mod_eq_of_lt (Nat.lt_succ_of_le small)
    unfold ExtState.base
    rw [counts]
    exact ⟨rfl, inside⟩

/-- A hop-by-hop header of eight bytes with a PadN option of 254 bytes. -/
def padnPacket : ByteMem :=
  ByteMem.write (ByteMem.ofList [0x60, 0, 0, 0, 0, 8, 0, 64]) 40
    [58, 0, 1, 254]

def rplRouter : Uip6Env where
  confRouter := true
  confIpv6Rpl := true
  uipTcp := true
  uipUdp := true
  joinedRank := fun _ => none
  isForMe := fun _ => true

/-- The option is processed again and again. -/
theorem padnPacket_not_handled :
    ¬ HeadersHandled rplRouter padnPacket 48 := by
  intro handled
  have fits := handled.fit.first (by decide +kernel) (by decide +kernel)
  refine fits 2 Relation.ReflTransGen.refl (Relation.TransGen.single ?_)
  have isPadn : padnPacket (uipIphLen + (2 : UInt8).toNat) =
      uipExtHdrOptPadn := by
    decide +kernel
  have inside : (2 : UInt8).toNat < extHdrBytes padnPacket uipIphLen := by
    decide +kernel
  have same : (2 : UInt8) + (padnPacket (uipIphLen + (2 : UInt8).toNat + 1)
      + 2) = 2 := by
    decide +kernel
  unfold Walk.GoesOn optionStep
  dsimp only
  rw [if_pos inside, isPadn, if_neg (by decide), if_pos rfl, same]

/-- The packets whose headers are handled. -/
theorem headersHandled_iff (env : Uip6Env) (buf : ByteMem)
    (received : UInt16) :
    HeadersHandled env buf received ↔ HeadersFit env buf received :=
  ⟨HeadersHandled.fit, HeadersFit.handled⟩

end Contiki.Net.Uip6
