import Mathlib.Data.Nat.Bitwise
import Mathlib.Tactic.Common

/-!
# Trickle timers

`lib/trickle-timer.c` with `TRICKLE_TIMER_ERROR_CHECKING`, for a
`clock_time_t` of 16 or 32 bits.  Times are numbers below two to the power of
the width.
-/

namespace Contiki.Core

/-- The configuration of the library and its platform. -/
structure TricklePlatform where
  /-- The width of `clock_time_t`. -/
  width : Nat
  isClock : width = 16 ∨ width = 32
  /-- The width of a promoted `clock_time_t`. -/
  intWidth : Nat
  width_le : width ≤ intWidth
  /-- A shift by `intWidth` bits or more is undefined in C. -/
  wildShiftRight : Nat → Nat → Nat
  wildShiftLeft : Nat → Nat → Nat
  /-- `TRICKLE_TIMER_MAX_IMAX_WIDTH` is the one of the clock, not
  `TRICKLE_TIMER_MAX_IMAX_GENERIC`. -/
  sized : Bool
  /-- `TRICKLE_TIMER_COMPENSATE_DRIFT` -/
  compensateDrift : Bool

/-- The callbacks of the ctimer. -/
inductive TrickleCallback where
  | fire
  | doubleInterval
  deriving DecidableEq, Inhabited

/-- `struct trickle_timer`, with the callback, start and interval of `ct`.
`t`, the last result of `get_t`, is not in the source. -/
structure TrickleTimer where
  iMin : Nat
  iCur : Nat
  iStart : Nat
  iMaxAbs : Nat
  ct : TrickleCallback
  ctStart : Nat
  ctInterval : Nat
  iMax : Nat
  k : Nat
  c : Nat
  t : Nat
  deriving Inhabited

namespace TricklePlatform

variable (platform : TricklePlatform)

/-- The number of values of `clock_time_t`. -/
def modulus : Nat := 2 ^ platform.width

/-- `TRICKLE_TIMER_CLOCK_MAX` -/
def clockMax : Nat := platform.modulus - 1

/-- `>>` -/
def shiftRight (value count : Nat) : Nat :=
  if count < platform.intWidth then value >>> count
  else platform.wildShiftRight value count

/-- `<<`, stored in a `clock_time_t`. -/
def shiftLeft (value count : Nat) : Nat :=
  if count < platform.intWidth then (value <<< count) % platform.modulus
  else platform.wildShiftLeft value count % platform.modulus

/-- `TRICKLE_TIMER_IMIN_IS_BAD` -/
def iminIsBad (iMin : Nat) : Prop :=
  iMin < 2 ∨ platform.clockMax >>> 1 < iMin

instance (iMin : Nat) : Decidable (platform.iminIsBad iMin) :=
  inferInstanceAs (Decidable (_ ∨ _))

/-- `TRICKLE_TIMER_IPAIR_IS_BAD` -/
def ipairIsBad (iMin iMax : Nat) : Prop :=
  platform.shiftRight platform.clockMax (iMax + 1) < iMin - 1

instance (iMin iMax : Nat) : Decidable (platform.ipairIsBad iMin iMax) :=
  inferInstanceAs (Decidable (_ < _))

/-! ## The maximum number of doublings -/

/-- One test of `max_imax` on `zeros` and `value`. -/
def imaxTest (width mask more shift : Nat) (state : Nat × Nat) :
    Nat × Nat :=
  if state.2 &&& mask = 0 then
    (state.1 + more, (state.2 <<< shift) % 2 ^ width)
  else state

/-- The loop of `TRICKLE_TIMER_MAX_IMAX_GENERIC` for these values of `i`. -/
def imaxLoop (width mask : Nat) (state : Nat × Nat) : List Nat → Nat × Nat
  | [] => state
  | i :: rest =>
      let mask := (mask <<< i) % 2 ^ width
      imaxLoop width mask (imaxTest width mask i i state) rest

/-- `zeros` with `TRICKLE_TIMER_MAX_IMAX_GENERIC`; `i` starts with four times
the size of `clock_time_t`. -/
def imaxGeneric (value : Nat) : Nat :=
  let state := (0, value - 1)
  if platform.width = 16 then (imaxLoop 16 0xFFFF state [8, 4, 2, 1]).1
  else (imaxLoop 32 0xFFFF state [16, 8, 4, 2, 1]).1

/-- `zeros` with `TRICKLE_TIMER_MAX_IMAX_16_BIT` -/
def imax16Bit (value : Nat) : Nat :=
  let state := imaxTest 16 0xFF00 8 8 (0, value)
  let state := imaxTest 16 0xF000 4 4 state
  let state := imaxTest 16 0xC000 2 2 state
  (imaxTest 16 0x8000 1 0 state).1

/-- `zeros` with `TRICKLE_TIMER_MAX_IMAX_32_BIT` -/
def imax32Bit (value : Nat) : Nat :=
  let state := imaxTest 32 0xFFFF0000 16 16 (0, value)
  let state := imaxTest 32 0xFF000000 8 8 state
  let state := imaxTest 32 0xF0000000 4 4 state
  let state := imaxTest 32 0xC0000000 2 2 state
  (imaxTest 32 0x80000000 1 0 state).1

/-- `max_imax` -/
def maxImax (value : Nat) : Nat :=
  let zeros := if platform.sized then
      if platform.width = 16 then imax16Bit value else imax32Bit value
    else platform.imaxGeneric value
  (zeros + 255) % 256

/-! ## The timer -/

/-- `trickle_timer_config`, with nothing for `TRICKLE_TIMER_ERROR`. -/
def config (tt : TrickleTimer) (iMin : Nat) (iMax k : UInt8) :
    Option TrickleTimer :=
  if platform.iminIsBad iMin then none
  else if iMax = 0 ∨ k = 0 then none
  else
    let iMax := if platform.ipairIsBad iMin iMax.toNat
      then platform.maxImax iMin else iMax.toNat
    some { tt with
      iMin := iMin
      iMax := iMax
      iMaxAbs := platform.shiftLeft iMin iMax
      k := k.toNat }

/-- `get_t` with the number of `tt_rand` -/
def getT (iCur rand : Nat) : Nat :=
  let iCur := iCur >>> 1
  iCur + rand % iCur

/-- `ctimer_set` at the time `now` -/
def ctimerSet (tt : TrickleTimer) (now interval : Nat)
    (ct : TrickleCallback) : TrickleTimer :=
  { tt with ct := ct, ctStart := now, ctInterval := interval }

/-- `TRICKLE_TIMER_INTERVAL_END` -/
def intervalEnd (tt : TrickleTimer) : Nat :=
  (tt.iStart + tt.iCur) % platform.modulus

/-- The number of ticks to a time, or 0 if that is in the past. -/
def ticksTo (time now : Nat) : Nat :=
  let ticks := (time + (platform.modulus - now % platform.modulus)) %
    platform.modulus
  if ticks > platform.clockMax >>> 1 then 0 else ticks

/-- `schedule_for_end` -/
def scheduleForEnd (tt : TrickleTimer) (now : Nat) : TrickleTimer :=
  ctimerSet tt now (platform.ticksTo (platform.intervalEnd tt) now)
    .doubleInterval

/-- `double_interval` -/
def doubleInterval (tt : TrickleTimer) (now rand : Nat) : TrickleTimer :=
  let lastEnd := platform.intervalEnd tt
  let iCur := if tt.iCur ≤ tt.iMaxAbs >>> 1
    then (tt.iCur <<< 1) % platform.modulus else tt.iMaxAbs
  let t := getT iCur rand
  let tt := { tt with c := 0, iCur := iCur, t := t }
  if platform.compensateDrift then
    { ctimerSet tt now (platform.ticksTo (lastEnd + t) now) .fire with
      iStart := lastEnd }
  else { ctimerSet tt now t .fire with iStart := now }

/-- `new_interval` -/
def newInterval (tt : TrickleTimer) (now rand : Nat) : TrickleTimer :=
  let t := getT tt.iCur rand
  { ctimerSet { tt with c := 0, t := t } now t .fire with iStart := now }

/-- `trickle_timer_consistency` -/
def consistency (tt : TrickleTimer) : TrickleTimer :=
  if tt.c < 0xFF then { tt with c := tt.c + 1 } else tt

/-- `trickle_timer_inconsistency` -/
def inconsistency (tt : TrickleTimer) (now rand : Nat) : TrickleTimer :=
  if tt.iCur ≠ tt.iMin then
    newInterval { tt with iCur := tt.iMin } now rand
  else tt

/-- `fire`.  The callback of the protocol can report an inconsistency, with
the number of `tt_rand`. -/
def fire (tt : TrickleTimer) (now : Nat) (reports : Option Nat) :
    TrickleTimer :=
  let tt := match reports with
    | none => tt
    | some rand => inconsistency tt now rand
  if tt.iCur ≠ 0 then platform.scheduleForEnd tt now else tt

/-- `trickle_timer_set` with the numbers of two calls of `tt_rand` -/
def set (tt : TrickleTimer) (now first second : Nat) : TrickleTimer :=
  let range := (tt.iMaxAbs + (platform.modulus - tt.iMin) + 1) %
    platform.modulus
  newInterval { tt with
    iCur := (tt.iMin + first % range) % platform.modulus } now second

/-- What happens to a running timer. -/
inductive Event where
  /-- The ctimer expires; what the callback of the protocol reports. -/
  | expire (now rand : Nat) (reports : Option Nat)
  | inconsistency (now rand : Nat)
  | consistency

def step (tt : TrickleTimer) : Event → TrickleTimer
  | .expire now rand reports =>
      match tt.ct with
      | .fire => platform.fire tt now reports
      | .doubleInterval => platform.doubleInterval tt now rand
  | .inconsistency now rand => inconsistency tt now rand
  | .consistency => consistency tt

def run (tt : TrickleTimer) (events : List Event) : TrickleTimer :=
  events.foldl platform.step tt

/-! ## Leading zeros -/

theorem and_mask_eq_zero_iff {width low value : Nat}
    (fits : value < 2 ^ width) :
    value &&& ((2 ^ (width - low) - 1) <<< low) = 0 ↔ value < 2 ^ low := by
  constructor
  · intro none
    apply Nat.lt_pow_two_of_testBit
    intro position above
    by_cases inside : position < width
    · have bit := congrArg (fun bits => bits.testBit position) none
      simp only [Nat.testBit_and, Nat.testBit_shiftLeft,
        Nat.testBit_two_pow_sub_one, Nat.zero_testBit] at bit
      have kept : position - low < width - low := by omega
      simpa [above, kept] using bit
    · exact Nat.testBit_lt_two_pow (lt_of_lt_of_le fits
        (Nat.pow_le_pow_right (by decide) (by omega)))
  · intro small
    apply Nat.eq_of_testBit_eq
    intro position
    simp only [Nat.testBit_and, Nat.testBit_shiftLeft, Nat.zero_testBit]
    by_cases above : low ≤ position
    · rw [Nat.testBit_lt_two_pow (lt_of_lt_of_le small
        (Nat.pow_le_pow_right (by decide) above)), Bool.false_and]
    · simp [above]

/-- `state` counts zeros before `value`, and has its first one among the top
`rest` bits. -/
structure Shifted (width rest value : Nat) (state : Nat × Nat) : Prop where
  shifted : state.2 = value * 2 ^ state.1
  fits : state.2 < 2 ^ width
  first : 2 ^ (width - rest) ≤ state.2

variable {width value : Nat}

theorem shifted_start (positive : 0 < value)
    (fits : value < 2 ^ width) : Shifted width width value (0, value) := by
  constructor
  · simp
  · exact fits
  · rw [Nat.sub_self]
    exact positive

/-- A test of the top `count` bits halves the bits where the first one is. -/
theorem Shifted.imaxTest {state : Nat × Nat}
    (count rest : Nat) (now : Shifted width (count + rest) value state)
    (narrow : count + rest ≤ width) (half : rest ≤ count) :
    Shifted width count value (imaxTest width
      ((2 ^ (width - (width - count)) - 1) <<< (width - count)) count count
      state) := by
  unfold TricklePlatform.imaxTest
  have scale : 2 ^ (width - count) * 2 ^ count = 2 ^ width := by
    rw [← Nat.pow_add, Nat.sub_add_cancel (by omega)]
  by_cases zero : state.2 < 2 ^ (width - count)
  · rw [if_pos ((and_mask_eq_zero_iff now.fits).2 zero)]
    have room : state.2 * 2 ^ count < 2 ^ width := by
      rw [← scale]
      exact Nat.mul_lt_mul_of_pos_right zero (Nat.two_pow_pos count)
    have kept : state.2 <<< count % 2 ^ width = state.2 * 2 ^ count := by
      rw [Nat.shiftLeft_eq, Nat.mod_eq_of_lt room]
    constructor
    · simp only [kept]
      rw [now.shifted, Nat.mul_assoc, ← Nat.pow_add]
    · simp only [kept]
      exact room
    · simp only [kept]
      have wide : 2 ^ (width - count) ≤
          2 ^ (width - (count + rest)) * 2 ^ count := by
        rw [← Nat.pow_add]
        exact Nat.pow_le_pow_right (by decide) (by omega)
      exact le_trans wide (Nat.mul_le_mul_right _ now.first)
  · rw [if_neg (mt (and_mask_eq_zero_iff now.fits).1 zero)]
    exact ⟨now.shifted, now.fits, by omega⟩

theorem imaxTest_last (width mask : Nat) (state : Nat × Nat) :
    (imaxTest width mask 1 0 state).1 = (imaxTest width mask 1 1 state).1 := by
  unfold imaxTest
  split <;> rfl

/-- The first one of `value` is at the bit `width - zeros - 1`. -/
def LeadingZeros (width value zeros : Nat) : Prop :=
  2 ^ (width - 1) ≤ value * 2 ^ zeros ∧ value * 2 ^ zeros < 2 ^ width

theorem Shifted.leadingZeros {state : Nat × Nat}
    (now : Shifted width 1 value state) : LeadingZeros width value state.1 :=
  ⟨now.shifted ▸ now.first, now.shifted ▸ now.fits⟩

theorem imax16Bit_leadingZeros {value : Nat} (positive : 0 < value)
    (fits : value < 2 ^ 16) : LeadingZeros 16 value (imax16Bit value) := by
  have start := shifted_start positive fits
  have eight := start.imaxTest 8 8 (by decide) (by decide)
  have four := eight.imaxTest 4 4 (by decide) (by decide)
  have two := four.imaxTest 2 2 (by decide) (by decide)
  have one := two.imaxTest 1 1 (by decide) (by decide)
  unfold imax16Bit
  rw [imaxTest_last]
  exact one.leadingZeros

theorem imax32Bit_leadingZeros {value : Nat} (positive : 0 < value)
    (fits : value < 2 ^ 32) : LeadingZeros 32 value (imax32Bit value) := by
  have start := shifted_start positive fits
  have sixteen := start.imaxTest 16 16 (by decide) (by decide)
  have eight := sixteen.imaxTest 8 8 (by decide) (by decide)
  have four := eight.imaxTest 4 4 (by decide) (by decide)
  have two := four.imaxTest 2 2 (by decide) (by decide)
  have one := two.imaxTest 1 1 (by decide) (by decide)
  unfold imax32Bit
  rw [imaxTest_last]
  exact one.leadingZeros

theorem imaxGeneric_leadingZeros {value : Nat} (positive : 0 < value - 1)
    (fits : value - 1 < platform.modulus) :
    LeadingZeros platform.width (value - 1) (platform.imaxGeneric value) := by
  unfold imaxGeneric
  unfold modulus at fits
  rcases platform.isClock with narrow | wide
  · rw [if_pos narrow]
    rw [narrow] at fits ⊢
    have start := shifted_start positive fits
    have eight := start.imaxTest 8 8 (by decide) (by decide)
    have four := eight.imaxTest 4 4 (by decide) (by decide)
    have two := four.imaxTest 2 2 (by decide) (by decide)
    have one := two.imaxTest 1 1 (by decide) (by decide)
    exact one.leadingZeros
  · rw [if_neg (by omega)]
    rw [wide] at fits ⊢
    have start := shifted_start positive fits
    have sixteen := start.imaxTest 16 16 (by decide) (by decide)
    have eight := sixteen.imaxTest 8 8 (by decide) (by decide)
    have four := eight.imaxTest 4 4 (by decide) (by decide)
    have two := four.imaxTest 2 2 (by decide) (by decide)
    have one := two.imaxTest 1 1 (by decide) (by decide)
    exact one.leadingZeros

theorem modulus_eq : platform.modulus = 2 * 2 ^ (platform.width - 1) := by
  unfold modulus
  rw [← Nat.pow_succ']
  rcases platform.isClock with narrow | wide
  · rw [narrow]
  · rw [wide]

theorem clockMax_half :
    platform.clockMax >>> 1 = 2 ^ (platform.width - 1) - 1 := by
  unfold clockMax
  rw [platform.modulus_eq, Nat.shiftRight_eq_div_pow]
  omega

theorem LeadingZeros.doublings {width value zeros iMin : Nat}
    (leading : LeadingZeros width value zeros) (wide : 1 ≤ width)
    (bound : value < 2 ^ (width - 1)) (near : iMin ≤ value + 1)
    (positive : 0 < value) (counts : width ≤ 255) :
    iMin * 2 ^ ((zeros + 255) % 256) ≤ 2 ^ (width - 1) := by
  have some_zero : zeros ≠ 0 := by
    rintro rfl
    have reached := leading.1
    rw [Nat.pow_zero, Nat.mul_one] at reached
    omega
  have few : zeros < width := by
    apply (Nat.pow_lt_pow_iff_right (by decide : 1 < 2)).1
    exact lt_of_le_of_lt (Nat.le_mul_of_pos_left _ positive) leading.2
  have count : (zeros + 255) % 256 = zeros - 1 := by omega
  rw [count]
  -- the next multiple of `2 ^ zeros` is at most `2 ^ width`
  have next : value + 1 ≤ 2 ^ (width - zeros) := by
    apply Nat.lt_of_mul_lt_mul_right (a := 2 ^ zeros)
    rw [← Nat.pow_add, Nat.sub_add_cancel (le_of_lt few)]
    exact leading.2
  calc
    iMin * 2 ^ (zeros - 1) ≤ 2 ^ (width - zeros) * 2 ^ (zeros - 1) :=
      Nat.mul_le_mul_right _ (le_trans near next)
    _ = 2 ^ (width - 1) := by
      rw [← Nat.pow_add]
      congr 1
      omega

theorem maxImax_fits {iMin : Nat} (accepted : ¬ platform.iminIsBad iMin) :
    iMin * 2 ^ platform.maxImax iMin ≤ 2 ^ (platform.width - 1) := by
  unfold iminIsBad at accepted
  rw [platform.clockMax_half] at accepted
  have positive := Nat.two_pow_pos (platform.width - 1)
  have doubled := platform.modulus_eq
  have wide : 1 ≤ platform.width ∧ platform.width ≤ 255 := by
    have := platform.isClock
    omega
  unfold maxImax
  cases sized : platform.sized with
  | false =>
      have leading := @imaxGeneric_leadingZeros platform iMin (by omega)
        (by omega)
      exact leading.doublings wide.1 (by omega) (by omega) (by omega) wide.2
  | true =>
      rcases platform.isClock with narrow | long
      · rw [narrow] at accepted ⊢
        have leading := @imax16Bit_leadingZeros iMin (by omega) (by omega)
        exact leading.doublings (by decide) (by omega) (by omega) (by omega)
          (by decide)
      · rw [long] at accepted ⊢
        have leading := @imax32Bit_leadingZeros iMin (by omega) (by omega)
        exact leading.doublings (by decide) (by omega) (by omega) (by omega)
          (by decide)

/-! ## Runs -/

/-- The maximum number of doublings of the timer gives no overflow. -/
structure Configured (tt : TrickleTimer) : Prop where
  two_le : 2 ≤ tt.iMin
  doublings : tt.iMaxAbs = tt.iMin * 2 ^ tt.iMax
  fits : tt.iMaxAbs ≤ 2 ^ (platform.width - 1)

theorem Configured.iMin_le {platform : TricklePlatform} {tt : TrickleTimer}
    (configured : platform.Configured tt) : tt.iMin ≤ tt.iMaxAbs := by
  rw [configured.doublings]
  exact Nat.le_mul_of_pos_right _ (Nat.two_pow_pos _)

theorem Configured.iMaxAbs_lt {platform : TricklePlatform}
    {tt : TrickleTimer} (configured : platform.Configured tt) :
    tt.iMaxAbs < platform.modulus := by
  have positive := Nat.two_pow_pos (platform.width - 1)
  have fits := configured.fits
  rw [platform.modulus_eq]
  omega

/-- `t` is in the half-open interval from `I / 2` to `I`, and while `fire` is
pending, it is set for `t` or for a `t` that has passed. -/
structure InBounds (tt : TrickleTimer) : Prop where
  iMin_le : tt.iMin ≤ tt.iCur
  le_iMaxAbs : tt.iCur ≤ tt.iMaxAbs
  half_le : tt.iCur / 2 ≤ tt.t
  t_lt : tt.t < tt.iCur
  scheduled : tt.ct = .fire → tt.ctInterval = 0 ∨
    (tt.ctStart + tt.ctInterval) % platform.modulus =
      (tt.iStart + tt.t) % platform.modulus

theorem getT_bounds {iCur rand : Nat} (two_le : 2 ≤ iCur) :
    iCur / 2 ≤ getT iCur rand ∧ getT iCur rand < iCur := by
  unfold getT
  simp only [Nat.shiftRight_eq_div_pow, Nat.pow_one]
  have part := Nat.mod_lt rand (show 0 < iCur / 2 by omega)
  constructor
  · exact Nat.le_add_right _ _
  · omega

theorem now_add_ticksTo (time now : Nat) :
    platform.ticksTo time now = 0 ∨
      (now + platform.ticksTo time now) % platform.modulus =
        time % platform.modulus := by
  unfold ticksTo
  simp only
  split
  · exact Or.inl rfl
  · apply Or.inr
    have positive : 0 < platform.modulus := Nat.two_pow_pos _
    have below := Nat.mod_lt now positive
    have whole := Nat.div_add_mod now platform.modulus
    have sum : now + (time + (platform.modulus - now % platform.modulus)) =
        time + platform.modulus * (now / platform.modulus + 1) := by
      rw [Nat.mul_add, Nat.mul_one]
      omega
    rw [Nat.add_mod, Nat.mod_mod, ← Nat.add_mod, sum,
      Nat.add_mul_mod_self_left]

variable {platform}

variable {tt : TrickleTimer} {now rand : Nat}

theorem newInterval_inBounds
    (two_le : 2 ≤ tt.iMin) (iMin_le : tt.iMin ≤ tt.iCur)
    (le_iMaxAbs : tt.iCur ≤ tt.iMaxAbs) :
    platform.InBounds (newInterval tt now rand) := by
  have bounds := @getT_bounds tt.iCur rand (le_trans two_le iMin_le)
  exact ⟨iMin_le, le_iMaxAbs, bounds.1, bounds.2, fun _ => Or.inr rfl⟩

theorem inconsistency_inBounds (configured : platform.Configured tt)
    (inBounds : platform.InBounds tt) :
    platform.InBounds (inconsistency tt now rand) := by
  unfold inconsistency
  split
  · exact newInterval_inBounds configured.two_le (le_refl _)
      configured.iMin_le
  · exact inBounds

theorem consistency_inBounds (inBounds : platform.InBounds tt) :
    platform.InBounds (consistency tt) := by
  unfold consistency
  split
  · exact ⟨inBounds.iMin_le, inBounds.le_iMaxAbs, inBounds.half_le,
      inBounds.t_lt, inBounds.scheduled⟩
  · exact inBounds

theorem scheduleForEnd_inBounds {now : Nat}
    (inBounds : platform.InBounds tt) :
    platform.InBounds (platform.scheduleForEnd tt now) :=
  ⟨inBounds.iMin_le, inBounds.le_iMaxAbs, inBounds.half_le, inBounds.t_lt,
    fun pending => TrickleCallback.noConfusion pending⟩

theorem fire_inBounds {now : Nat} {reports : Option Nat}
    (configured : platform.Configured tt) (inBounds : platform.InBounds tt) :
    platform.InBounds (platform.fire tt now reports) := by
  unfold fire
  cases reports with
  | none =>
      simp only
      split
      · exact scheduleForEnd_inBounds inBounds
      · exact inBounds
  | some rand =>
      simp only
      have reported := @inconsistency_inBounds platform tt now rand
        configured inBounds
      split
      · exact scheduleForEnd_inBounds reported
      · exact reported

theorem doubleInterval_iCur (configured : platform.Configured tt) :
    (platform.doubleInterval tt now rand).iCur =
      min (2 * tt.iCur) tt.iMaxAbs := by
  have below := configured.iMaxAbs_lt
  have chosen : (platform.doubleInterval tt now rand).iCur =
      if tt.iCur ≤ tt.iMaxAbs >>> 1
        then (tt.iCur <<< 1) % platform.modulus else tt.iMaxAbs := by
    unfold doubleInterval ctimerSet
    simp only
    split <;> rfl
  rw [chosen, Nat.shiftRight_eq_div_pow, Nat.shiftLeft_eq, Nat.pow_one]
  split
  · rw [Nat.mod_eq_of_lt (by omega)]
    omega
  · omega

theorem doubleInterval_inBounds (configured : platform.Configured tt)
    (inBounds : platform.InBounds tt) :
    platform.InBounds (platform.doubleInterval tt now rand) := by
  have iCur := @doubleInterval_iCur platform tt now rand configured
  have least := configured.two_le
  have kept := inBounds.iMin_le
  have order := configured.iMin_le
  have parameters : (platform.doubleInterval tt now rand).iMin = tt.iMin ∧
      (platform.doubleInterval tt now rand).iMaxAbs = tt.iMaxAbs ∧
      (platform.doubleInterval tt now rand).t =
        getT (platform.doubleInterval tt now rand).iCur rand := by
    unfold doubleInterval ctimerSet
    simp only
    split <;> exact ⟨rfl, rfl, rfl⟩
  have bounds := @getT_bounds
    (platform.doubleInterval tt now rand).iCur rand (by omega)
  constructor
  · omega
  · omega
  · rw [parameters.2.2]
    exact bounds.1
  · rw [parameters.2.2]
    exact bounds.2
  · intro _
    unfold doubleInterval ctimerSet
    simp only
    split
    · simpa using platform.now_add_ticksTo _ now
    · exact Or.inr rfl

/-- The parameters of a timer stay as `config` stored them. -/
def SameParameters (tt tt' : TrickleTimer) : Prop :=
  tt'.iMin = tt.iMin ∧ tt'.iMax = tt.iMax ∧ tt'.iMaxAbs = tt.iMaxAbs

theorem Configured.of_sameParameters {tt tt' : TrickleTimer}
    (configured : platform.Configured tt) (same : SameParameters tt tt') :
    platform.Configured tt' := by
  obtain ⟨iMin, iMax, iMaxAbs⟩ := same
  exact ⟨iMin ▸ configured.two_le,
    by rw [iMin, iMax, iMaxAbs]; exact configured.doublings,
    iMaxAbs ▸ configured.fits⟩

theorem inconsistency_parameters (tt : TrickleTimer) (now rand : Nat) :
    SameParameters tt (inconsistency tt now rand) := by
  unfold inconsistency
  split <;> exact ⟨rfl, rfl, rfl⟩

theorem fire_parameters (tt : TrickleTimer) (now : Nat)
    (reports : Option Nat) :
    SameParameters tt (platform.fire tt now reports) := by
  unfold fire
  cases reports with
  | none =>
      simp only
      split <;> exact ⟨rfl, rfl, rfl⟩
  | some rand =>
      simp only
      have reported := inconsistency_parameters tt now rand
      split <;> exact reported

theorem step_parameters (tt : TrickleTimer) (event : Event) :
    SameParameters tt (platform.step tt event) := by
  cases event with
  | expire now rand reports =>
      unfold step
      cases tt.ct with
      | fire => exact fire_parameters tt now reports
      | doubleInterval =>
          unfold doubleInterval ctimerSet
          simp only
          split <;> exact ⟨rfl, rfl, rfl⟩
  | inconsistency now rand => exact inconsistency_parameters tt now rand
  | consistency =>
      unfold step consistency
      simp only
      split <;> exact ⟨rfl, rfl, rfl⟩

theorem run_parameters (events : List Event) (tt : TrickleTimer) :
    SameParameters tt (platform.run tt events) := by
  induction events generalizing tt with
  | nil => exact ⟨rfl, rfl, rfl⟩
  | cons event rest inductionHypothesis =>
      have first := @step_parameters platform tt event
      have later := inductionHypothesis (platform.step tt event)
      exact ⟨later.1.trans first.1, later.2.1.trans first.2.1,
        later.2.2.trans first.2.2⟩

theorem step_inBounds (event : Event) (configured : platform.Configured tt)
    (inBounds : platform.InBounds tt) :
    platform.InBounds (platform.step tt event) := by
  cases event with
  | expire now rand reports =>
      unfold step
      cases tt.ct with
      | fire => exact fire_inBounds configured inBounds
      | doubleInterval => exact doubleInterval_inBounds configured inBounds
  | inconsistency now rand => exact inconsistency_inBounds configured inBounds
  | consistency => exact consistency_inBounds inBounds

theorem run_inBounds (events : List Event) {tt : TrickleTimer}
    (configured : platform.Configured tt)
    (inBounds : platform.InBounds tt) :
    platform.InBounds (platform.run tt events) := by
  induction events generalizing tt with
  | nil => exact inBounds
  | cons event rest inductionHypothesis =>
      exact inductionHypothesis
        (configured.of_sameParameters (step_parameters tt event))
        (step_inBounds event configured inBounds)

theorem set_parameters (tt : TrickleTimer) (now first second : Nat) :
    SameParameters tt (platform.set tt now first second) :=
  ⟨rfl, rfl, rfl⟩

theorem set_inBounds {now first second : Nat}
    (configured : platform.Configured tt) :
    platform.InBounds (platform.set tt now first second) := by
  have order := configured.iMin_le
  have below := configured.iMaxAbs_lt
  have least := configured.two_le
  have range : (tt.iMaxAbs + (platform.modulus - tt.iMin) + 1) %
      platform.modulus = tt.iMaxAbs - tt.iMin + 1 := by
    have sum : tt.iMaxAbs + (platform.modulus - tt.iMin) + 1 =
        tt.iMaxAbs - tt.iMin + 1 + platform.modulus := by omega
    rw [sum, Nat.add_mod_right, Nat.mod_eq_of_lt (by omega)]
  have offset := Nat.mod_lt first
    (show 0 < tt.iMaxAbs - tt.iMin + 1 by omega)
  unfold set
  simp only [range]
  apply newInterval_inBounds
  · exact configured.two_le
  · simp only
    rw [Nat.mod_eq_of_lt (by omega)]
    exact Nat.le_add_right _ _
  · simp only
    rw [Nat.mod_eq_of_lt (by omega)]
    omega

/-! ## The bounds of all runs -/

/-- Every accepted configuration has a maximum interval without overflow.
In the runs after it, the interval and `t` are in bounds, and the interval is
doubled up to the maximum. -/
def BoundsKept (platform : TricklePlatform) (iMin : Nat)
    (iMax k : UInt8) : Prop :=
  ∀ tt configured, platform.config tt iMin iMax k = some configured →
    configured.iMin = iMin ∧
    iMin * 2 ^ configured.iMax < platform.modulus ∧
    configured.iMaxAbs = iMin * 2 ^ configured.iMax ∧
    ∀ now first second events reached,
      platform.run (platform.set configured now first second) events =
        reached →
      reached.iMin = iMin ∧ reached.iMaxAbs = configured.iMaxAbs ∧
      platform.InBounds reached ∧
      ∀ later rand, (platform.doubleInterval reached later rand).iCur =
        min (2 * reached.iCur) reached.iMaxAbs

theorem config_eq_some_iff {tt configured : TrickleTimer} {iMin : Nat}
    {iMax k : UInt8} :
    platform.config tt iMin iMax k = some configured ↔
      ¬ platform.iminIsBad iMin ∧ iMax ≠ 0 ∧ k ≠ 0 ∧
      configured = { tt with
        iMin := iMin
        iMax := if platform.ipairIsBad iMin iMax.toNat
          then platform.maxImax iMin else iMax.toNat
        iMaxAbs := platform.shiftLeft iMin
          (if platform.ipairIsBad iMin iMax.toNat
            then platform.maxImax iMin else iMax.toNat)
        k := k.toNat } := by
  unfold config
  split
  · simp_all
  · split
    · rename_i wrong
      simp only [reduceCtorEq, false_iff]
      rintro ⟨_, someDoublings, someMessages, _⟩
      exact wrong.elim someDoublings someMessages
    · rename_i accepted right
      rw [not_or] at right
      simp only [Option.some.injEq]
      constructor
      · rintro rfl
        exact ⟨accepted, right.1, right.2, rfl⟩
      · rintro ⟨_, _, _, equal⟩
        exact equal.symm

/-- `TRICKLE_TIMER_IPAIR_IS_BAD` shifts by fewer bits than an `int` has, or
what the platform makes of the shift rejects the pair. -/
def PairChecked (platform : TricklePlatform) (iMin iMax : Nat) : Prop :=
  iMax + 1 < platform.intWidth ∨
    platform.wildShiftRight platform.clockMax (iMax + 1) < iMin - 1

theorem shiftLeft_eq {iMin count : Nat} (two_le : 2 ≤ iMin)
    (fits : iMin * 2 ^ count ≤ 2 ^ (platform.width - 1)) :
    platform.shiftLeft iMin count = iMin * 2 ^ count := by
  have positive := Nat.two_pow_pos (platform.width - 1)
  have wide := platform.width_le
  have few : count < platform.width - 1 := by
    apply (Nat.pow_lt_pow_iff_right (by decide : 1 < 2)).1
    have one := Nat.two_pow_pos count
    have twice : 2 * 2 ^ count ≤ iMin * 2 ^ count :=
      Nat.mul_le_mul_right _ two_le
    omega
  unfold shiftLeft
  rw [if_pos (by omega), Nat.shiftLeft_eq, Nat.mod_eq_of_lt]
  rw [platform.modulus_eq]
  omega

theorem pair_fits {iMin iMax : Nat} (two_le : 2 ≤ iMin)
    (checked : iMin - 1 ≤ platform.clockMax >>> (iMax + 1)) :
    iMin * 2 ^ iMax ≤ 2 ^ (platform.width - 1) := by
  have positive := Nat.two_pow_pos iMax
  rw [Nat.shiftRight_eq_div_pow, Nat.le_div_iff_mul_le (Nat.two_pow_pos _),
    Nat.pow_succ'] at checked
  unfold clockMax at checked
  have doubled := platform.modulus_eq
  have some_value := Nat.two_pow_pos (platform.width - 1)
  have below : (iMin - 1) * 2 ^ iMax < 2 ^ (platform.width - 1) := by
    have moved : (iMin - 1) * (2 * 2 ^ iMax) =
        2 * ((iMin - 1) * 2 ^ iMax) := Nat.mul_left_comm _ _ _
    omega
  have few : iMax < platform.width - 1 := by
    apply (Nat.pow_lt_pow_iff_right (by decide : 1 < 2)).1
    exact lt_of_le_of_lt (Nat.le_mul_of_pos_left _ (by omega)) below
  have split : 2 ^ (platform.width - 1) =
      2 ^ (platform.width - 1 - iMax) * 2 ^ iMax := by
    rw [← Nat.pow_add, Nat.sub_add_cancel (le_of_lt few)]
  rw [split] at below ⊢
  have next := Nat.lt_of_mul_lt_mul_right below
  exact Nat.mul_le_mul_right _ (by omega)

theorem config_configured {tt configured : TrickleTimer} {iMin : Nat}
    {iMax k : UInt8} (checked : PairChecked platform iMin iMax.toNat)
    (accepted : platform.config tt iMin iMax k = some configured) :
    configured.iMin = iMin ∧ platform.Configured configured := by
  obtain ⟨iMinOk, _, _, stored⟩ := config_eq_some_iff.1 accepted
  have two_le : 2 ≤ iMin := by
    unfold iminIsBad at iMinOk
    omega
  have fits : iMin * 2 ^ (if platform.ipairIsBad iMin iMax.toNat
      then platform.maxImax iMin else iMax.toNat) ≤
        2 ^ (platform.width - 1) := by
    split
    · exact platform.maxImax_fits iMinOk
    · rename_i pair
      unfold ipairIsBad shiftRight at pair
      by_cases narrow : iMax.toNat + 1 < platform.intWidth
      · rw [if_pos narrow] at pair
        exact pair_fits two_le (by omega)
      · rw [if_neg narrow] at pair
        exact absurd (checked.resolve_left narrow) pair
  subst stored
  refine ⟨rfl, two_le, ?_, ?_⟩
  · exact shiftLeft_eq two_le fits
  · exact le_of_eq_of_le (shiftLeft_eq two_le fits) fits

theorem overflow_of_not_checked {iMin iMax : Nat} (two_le : 2 ≤ iMin)
    (unchecked : ¬ PairChecked platform iMin iMax) :
    ¬ platform.ipairIsBad iMin iMax ∧
      platform.modulus ≤ iMin * 2 ^ iMax := by
  unfold PairChecked at unchecked
  rw [not_or] at unchecked
  have wide := platform.width_le
  constructor
  · unfold ipairIsBad shiftRight
    rw [if_neg unchecked.1]
    exact unchecked.2
  · rw [platform.modulus_eq]
    exact Nat.mul_le_mul two_le
      (Nat.pow_le_pow_right (by decide) (by omega))

theorem boundsKept_iff (platform : TricklePlatform) (iMin : Nat)
    (iMax k : UInt8) :
    BoundsKept platform iMin iMax k ↔
      platform.iminIsBad iMin ∨ iMax = 0 ∨ k = 0 ∨
        PairChecked platform iMin iMax.toNat := by
  constructor
  · intro kept
    by_contra failed
    obtain ⟨iMinOk, someDoublings, someMessages, unchecked⟩ :
        ¬ platform.iminIsBad iMin ∧ iMax ≠ 0 ∧ k ≠ 0 ∧
          ¬ PairChecked platform iMin iMax.toNat := by
      simpa only [not_or] using failed
    have two_le : 2 ≤ iMin := by
      unfold iminIsBad at iMinOk
      omega
    obtain ⟨pair, overflow⟩ := overflow_of_not_checked two_le unchecked
    have stored := kept default _ (config_eq_some_iff.2
      ⟨iMinOk, someDoublings, someMessages, rfl⟩)
    have below := stored.2.1
    simp only [if_neg pair] at below
    omega
  · intro condition tt configured accepted
    obtain ⟨iMinOk, someDoublings, someMessages, _⟩ :=
      config_eq_some_iff.1 accepted
    have checked := ((condition.resolve_left iMinOk).resolve_left
      someDoublings).resolve_left someMessages
    obtain ⟨sameMin, valid⟩ := config_configured checked accepted
    refine ⟨sameMin, ?_, ?_, ?_⟩
    · rw [← sameMin, ← valid.doublings]
      exact valid.iMaxAbs_lt
    · rw [← sameMin]
      exact valid.doublings
    · intro now first second events reached ran
      have started := @set_parameters platform configured now first
        second
      have validSet := valid.of_sameParameters started
      have later := @run_parameters platform events
        (platform.set configured now first second)
      rw [ran] at later
      refine ⟨?_, ?_, ?_, ?_⟩
      · rw [later.1, started.1, sameMin]
      · rw [later.2.2, started.2.2]
      · rw [← ran]
        exact run_inBounds events validSet (set_inBounds valid)
      · intro time rand
        exact doubleInterval_iCur (validSet.of_sameParameters later)

/-- A clock of 32 bits, on a machine whose shifts use the lower five bits of
the number of bits. -/
def fiveBitShifts : TricklePlatform where
  width := 32
  isClock := Or.inr rfl
  intWidth := 32
  width_le := Nat.le_refl 32
  wildShiftRight := fun value count => value >>> (count % 32)
  wildShiftLeft := fun value count => value <<< (count % 32)
  sized := false
  compensateDrift := true

/-- With 31 doublings the pair is compared with the whole clock. -/
theorem fiveBitShifts_not_boundsKept :
    ¬ BoundsKept fiveBitShifts 2 31 1 := by
  intro kept
  have stored := kept default _ (config_eq_some_iff.2
    ⟨by decide, by decide, by decide, rfl⟩)
  exact absurd stored.2.1 (by decide +kernel)

end TricklePlatform

end Contiki.Core
