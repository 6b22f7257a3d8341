import Contiki.Rpl.Dio

/-!
# Prefixes in DIO and DAO messages

Which positions of the buffer `dio_input` and `dao_input` read, and what they
take as a prefix.  The buffer goes on behind the message; what is there was
left by earlier packets.
-/

namespace Contiki.Rpl

open Contiki.Lib

/-- The payload of an ICMPv6 packet in `uip_buf`, of which `length` bytes are
the message. -/
structure RplMessage where
  buffer : ByteMem
  length : UInt16

/-- `buffer_length`, a `uint8_t`. -/
def RplMessage.bufferLength (message : RplMessage) : Nat :=
  message.length.toUInt8.toNat

theorem bufferLength_le (message : RplMessage) :
    message.bufferLength ≤ message.length.toNat := by
  unfold RplMessage.bufferLength
  rw [UInt16.toNat_toUInt8]
  exact Nat.mod_le _ _

/-- `RPL_OPTION_TARGET` -/
def optionTarget : UInt8 := 5
/-- `RPL_OPTION_TRANSIT` -/
def optionTransit : UInt8 := 6

/-- The number of bytes of a prefix. -/
def prefixBytes (length : UInt8) : Nat := (length.toNat + 7) / 8

/-- The positions read for the type and the length of the option at `i`. -/
def headerReads (buffer : ByteMem) (i : Nat) : List Nat :=
  if buffer i = optionPad1 then [i] else [i, i + (1 : Nat)]

/-! ## DIO messages -/

/-- The metric has a value behind its header. -/
def hasMetricValue (buffer : ByteMem) (i : Nat) : Prop :=
  buffer (i + (2 : Nat)) = MetricType.etx.toByte ∨
    buffer (i + (2 : Nat)) = MetricType.energy.toByte

instance (buffer : ByteMem) (i : Nat) : Decidable (hasMetricValue buffer i) :=
  inferInstanceAs (Decidable (_ ∨ _))

/-- The route information has a prefix that fits. -/
def hasRoutePrefix (buffer : ByteMem) (i : Nat) : Prop :=
  prefixBytes (buffer (i + (2 : Nat))) + (8 : Nat) ≤ optionLen buffer i ∧
    (buffer (i + (2 : Nat))).toNat ≤ 128

instance (buffer : ByteMem) (i : Nat) : Decidable (hasRoutePrefix buffer i) :=
  inferInstanceAs (Decidable (_ ∧ _))

/-- The option at `i` makes `dio_input` drop the message. -/
def DioOptionRefused (buffer : ByteMem) (bufferLength i : Nat) : Prop :=
  optionLen buffer i + i > bufferLength ∨
    buffer i = optionDagMetricContainer ∧
      (optionLen buffer i < 6 ∨
        ¬ (buffer (i + (2 : Nat)) = MetricType.none.toByte ∨
          hasMetricValue buffer i)) ∨
    buffer i = optionRouteInfo ∧
      (optionLen buffer i < 9 ∨ ¬ hasRoutePrefix buffer i) ∨
    buffer i = optionDagConf ∧ optionLen buffer i ≠ 16 ∨
    buffer i = optionPrefixInfo ∧ optionLen buffer i ≠ 32

instance (buffer : ByteMem) (bufferLength i : Nat) :
    Decidable (DioOptionRefused buffer bufferLength i) :=
  inferInstanceAs (Decidable (_ ∨ _ ∨ _ ∨ _ ∨ _))

/-- The positions of the options that the loop of `dio_input` comes to. -/
def dioVisited (buffer : ByteMem) (bufferLength i : Nat) : List Nat :=
  if i < bufferLength then
    i :: if DioOptionRefused buffer bufferLength i then []
      else dioVisited buffer bufferLength (i + optionLen buffer i)
  else []
termination_by bufferLength - i
decreasing_by
  have := optionLen_pos buffer i
  omega

/-- The positions read for the option at `i`. -/
def dioOptionReads (buffer : ByteMem) (bufferLength i : Nat) : List Nat :=
  let len := optionLen buffer i
  headerReads buffer i ++
    if len + i > bufferLength then []
    else if buffer i = optionDagMetricContainer then
      if len < 6 then []
      else
        List.range' (i + (2 : Nat)) 4 ++
          if hasMetricValue buffer i then List.range' (i + (6 : Nat)) 2
          else []
    else if buffer i = optionRouteInfo then
      if len < 9 then []
      else
        List.range' (i + (2 : Nat)) 6 ++
          if hasRoutePrefix buffer i then
            List.range' (i + (8 : Nat))
              (prefixBytes (buffer (i + (2 : Nat))))
          else []
    else if buffer i = optionDagConf then
      if len ≠ 16 then []
      else
        List.range' (i + (3 : Nat)) 9 ++ List.range' (i + (13 : Nat)) 3
    else if buffer i = optionPrefixInfo then
      if len ≠ 32 then []
      else
        List.range' (i + (2 : Nat)) 2 ++ List.range' (i + (8 : Nat)) 4 ++
          List.range' (i + (16 : Nat)) 16
    else []

/-- The positions that `dio_input` reads. -/
def dioReads (message : RplMessage) : List Nat :=
  List.range' 0 6 ++ List.range' 8 16 ++
    (dioVisited message.buffer message.bufferLength 24).flatMap
      (dioOptionReads message.buffer message.bufferLength)

variable {buffer : ByteMem} {bufferLength i : Nat}

theorem optionTypes_ne :
    optionRouteInfo ≠ optionDagMetricContainer ∧
      optionDagConf ≠ optionDagMetricContainer ∧
      optionPrefixInfo ≠ optionDagMetricContainer ∧
      optionDagConf ≠ optionRouteInfo ∧
      optionPrefixInfo ≠ optionRouteInfo ∧
      optionPrefixInfo ≠ optionDagConf := by
  decide

theorem dagMetricContainer_eq_none_iff (len : Nat) (dio : Dio) :
    dagMetricContainer buffer i len dio = none ↔
      len < 6 ∨ ¬ (buffer (i + 2) = MetricType.none.toByte ∨
        hasMetricValue buffer i) := by
  unfold dagMetricContainer hasMetricValue
  dsimp only
  split
  · next short =>
      exact iff_of_true rfl (Or.inl short)
  next enough =>
  rw [or_iff_right enough]
  split
  · next none =>
      exact iff_of_false nofun fun other => other (Or.inl none)
  split
  · next etx =>
      exact iff_of_false nofun fun other => other (Or.inr (Or.inl etx))
  split
  · next energy =>
      exact iff_of_false nofun fun other => other (Or.inr (Or.inr energy))
  next notNone notEtx notEnergy =>
  exact iff_of_true rfl (by simp [notNone, notEtx, notEnergy])

theorem routeInfo_eq_none_iff (dio : Dio) :
    routeInfo buffer i (optionLen buffer i) dio = none ↔
      optionLen buffer i < 9 ∨ ¬ hasRoutePrefix buffer i := by
  unfold routeInfo hasRoutePrefix prefixBytes
  dsimp only
  split
  · next short =>
      exact iff_of_true rfl (Or.inl short)
  next enough =>
  rw [or_iff_right enough]
  split
  · next fits =>
      exact iff_of_false nofun fun other => other fits
  · next other =>
      exact iff_of_true rfl other

theorem dioOption_eq_none_iff (dio : Dio) :
    dioOption buffer bufferLength i dio = none ↔
      DioOptionRefused buffer bufferLength i := by
  obtain ⟨routeMetric, confMetric, infoMetric, confRoute, infoRoute,
    infoConf⟩ := optionTypes_ne
  unfold dioOption DioOptionRefused
  dsimp only
  split
  · next long =>
      exact iff_of_true rfl (Or.inl long)
  next inside =>
  rw [or_iff_right inside]
  split
  · next isMetric =>
      rw [dagMetricContainer_eq_none_iff, isMetric]
      simp [routeMetric.symm, confMetric.symm, infoMetric.symm]
  next notMetric =>
  split
  · next isRoute =>
      rw [routeInfo_eq_none_iff, isRoute]
      simp [routeMetric, confRoute.symm, infoRoute.symm]
  next notRoute =>
  split
  · next isConf =>
      unfold dagConf
      rw [isConf]
      simp [confMetric, confRoute, infoConf.symm]
  next notConf =>
  split
  · next isInfo =>
      unfold prefixInfo
      rw [isInfo]
      simp [infoMetric, infoRoute, infoConf]
  next notInfo =>
  exact iff_of_false nofun (by
    simp [notMetric, notRoute, notConf, notInfo])

/-- The last of the options with a type. -/
def lastOption (buffer : ByteMem) (type : UInt8) (visited : List Nat) :
    Option Nat :=
  (visited.filter fun i => buffer i = type).getLast?

theorem lastOption_cons (type : UInt8) (visited : List Nat) :
    lastOption buffer type (i :: visited) =
      (lastOption buffer type visited).or
        (if buffer i = type then some i else none) := by
  unfold lastOption
  by_cases isType : buffer i = type
  · rw [List.filter_cons_of_pos (by simpa using isType), if_pos isType,
      List.getLast?_cons]
    cases (visited.filter fun i => buffer i = type).getLast? with
    | none =>
        rfl
    | some last =>
        rfl
  · rw [List.filter_cons_of_neg (by simpa using isType), if_neg isType,
      Option.or_none]

/-- The prefix information at `i`. -/
def prefixInfoAt (buffer : ByteMem) (i : Nat) : Prefix where
  length := buffer (i + (2 : Nat))
  flags := buffer (i + (3 : Nat))
  lifetime := get32 buffer (i + (8 : Nat))
  prefixAddr := getAddr buffer (i + (16 : Nat))

/-- Only a prefix information option writes `prefix_info`. -/
theorem prefixInfo_dioOption {dio next : Dio}
    (isNext : dioOption buffer bufferLength i dio = some next) :
    next.prefixInfo = if buffer i = optionPrefixInfo
      then prefixInfoAt buffer i else dio.prefixInfo := by
  obtain ⟨-, -, infoMetric, -, infoRoute, infoConf⟩ := optionTypes_ne
  unfold dioOption at isNext
  dsimp only at isNext
  split at isNext
  · cases isNext
  split at isNext
  · next isMetric =>
      rw [isMetric, if_neg infoMetric.symm]
      unfold dagMetricContainer at isNext
      dsimp only at isNext
      repeat' split at isNext
      all_goals
        cases isNext
      all_goals
        rfl
  split at isNext
  · next isRoute =>
      rw [isRoute, if_neg infoRoute.symm]
      unfold routeInfo at isNext
      dsimp only at isNext
      repeat' split at isNext
      all_goals
        cases isNext
      all_goals
        rfl
  split at isNext
  · next isConf =>
      rw [isConf, if_neg infoConf.symm]
      unfold dagConf at isNext
      split at isNext
      · cases isNext
      · cases isNext
        rfl
  split at isNext
  · next isInfo =>
      rw [if_pos isInfo]
      unfold prefixInfo at isNext
      split at isNext
      · cases isNext
      · cases isNext
        rfl
  · next notInfo =>
      rw [if_neg notInfo]
      cases isNext
      rfl

/-- The loop drops the message at a refused option, and otherwise the last
prefix information is kept. -/
theorem dioOptions_spec (buffer : ByteMem) (bufferLength i : Nat)
    (dio : Dio) :
    (dioOptions buffer bufferLength i dio = none ↔
      ∃ option ∈ dioVisited buffer bufferLength i,
        DioOptionRefused buffer bufferLength option) ∧
    ∀ after, dioOptions buffer bufferLength i dio = some after →
      after.prefixInfo = ((lastOption buffer optionPrefixInfo
        (dioVisited buffer bufferLength i)).map
          (prefixInfoAt buffer)).getD dio.prefixInfo := by
  fun_induction dioOptions buffer bufferLength i dio with
  | case1 i dio inside dropped =>
      have refused := (dioOption_eq_none_iff dio).mp dropped
      refine ⟨iff_of_true rfl ⟨i, ?_, refused⟩, nofun⟩
      rw [dioVisited, if_pos inside]
      exact List.mem_cons_self
  | case2 i dio inside next isNext inductionHypothesis =>
      have accepted : ¬ DioOptionRefused buffer bufferLength i := by
        rw [← dioOption_eq_none_iff dio, isNext]
        exact Option.some_ne_none next
      obtain ⟨drops, keeps⟩ := inductionHypothesis
      rw [dioVisited, if_pos inside, if_neg accepted]
      constructor
      · rw [drops, List.exists_mem_cons_iff, or_iff_right accepted]
      · intro after isAfter
        rw [keeps after isAfter, prefixInfo_dioOption isNext,
          lastOption_cons]
        cases lastOption buffer optionPrefixInfo
            (dioVisited buffer bufferLength (i + optionLen buffer i)) with
        | some last =>
            rfl
        | none =>
            by_cases isInfo : buffer i = optionPrefixInfo
            · rw [if_pos isInfo, if_pos isInfo]
              rfl
            · rw [if_neg isInfo, if_neg isInfo]
              rfl
  | case3 i dio outside =>
      rw [dioVisited, if_neg outside]
      refine ⟨iff_of_false nofun (by simp), ?_⟩
      intro after isAfter
      cases isAfter
      rfl

theorem lt_of_mem_dioVisited {option : Nat}
    (visited : option ∈ dioVisited buffer bufferLength i) :
    option < bufferLength := by
  fun_induction dioVisited buffer bufferLength i with
  | case1 i inside inductionHypothesis =>
      cases visited with
      | head =>
          exact inside
      | tail _ later =>
          split at later
          · cases later
          · next accepted =>
              exact inductionHypothesis later
  | case2 i outside =>
      cases visited

/-- The option at `i` ends in the message as far as it is read: its length
byte and, for a metric, the value behind the container. -/
def DioOptionInside (buffer : ByteMem) (bufferLength length i : Nat) :
    Prop :=
  (buffer i ≠ optionPad1 → i + (1 : Nat) < length) ∧
    (¬ DioOptionRefused buffer bufferLength i →
      buffer i = optionDagMetricContainer → hasMetricValue buffer i →
      i + (8 : Nat) ≤ length)

theorem headerReads_inside_iff {length : Nat} (inside : i < length) :
    (∀ position ∈ headerReads buffer i, position < length) ↔
      (buffer i ≠ optionPad1 → i + 1 < length) := by
  unfold headerReads
  split
  · next isPad =>
      simp [isPad, inside]
  · next notPad =>
      simp [notPad, inside]

theorem forall_mem_range' {start count length : Nat}
    (fits : start + count ≤ length) :
    ∀ position ∈ List.range' start count, position < length := by
  intro position member
  have bounds := List.mem_range'_1.mp member
  omega

/-- Behind its header, only the value of a metric can lie outside of the
message. -/
theorem dioOptionReads_inside_iff {length : Nat}
    (below : bufferLength ≤ length) (inside : i < bufferLength) :
    (∀ position ∈ dioOptionReads buffer bufferLength i, position < length) ↔
      DioOptionInside buffer bufferLength length i := by
  obtain ⟨routeMetric, confMetric, infoMetric, -, -, -⟩ := optionTypes_ne
  unfold dioOptionReads DioOptionInside
  dsimp only
  rw [List.forall_mem_append, headerReads_inside_iff (by omega)]
  refine and_congr_right fun _ => ?_
  split
  · next long =>
      exact iff_of_true nofun fun accepted =>
        absurd (Or.inl long) accepted
  next ends =>
  split
  · next isMetric =>
      split
      · next short =>
          exact iff_of_true nofun fun accepted =>
            absurd (Or.inr (Or.inl ⟨isMetric, Or.inl short⟩)) accepted
      next enough =>
      rw [List.forall_mem_append]
      have container := @forall_mem_range' (i + 2) 4 length (by omega)
      rw [and_iff_right container]
      split
      · next value =>
          have accepted : ¬ DioOptionRefused buffer bufferLength i := by
            unfold DioOptionRefused
            simp [ends, isMetric, enough, value, routeMetric.symm,
              confMetric.symm, infoMetric.symm]
          constructor
          · intro reads _ _ _
            have last := reads (i + 7) (List.mem_range'_1.mpr ⟨by omega,
              by omega⟩)
            omega
          · intro fits
            exact forall_mem_range' (fits accepted isMetric value)
      · next noValue =>
          exact iff_of_true nofun fun _ _ value => absurd value noValue
  next notMetric =>
  refine iff_of_true ?_ fun _ isMetric => absurd isMetric notMetric
  split
  · split
    · exact nofun
    rw [List.forall_mem_append]
    refine ⟨forall_mem_range' (by omega), ?_⟩
    split
    · next fits =>
        have bytes := fits.1
        exact forall_mem_range' (by omega)
    · exact nofun
  split
  · split
    · exact nofun
    rw [List.forall_mem_append]
    exact ⟨forall_mem_range' (by omega), forall_mem_range' (by omega)⟩
  split
  · split
    · exact nofun
    rw [List.forall_mem_append, List.forall_mem_append]
    exact ⟨⟨forall_mem_range' (by omega), forall_mem_range' (by omega)⟩,
      forall_mem_range' (by omega)⟩
  · exact nofun

/-- Nothing behind the message is read exactly when the base object and the
options that the loop comes to end in the message. -/
theorem dioReads_inside_iff (message : RplMessage) :
    (∀ position ∈ dioReads message, position < message.length.toNat) ↔
      24 ≤ message.length.toNat ∧
        ∀ i ∈ dioVisited message.buffer message.bufferLength 24,
          DioOptionInside message.buffer message.bufferLength
            message.length.toNat i := by
  have below := bufferLength_le message
  unfold dioReads
  rw [List.forall_mem_append, List.forall_mem_append, List.forall_mem_flatMap]
  refine and_congr ?_ ?_
  · constructor
    · intro reads
      have last := reads.2 23 (List.mem_range'_1.mpr ⟨by decide, by decide⟩)
      omega
    · intro fits
      exact ⟨forall_mem_range' (by omega), forall_mem_range' (by omega)⟩
  · refine forall₂_congr fun i visited => ?_
    exact dioOptionReads_inside_iff below (lt_of_mem_dioVisited visited)

/-! ## The prefix of a DIO -/

/-- A prefix of at most 128 bits whose bytes lie in the message one behind the
other, with zeros behind them. -/
def PrefixFrom (message : RplMessage) (length : UInt8) (addr : IpAddr) :
    Prop :=
  length.toNat ≤ 128 ∧ ∃ position,
    position + prefixBytes length ≤ message.length.toNat ∧
      ∀ index : Fin 16, addr.get index =
        if index.val < prefixBytes length then
          message.buffer (position + index.val)
        else 0

/-- The prefix information at `i` has at most 128 bits and zeros behind the
bytes of the prefix. -/
def PrefixInfoFits (buffer : ByteMem) (i : Nat) : Prop :=
  (buffer (i + (2 : Nat))).toNat ≤ 128 ∧
    ∀ index : Fin 16, prefixBytes (buffer (i + (2 : Nat))) ≤ index.val →
      buffer (i + (16 : Nat) + index.val) = 0

theorem mem_of_lastOption {type : UInt8} {visited : List Nat}
    (isLast : lastOption buffer type visited = some i) :
    i ∈ visited ∧ buffer i = type := by
  have member := List.mem_filter.mp (List.mem_of_getLast? isLast)
  exact ⟨member.1, by simpa using member.2⟩

theorem prefixBytes_le {length : UInt8} (short : length.toNat ≤ 128) :
    prefixBytes length ≤ 16 := by
  unfold prefixBytes
  omega

@[simp]
theorem get_getAddr (buffer : ByteMem) (position : Nat) (index : Fin 16) :
    (getAddr buffer position).get index = buffer (position + index.val) := by
  simp [getAddr, Vector.get]
  rfl

theorem prefixFrom_zero (message : RplMessage) :
    PrefixFrom message 0 (Vector.replicate 16 0) := by
  refine ⟨by decide, 0, Nat.zero_le _, ?_⟩
  intro index
  simp [prefixBytes, Vector.get]

theorem prefixFrom_prefixInfoAt_iff {message : RplMessage}
    (ends : i + 32 ≤ message.length.toNat) :
    PrefixFrom message (prefixInfoAt message.buffer i).length
        (prefixInfoAt message.buffer i).prefixAddr ↔
      PrefixInfoFits message.buffer i := by
  unfold PrefixFrom PrefixInfoFits prefixInfoAt
  dsimp only
  refine and_congr_right fun short => ?_
  have bytes := prefixBytes_le short
  constructor
  · intro source index behind
    obtain ⟨position, -, copied⟩ := source
    have isByte := copied index
    rw [get_getAddr, if_neg (by omega)] at isByte
    exact isByte
  · intro zeros
    refine ⟨i + 16, by omega, fun index => ?_⟩
    rw [get_getAddr]
    split
    · rfl
    · next behind =>
        exact zeros index (by omega)

/-- A DIO message is read inside, and the prefix that it hands over is well
formed. -/
def DioHandled (config : RplConfig) (message : RplMessage) : Prop :=
  (∀ position ∈ dioReads message, position < message.length.toNat) ∧
    ∀ dio, dioInput config message.buffer message.length.toUInt8 =
        some dio →
      PrefixFrom message dio.prefixInfo.length dio.prefixInfo.prefixAddr

/-- The base object and the options end in the message, and the message is
dropped or its last prefix information fits. -/
def DioFits (message : RplMessage) : Prop :=
  let visited := dioVisited message.buffer message.bufferLength 24
  24 ≤ message.length.toNat ∧
    (∀ i ∈ visited, DioOptionInside message.buffer message.bufferLength
      message.length.toNat i) ∧
    ((∃ i ∈ visited, DioOptionRefused message.buffer
        message.bufferLength i) ∨
      ∀ i, lastOption message.buffer optionPrefixInfo visited = some i →
        PrefixInfoFits message.buffer i)

theorem dioHandled_iff (config : RplConfig) (message : RplMessage) :
    DioHandled config message ↔ DioFits message := by
  have below := bufferLength_le message
  obtain ⟨drops, keeps⟩ := dioOptions_spec message.buffer
    message.bufferLength 24 (dioBase config message.buffer)
  unfold DioHandled DioFits
  dsimp only
  rw [dioReads_inside_iff, and_assoc]
  refine and_congr_right fun _ => and_congr_right fun _ => ?_
  cases isInput : dioInput config message.buffer message.length.toUInt8 with
  | none =>
      exact iff_of_true nofun (Or.inl (drops.mp isInput))
  | some dio =>
      have accepted : ¬ ∃ i ∈ dioVisited message.buffer
          message.bufferLength 24, DioOptionRefused message.buffer
            message.bufferLength i := by
        rw [← drops]
        intro isNone
        exact nomatch isInput.symm.trans isNone
      have kept := keeps dio isInput
      rw [or_iff_right accepted]
      simp only [Option.some.injEq, forall_eq']
      rw [kept]
      cases isLast : lastOption message.buffer optionPrefixInfo
          (dioVisited message.buffer message.bufferLength 24) with
      | none =>
          exact iff_of_true (prefixFrom_zero message) nofun
      | some i =>
          obtain ⟨visited, isInfo⟩ := mem_of_lastOption isLast
          have notRefused : ¬ DioOptionRefused message.buffer
              message.bufferLength i := fun refused =>
            accepted ⟨i, visited, refused⟩
          unfold DioOptionRefused at notRefused
          simp only [not_or, not_and, ne_eq, not_not] at notRefused
          have length := notRefused.2.2.2.2 isInfo
          have ends := notRefused.1
          simp only [Option.some.injEq, forall_eq']
          exact prefixFrom_prefixInfoAt_iff (by omega)

end Contiki.Rpl
