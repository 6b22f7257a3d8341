import Contiki.Lib.Bits
import Contiki.Rpl.Dio

/-!
# The DIO round trip

What `dio_input` reads from the message of `dio_output` are the values that
the node announces.
-/

namespace Contiki.Rpl

open Contiki.Lib

variable {config : RplConfig} {buffer : ByteMem}

/-! ## Words -/

theorem word16_bytes (value : UInt16) :
    (value >>> 8).toUInt8.toUInt16 <<< 8 ||| value.toUInt8.toUInt16 =
      value := by
  apply UInt16.toNat_inj.mp
  have bound := value.toNat_lt
  have eight : UInt16.toNat 8 % 16 = 8 := rfl
  simp only [UInt16.toNat_or, UInt16.toNat_shiftLeft,
    UInt8.toNat_toUInt16, UInt16.toNat_toUInt8, UInt16.toNat_shiftRight,
    eight, Nat.shiftLeft_eq, Nat.shiftRight_eq_div_pow]
  rw [@or_eq_add 8 _ _ (by omega) (by omega)]
  omega

private theorem nat_bytes {n : Nat} (bound : n < 2 ^ 32) :
    n / 2 ^ 24 % 2 ^ 8 * 2 ^ 24 % 2 ^ 32 |||
        n / 2 ^ 16 % 2 ^ 8 * 2 ^ 16 % 2 ^ 32 |||
        n / 2 ^ 8 % 2 ^ 8 * 2 ^ 8 % 2 ^ 32 ||| n % 2 ^ 8 = n := by
  have first := @or_eq_add 24 (n / 2 ^ 24 % 2 ^ 8 * 2 ^ 24 % 2 ^ 32)
    (n / 2 ^ 16 % 2 ^ 8 * 2 ^ 16 % 2 ^ 32) (by omega) (by omega)
  have second := @or_eq_add 16
    (n / 2 ^ 24 % 2 ^ 8 * 2 ^ 24 % 2 ^ 32 +
      n / 2 ^ 16 % 2 ^ 8 * 2 ^ 16 % 2 ^ 32)
    (n / 2 ^ 8 % 2 ^ 8 * 2 ^ 8 % 2 ^ 32) (by omega) (by omega)
  rw [first, second, @or_eq_add 8 _ _ (by omega) (by omega)]
  omega

theorem word32_bytes (value : UInt32) :
    (value >>> 24).toUInt8.toUInt32 <<< 24 |||
        (value >>> 16).toUInt8.toUInt32 <<< 16 |||
        (value >>> 8).toUInt8.toUInt32 <<< 8 |||
        value.toUInt8.toUInt32 = value := by
  apply UInt32.toNat_inj.mp
  have eight : UInt32.toNat 8 % 32 = 8 := rfl
  have sixteen : UInt32.toNat 16 % 32 = 16 := rfl
  have twentyFour : UInt32.toNat 24 % 32 = 24 := rfl
  simp only [UInt32.toNat_or, UInt32.toNat_shiftLeft,
    UInt8.toNat_toUInt32, UInt32.toNat_toUInt8, UInt32.toNat_shiftRight,
    eight, sixteen, twentyFour, Nat.shiftLeft_eq,
    Nat.shiftRight_eq_div_pow]
  exact nat_bytes value.toNat_lt

/-- `get16` reads what `set16` wrote. -/
theorem get16_of_holds {pos : Nat} {value : UInt16}
    (holds : buffer.Holds pos (set16 value)) : get16 buffer pos = value := by
  have high := holds.apply 0 (by simp [set16])
  have low := holds.apply 1 (by simp [set16])
  rw [Nat.add_zero] at high
  rw [get16, high, low]
  exact word16_bytes value

/-- `get32` reads what `set32` wrote. -/
theorem get32_of_holds {pos : Nat} {value : UInt32}
    (holds : buffer.Holds pos (set32 value)) : get32 buffer pos = value := by
  have first := holds.apply 0 (by simp [set32])
  have second := holds.apply 1 (by simp [set32])
  have third := holds.apply 2 (by simp [set32])
  have fourth := holds.apply 3 (by simp [set32])
  rw [Nat.add_zero] at first
  rw [get32, first, second, third, fourth]
  exact word32_bytes value

theorem getAddr_of_holds {pos : Nat} {addr : IpAddr}
    (holds : buffer.Holds pos addr.toList) : getAddr buffer pos = addr := by
  apply Vector.ext
  intro index bound
  have read := holds.apply index (by simpa using bound)
  simpa [getAddr] using read

theorem MetricObject.ofEtx_etx (object : MetricObject) :
    MetricObject.ofEtx object.etx = object := by
  obtain ⟨low, high⟩ := object
  have eight : UInt16.toNat 8 % 16 = 8 := rfl
  have value : (MetricObject.etx ⟨low, high⟩).toNat =
      high.toNat * 256 + low.toNat := by
    have lowBound := low.toNat_lt
    have highBound := high.toNat_lt
    simp only [MetricObject.etx, UInt16.toNat_or, UInt8.toNat_toUInt16,
      UInt16.toNat_shiftLeft, eight, Nat.shiftLeft_eq]
    rw [Nat.or_comm, @or_eq_add 8 _ _ (by omega) (by omega)]
    omega
  have lowBound := low.toNat_lt
  have highBound := high.toNat_lt
  simp only [MetricObject.ofEtx, MetricObject.mk.injEq]
  constructor
  · apply UInt8.toNat_inj.mp
    rw [UInt16.toNat_toUInt8, value]
    omega
  · apply UInt8.toNat_inj.mp
    rw [UInt16.toNat_toUInt8, UInt16.toNat_shiftRight, eight, value,
      Nat.shiftRight_eq_div_pow]
    omega

/-! ## Bit fields -/

private theorem flag_toNat (flags aggr prec : UInt8) (aggrBound : aggr < 4)
    (precBound : prec < 16) :
    ((flags &&& 1) <<< 7 ||| (aggr <<< 4 ||| prec)).toNat =
      flags.toNat % 2 * 128 + (aggr.toNat * 16 + prec.toNat) := by
  have aggrLt : aggr.toNat < 4 := aggrBound
  have precLt : prec.toNat < 16 := precBound
  have one : flags.toNat &&& UInt8.toNat 1 = flags.toNat % 2 :=
    Nat.and_two_pow_sub_one_eq_mod flags.toNat 1
  have four : UInt8.toNat 4 % 8 = 4 := rfl
  have seven : UInt8.toNat 7 % 8 = 7 := rfl
  simp only [UInt8.toNat_or, UInt8.toNat_shiftLeft, UInt8.toNat_and,
    Nat.shiftLeft_eq]
  rw [one, four, seven, @or_eq_add 4 _ prec.toNat (by omega) (by omega),
    @or_eq_add 7 _ _ (by omega) (by omega)]
  omega

/-- The flags, the aggregation and the precedence of a metric container in
two bytes. -/
theorem metric_bits {flags aggr prec : UInt8} (aggrBound : aggr < 4)
    (precBound : prec < 16) :
    let second := (flags &&& 1) <<< 7 ||| (aggr <<< 4 ||| prec)
    (flags >>> 1) <<< 1 ||| second >>> 7 = flags ∧
      second >>> 4 &&& 0x3 = aggr ∧ second &&& 0xf = prec := by
  have aggrLt : aggr.toNat < 4 := aggrBound
  have precLt : prec.toNat < 16 := precBound
  have flagsLt := flags.toNat_lt
  have value := flag_toNat flags aggr prec aggrBound precBound
  have one : UInt8.toNat 1 % 8 = 1 := rfl
  have four : UInt8.toNat 4 % 8 = 4 := rfl
  have seven : UInt8.toNat 7 % 8 = 7 := rfl
  refine ⟨?_, ?_, ?_⟩
  · apply UInt8.toNat_inj.mp
    rw [UInt8.toNat_or, UInt8.toNat_shiftLeft, UInt8.toNat_shiftRight,
      UInt8.toNat_shiftRight, one, seven, value, Nat.shiftLeft_eq,
      Nat.shiftRight_eq_div_pow, Nat.shiftRight_eq_div_pow,
      @or_eq_add 1 _ _ (by omega) (by omega)]
    omega
  · apply UInt8.toNat_inj.mp
    have mask : ∀ n : Nat, n &&& UInt8.toNat 0x3 = n % 4 := fun n =>
      Nat.and_two_pow_sub_one_eq_mod n 2
    rw [UInt8.toNat_and, UInt8.toNat_shiftRight, four, value, mask,
      Nat.shiftRight_eq_div_pow]
    omega
  · apply UInt8.toNat_inj.mp
    have mask : ∀ n : Nat, n &&& UInt8.toNat 0xf = n % 16 := fun n =>
      Nat.and_two_pow_sub_one_eq_mod n 4
    rw [UInt8.toNat_and, value, mask]
    omega

/-- The grounded flag, the mode of operation and the preference in a
byte. -/
theorem base_bits {grounded mop preference : UInt8}
    (mopBound : mop < 8) (preferenceBound : preference < 8) :
    let flags := (if grounded ≠ 0 then (0x80 : UInt8) else 0) |||
      mop <<< 3 ||| preference &&& 0x07
    flags &&& 0x80 = (if grounded ≠ 0 then 0x80 else 0) ∧
      (flags &&& 0x3c) >>> 3 = mop ∧ flags &&& 0x07 = preference := by
  have table : ∀ (bit : Bool) (m p : Fin 8),
      let flags := (if bit then (0x80 : UInt8) else 0) |||
        UInt8.ofNat m <<< 3 ||| UInt8.ofNat p &&& 0x07
      flags &&& 0x80 = (if bit then 0x80 else 0) ∧
        (flags &&& 0x3c) >>> 3 = UInt8.ofNat m ∧
        flags &&& 0x07 = UInt8.ofNat p := by
    decide
  have mopLt : mop.toNat < 8 := mopBound
  have preferenceLt : preference.toNat < 8 := preferenceBound
  have row := table (grounded ≠ 0) ⟨mop.toNat, mopLt⟩
    ⟨preference.toNat, preferenceLt⟩
  simpa only [UInt8.ofNat_toNat, decide_eq_true_eq] using row

/-! ## Options -/

theorem dioOptions_next {bufferLength i len : Nat} {dio next : Dio}
    (length : optionLen buffer i = len) (inside : i + len ≤ bufferLength)
    (option : dioOption buffer bufferLength i dio = some next) :
    dioOptions buffer bufferLength i dio =
      dioOptions buffer bufferLength (i + len) next := by
  have positive := optionLen_pos buffer i
  rw [dioOptions, if_pos (by omega), option, length]

variable {bufferLength i : Nat}

theorem dioOptions_end (dio : Dio) (past : bufferLength ≤ i) :
    dioOptions buffer bufferLength i dio = some dio := by
  rw [dioOptions, if_neg (by omega)]

/-- The fields of a metric container fit into the message. -/
structure MetricContainer.Encodable (mc : MetricContainer) : Prop where
  aggr : mc.aggr < 4
  prec : mc.prec < 16

variable {dio : Dio}

theorem dioOptions_metricContainer {mc : MetricContainer} {bytes : List UInt8}
    (encodable : mc.Encodable) (sent : metricContainerBytes mc = some bytes)
    (holds : buffer.Holds i bytes)
    (inside : i + bytes.length ≤ bufferLength) :
    bytes.length = 8 ∧
      dioOptions buffer bufferLength i dio =
        dioOptions buffer bufferLength (i + 8)
          { dio with mc := { mc with length := 2 } } := by
  obtain ⟨flags, aggr, prec⟩ := @metric_bits mc.flags mc.aggr mc.prec
    encodable.aggr encodable.prec
  have option : ∀ obj : MetricObject,
      mc.type = MetricType.etx.toByte ∧
          MetricObject.ofEtx (get16 buffer (i + 6)) = obj ∨
        mc.type = MetricType.energy.toByte ∧
          (⟨buffer (i + 6), buffer (i + 7)⟩ : MetricObject) = obj →
      mc.obj = obj → bytes.length = 8 →
      buffer.Holds i [optionDagMetricContainer, 6, mc.type,
        mc.flags >>> 1,
        (mc.flags &&& 1) <<< 7 ||| (mc.aggr <<< 4 ||| mc.prec), 2] →
      dioOptions buffer bufferLength i dio =
        dioOptions buffer bufferLength (i + 8)
          { dio with mc := { mc with length := 2 } } := by
    intro obj read same length header
    rw [length] at inside
    simp only [ByteMem.Holds, List.length_cons, List.length_nil,
      ByteMem.read_succ, ByteMem.read_zero, List.cons.injEq, and_true,
      Nat.add_assoc, Nat.reduceAdd] at header
    obtain ⟨option, len, type, high, low, size⟩ := header
    have optionLength : optionLen buffer i = 8 := by
      rw [optionLen, option, len]
      rfl
    refine dioOptions_next optionLength inside ?_
    rw [dioOption, optionLength, if_neg (by omega), if_pos option,
      dagMetricContainer, if_neg (by decide)]
    simp only [type, high, low, size, flags, aggr, prec]
    rcases read with ⟨etx, value⟩ | ⟨energy, value⟩
    · rw [if_neg (by rw [etx]; decide), if_pos etx, value, ← same]
    · rw [if_neg (by rw [energy]; decide), if_neg (by rw [energy]; decide),
        if_pos energy, value, ← same]
  unfold metricContainerBytes at sent
  split at sent
  · next etx =>
      cases sent
      obtain ⟨header, object⟩ := ByteMem.holds_append.mp holds
      refine ⟨rfl, option mc.obj (.inl ⟨etx, ?_⟩) rfl rfl header⟩
      rw [show get16 buffer (i + 6) = _ from get16_of_holds object]
      exact mc.obj.ofEtx_etx
  · split at sent
    · next energy =>
        cases sent
        obtain ⟨header, object⟩ := ByteMem.holds_append.mp holds
        refine ⟨rfl, option mc.obj (.inr ⟨energy, ?_⟩) rfl rfl header⟩
        rw [show buffer (i + 6) = _ from object.apply 0 (by simp),
          show buffer (i + 7) = _ from object.apply 1 (by simp)]
        rfl
    · exact absurd sent (by simp)

theorem dioOptions_dagConf
    {inst : Instance config} (holds : buffer.Holds i (dagConfBytes inst))
    (inside : i + 16 ≤ bufferLength) :
    dioOptions buffer bufferLength i dio =
      dioOptions buffer bufferLength (i + 16)
        { dio with
          dagIntdoubl := inst.dioIntdoubl
          dagIntmin := inst.dioIntmin
          dagRedund := inst.dioRedundancy
          dagMaxRankinc := inst.maxRankinc
          dagMinHoprankinc := inst.minHoprankinc
          ocp := (inst.of.map ObjectiveFunction.ocp).getD 0
          defaultLifetime := inst.defaultLifetime
          lifetimeUnit := inst.lifetimeUnit } := by
  obtain ⟨holds, lifetimeUnit⟩ := ByteMem.holds_append.mp holds
  obtain ⟨holds, defaultLifetime⟩ := ByteMem.holds_append.mp holds
  obtain ⟨holds, ocp⟩ := ByteMem.holds_append.mp holds
  obtain ⟨holds, minHoprankinc⟩ := ByteMem.holds_append.mp holds
  obtain ⟨header, maxRankinc⟩ := ByteMem.holds_append.mp holds
  have lifetime := defaultLifetime.apply 1 (by simp)
  simp only [ByteMem.Holds, List.length_cons, List.length_nil,
    ByteMem.read_succ, ByteMem.read_zero, List.cons.injEq, and_true,
    Nat.add_assoc, Nat.reduceAdd] at header
  obtain ⟨option, len, _, intdoubl, intmin, redund⟩ := header
  have optionLength : optionLen buffer i = 16 := by
    rw [optionLen, option, len]
    rfl
  refine dioOptions_next optionLength inside ?_
  rw [dioOption, optionLength, if_neg (by omega),
    if_neg (by rw [option]; decide), if_neg (by rw [option]; decide),
    if_pos option, dagConf, if_neg (by decide), intdoubl, intmin, redund]
  rw [show buffer (i + 13) = inst.defaultLifetime from lifetime]
  rw [show get16 buffer (i + 6) = _ from get16_of_holds maxRankinc,
    show get16 buffer (i + 8) = _ from get16_of_holds minHoprankinc,
    show get16 buffer (i + 10) = _ from get16_of_holds ocp,
    show get16 buffer (i + 14) = _ from get16_of_holds lifetimeUnit]

theorem dioOptions_prefixInfo {sent : Prefix} (announced : sent.length > 0)
    (holds : buffer.Holds i (prefixInfoBytes sent))
    (inside : i + 32 ≤ bufferLength) :
    dioOptions buffer bufferLength i dio =
      dioOptions buffer bufferLength (i + 32)
        { dio with prefixInfo := sent } := by
  rw [prefixInfoBytes, if_pos announced] at holds
  obtain ⟨holds, addr⟩ := ByteMem.holds_append.mp holds
  obtain ⟨holds, _⟩ := ByteMem.holds_append.mp holds
  obtain ⟨holds, lifetime⟩ := ByteMem.holds_append.mp holds
  obtain ⟨header, _⟩ := ByteMem.holds_append.mp holds
  simp only [ByteMem.Holds, List.length_cons, List.length_nil,
    ByteMem.read_succ, ByteMem.read_zero, List.cons.injEq, and_true,
    Nat.add_assoc, Nat.reduceAdd] at header
  obtain ⟨option, len, length, flags⟩ := header
  have optionLength : optionLen buffer i = 32 := by
    rw [optionLen, option, len]
    rfl
  refine dioOptions_next optionLength inside ?_
  rw [dioOption, optionLength, if_neg (by omega),
    if_neg (by rw [option]; decide), if_neg (by rw [option]; decide),
    if_neg (by rw [option]; decide), if_pos option, prefixInfo,
    if_neg (by decide), length, flags]
  rw [show get32 buffer (i + 8) = _ from get32_of_holds lifetime,
    show getAddr buffer (i + 16) = _ from getAddr_of_holds addr]

/-! ## Messages -/

namespace State

/-- The DIO that a node announces for a DAG. -/
def announced (state : State config) (inst : Fin config.maxInstances)
    (current : DagRef config) : Dio :=
  let entry := state.instanceTable inst
  let dag := state.dagTable current
  let after := (state.afterDioOutput inst).instanceTable inst
  { dagId := dag.dagId
    ocp := (after.of.map ObjectiveFunction.ocp).getD 0
    rank := if config.leafOnly then infiniteRank else dag.rank
    grounded := if dag.grounded ≠ 0 then 0x80 else 0
    mop := entry.mop
    preference := dag.preference
    version := dag.version
    instanceId := entry.instanceId
    dtsn := entry.dtsnOut
    dagIntdoubl := after.dioIntdoubl
    dagIntmin := after.dioIntmin
    dagRedund := after.dioRedundancy
    defaultLifetime := after.defaultLifetime
    lifetimeUnit := after.lifetimeUnit
    dagMaxRankinc := after.maxRankinc
    dagMinHoprankinc := after.minHoprankinc
    destinationPrefix := .zero
    prefixInfo := if dag.prefixInfo.length > 0 then dag.prefixInfo else .zero
    mc :=
      if state.sendsMetricContainer inst then
        { after.mc with length := 2 }
      else .zero }

/-- The values of the bit fields fit into the message. -/
structure Encodable (state : State config)
    (inst : Fin config.maxInstances) (current : DagRef config) : Prop where
  mop : (state.instanceTable inst).mop < 8
  preference : (state.dagTable current).preference < 8
  mc : state.sendsMetricContainer inst = true →
    ((state.afterDioOutput inst).instanceTable inst).mc.Encodable

end State

theorem dioBase_baseBytes {inst : Instance config} {dag : Dag config}
    (mopBound : inst.mop < 8) (preferenceBound : dag.preference < 8)
    (holds : buffer.Holds 0 (baseBytes inst dag)) :
    dioBase config buffer =
      { dioDefaults config with
        instanceId := inst.instanceId
        version := dag.version
        rank := if config.leafOnly then infiniteRank else dag.rank
        grounded := if dag.grounded ≠ 0 then 0x80 else 0
        mop := inst.mop
        preference := dag.preference
        dtsn := inst.dtsnOut
        dagId := dag.dagId } := by
  obtain ⟨grounded, mop, preference⟩ :=
    @base_bits dag.grounded inst.mop dag.preference mopBound preferenceBound
  obtain ⟨holds, dagId⟩ := ByteMem.holds_append.mp holds
  obtain ⟨holds, flags⟩ := ByteMem.holds_append.mp holds
  obtain ⟨header, rank⟩ := ByteMem.holds_append.mp holds
  rw [dioBase, show buffer 0 = _ from header.apply 0 (by simp),
    show buffer 1 = _ from header.apply 1 (by simp),
    show get16 buffer 2 = _ from get16_of_holds rank,
    show buffer 4 = _ from flags.apply 0 (by simp),
    show buffer 5 = _ from flags.apply 1 (by simp),
    show getAddr buffer 8 = _ from getAddr_of_holds dagId]
  simp only [List.getElem_cons_zero, List.getElem_cons_succ, grounded, mop,
    preference]

theorem length_baseBytes (inst : Instance config) (dag : Dag config) :
    (baseBytes inst dag).length = 24 := by
  simp [baseBytes, set16]

theorem length_dagConfBytes (inst : Instance config) :
    (dagConfBytes inst).length = 16 := by
  simp [dagConfBytes, set16]

theorem length_prefixInfoBytes {sent : Prefix}
    (announced : sent.length > 0) : (prefixInfoBytes sent).length = 32 := by
  simp [prefixInfoBytes, set32, announced]

theorem dioOptions_sendsMetricContainer
    {mc : MetricContainer} {bytes : List UInt8} {sends : Bool}
    (encodable : sends = true → mc.Encodable) (empty : dio.mc = .zero)
    (sent : (if sends then metricContainerBytes mc else some []) =
      some bytes)
    (holds : buffer.Holds i bytes)
    (inside : i + bytes.length ≤ bufferLength) :
    bytes.length ≤ 8 ∧
      dioOptions buffer bufferLength i dio =
        dioOptions buffer bufferLength (i + bytes.length)
          { dio with
            mc := if sends then { mc with length := 2 } else .zero } := by
  cases sends with
  | true =>
      obtain ⟨length, options⟩ := @dioOptions_metricContainer _ _ _ dio _ _
        (encodable rfl) sent holds inside
      rw [options, length]
      exact ⟨Nat.le_refl 8, rfl⟩
  | false =>
      cases sent
      refine ⟨Nat.zero_le 8, ?_⟩
      rw [if_neg Bool.false_ne_true, ← empty]
      rfl

theorem dioOptions_sendsPrefixInfo {i : Nat} {dio : Dio} {sent : Prefix}
    (empty : dio.prefixInfo = .zero)
    (holds : buffer.Holds i (prefixInfoBytes sent)) :
    dioOptions buffer (i + (prefixInfoBytes sent).length) i dio =
      some { dio with
        prefixInfo := if sent.length > 0 then sent else .zero } := by
  by_cases announced : sent.length > 0
  · rw [length_prefixInfoBytes announced,
      dioOptions_prefixInfo announced holds (Nat.le_refl _),
      dioOptions_end _ (Nat.le_refl _), if_pos announced]
  · have none : prefixInfoBytes sent = [] := if_neg announced
    rw [none, List.length_nil, Nat.add_zero,
      dioOptions_end _ (Nat.le_refl _), if_neg announced, ← empty]

theorem length_prefixInfoBytes_le (sent : Prefix) :
    (prefixInfoBytes sent).length ≤ 32 := by
  by_cases announced : sent.length > 0
  · exact Nat.le_of_eq (length_prefixInfoBytes announced)
  · have none : prefixInfoBytes sent = [] := if_neg announced
    rw [none]
    exact Nat.zero_le 32

/-- `dio_input` recovers what the node announces from the message of
`dio_output`. -/
theorem dioInput_dioOutput {state : State config}
    {inst : Fin config.maxInstances} {current : DagRef config}
    {bytes : List UInt8} (isCurrent : state.currentDag inst = some current)
    (encodable : state.Encodable inst current)
    (sent : state.dioOutput inst = some bytes)
    (holds : buffer.Holds 0 bytes) :
    dioInput config buffer (UInt8.ofNat bytes.length) =
      some (state.announced inst current) := by
  unfold State.dioOutput at sent
  rw [isCurrent] at sent
  obtain ⟨metricContainer, option, rfl⟩ := Option.map_eq_some_iff.mp sent
  obtain ⟨holds, prefixHolds⟩ := ByteMem.holds_append.mp holds
  obtain ⟨holds, confHolds⟩ := ByteMem.holds_append.mp holds
  obtain ⟨baseHolds, metricHolds⟩ := ByteMem.holds_append.mp holds
  have base := length_baseBytes (state.instanceTable inst)
    (state.dagTable current)
  have conf := length_dagConfBytes
    ((state.afterDioOutput inst).instanceTable inst)
  have prefixLength := length_prefixInfoBytes_le
    (state.dagTable current).prefixInfo
  simp only [List.length_append, base, conf, Nat.zero_add] at *
  obtain ⟨short, metric⟩ := @dioOptions_sendsMetricContainer buffer
    (24 + metricContainer.length + 16 +
      (prefixInfoBytes (state.dagTable current).prefixInfo).length) 24
    { dioDefaults config with
      instanceId := (state.instanceTable inst).instanceId
      version := (state.dagTable current).version
      rank := if config.leafOnly then infiniteRank
        else (state.dagTable current).rank
      grounded := if (state.dagTable current).grounded ≠ 0 then 0x80 else 0
      mop := (state.instanceTable inst).mop
      preference := (state.dagTable current).preference
      dtsn := (state.instanceTable inst).dtsnOut
      dagId := (state.dagTable current).dagId } _ _ _ encodable.mc rfl option
    metricHolds (by omega)
  rw [dioInput, UInt8.toNat_ofNat_of_lt' (by omega : _ < 256),
    dioBase_baseBytes encodable.mop encodable.preference baseHolds, metric,
    dioOptions_dagConf confHolds (by omega),
    dioOptions_sendsPrefixInfo rfl prefixHolds]
  rfl

def etxConf : RplConfig := { RplConfig.rplConf with dagMc := .etx }

def etxInstance : Fin etxConf.maxInstances := ⟨0, by decide⟩

def etxDag : DagRef etxConf := ⟨etxInstance, ⟨0, by decide⟩⟩

/-- A node of rank 512 that announces a prefix. -/
def etxNode : State etxConf :=
  (State.initial.modifyInstance etxInstance fun entry =>
    { entry with
      mc := { entry.mc with type := 7 }
      of := some .mrhof
      currentDag := some etxDag.index
      instanceId := 30
      used := true
      dtsnOut := 241
      mop := 2
      dioIntdoubl := 8
      dioIntmin := 12
      maxRankinc := 1792
      minHoprankinc := 256 }).modifyDag etxDag fun entry =>
    { entry with
      version := 240
      used := true
      joined := true
      rank := 512
      preference := 3
      prefixInfo := { entry.prefixInfo with length := 64, flags := 0x40 } }

def etxMessage : List UInt8 := (etxNode.dioOutput etxInstance).getD []

theorem dioInput_etxMessage :
    dioInput etxConf (ByteMem.ofList etxMessage)
        (UInt8.ofNat etxMessage.length) =
      some (etxNode.announced etxInstance etxDag) := by
  have encodable : etxNode.Encodable etxInstance etxDag :=
    ⟨by decide, by decide, fun _ => ⟨by decide, by decide⟩⟩
  exact dioInput_dioOutput (by decide) encodable (by decide +kernel)
    (ByteMem.read_ofList etxMessage)

end Contiki.Rpl
