import Contiki.Lib.ByteMem
import Contiki.Rpl.Dag

/-!
# DIO messages

`dio_input` and `dio_output` of `rpl-icmp6.c`: a base object, and options
with a type and a length.
-/

namespace Contiki.Rpl

open Contiki.Lib

variable {config : RplConfig}

/-- `get16` -/
def get16 (buffer : ByteMem) (pos : Nat) : UInt16 :=
  (buffer pos).toUInt16 <<< 8 ||| (buffer (pos + 1)).toUInt16

/-- `get32` -/
def get32 (buffer : ByteMem) (pos : Nat) : UInt32 :=
  (buffer pos).toUInt32 <<< 24 ||| (buffer (pos + 1)).toUInt32 <<< 16 |||
    (buffer (pos + 2)).toUInt32 <<< 8 ||| (buffer (pos + 3)).toUInt32

/-- `set16` -/
def set16 (value : UInt16) : List UInt8 :=
  [(value >>> 8).toUInt8, value.toUInt8]

/-- `set32` -/
def set32 (value : UInt32) : List UInt8 :=
  [(value >>> 24).toUInt8, (value >>> 16).toUInt8, (value >>> 8).toUInt8,
    value.toUInt8]

def getAddr (buffer : ByteMem) (pos : Nat) : IpAddr :=
  Vector.ofFn fun index => buffer (pos + index.val)

/-- `RPL_OPTION_PAD1` -/
def optionPad1 : UInt8 := 0
/-- `RPL_OPTION_DAG_METRIC_CONTAINER` -/
def optionDagMetricContainer : UInt8 := 2
/-- `RPL_OPTION_ROUTE_INFO` -/
def optionRouteInfo : UInt8 := 3
/-- `RPL_OPTION_DAG_CONF` -/
def optionDagConf : UInt8 := 4
/-- `RPL_OPTION_PREFIX_INFO` -/
def optionPrefixInfo : UInt8 := 8

/-! ## Input -/

/-- The DIO before the message is read: zeros, and the defaults in case the
configuration option is missing. -/
def dioDefaults (config : RplConfig) : Dio where
  dagId := Vector.replicate 16 0
  ocp := config.of.ocp
  rank := 0
  grounded := 0
  mop := 0
  preference := 0
  version := 0
  instanceId := 0
  dtsn := 0
  dagIntdoubl := config.dioIntervalDoublings
  dagIntmin := config.dioIntervalMin
  dagRedund := config.dioRedundancy
  defaultLifetime := config.defaultLifetime
  lifetimeUnit := config.defaultLifetimeUnit
  dagMaxRankinc := config.maxRankinc
  dagMinHoprankinc := config.minHoprankinc
  destinationPrefix := .zero
  prefixInfo := .zero
  mc := .zero

def dioBase (config : RplConfig) (buffer : ByteMem) : Dio :=
  { dioDefaults config with
    instanceId := buffer 0
    version := buffer 1
    rank := get16 buffer 2
    grounded := buffer 4 &&& 0x80
    mop := (buffer 4 &&& 0x3c) >>> 3
    preference := buffer 4 &&& 0x07
    dtsn := buffer 5
    dagId := getAddr buffer 8 }

/-- The metric container option at `i`. -/
def dagMetricContainer (buffer : ByteMem) (i len : Nat) (dio : Dio) :
    Option Dio :=
  if len < 6 then none
  else
    let mc : MetricContainer := { dio.mc with
      type := buffer (i + 2)
      flags := buffer (i + 3) <<< 1 ||| buffer (i + 4) >>> 7
      aggr := buffer (i + 4) >>> 4 &&& 0x3
      prec := buffer (i + 4) &&& 0xf
      length := buffer (i + 5) }
    if mc.type = MetricType.none.toByte then some { dio with mc := mc }
    else if mc.type = MetricType.etx.toByte then
      some { dio with
        mc := { mc with obj := .ofEtx (get16 buffer (i + 6)) } }
    else if mc.type = MetricType.energy.toByte then
      some { dio with
        mc := { mc with
          obj :=
            { energyFlags := buffer (i + 6)
              energyEst := buffer (i + 7) } } }
    else none

theorem index_lt (index : Fin 16) : index.val < 16 := index.isLt

/-- The route information option at `i`. -/
def routeInfo (buffer : ByteMem) (i len : Nat) (dio : Dio) : Option Dio :=
  if len < 9 then none
  else
    let length := buffer (i + 2)
    let bytes := (length.toNat + 7) / 8
    if bytes + 8 ≤ len ∧ length.toNat ≤ 128 then
      some { dio with
        destinationPrefix :=
          { length := length
            flags := buffer (i + 3)
            lifetime := get32 buffer (i + 4)
            prefixAddr := Vector.ofFn fun index : Fin 16 =>
              if index.val < bytes then buffer (i + 8 + index.val)
              else getElem dio.destinationPrefix.prefixAddr index
                (index_lt index) } }
    else none

/-- The DAG configuration option at `i`. -/
def dagConf (buffer : ByteMem) (i len : Nat) (dio : Dio) : Option Dio :=
  if len ≠ 16 then none
  else
    some { dio with
      dagIntdoubl := buffer (i + 3)
      dagIntmin := buffer (i + 4)
      dagRedund := buffer (i + 5)
      dagMaxRankinc := get16 buffer (i + 6)
      dagMinHoprankinc := get16 buffer (i + 8)
      ocp := get16 buffer (i + 10)
      defaultLifetime := buffer (i + 13)
      lifetimeUnit := get16 buffer (i + 14) }

/-- The prefix information option at `i`. -/
def prefixInfo (buffer : ByteMem) (i len : Nat) (dio : Dio) : Option Dio :=
  if len ≠ 32 then none
  else
    some { dio with
      prefixInfo :=
        { length := buffer (i + 2)
          flags := buffer (i + 3)
          lifetime := get32 buffer (i + 8)
          prefixAddr := getAddr buffer (i + 16) } }

/-- The length of the option at `i`. -/
def optionLen (buffer : ByteMem) (i : Nat) : Nat :=
  if buffer i = optionPad1 then 1 else 2 + (buffer (i + 1)).toNat

/-- The option at `i`; without a result the message is dropped. -/
def dioOption (buffer : ByteMem) (bufferLength i : Nat) (dio : Dio) :
    Option Dio :=
  let len := optionLen buffer i
  if len + i > bufferLength then none
  else if buffer i = optionDagMetricContainer then
    dagMetricContainer buffer i len dio
  else if buffer i = optionRouteInfo then routeInfo buffer i len dio
  else if buffer i = optionDagConf then dagConf buffer i len dio
  else if buffer i = optionPrefixInfo then prefixInfo buffer i len dio
  else some dio

theorem optionLen_pos (buffer : ByteMem) (i : Nat) :
    0 < optionLen buffer i := by
  unfold optionLen
  split <;> omega

def dioOptions (buffer : ByteMem) (bufferLength i : Nat) (dio : Dio) :
    Option Dio :=
  if i < bufferLength then
    match dioOption buffer bufferLength i dio with
    | none => none
    | some dio =>
        dioOptions buffer bufferLength (i + optionLen buffer i) dio
  else some dio
termination_by bufferLength - i
decreasing_by
  have := optionLen_pos buffer i
  omega

/-- The DIO that `dio_input` passes to `rpl_process_dio`. -/
def dioInput (config : RplConfig) (buffer : ByteMem)
    (bufferLength : UInt8) : Option Dio :=
  dioOptions buffer bufferLength.toNat 24 (dioBase config buffer)

/-! ## Output -/

def baseBytes (inst : Instance config) (dag : Dag config) : List UInt8 :=
  [inst.instanceId, dag.version] ++
    set16 (if config.leafOnly then infiniteRank else dag.rank) ++
    [(if dag.grounded ≠ 0 then (0x80 : UInt8) else 0) ||| inst.mop <<< 3 |||
        dag.preference &&& 0x07,
      inst.dtsnOut, 0, 0] ++
    dag.dagId.toList

/-- The metric container option; without a result the type is not
handled. -/
def metricContainerBytes (mc : MetricContainer) : Option (List UInt8) :=
  let header := [optionDagMetricContainer, 6, mc.type, mc.flags >>> 1,
    (mc.flags &&& 1) <<< 7 ||| (mc.aggr <<< 4 ||| mc.prec)]
  if mc.type = MetricType.etx.toByte then
    some (header ++ [2] ++ set16 mc.obj.etx)
  else if mc.type = MetricType.energy.toByte then
    some (header ++ [2] ++ [mc.obj.energyFlags, mc.obj.energyEst])
  else none

def dagConfBytes (inst : Instance config) : List UInt8 :=
  [optionDagConf, 14, 0, inst.dioIntdoubl, inst.dioIntmin,
    inst.dioRedundancy] ++ set16 inst.maxRankinc ++
    set16 inst.minHoprankinc ++
    set16 ((inst.of.map ObjectiveFunction.ocp).getD 0) ++
    [0, inst.defaultLifetime] ++ set16 inst.lifetimeUnit

def prefixInfoBytes (prefixInfo : Prefix) : List UInt8 :=
  if prefixInfo.length > 0 then
    [optionPrefixInfo, 30, prefixInfo.length, prefixInfo.flags] ++
      set32 prefixInfo.lifetime ++ set32 prefixInfo.lifetime ++
      [0, 0, 0, 0] ++ prefixInfo.prefixAddr.toList
  else []

namespace State

def sendsMetricContainer (state : State config)
    (inst : Fin config.maxInstances) : Bool :=
  ¬ config.leafOnly ∧
    (state.instanceTable inst).mc.type ≠ MetricType.none.toByte

/-- What `dio_output` does to the instance. -/
def afterDioOutput (state : State config)
    (inst : Fin config.maxInstances) : State config :=
  let state := state.incrementDtsn inst
  if state.sendsMetricContainer inst then state.updateMetricContainer inst
  else state

/-- The message of `dio_output` for the current DAG of an instance. -/
def dioOutput (state : State config) (inst : Fin config.maxInstances) :
    Option (List UInt8) :=
  match state.currentDag inst with
  | none => none
  | some current =>
      let dag := state.dagTable current
      let after := (state.afterDioOutput inst).instanceTable inst
      let metricContainer :=
        if state.sendsMetricContainer inst then
          metricContainerBytes after.mc
        else some []
      metricContainer.map fun metricContainer =>
        baseBytes (state.instanceTable inst) dag ++ metricContainer ++
          dagConfBytes after ++ prefixInfoBytes dag.prefixInfo

end State

end Contiki.Rpl
