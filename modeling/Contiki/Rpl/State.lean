import Contiki.Lib.Pool

/-!
# The state of RPL

The data of `rpl.h` and `rpl-private.h`, and of the neighbour table below
it.  The tables of the neighbour table share one index, so a parent and a
neighbour are the index of their entry; a DAG is its place in `dag_table`.
What RPL asks of other modules, and the arithmetic that depends on received
values, is recorded.
-/

namespace Contiki.Rpl

open Contiki.Lib

abbrev IpAddr := Vector UInt8 16

abbrev Lladdr := Vector UInt8 8

/-- `rpl_mrhof` and `rpl_of0`. -/
inductive ObjectiveFunction where
  | mrhof
  | of0
  deriving DecidableEq

/-- `ocp` -/
def ObjectiveFunction.ocp : ObjectiveFunction → UInt16
  | .mrhof => 1
  | .of0 => 0

/-- `RPL_DAG_MC_NONE`, `RPL_DAG_MC_ETX` and `RPL_DAG_MC_ENERGY`. -/
inductive MetricType where
  | none
  | etx
  | energy
  deriving DecidableEq

def MetricType.toByte : MetricType → UInt8
  | .none => 0
  | .etx => 7
  | .energy => 2

/-- `rpl-conf.h`, and the sizes of the tables. -/
structure RplConfig where
  maxInstances : Nat
  maxDagPerInstance : Nat
  nbrTableMaxNeighbors : Nat
  ds6DefrtNb : Nat
  of : ObjectiveFunction
  dagMc : MetricType
  minHoprankinc : UInt16
  initLinkMetric : UInt16
  dioIntervalMin : UInt8
  dioIntervalDoublings : UInt8
  dioRedundancy : UInt8
  defaultLifetime : UInt8
  defaultLifetimeUnit : UInt16
  mopDefault : UInt8
  grounded : Bool
  preference : UInt8
  multicast : Bool
  leafOnly : Bool
  /-- The width of an `unsigned int`. -/
  uintBits : Nat
  /-- The width of an `unsigned long`, at least 32 in C. -/
  ulongBits : Nat
  ulongBits_ge : 32 ≤ ulongBits

/-- The defaults on a 32-bit platform with four neighbours. -/
def RplConfig.rplConf : RplConfig where
  maxInstances := 1
  maxDagPerInstance := 2
  nbrTableMaxNeighbors := 4
  ds6DefrtNb := 2
  of := .mrhof
  dagMc := .none
  minHoprankinc := 256
  initLinkMetric := 2
  dioIntervalMin := 12
  dioIntervalDoublings := 8
  dioRedundancy := 10
  defaultLifetime := 0xff
  defaultLifetimeUnit := 0xffff
  mopDefault := 2
  grounded := false
  preference := 0
  multicast := false
  leafOnly := false
  uintBits := 32
  ulongBits := 32
  ulongBits_ge := le_refl 32

theorem first_lt_one : 0 < 1 := Nat.one_pos

theorem first_lt_two : 0 < 2 := Nat.two_pos

theorem first_lt_four : 0 < 4 := Nat.succ_pos 3

theorem second_lt_four : 1 < 4 := Nat.one_lt_succ_succ 2

/-- `RPL_MAX_RANKINC` -/
def RplConfig.maxRankinc (config : RplConfig) : UInt16 :=
  7 * config.minHoprankinc

/-- `RPL_DAG_MC_ETX_DIVISOR` -/
def dagMcEtxDivisor : UInt16 := 256

def infiniteRank : UInt16 := 0xffff

/-- `UIP_ND6_RA_FLAG_AUTONOMOUS` -/
def raFlagAutonomous : UInt8 := 0x40

/-- `RPL_LOLLIPOP_INIT` -/
def lollipopInit : UInt8 := 240

/-- `RPL_LOLLIPOP_INCREMENT` -/
def lollipopIncrement (counter : UInt8) : UInt8 :=
  if counter > 127 then (counter + 1) &&& 255 else (counter + 1) &&& 127

/-- `lollipop_greater_than` -/
def lollipopGreaterThan (a b : UInt8) : Bool :=
  let a := a.toNat
  let b := b.toNat
  if a > 127 ∧ b ≤ 127 then 255 + 1 + b - a > 16
  else (a > b ∧ a - b < 16) ∨ (a < b ∧ b - a > 127 + 1 - 16)

/-- `union metric_object`: the fields of `energy`, or the bytes of `etx` on
a little-endian platform. -/
structure MetricObject where
  energyFlags : UInt8
  energyEst : UInt8
  deriving DecidableEq

def MetricObject.etx (object : MetricObject) : UInt16 :=
  object.energyFlags.toUInt16 ||| object.energyEst.toUInt16 <<< 8

def MetricObject.ofEtx (etx : UInt16) : MetricObject where
  energyFlags := etx.toUInt8
  energyEst := (etx >>> 8).toUInt8

/-- `rpl_metric_container_t` -/
structure MetricContainer where
  type : UInt8
  flags : UInt8
  aggr : UInt8
  prec : UInt8
  length : UInt8
  obj : MetricObject
  deriving DecidableEq

def MetricContainer.zero : MetricContainer where
  type := 0
  flags := 0
  aggr := 0
  prec := 0
  length := 0
  obj := { energyFlags := 0, energyEst := 0 }

/-- `rpl_prefix_t` -/
structure Prefix where
  prefixAddr : IpAddr
  lifetime : UInt32
  length : UInt8
  flags : UInt8
  deriving DecidableEq

def Prefix.zero : Prefix where
  prefixAddr := Vector.replicate 16 0
  lifetime := 0
  length := 0
  flags := 0

/-- `rpl_dio_t` -/
structure Dio where
  dagId : IpAddr
  ocp : UInt16
  rank : UInt16
  grounded : UInt8
  mop : UInt8
  preference : UInt8
  version : UInt8
  instanceId : UInt8
  dtsn : UInt8
  dagIntdoubl : UInt8
  dagIntmin : UInt8
  dagRedund : UInt8
  defaultLifetime : UInt8
  lifetimeUnit : UInt16
  dagMaxRankinc : UInt16
  dagMinHoprankinc : UInt16
  destinationPrefix : Prefix
  prefixInfo : Prefix
  mc : MetricContainer
  deriving DecidableEq

/-- A pointer to a DAG: an instance and the place in its `dag_table`. -/
structure DagRef (config : RplConfig) where
  inst : Fin config.maxInstances
  index : Fin config.maxDagPerInstance
  deriving DecidableEq

variable {config : RplConfig}

/-- `rpl_parent_t` -/
structure Parent (config : RplConfig) where
  dag : DagRef config
  mc : MetricContainer
  rank : UInt16
  dtsn : UInt8
  updated : Bool
  linkMetricValid : Bool

/-- `rpl_dag_t`; `root` is set by `rpl_set_root` only, and not in the
source. -/
structure Dag (config : RplConfig) where
  dagId : IpAddr
  minRank : UInt16
  version : UInt8
  grounded : UInt8
  preference : UInt8
  used : Bool
  joined : Bool
  preferredParent : Option (Fin config.nbrTableMaxNeighbors)
  rank : UInt16
  /-- The pointer to the instance has been set. -/
  inInstance : Bool
  prefixInfo : Prefix
  root : Bool

def Dag.zero : Dag config where
  dagId := Vector.replicate 16 0
  minRank := 0
  version := 0
  grounded := 0
  preference := 0
  used := false
  joined := false
  preferredParent := none
  rank := 0
  inInstance := false
  prefixInfo := .zero
  root := false

/-- `rpl_instance_t` without its `dag_table`. -/
structure Instance (config : RplConfig) where
  mc : MetricContainer
  of : Option ObjectiveFunction
  currentDag : Option (Fin config.maxDagPerInstance)
  defRoute : Option (Fin config.ds6DefrtNb)
  instanceId : UInt8
  used : Bool
  dtsnOut : UInt8
  mop : UInt8
  dioIntdoubl : UInt8
  dioIntmin : UInt8
  dioRedundancy : UInt8
  defaultLifetime : UInt8
  dioIntcurrent : UInt8
  dioSend : Bool
  dioCounter : UInt8
  /-- `dio_timer` is set. -/
  dioTimer : Bool
  maxRankinc : UInt16
  minHoprankinc : UInt16
  lifetimeUnit : UInt16

def Instance.zero : Instance config where
  mc := .zero
  of := none
  currentDag := none
  defRoute := none
  instanceId := 0
  used := false
  dtsnOut := 0
  mop := 0
  dioIntdoubl := 0
  dioIntmin := 0
  dioRedundancy := 0
  defaultLifetime := 0
  dioIntcurrent := 0
  dioSend := false
  dioCounter := 0
  dioTimer := false
  maxRankinc := 0
  minHoprankinc := 0
  lifetimeUnit := 0

/-- `uip_ds6_nbr_t` -/
structure Neighbor where
  ipaddr : IpAddr
  linkMetric : UInt16

/-- What RPL asks of other modules, and what it computes from received
values. -/
inductive Event (config : RplConfig) where
  /-- `dao_output` -/
  | daoOutput (parent : Fin config.nbrTableMaxNeighbors) (lifetime : UInt8)
  /-- `rpl_schedule_dao` -/
  | scheduleDao (inst : Fin config.maxInstances)
  /-- `rpl_remove_routes` -/
  | removeRoutes (dag : DagRef config)
  /-- `rpl_remove_routes_by_nexthop` -/
  | removeRoutesByNexthop (parent : Fin config.nbrTableMaxNeighbors)
      (dag : DagRef config)
  /-- `check_prefix` -/
  | checkPrefix (last new : Option Prefix)
  /-- `DAG_RANK` with this divisor. -/
  | dagRank (divisor : UInt16)
  /-- `1UL << dio_intcurrent` -/
  | dioInterval (exponent : UInt8)
  /-- `acceptable_rank`, with the fields that it reads. -/
  | acceptableRank (rank minRank maxRankinc minHoprankinc : UInt16)
      (acceptable : Bool)
  /-- `calculate_rank` for a parent with this rank. -/
  | calculateRank (parentRank rank : UInt16)

/-- The static variables of RPL, the neighbour table and the default
routers. -/
structure State (config : RplConfig) where
  instanceTable : Fin config.maxInstances → Instance config
  dagTable : DagRef config → Dag config
  defaultInstance : Option (Fin config.maxInstances)
  /-- The neighbours in the order in which they were added. -/
  nbrTableKeys : List (Fin config.nbrTableMaxNeighbors)
  lladdr : Fin config.nbrTableMaxNeighbors → Lladdr
  ds6Neighbors : Fin config.nbrTableMaxNeighbors → Option Neighbor
  rplParents : Fin config.nbrTableMaxNeighbors → Option (Parent config)
  /-- The neighbours that `rpl_parents` locks. -/
  locked : Fin config.nbrTableMaxNeighbors → Bool
  defaultRouters : Pool config.ds6DefrtNb IpAddr
  log : List (Event config)

namespace State

def note (state : State config) (event : Event config) : State config :=
  { state with log := state.log ++ [event] }

def noteAll (state : State config) (events : List (Event config)) :
    State config :=
  { state with log := state.log ++ events }

def modifyDag (state : State config) (ref : DagRef config)
    (change : Dag config → Dag config) : State config :=
  { state with dagTable :=
      Function.update state.dagTable ref (change (state.dagTable ref)) }

def modifyInstance (state : State config) (inst : Fin config.maxInstances)
    (change : Instance config → Instance config) : State config :=
  { state with
    instanceTable := Function.update state.instanceTable inst
      (change (state.instanceTable inst)) }

/-- Write to an entry of `rpl_parents`. -/
def setParent (state : State config)
    (parent : Fin config.nbrTableMaxNeighbors)
    (entry : Option (Parent config)) : State config :=
  { state with rplParents :=
      Function.update state.rplParents parent entry }

/-- Write to the link metric of a neighbour. -/
def setLinkMetric (state : State config)
    (neighbor : Fin config.nbrTableMaxNeighbors) (linkMetric : UInt16) :
    State config :=
  { state with
    ds6Neighbors := Function.update state.ds6Neighbors neighbor
      ((state.ds6Neighbors neighbor).map fun nbr =>
        { nbr with linkMetric := linkMetric }) }

/-- `nbr_table_lock` and `nbr_table_unlock` for `rpl_parents`. -/
def setLock (state : State config)
    (parent : Option (Fin config.nbrTableMaxNeighbors)) (locked : Bool) :
    State config :=
  match parent with
  | some parent =>
      { state with locked :=
          Function.update state.locked parent locked }
  | none => state

/-- `index_from_lladdr` -/
def indexFromLladdr (state : State config) (lladdr : Lladdr) :
    Option (Fin config.nbrTableMaxNeighbors) :=
  state.nbrTableKeys.find? fun key => state.lladdr key = lladdr

/-- `uip_ds6_nbr_lookup` -/
def uipDs6NbrLookup (state : State config) (ipaddr : IpAddr) :
    Option (Fin config.nbrTableMaxNeighbors) :=
  state.nbrTableKeys.find? fun key =>
    (state.ds6Neighbors key).any fun nbr => nbr.ipaddr = ipaddr

/-- The places of a `dag_table`. -/
def dagRefs (inst : Fin config.maxInstances) : List (DagRef config) :=
  (List.finRange config.maxDagPerInstance).map fun index =>
    { inst := inst, index := index }

/-- `current_dag` -/
def currentDag (state : State config) (inst : Fin config.maxInstances) :
    Option (DagRef config) :=
  (state.instanceTable inst).currentDag.map fun index =>
    { inst := inst, index := index }

/-- `ROOT_RANK` -/
def rootRank (state : State config) (inst : Fin config.maxInstances) :
    UInt16 :=
  (state.instanceTable inst).minHoprankinc

def initial : State config where
  instanceTable := fun _ => .zero
  dagTable := fun _ => .zero
  defaultInstance := none
  nbrTableKeys := []
  lladdr := fun _ => Vector.replicate 8 0
  ds6Neighbors := fun _ => none
  rplParents := fun _ => none
  locked := fun _ => false
  defaultRouters :=
    { slots := fun _ => Vector.replicate 16 0
      used := fun _ => false
      list := [] }
  log := []

end State

end Contiki.Rpl
