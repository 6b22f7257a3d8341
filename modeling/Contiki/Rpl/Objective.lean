import Contiki.Rpl.State

/-!
# Objective functions

`rpl-mrhof.c` and `rpl-of0.c`.  One of them is linked into the system, so
`instance->of` is that one wherever it is called.
-/

namespace Contiki.Rpl

variable {config : RplConfig}

/-- `a < b + c` as an `int` expression. -/
def RplConfig.lessThanSum (config : RplConfig) (a b c : UInt16) : Bool :=
  if config.uintBits = 16 then a < b + c
  else a.toNat < b.toNat + c.toNat

/-- `a > b - c` as an `int` expression. -/
def RplConfig.greaterThanDifference (config : RplConfig)
    (a b c : UInt16) : Bool :=
  if config.uintBits = 16 then a > b - c
  else a.toNat + c.toNat > b.toNat

/-- The status of a transmission. -/
inductive MacTx where
  | ok
  | noAck
  | other
  deriving DecidableEq

namespace State

/-- `p->rank` -/
def parentRank (state : State config)
    (parent : Fin config.nbrTableMaxNeighbors) : UInt16 :=
  ((state.rplParents parent).map Parent.rank).getD 0

/-- `rpl_get_nbr`: the neighbour has the index of the parent. -/
def rplGetNbr (state : State config)
    (parent : Option (Fin config.nbrTableMaxNeighbors)) :
    Option Neighbor :=
  parent.bind state.ds6Neighbors

/-- `calculate_path_metric` of MRHOF. -/
def calculatePathMetric (state : State config)
    (parent : Option (Fin config.nbrTableMaxNeighbors)) : UInt16 :=
  match parent, state.rplGetNbr parent with
  | some parent, some nbr =>
      match state.rplParents parent, config.dagMc with
      | some entry, .none => entry.rank + nbr.linkMetric
      | some entry, .etx => entry.mc.obj.etx + nbr.linkMetric
      | some entry, .energy =>
          entry.mc.obj.energyEst.toUInt16 + nbr.linkMetric
      | none, _ => nbr.linkMetric
  | _, _ => 100 * dagMcEtxDivisor

/-- `calculate_rank` of MRHOF. -/
def mrhofCalculateRank (state : State config)
    (parent : Option (Fin config.nbrTableMaxNeighbors))
    (baseRank : UInt16) : UInt16 :=
  let sum : UInt16 → UInt16 → UInt16 := fun baseRank rankIncrease =>
    if infiniteRank - baseRank < rankIncrease then infiniteRank
    else baseRank + rankIncrease
  match parent, state.rplGetNbr parent with
  | some parent, some nbr =>
      sum (if baseRank = 0 then state.parentRank parent else baseRank)
        nbr.linkMetric
  | _, _ =>
      if baseRank = 0 then infiniteRank
      else sum baseRank (config.initLinkMetric * dagMcEtxDivisor)

/-- `calculate_rank` of OF0. -/
def of0CalculateRank (state : State config)
    (parent : Option (Fin config.nbrTableMaxNeighbors))
    (baseRank : UInt16) : UInt16 :=
  let sum : UInt16 → UInt16 → UInt16 := fun baseRank increment =>
    if baseRank + increment < baseRank then infiniteRank
    else baseRank + increment
  match parent with
  | none =>
      if baseRank = 0 then infiniteRank
      else sum baseRank config.minHoprankinc
  | some parent =>
      match state.rplParents parent with
      | some entry =>
          sum (if baseRank = 0 then entry.rank else baseRank)
            (state.instanceTable entry.dag.inst).minHoprankinc
      | none => infiniteRank

/-- `calculate_rank` -/
def calculateRank (state : State config)
    (parent : Option (Fin config.nbrTableMaxNeighbors))
    (baseRank : UInt16) : UInt16 :=
  match config.of with
  | .mrhof => state.mrhofCalculateRank parent baseRank
  | .of0 => state.of0CalculateRank parent baseRank

/-- Record the rank that is calculated for a parent. -/
def noteCalculateRank (state : State config)
    (parent : Option (Fin config.nbrTableMaxNeighbors)) : State config :=
  match parent with
  | some parent =>
      state.note (.calculateRank (state.parentRank parent)
        (state.calculateRank (some parent) 0))
  | none => state

/-- `best_dag` of MRHOF. -/
def mrhofBestDag (state : State config) (d1 d2 : DagRef config) :
    DagRef config :=
  let dag1 := state.dagTable d1
  let dag2 := state.dagTable d2
  if dag1.grounded ≠ dag2.grounded then
    if dag1.grounded ≠ 0 then d1 else d2
  else if dag1.preference ≠ dag2.preference then
    if dag1.preference > dag2.preference then d1 else d2
  else if dag1.rank < dag2.rank then d1 else d2

/-- `best_dag` of OF0. -/
def of0BestDag (state : State config) (d1 d2 : DagRef config) :
    DagRef config :=
  let dag1 := state.dagTable d1
  let dag2 := state.dagTable d2
  if dag1.grounded ≠ 0 ∧ dag2.grounded = 0 then d1
  else if dag1.grounded = 0 ∧ dag2.grounded ≠ 0 then d2
  else if dag1.preference < dag2.preference then d2
  else if dag1.preference > dag2.preference then d1
  else if dag2.rank < dag1.rank then d2 else d1

/-- `best_dag` -/
def bestDag (state : State config) (d1 d2 : DagRef config) :
    DagRef config :=
  match config.of with
  | .mrhof => state.mrhofBestDag d1 d2
  | .of0 => state.of0BestDag d1 d2

/-- `best_parent` of MRHOF for two parents in a DAG. -/
def mrhofBestParent (state : State config) (dag : DagRef config)
    (p1 p2 : Fin config.nbrTableMaxNeighbors) :
    Option (Fin config.nbrTableMaxNeighbors) :=
  let preferredParent := (state.dagTable dag).preferredParent
  let minDiff := dagMcEtxDivisor / 2
  let p1Metric := state.calculatePathMetric (some p1)
  let p2Metric := state.calculatePathMetric (some p2)
  -- stability of the preferred parent
  if (some p1 = preferredParent ∨ some p2 = preferredParent) ∧
      config.lessThanSum p1Metric p2Metric minDiff ∧
      config.greaterThanDifference p1Metric p2Metric minDiff then
    preferredParent
  else if p1Metric < p2Metric then some p1 else some p2

/-- `best_parent` of OF0 for two parents in a DAG, and the division in
`DAG_RANK`. -/
def of0BestParent (state : State config) (dag : DagRef config)
    (p1 p2 : Fin config.nbrTableMaxNeighbors) :
    Option (Fin config.nbrTableMaxNeighbors) × List (Event config) :=
  let preferredParent := (state.dagTable dag).preferredParent
  let minHoprankinc := (state.instanceTable dag.inst).minHoprankinc
  let minDifference := config.minHoprankinc + config.minHoprankinc / 2
  match state.rplGetNbr (some p1), state.rplGetNbr (some p2) with
  | some nbr1, some nbr2 =>
      let r1 := state.parentRank p1 / minHoprankinc *
        config.minHoprankinc + nbr1.linkMetric
      let r2 := state.parentRank p2 / minHoprankinc *
        config.minHoprankinc + nbr2.linkMetric
      (if config.lessThanSum r1 r2 minDifference ∧
          config.greaterThanDifference r1 r2 minDifference then
        preferredParent
      else if r1 < r2 then some p1 else some p2,
        [.dagRank minHoprankinc, .dagRank minHoprankinc])
  | _, _ => (preferredParent, [])

/-- `of->best_parent` -/
def ofBestParent (state : State config) (dag : DagRef config)
    (p1 p2 : Fin config.nbrTableMaxNeighbors) :
    Option (Fin config.nbrTableMaxNeighbors) × List (Event config) :=
  match config.of with
  | .mrhof => (state.mrhofBestParent dag p1 p2, [])
  | .of0 => state.of0BestParent dag p1 p2

/-- `update_metric_container` of MRHOF. -/
def mrhofUpdateMetricContainer (state : State config)
    (inst : Fin config.maxInstances) : State config :=
  if config.dagMc = .none then
    state.modifyInstance inst fun entry =>
      { entry with mc := { entry.mc with type := MetricType.none.toByte } }
  else
    let dag := (state.currentDag inst).map state.dagTable
    let atRoot : Bool := dag.any fun dag =>
      dag.rank = state.rootRank inst
    let pathMetric := if atRoot then 0
      else state.calculatePathMetric (dag.bind Dag.preferredParent)
    state.modifyInstance inst fun entry =>
      let mc := { entry.mc with
        type := config.dagMc.toByte
        flags := 8
        aggr := 0
        prec := 0 }
      if dag.any Dag.joined then
        { entry with
          mc := { mc with
            length := 2
            obj :=
              if config.dagMc = .etx then .ofEtx pathMetric
              else
                { energyFlags := (if atRoot then (0 : UInt8) else 1) <<< 1
                  energyEst := pathMetric.toUInt8 } } }
      else { entry with mc := mc }

/-- `update_metric_container` -/
def updateMetricContainer (state : State config)
    (inst : Fin config.maxInstances) : State config :=
  match config.of with
  | .mrhof => state.mrhofUpdateMetricContainer inst
  | .of0 =>
      state.modifyInstance inst fun entry =>
        { entry with
          mc := { entry.mc with type := MetricType.none.toByte } }

/-- `neighbor_link_callback` of MRHOF: a moving average of the expected
transmission count. -/
def neighborLinkCallback (state : State config)
    (parent : Fin config.nbrTableMaxNeighbors) (status : MacTx)
    (numtx : UInt16) : State config :=
  match state.ds6Neighbors parent, state.rplParents parent with
  | some nbr, some entry =>
      if status = .other then state
      else
        let packetEtx := if status = .noAck then 10 * dagMcEtxDivisor
          else numtx * dagMcEtxDivisor
        if entry.linkMetricValid then
          state.setLinkMetric parent
            (UInt16.ofNat
              ((nbr.linkMetric.toNat * 90 + packetEtx.toNat * 10) / 100))
        else
          (state.setParent parent
            (some { entry with linkMetricValid := true })).setLinkMetric
              parent packetEtx
  | _, _ => state

end State

/-- `rpl_find_of` -/
def rplFindOf (config : RplConfig) (ocp : UInt16) :
    Option ObjectiveFunction :=
  if config.of.ocp = ocp then some config.of else none

end Contiki.Rpl
