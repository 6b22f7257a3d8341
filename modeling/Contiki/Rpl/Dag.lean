import Mathlib.Algebra.Group.Nat.Defs
import Contiki.Rpl.Parents

/-!
# DAGs and instances

`rpl-dag.c`: the allocation of DAGs and instances, the selection of the DAG
and its rank, joining, the repairs, and what a received DIO does.
-/

namespace Contiki.Rpl

variable {config : RplConfig}

namespace State

/-- `acceptable_rank`; the sum is an `int` expression. -/
def acceptableRank (state : State config) (dag : DagRef config)
    (rank : UInt16) : Bool :=
  let inst := state.instanceTable dag.inst
  let sum := ((state.dagTable dag).minRank.toNat +
    inst.maxRankinc.toNat) % 2 ^ config.uintBits
  rank ≠ infiniteRank ∧ (inst.maxRankinc = 0 ∨
    rank.toNat / inst.minHoprankinc.toNat ≤
      sum / inst.minHoprankinc.toNat)

/-- Record an evaluation of `acceptable_rank`. -/
def noteAcceptableRank (state : State config) (dag : DagRef config)
    (rank : UInt16) : State config :=
  let inst := state.instanceTable dag.inst
  let divides : Bool := rank ≠ infiniteRank ∧ inst.maxRankinc ≠ 0
  state.noteAll
    ((if divides then
      [.dagRank inst.minHoprankinc, .dagRank inst.minHoprankinc]
    else []) ++
    [.acceptableRank rank (state.dagTable dag).minRank inst.maxRankinc
      inst.minHoprankinc (state.acceptableRank dag rank)])

/-- `rpl_get_instance` -/
def rplGetInstance (state : State config) (instanceId : UInt8) :
    Option (Fin config.maxInstances) :=
  (List.finRange config.maxInstances).find? fun inst =>
    (state.instanceTable inst).used ∧
      (state.instanceTable inst).instanceId = instanceId

/-- `get_dag` -/
def getDag (state : State config) (instanceId : UInt8) (dagId : IpAddr) :
    Option (DagRef config) :=
  (state.rplGetInstance instanceId).bind fun inst =>
    (dagRefs inst).find? fun dag =>
      (state.dagTable dag).used ∧ (state.dagTable dag).dagId = dagId

/-- `rpl_set_prefix` -/
def rplSetPrefix (state : State config) (dag : DagRef config)
    (prefixAddr : IpAddr) (len : Nat) : State config :=
  let last := (state.dagTable dag).prefixInfo
  if len > 128 then state
  else
    let new : Prefix := { last with
      prefixAddr := Vector.ofFn fun index : Fin 16 =>
        if index.val < (len + 7) / 8 then prefixAddr[index] else 0
      length := UInt8.ofNat len
      flags := raFlagAutonomous }
    (state.modifyDag dag fun entry => { entry with prefixInfo := new }).note
      (.checkPrefix (if last.length = 0 then none else some last)
        (some new))

/-- `rpl_alloc_instance` for the first free instance. -/
def clearInstance (state : State config) (instanceId : UInt8)
    (inst : Fin config.maxInstances) : State config :=
  { state with
    instanceTable := Function.update state.instanceTable inst
      { Instance.zero with instanceId := instanceId, used := true }
    dagTable := fun ref =>
      if ref.inst = inst then Dag.zero else state.dagTable ref }

/-- `rpl_alloc_instance` -/
def rplAllocInstance (state : State config) (instanceId : UInt8) :
    Option (Fin config.maxInstances) × State config :=
  match (List.finRange config.maxInstances).find? fun inst =>
      ¬ (state.instanceTable inst).used with
  | none => (none, state)
  | some inst => (some inst, state.clearInstance instanceId inst)

/-- `rpl_free_dag` -/
def rplFreeDag (state : State config) (dag : DagRef config) :
    State config :=
  let entry := state.dagTable dag
  let state :=
    if entry.joined then
      let state := (state.modifyDag dag fun entry =>
        { entry with joined := false }).note (.removeRoutes dag)
      let state :=
        if entry.prefixInfo.flags &&& raFlagAutonomous ≠ 0 then
          state.note (.checkPrefix (some entry.prefixInfo) none)
        else state
      state.removeParents dag 0
    else state
  state.modifyDag dag fun entry => { entry with used := false }

/-- `rpl_free_instance` -/
def rplFreeInstance (state : State config)
    (inst : Fin config.maxInstances) : State config :=
  let state := (dagRefs inst).foldl (fun state dag =>
    if (state.dagTable dag).used then state.rplFreeDag dag else state) state
  let state := state.rplSetDefaultRoute inst none
  let state :=
    if state.defaultInstance = some inst then
      { state with defaultInstance := none }
    else state
  state.modifyInstance inst fun entry =>
    { entry with dioTimer := false, used := false }

/-- `rpl_alloc_dag` for the first free DAG. -/
def clearDag (state : State config) (dag : DagRef config) : State config :=
  state.modifyDag dag fun _ =>
    { Dag.zero with
      used := true
      rank := infiniteRank
      minRank := infiniteRank
      inInstance := true }

/-- `rpl_alloc_dag`; without a free DAG the instance is freed. -/
def rplAllocDag (state : State config) (instanceId : UInt8) :
    Option (DagRef config) × State config :=
  let (inst, state) := match state.rplGetInstance instanceId with
    | some inst => (some inst, state)
    | none => state.rplAllocInstance instanceId
  match inst with
  | none => (none, state)
  | some inst =>
      match (dagRefs inst).find? fun dag =>
          ¬ (state.dagTable dag).used with
      | some dag => (some dag, state.clearDag dag)
      | none => (none, state.rplFreeInstance inst)

/-- The loop of `rpl_select_dag` over the DAGs of an instance. -/
def betterDag (state : State config) (best : Option (DagRef config))
    (dag : DagRef config) : Option (DagRef config) :=
  let entry := state.dagTable dag
  if entry.used ∧ entry.preferredParent.any fun parent =>
      state.parentRank parent ≠ infiniteRank then
    match best with
    | none => some dag
    | some best => some (state.bestDag best dag)
  else best

/-- The choice between the DAGs of an instance in `rpl_select_dag`. -/
def chooseDag (state : State config) (inst : Fin config.maxInstances)
    (current parentDag : DagRef config) :
    Option (DagRef config) × State config :=
  if (state.dagTable current).rank ≠ state.rootRank inst then
    let (selected, state) := state.rplSelectParent parentDag
    if selected.isSome then
      (some (if parentDag ≠ current then state.bestDag current parentDag
        else current), state)
    else if parentDag = current then
      ((dagRefs inst).foldl state.betterDag none, state)
    else (some current, state)
  else (some current, state)

/-- Another DAG becomes the current one of an instance. -/
def makeCurrent (state : State config) (inst : Fin config.maxInstances)
    (current best : DagRef config) : State config :=
  let state := state.modifyDag best fun entry =>
    { entry with joined := true }
  let state := state.modifyDag current fun entry =>
    { entry with joined := false }
  state.modifyInstance inst fun entry =>
    { entry with currentDag := some best.index }

/-- `rpl_select_dag` changes the current DAG. -/
def switchDag (state : State config) (inst : Fin config.maxInstances)
    (current best : DagRef config) : State config :=
  if current ≠ best then
    let currentPrefix := (state.dagTable current).prefixInfo
    let bestPrefix := (state.dagTable best).prefixInfo
    let state := state.note (.removeRoutes current)
    let state :=
      if bestPrefix.flags &&& raFlagAutonomous ≠ 0 then
        state.note (.checkPrefix (some currentPrefix) (some bestPrefix))
      else if currentPrefix.flags &&& raFlagAutonomous ≠ 0 then
        state.note (.checkPrefix (some currentPrefix) none)
      else state
    state.makeCurrent inst current best
  else state

/-- `RPL_MOP_NO_DOWNWARD_ROUTES` is not the mode of operation. -/
def hasDownwardRoutes (state : State config)
    (inst : Fin config.maxInstances) : Bool :=
  (state.instanceTable inst).mop ≠ 0

/-- `dao_output(last_parent, RPL_ZERO_LIFETIME)` -/
def noPathDao (state : State config)
    (lastParent : Option (Fin config.nbrTableMaxNeighbors)) :
    State config :=
  match lastParent with
  | some parent => state.note (.daoOutput parent 0)
  | none => state

/-- `RPL_LOLLIPOP_INCREMENT(instance->dtsn_out)` -/
def incrementDtsn (state : State config)
    (inst : Fin config.maxInstances) : State config :=
  state.modifyInstance inst fun entry =>
    { entry with dtsnOut := lollipopIncrement entry.dtsnOut }

/-- Write the rank of a DAG that is calculated for a parent. -/
def setRank (state : State config) (dag : DagRef config)
    (parent : Option (Fin config.nbrTableMaxNeighbors)) : State config :=
  (state.noteCalculateRank parent).modifyDag dag fun entry =>
    { entry with rank := state.calculateRank parent 0 }

/-- The end of `rpl_select_dag`: the preferred parent has changed. -/
def changedParent (state : State config) (inst : Fin config.maxInstances)
    (best : DagRef config)
    (lastParent : Option (Fin config.nbrTableMaxNeighbors)) :
    State config :=
  let preferredParent := (state.dagTable best).preferredParent
  if preferredParent ≠ lastParent then
    let state := state.rplSetDefaultRoute inst
      (state.rplGetParentIpaddr preferredParent)
    let state :=
      if state.hasDownwardRoutes inst then
        ((state.noPathDao lastParent).incrementDtsn inst).note
          (.scheduleDao inst)
      else state
    state.rplResetDioTimer inst
  else state

/-- The end of `rpl_select_dag` for a DAG whose rank has been written. -/
def checkRank (state : State config) (inst : Fin config.maxInstances)
    (best : DagRef config)
    (lastParent : Option (Fin config.nbrTableMaxNeighbors)) :
    Option (DagRef config) × State config :=
  let rank := (state.dagTable best).rank
  if lastParent = none ∨ rank < (state.dagTable best).minRank then
    (some best, (state.modifyDag best fun entry =>
      { entry with minRank := rank }).changedParent inst best lastParent)
  else
    let acceptable := state.acceptableRank best rank
    let state := state.noteAcceptableRank best rank
    if acceptable then
      (some best, state.changedParent inst best lastParent)
    else
      let state := state.rplSetPreferredParent best none
      (none,
        if state.hasDownwardRoutes inst then state.noPathDao lastParent
        else state)

/-- `rpl_select_dag` -/
def rplSelectDag (state : State config) (inst : Fin config.maxInstances)
    (parent : Fin config.nbrTableMaxNeighbors) :
    Option (DagRef config) × State config :=
  match state.currentDag inst, (state.rplParents parent).map Parent.dag with
  | some current, some parentDag =>
      let lastParent := (state.dagTable current).preferredParent
      let (best, state) := state.chooseDag inst current parentDag
      match best with
      | none => (none, state)
      | some best =>
          let state := (state.switchDag inst current
            best).updateMetricContainer inst
          (state.setRank best (state.dagTable best).preferredParent).checkRank
            inst best lastParent
  | _, _ => (none, state)

/-- `rpl_local_repair` -/
def rplLocalRepair (state : State config)
    (inst : Fin config.maxInstances) : State config :=
  ((dagRefs inst).foldl (fun state dag =>
    if (state.dagTable dag).used then
      (state.modifyDag dag fun entry =>
        { entry with rank := infiniteRank }).nullifyParents dag 0
    else state) state).rplResetDioTimer inst

/-- `rpl_process_parent_event` -/
def rplProcessParentEvent (state : State config)
    (inst : Fin config.maxInstances)
    (parent : Fin config.nbrTableMaxNeighbors) : Bool × State config :=
  match state.rplParents parent with
  | none => (false, state)
  | some entry =>
      let acceptable := state.acceptableRank entry.dag entry.rank
      let state := state.noteAcceptableRank entry.dag entry.rank
      let state := if acceptable then state
        else state.rplNullifyParent parent
      let preferredParent := (state.currentDag inst).bind fun dag =>
        (state.dagTable dag).preferredParent
      if ¬ acceptable ∧ some parent ≠ preferredParent then (false, state)
      else
        let (selected, state) := state.rplSelectDag inst parent
        if selected.isSome then (acceptable, state)
        else (false, state.rplLocalRepair inst)

/-- The configuration of a DIO in the instance. -/
def configureInstance (state : State config)
    (inst : Fin config.maxInstances) (dio : Dio)
    (dag : DagRef config) : State config :=
  state.modifyInstance inst fun entry =>
    { entry with
      of := rplFindOf config dio.ocp
      mop := dio.mop
      currentDag := some dag.index
      dtsnOut := lollipopInit
      maxRankinc := dio.dagMaxRankinc
      minHoprankinc := dio.dagMinHoprankinc
      dioIntdoubl := dio.dagIntdoubl
      dioIntmin := dio.dagIntmin
      dioIntcurrent := dio.dagIntmin + dio.dagIntdoubl
      dioRedundancy := dio.dagRedund
      defaultLifetime := dio.defaultLifetime
      lifetimeUnit := dio.lifetimeUnit }

def describeDag (state : State config) (dag : DagRef config) (dio : Dio) :
    State config :=
  state.modifyDag dag fun entry =>
    { entry with
      preference := dio.preference
      grounded := dio.grounded
      version := dio.version
      dagId := dio.dagId
      prefixInfo := dio.prefixInfo }

/-- The rank of a DAG with its first parent. -/
def setFirstRank (state : State config) (dag : DagRef config)
    (parent : Fin config.nbrTableMaxNeighbors) : State config :=
  (state.setRank dag (some parent)).modifyDag dag fun entry =>
    { entry with minRank := entry.rank }

/-- `dag->used = 0` -/
def unuseDag (state : State config) (dag : DagRef config) : State config :=
  state.modifyDag dag fun entry => { entry with used := false }

/-- `instance->used = 0` -/
def unuseInstance (state : State config) (inst : Fin config.maxInstances) :
    State config :=
  state.modifyInstance inst fun entry => { entry with used := false }

/-- The end of `rpl_join_instance`: the DAG has its first parent. -/
def joinDag (state : State config) (source : IpAddr) (dio : Dio)
    (dag : DagRef config) (parent : Fin config.nbrTableMaxNeighbors) :
    State config :=
  let inst := dag.inst
  let state :=
    if dio.prefixInfo.flags &&& raFlagAutonomous ≠ 0 then
      state.note (.checkPrefix none (some dio.prefixInfo))
    else state
  let state := (state.describeDag dag dio).modifyDag dag
    fun entry => { entry with joined := true }
  let state := state.configureInstance inst dio dag
  let state := (state.rplSetPreferredParent dag
    (some parent)).updateMetricContainer inst
  let state := state.setFirstRank dag parent
  let state :=
    if state.defaultInstance = none then
      { state with defaultInstance := some inst }
    else state
  let state := (state.rplResetDioTimer inst).rplSetDefaultRoute inst
    (some source)
  if state.hasDownwardRoutes inst then state.note (.scheduleDao inst)
  else state

/-- `rpl_join_instance` -/
def rplJoinInstance (state : State config) (source : IpAddr) (dio : Dio) :
    State config :=
  match state.rplAllocDag dio.instanceId with
  | (none, state) => state
  | (some dag, state) =>
      match state.rplAddParent dag dio source with
      | (none, state) => state.unuseInstance dag.inst
      | (some parent, state) =>
          if rplFindOf config dio.ocp = none then
            (state.rplRemoveParent parent).unuseInstance dag.inst
          else state.joinDag source dio dag parent

/-- The DIO has another configuration than the instance. -/
def incompatible (state : State config) (inst : Fin config.maxInstances)
    (dio : Dio) : Bool :=
  let entry := state.instanceTable inst
  rplFindOf config dio.ocp ≠ entry.of ∨
    entry.mop ≠ dio.mop ∨
    entry.maxRankinc ≠ dio.dagMaxRankinc ∨
    entry.minHoprankinc ≠ dio.dagMinHoprankinc ∨
    entry.dioIntdoubl ≠ dio.dagIntdoubl ∨
    entry.dioIntmin ≠ dio.dagIntmin ∨
    entry.dioRedundancy ≠ dio.dagRedund ∨
    entry.defaultLifetime ≠ dio.defaultLifetime ∨
    entry.lifetimeUnit ≠ dio.lifetimeUnit

/-- The parent for a DIO: a new entry, or the one that the sender has in
another DAG. -/
def takeParent (state : State config) (dag : DagRef config) (dio : Dio)
    (source : IpAddr) :
    Option (Fin config.nbrTableMaxNeighbors) × State config :=
  match state.findParentDag source with
  | none => state.rplAddParent dag dio source
  | some previous =>
      match state.rplFindParent previous source with
      | some parent => (some parent, state.rplMoveParent previous dag parent)
      | none => (none, state)

/-- Write `p->dtsn`. -/
def setDtsn (state : State config)
    (parent : Fin config.nbrTableMaxNeighbors) (dtsn : UInt8) :
    State config :=
  state.setParent parent ((state.rplParents parent).map fun entry =>
    { entry with dtsn := dtsn })

/-- The end of `rpl_add_dag`: the DAG has its first parent. -/
def enterDag (state : State config) (dio : Dio) (dag : DagRef config)
    (parent : Fin config.nbrTableMaxNeighbors) : State config :=
  let state := (state.describeDag dag dio).rplSetPreferredParent dag
    (some parent)
  let state := state.setFirstRank dag parent
  ((state.rplProcessParentEvent dag.inst parent).2).setDtsn parent dio.dtsn

/-- `rpl_add_dag` -/
def rplAddDag (state : State config) (source : IpAddr) (dio : Dio) :
    State config :=
  match state.rplAllocDag dio.instanceId with
  | (none, state) => state
  | (some dag, state) =>
      match state.takeParent dag dio source with
      | (none, state) => state.unuseDag dag
      | (some parent, state) =>
          if state.incompatible dag.inst dio then
            (state.rplRemoveParent parent).unuseDag dag
          else state.enterDag dio dag parent

/-- `global_repair` until a parent is added. -/
def startRepair (state : State config) (dag : DagRef config) (dio : Dio) :
    State config :=
  let state := (state.removeParents dag 0).modifyDag dag fun entry =>
    { entry with version := dio.version }
  let state := state.modifyInstance dag.inst fun entry =>
    { entry with
      dioIntdoubl := dio.dagIntdoubl
      dioIntmin := dio.dagIntmin
      dioRedundancy := dio.dagRedund
      defaultLifetime := dio.defaultLifetime
      lifetimeUnit := dio.lifetimeUnit }
  (state.modifyDag dag fun entry =>
    { entry with minRank := infiniteRank }).incrementDtsn dag.inst

/-- The end of `global_repair`: the sender becomes a parent. -/
def repairParent (state : State config) (source : IpAddr)
    (dag : DagRef config) (dio : Dio) : State config :=
  match state.rplAddParent dag dio source with
  | (none, state) =>
      state.modifyDag dag fun entry => { entry with rank := infiniteRank }
  | (some parent, state) =>
      ((state.setFirstRank dag parent).rplProcessParentEvent dag.inst
        parent).2

/-- `global_repair` -/
def globalRepair (state : State config) (source : IpAddr)
    (dag : DagRef config) (dio : Dio) : State config :=
  (state.startRepair dag dio).repairParent source dag dio

/-- `should_send_dao` -/
def shouldSendDao (state : State config) (inst : Fin config.maxInstances)
    (dio : Dio) (parent : Fin config.nbrTableMaxNeighbors) : Bool :=
  state.hasDownwardRoutes inst ∧
    (state.currentDag inst).any (fun dag =>
      (state.dagTable dag).preferredParent = some parent) ∧
    (state.rplParents parent).any fun entry =>
      lollipopGreaterThan dio.dtsn entry.dtsn

/-- The DIO announces a prefix for address autoconfiguration. -/
def processPrefix (state : State config) (dag : DagRef config) (dio : Dio) :
    State config :=
  if dio.prefixInfo.length ≠ 0 ∧
      dio.prefixInfo.flags &&& raFlagAutonomous ≠ 0 then
    state.rplSetPrefix dag dio.prefixInfo.prefixAddr
      dio.prefixInfo.length.toNat
  else state

/-- `instance->dio_counter++` -/
def countDio (state : State config) (inst : Fin config.maxInstances) :
    State config :=
  state.modifyInstance inst fun entry =>
    { entry with dioCounter := entry.dioCounter + 1 }

/-- The candidate parent that sent a DIO for a DAG that the node is part
of. -/
def candidateParent (state : State config) (dag : DagRef config)
    (dio : Dio) (source : IpAddr) :
    Option (Fin config.nbrTableMaxNeighbors) × State config :=
  match state.rplFindParent dag source with
  | none => state.takeParent dag dio source
  | some parent =>
      (some parent,
        if state.parentRank parent = dio.rank then
          if (state.dagTable dag).joined then state.countDio dag.inst
          else state
        else
          state.setParent parent ((state.rplParents parent).map fun entry =>
            { entry with rank := dio.rank }))

/-- Write `p->mc`. -/
def setMc (state : State config)
    (parent : Fin config.nbrTableMaxNeighbors) (mc : MetricContainer) :
    State config :=
  if config.dagMc = .none then state
  else
    state.setParent parent ((state.rplParents parent).map fun entry =>
      { entry with mc := mc })

/-- The end of `rpl_process_dio` for an acceptable parent. -/
def acceptParent (state : State config) (source : IpAddr) (dio : Dio)
    (dag : DagRef config) (parent : Fin config.nbrTableMaxNeighbors) :
    State config :=
  let entry := state.dagTable dag
  let state :=
    if entry.joined ∧ entry.preferredParent = some parent then
      let state :=
        if state.shouldSendDao dag.inst dio parent then
          (state.incrementDtsn dag.inst).note (.scheduleDao dag.inst)
        else state
      (state.uipDs6DefrtAdd source).2
    else state
  state.setDtsn parent dio.dtsn

/-- The end of `rpl_process_dio` for a DAG that the node is part of. -/
def processKnownDio (state : State config) (source : IpAddr) (dio : Dio)
    (dag : DagRef config) : State config :=
  match state.candidateParent dag dio source with
  | (none, state) => state
  | (some parent, state) =>
      let (accepted, state) := (state.setMc parent
        dio.mc).rplProcessParentEvent dag.inst parent
      if accepted then state.acceptParent source dio dag parent else state

def supportsMop (config : RplConfig) (dio : Dio) : Bool :=
  if config.multicast then dio.mop ≥ 2 else dio.mop = config.mopDefault

/-- The DIO has a newer version of a DAG that the node is part of, and is
not for the root. -/
def startsGlobalRepair (state : State config) (dio : Dio)
    (dag : DagRef config) : Bool :=
  lollipopGreaterThan dio.version (state.dagTable dag).version ∧
    (state.dagTable dag).rank ≠ state.rootRank dag.inst

/-- `rpl_process_dio` for a DAG that the node is part of, in its version. -/
def processCurrentDio (state : State config) (source : IpAddr) (dio : Dio)
    (inst : Fin config.maxInstances) (dag : DagRef config) :
    State config :=
  if dio.rank < state.rootRank inst then state
  else
    let state :=
      if dio.rank = infiniteRank ∧ (state.dagTable dag).joined then
        state.rplResetDioTimer inst
      else state
    let state := state.processPrefix dag dio
    if (state.dagTable dag).rank = state.rootRank inst then
      if dio.rank ≠ infiniteRank then state.countDio inst else state
    else state.processKnownDio source dio dag

/-- `rpl_process_dio` behind the comparison of the versions. -/
def processVersion (state : State config) (source : IpAddr) (dio : Dio)
    (inst : Fin config.maxInstances) (dag : Option (DagRef config)) :
    State config :=
  let currentRank := (state.currentDag inst).map fun dag =>
    (state.dagTable dag).rank
  if currentRank = some (state.rootRank inst) ∧
      state.currentDag inst ≠ dag then state
  else
    match dag with
    | none => state.rplAddDag source dio
    | some dag => state.processCurrentDio source dio inst dag

/-- `rpl_process_dio` -/
def rplProcessDio (state : State config) (source : IpAddr) (dio : Dio) :
    State config :=
  if ¬ supportsMop config dio then state
  else
    match state.rplGetInstance dio.instanceId with
    | none => state.rplJoinInstance source dio
    | some inst =>
        match state.getDag dio.instanceId dio.dagId with
        | none => state.processVersion source dio inst none
        | some dag =>
            let version := (state.dagTable dag).version
            if state.startsGlobalRepair dio dag then
              (state.processPrefix dag dio).globalRepair source dag dio
            else if lollipopGreaterThan dio.version version then
              (state.modifyDag dag fun entry =>
                { entry with
                  version := lollipopIncrement dio.version
                  }).rplResetDioTimer inst
            else if lollipopGreaterThan version dio.version ∧
                (state.dagTable dag).joined then
              state.rplResetDioTimer inst
            else state.processVersion source dio inst (some dag)

end State

end Contiki.Rpl
