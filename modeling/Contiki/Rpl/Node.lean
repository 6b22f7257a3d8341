import Contiki.Rpl.Dio

/-!
# A node

What can happen to the state of RPL at a node: messages, the callbacks of the
neighbour table and of the link layer, timers, and the application that makes
the node a root.
-/

namespace Contiki.Rpl

variable {config : RplConfig}

/-- What `dao_input` reads from a DAO: the sender, the instance, the DAG if it
is given, and whether it has a route that is added. -/
structure Dao where
  sender : IpAddr
  instanceId : UInt8
  dagId : Option IpAddr
  addsRoute : Bool

/-- The interval of the timer is doubled, up to its maximum. -/
def Instance.doubleInterval (entry : Instance config) : Instance config :=
  if entry.dioIntcurrent.toNat <
      entry.dioIntmin.toNat + entry.dioIntdoubl.toNat then
    { entry with dioIntcurrent := entry.dioIntcurrent + 1 }
  else entry

namespace State

/-- A lost parent: the rank is infinite until it is recalculated. -/
def loseParent (state : State config)
    (parent : Fin config.nbrTableMaxNeighbors) : State config :=
  state.setParent parent ((state.rplParents parent).map fun entry =>
    { entry with rank := infiniteRank, updated := true })

theorem first_lt : 0 < 16 := by decide

/-- `dao_input`, as far as it concerns parents. -/
def daoInput (state : State config) (dao : Dao) : State config :=
  match state.rplGetInstance dao.instanceId with
  | none => state
  | some inst =>
      match state.currentDag inst with
      | none => state
      | some dag =>
          let entry := state.dagTable dag
          if dao.dagId.any fun dagId => dagId ≠ entry.dagId then state
          else
            let unicast : Bool := getElem dao.sender 0 first_lt ≠ 0xff
            let parent := if unicast then state.rplFindParent dag dao.sender
              else none
            match parent with
            | none => state
            | some parent =>
                let divisor := state.rootRank inst
                let state := state.noteAll
                  [.dagRank divisor, .dagRank divisor]
                if state.parentRank parent / divisor < entry.rank / divisor
                    ∨ entry.preferredParent = some parent then
                  state.loseParent parent
                else if dao.addsRoute then state.setLock (some parent) true
                else state

/-- `dio_output` as far as it changes the state. -/
def sendDio (state : State config) (inst : Fin config.maxInstances) :
    State config :=
  state.afterDioOutput inst

/-- An action for each instance in use. -/
def forInstances (state : State config)
    (action : State config → Fin config.maxInstances → State config) :
    State config :=
  (List.finRange config.maxInstances).foldl (fun state inst =>
    if (state.instanceTable inst).used then action state inst
    else state) state

/-- `dis_input` -/
def disInput (state : State config) (multicast : Bool) : State config :=
  state.forInstances fun state inst =>
    if multicast then
      if config.leafOnly then state else state.rplResetDioTimer inst
    else state.sendDio inst

/-- `rpl_link_neighbor_callback` with the link-local address of the
receiver. -/
def rplLinkNeighborCallback (state : State config) (addr : IpAddr)
    (status : MacTx) (numtx : UInt16) : State config :=
  state.forInstances fun state inst =>
    match state.rplFindParentAnyDag inst addr with
    | none => state
    | some parent =>
        let state := state.setParent parent
          ((state.rplParents parent).map fun entry =>
            { entry with updated := true })
        match config.of with
        | .mrhof => state.neighborLinkCallback parent status numtx
        | .of0 => state

/-- `rpl_ipv6_neighbor_callback` -/
def rplIpv6NeighborCallback (state : State config) (addr : IpAddr) :
    State config :=
  state.forInstances fun state inst =>
    match state.rplFindParentAnyDag inst addr with
    | none => state
    | some parent => state.loseParent parent

/-- `uip_ds6_nbr_rm` -/
def uipDs6NbrRm (state : State config)
    (neighbor : Fin config.nbrTableMaxNeighbors) : State config :=
  match state.ds6Neighbors neighbor with
  | none => state
  | some nbr =>
      let state := state.rplIpv6NeighborCallback nbr.ipaddr
      { state with
        ds6Neighbors := Function.update state.ds6Neighbors neighbor none }

/-- The entry for a link-layer address in `nbr_table_add_lladdr`, if it has
one or one is free. -/
def nbrTableAddLladdr (state : State config) (lladdr : Lladdr) :
    Option (Fin config.nbrTableMaxNeighbors) × State config :=
  match state.indexFromLladdr lladdr with
  | some neighbor => (some neighbor, state)
  | none =>
      match (List.finRange config.nbrTableMaxNeighbors).find? fun key =>
          key ∉ state.nbrTableKeys with
      | some neighbor =>
          (some neighbor, { state with
            nbrTableKeys := state.nbrTableKeys ++ [neighbor]
            lladdr := Function.update state.lladdr neighbor lladdr })
      | none => (none, state)

/-- `uip_ds6_nbr_add`; a neighbour that makes room for it is evicted
before. -/
def uipDs6NbrAdd (state : State config) (ipaddr : IpAddr)
    (lladdr : Lladdr) : State config :=
  match state.nbrTableAddLladdr lladdr with
  | (none, state) => state
  | (some neighbor, state) =>
      { state with
        ds6Neighbors := Function.update state.ds6Neighbors neighbor
          (some { ipaddr := ipaddr, linkMetric := 0 })
        }.rplIpv6NeighborCallback ipaddr

/-- `nbr_table_allocate` removes a neighbour that is not locked. -/
def evict (state : State config)
    (neighbor : Fin config.nbrTableMaxNeighbors) : State config :=
  if neighbor ∈ state.nbrTableKeys ∧ ¬ state.locked neighbor then
    let state := state.uipDs6NbrRm neighbor
    let state :=
      if (state.rplParents neighbor).isSome then
        state.rplRemoveParent neighbor
      else state
    { state with nbrTableKeys := state.nbrTableKeys.erase neighbor }
  else state

/-- `rpl_recalculate_ranks` -/
def rplRecalculateRanks (state : State config) : State config :=
  state.nbrTableKeys.foldl (fun state parent =>
    match state.rplParents parent with
    | some entry =>
        if entry.updated ∧ (state.dagTable entry.dag).inInstance then
          ((state.setParent parent
            (some { entry with updated := false })).rplProcessParentEvent
              entry.dag.inst parent).2
        else state
    | none => state) state

/-- `handle_dio_timer`, if the timer is set. -/
def handleDioTimer (state : State config)
    (inst : Fin config.maxInstances) : State config :=
  let entry := state.instanceTable inst
  if ¬ entry.dioTimer then state
  else if entry.dioSend then
    let state :=
      if entry.dioRedundancy ≠ 0 ∧
          entry.dioCounter < entry.dioRedundancy then
        state.sendDio inst
      else state
    state.modifyInstance inst fun entry => { entry with dioSend := false }
  else
    (state.modifyInstance inst Instance.doubleInterval).newDioInterval inst

def configureRoot (state : State config) (dag : DagRef config)
    (dagId : IpAddr) (version : UInt8) : State config :=
  let state := state.modifyDag dag fun entry =>
    { entry with
      version := version
      joined := true
      root := true
      grounded := if config.grounded then 1 else 0
      preference := config.preference }
  let state := (state.rplSetPreferredParent dag none).modifyDag dag
    fun entry =>
      { entry with dagId := dagId, rank := config.minHoprankinc }
  state.modifyInstance dag.inst fun entry =>
    { entry with
      mop := config.mopDefault
      of := some config.of
      dioIntdoubl := config.dioIntervalDoublings
      dioIntmin := config.dioIntervalMin
      dioIntcurrent := config.dioIntervalMin + config.dioIntervalDoublings
      dioRedundancy := config.dioRedundancy
      maxRankinc := config.maxRankinc
      minHoprankinc := config.minHoprankinc
      defaultLifetime := config.defaultLifetime
      lifetimeUnit := config.defaultLifetimeUnit }

/-- `rpl_set_root` drops a DAG that the node has joined. -/
def dropDag (state : State config) (dag : DagRef config) : State config :=
  let state :=
    if state.currentDag dag.inst = some dag then
      state.modifyInstance dag.inst fun entry =>
        { entry with currentDag := none }
    else state
  state.rplFreeDag dag

/-- The end of `rpl_set_root`: its DAG becomes the current DAG. -/
def enterRootDag (state : State config) (dag : DagRef config) :
    State config :=
  let inst := dag.inst
  let state := match state.currentDag inst with
    | none => state
    | some current =>
        if current ≠ dag then
          (state.note (.removeRoutes current)).modifyDag current
            fun entry => { entry with joined := false }
        else state
  let state := (state.modifyInstance inst fun entry =>
    { entry with
      currentDag := some dag.index
      dtsnOut := lollipopInit }).updateMetricContainer inst
  { state with defaultInstance := some inst }.rplResetDioTimer inst

/-- `rpl_set_root` -/
def rplSetRoot (state : State config) (instanceId : UInt8)
    (dagId : IpAddr) : State config :=
  let (version, state) := match state.getDag instanceId dagId with
    | none => (lollipopInit, state)
    | some dag =>
        (lollipopIncrement (state.dagTable dag).version, state.dropDag dag)
  match state.rplAllocDag instanceId with
  | (none, state) => state
  | (some dag, state) =>
      (state.configureRoot dag dagId version).enterRootDag dag

end State

/-- What can happen at a node. -/
inductive Input (config : RplConfig) where
  | dio (source : IpAddr) (dio : Dio)
  | dao (dao : Dao)
  | dis (multicast : Bool)
  | linkMetric (addr : IpAddr) (status : MacTx) (numtx : UInt16)
  | addNeighbor (ipaddr : IpAddr) (lladdr : Lladdr)
  | removeNeighbor (neighbor : Fin config.nbrTableMaxNeighbors)
  | evict (neighbor : Fin config.nbrTableMaxNeighbors)
  | recalculate
  | dioTimer (inst : Fin config.maxInstances)
  | setRoot (instanceId : UInt8) (dagId : IpAddr)

def State.step (state : State config) : Input config → State config
  | .dio source dio => state.rplProcessDio source dio
  | .dao dao => state.daoInput dao
  | .dis multicast => state.disInput multicast
  | .linkMetric addr status numtx =>
      state.rplLinkNeighborCallback addr status numtx
  | .addNeighbor ipaddr lladdr => state.uipDs6NbrAdd ipaddr lladdr
  | .removeNeighbor neighbor => state.uipDs6NbrRm neighbor
  | .evict neighbor => state.evict neighbor
  | .recalculate => state.rplRecalculateRanks
  | .dioTimer inst => state.handleDioTimer inst
  | .setRoot instanceId dagId => state.rplSetRoot instanceId dagId

/-- The state behind a sequence of inputs. -/
def State.run (state : State config) (inputs : List (Input config)) :
    State config :=
  inputs.foldl State.step state

def firstDag : DagRef .rplConf where
  inst := ⟨0, by decide⟩
  index := ⟨0, by decide⟩

/-- A DIO with the configuration of `rplConf`. -/
def dioWithVersion (version : UInt8) : Dio where
  dagId := Vector.replicate 16 0
  ocp := 1
  rank := 256
  grounded := 0
  mop := 2
  preference := 0
  version := version
  instanceId := 0
  dtsn := 0
  dagIntdoubl := 8
  dagIntmin := 12
  dagRedund := 10
  defaultLifetime := 0xff
  lifetimeUnit := 0xffff
  dagMaxRankinc := 1792
  dagMinHoprankinc := 256
  destinationPrefix := .zero
  prefixInfo := .zero
  mc := .zero

def neighborAddr : IpAddr := Vector.replicate 16 0xfe

end Contiki.Rpl
