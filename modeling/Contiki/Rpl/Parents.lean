import Contiki.Rpl.Objective

/-!
# Parents

The functions of `rpl-dag.c` on the parents of a DAG, with the default
routers of `uip-ds6-route.c` and the timer of `rpl-timers.c` that they use.
-/

namespace Contiki.Rpl

open Contiki.Lib

variable {config : RplConfig}

namespace State

/-- `uip_ds6_defrt_lookup` -/
def uipDs6DefrtLookup (state : State config) (ipaddr : IpAddr) :
    Option (Fin config.ds6DefrtNb) :=
  state.defaultRouters.list.find? fun router =>
    state.defaultRouters.slots router = ipaddr

/-- `uip_ds6_defrt_add`; a new router comes first in the list. -/
def uipDs6DefrtAdd (state : State config) (ipaddr : IpAddr) :
    Option (Fin config.ds6DefrtNb) × State config :=
  match state.uipDs6DefrtLookup ipaddr with
  | some router => (some router, state)
  | none =>
      match state.defaultRouters.firstFree with
      | none => (none, state)
      | some router =>
          (some router, { state with
            defaultRouters :=
              (state.defaultRouters.set router ipaddr).push router })

/-- `uip_ds6_defrt_rm` -/
def uipDs6DefrtRm (state : State config)
    (router : Fin config.ds6DefrtNb) : State config :=
  if router ∈ state.defaultRouters.list then
    { state with defaultRouters := state.defaultRouters.release router }
  else state

/-- Remove the default route of an instance if it has one. -/
def removeDefRoute (state : State config)
    (inst : Fin config.maxInstances) : State config :=
  match (state.instanceTable inst).defRoute with
  | some router =>
      (state.uipDs6DefrtRm router).modifyInstance inst fun entry =>
        { entry with defRoute := none }
  | none => state

/-- `rpl_set_default_route` -/
def rplSetDefaultRoute (state : State config)
    (inst : Fin config.maxInstances) (source : Option IpAddr) :
    State config :=
  let state := state.removeDefRoute inst
  match source with
  | some source =>
      let (router, state) := state.uipDs6DefrtAdd source
      state.modifyInstance inst fun entry =>
        { entry with defRoute := router }
  | none => state

/-- `rpl_get_parent_ipaddr`; without a parent it looks for the entry with
the null address. -/
def rplGetParentIpaddr (state : State config)
    (parent : Option (Fin config.nbrTableMaxNeighbors)) : Option IpAddr :=
  let index := match parent with
    | some parent => some parent
    | none => state.indexFromLladdr (Vector.replicate 8 0)
  (index.bind state.ds6Neighbors).map Neighbor.ipaddr

/-- `new_dio_interval`, without the time for which the timer is set. -/
def newDioInterval (state : State config)
    (inst : Fin config.maxInstances) : State config :=
  (state.note (.dioInterval
    (state.instanceTable inst).dioIntcurrent)).modifyInstance inst
      fun entry =>
        { entry with dioSend := true, dioCounter := 0, dioTimer := true }

/-- `rpl_reset_dio_timer` -/
def rplResetDioTimer (state : State config)
    (inst : Fin config.maxInstances) : State config :=
  let entry := state.instanceTable inst
  if ¬ config.leafOnly ∧ entry.dioIntcurrent > entry.dioIntmin then
    (state.modifyInstance inst fun entry =>
      { entry with
        dioCounter := 0
        dioIntcurrent := entry.dioIntmin }).newDioInterval inst
  else state

/-- `rpl_set_preferred_parent` -/
def rplSetPreferredParent (state : State config) (dag : DagRef config)
    (parent : Option (Fin config.nbrTableMaxNeighbors)) : State config :=
  let preferredParent := (state.dagTable dag).preferredParent
  if preferredParent ≠ parent then
    -- always keep the preferred parent locked
    ((state.setLock preferredParent false).setLock parent true).modifyDag
      dag fun entry => { entry with preferredParent := parent }
  else state

/-- `rpl_nullify_parent` -/
def rplNullifyParent (state : State config)
    (parent : Fin config.nbrTableMaxNeighbors) : State config :=
  match state.rplParents parent with
  | none => state
  | some entry =>
      let preferredParent := (state.dagTable entry.dag).preferredParent
      if preferredParent = some parent ∨ preferredParent = none then
        let joined := (state.dagTable entry.dag).joined
        let state := (state.rplSetPreferredParent entry.dag none).modifyDag
          entry.dag fun dag => { dag with rank := infiniteRank }
        if joined then
          (state.removeDefRoute entry.dag.inst).note
            (.daoOutput parent 0)
        else state
      else state

/-- `rpl_remove_parent`: `nbr_table_remove` also unlocks the entry. -/
def rplRemoveParent (state : State config)
    (parent : Fin config.nbrTableMaxNeighbors) : State config :=
  ((state.rplNullifyParent parent).setParent parent none).setLock
    (some parent) false

/-- The loop of `remove_parents` and `nullify_parents` over the entries of
the neighbour table. -/
def forParents (state : State config) (dag : DagRef config)
    (minimumRank : UInt16)
    (action : State config → Fin config.nbrTableMaxNeighbors →
      State config) : State config :=
  state.nbrTableKeys.foldl (fun state parent =>
    match state.rplParents parent with
    | some entry =>
        if entry.dag = dag ∧ minimumRank ≤ entry.rank then
          action state parent
        else state
    | none => state) state

/-- `remove_parents` -/
def removeParents (state : State config) (dag : DagRef config)
    (minimumRank : UInt16) : State config :=
  state.forParents dag minimumRank rplRemoveParent

/-- `nullify_parents` -/
def nullifyParents (state : State config) (dag : DagRef config)
    (minimumRank : UInt16) : State config :=
  state.forParents dag minimumRank rplNullifyParent

/-- A cleared entry with the values of a DIO. -/
def newParent (dag : DagRef config) (dio : Dio) : Parent config where
  dag := dag
  mc := if config.dagMc = .none then .zero else dio.mc
  rank := dio.rank
  dtsn := dio.dtsn
  updated := false
  linkMetricValid := false

/-- The link metric of a neighbour that has none. -/
def initLinkMetric (state : State config)
    (parent : Fin config.nbrTableMaxNeighbors) : State config :=
  if (state.ds6Neighbors parent).any fun nbr => nbr.linkMetric = 0 then
    state.setLinkMetric parent (config.initLinkMetric * dagMcEtxDivisor)
  else state

/-- `rpl_add_parent`: the entry is cleared, also if it is in use. -/
def rplAddParent (state : State config) (dag : DagRef config) (dio : Dio)
    (addr : IpAddr) :
    Option (Fin config.nbrTableMaxNeighbors) × State config :=
  match state.uipDs6NbrLookup addr with
  | none => (none, state)
  | some parent =>
      (some parent, (state.setParent parent
        (some (newParent dag dio))).initLinkMetric parent)

/-- `find_parent_any_dag_any_instance`; without a neighbour it looks for the
entry with the null address. -/
def findParentAnyDagAnyInstance (state : State config) (addr : IpAddr) :
    Option (Fin config.nbrTableMaxNeighbors) :=
  let index := match state.uipDs6NbrLookup addr with
    | some neighbor => some neighbor
    | none => state.indexFromLladdr (Vector.replicate 8 0)
  index.filter fun parent => (state.rplParents parent).isSome

/-- `find_parent_dag` -/
def findParentDag (state : State config) (addr : IpAddr) :
    Option (DagRef config) :=
  (state.findParentAnyDagAnyInstance addr).bind fun parent =>
    (state.rplParents parent).map Parent.dag

/-- `rpl_find_parent` -/
def rplFindParent (state : State config) (dag : DagRef config)
    (addr : IpAddr) : Option (Fin config.nbrTableMaxNeighbors) :=
  (state.findParentAnyDagAnyInstance addr).filter fun parent =>
    (state.rplParents parent).any fun entry => entry.dag = dag

/-- `rpl_find_parent_any_dag` -/
def rplFindParentAnyDag (state : State config)
    (inst : Fin config.maxInstances) (addr : IpAddr) :
    Option (Fin config.nbrTableMaxNeighbors) :=
  (state.findParentAnyDagAnyInstance addr).filter fun parent =>
    (state.rplParents parent).any fun entry =>
      entry.dag.inst = inst ∧ (state.dagTable entry.dag).inInstance

/-- `rpl_move_parent` -/
def rplMoveParent (state : State config) (dagSrc dagDst : DagRef config)
    (parent : Fin config.nbrTableMaxNeighbors) : State config :=
  let source := state.dagTable dagSrc
  let state :=
    if source.preferredParent = some parent then
      let state := (state.rplSetPreferredParent dagSrc none).modifyDag
        dagSrc fun dag => { dag with rank := infiniteRank }
      if source.joined then state.removeDefRoute dagSrc.inst else state
    else if source.joined then
      state.note (.removeRoutesByNexthop parent dagSrc)
    else state
  state.setParent parent ((state.rplParents parent).map fun entry =>
    { entry with dag := dagDst })

/-- The loop of `best_parent` for one entry of the neighbour table, with the
divisions in `DAG_RANK`. -/
def betterParent (state : State config) (dag : DagRef config)
    (result : Option (Fin config.nbrTableMaxNeighbors) × List (Event config))
    (parent : Fin config.nbrTableMaxNeighbors) :
    Option (Fin config.nbrTableMaxNeighbors) × List (Event config) :=
  match state.rplParents parent with
  | some entry =>
      if entry.dag ≠ dag ∨ entry.rank = infiniteRank then result
      else
        match result.1 with
        | none => (some parent, result.2)
        | some best =>
            let (next, divisions) := state.ofBestParent dag best parent
            (next, result.2 ++ divisions)
  | none => result

/-- `best_parent` -/
def bestParent (state : State config) (dag : DagRef config) :
    Option (Fin config.nbrTableMaxNeighbors) × List (Event config) :=
  state.nbrTableKeys.foldl (state.betterParent dag) (none, [])

/-- `rpl_select_parent` -/
def rplSelectParent (state : State config) (dag : DagRef config) :
    Option (Fin config.nbrTableMaxNeighbors) × State config :=
  let (best, divisions) := state.bestParent dag
  let state := state.noteAll divisions
  (best,
    match best with
    | some parent => state.rplSetPreferredParent dag (some parent)
    | none => state)

end State

end Contiki.Rpl
