import Contiki.Rpl.Frame

/-!
# The prefixes of DAGs

A DAG gets its prefix from a DIO, either as it is when the node joins the DAG,
or by `rpl_set_prefix`.  What holds of the prefix of every DIO and of zeros
holds of the prefix of every DAG.
-/

namespace Contiki.Rpl

open Contiki.Lib

variable {config : RplConfig}

/-- The bytes of a prefix with zeros behind them. -/
def maskPrefix (length : UInt8) (addr : IpAddr) : IpAddr :=
  Vector.ofFn fun index : Fin 16 =>
    if index.val < (length.toNat + (7 : Nat)) / (8 : Nat) then addr.get index
    else 0

/-- A property of prefixes that zeros have, and that `rpl_set_prefix`
keeps. -/
structure PrefixRule (P : UInt8 → IpAddr → Prop) : Prop where
  zero : P 0 (Vector.replicate 16 0)
  mask : ∀ length addr, P length addr → P length (maskPrefix length addr)

namespace State

/-- The prefixes of all DAGs have the property. -/
def Stores (P : UInt8 → IpAddr → Prop) (state : State config) : Prop :=
  ∀ dag, P (state.dagTable dag).prefixInfo.length
    (state.dagTable dag).prefixInfo.prefixAddr

variable {P : UInt8 → IpAddr → Prop} {state : State config}

theorem Stores.of_eq {after : State config} (stores : state.Stores P)
    (same : after.dagTable = state.dagTable) : after.Stores P := by
  intro dag
  rw [same]
  exact stores dag

theorem Stores.note (stores : state.Stores P) (event : Event config) :
    (state.note event).Stores P :=
  stores

theorem Stores.modifyInstance (stores : state.Stores P)
    (inst : Fin config.maxInstances)
    (change : Instance config → Instance config) :
    (state.modifyInstance inst change).Stores P :=
  stores

theorem Stores.modifyDag (stores : state.Stores P) (ref : DagRef config)
    (change : Dag config → Dag config)
    (keeps : ∀ dag, (change dag).prefixInfo = dag.prefixInfo) :
    (state.modifyDag ref change).Stores P := by
  intro dag
  rw [dagTable_modifyDag]
  split
  · rw [keeps]
    exact stores ref
  · exact stores dag

theorem Stores.writePrefix (stores : state.Stores P) (ref : DagRef config)
    (change : Dag config → Dag config)
    (has : P (change (state.dagTable ref)).prefixInfo.length
      (change (state.dagTable ref)).prefixInfo.prefixAddr) :
    (state.modifyDag ref change).Stores P := by
  intro dag
  rw [dagTable_modifyDag]
  split
  · exact has
  · exact stores dag

theorem storesRule (P : UInt8 → IpAddr → Prop) :
    SelectionRule fun before after : State config =>
      before.Stores P → after.Stores P where
  refl := fun _ => id
  trans := fun left right stores => right (left stores)
  note := fun _ _ _ stores => stores.of_eq rfl
  modifyDag := fun _ ref _ same stores =>
    stores.modifyDag ref _ fun dag =>
      (congrArg Dag.prefixInfo (same dag) :)
  modifyInstance := fun _ _ _ _ stores => stores.of_eq rfl
  rplResetDioTimer := by
    intro state inst stores
    refine stores.of_eq ?_
    unfold State.rplResetDioTimer
    dsimp only
    split
    · rfl
    · rfl
  tables := fun dags _ _ stores => stores.of_eq dags

/-- `rpl_set_prefix` masks the prefix. -/
theorem Stores.processPrefix (rule : PrefixRule P) (stores : state.Stores P)
    (dag : DagRef config) {dio : Dio}
    (announced : P dio.prefixInfo.length dio.prefixInfo.prefixAddr) :
    (state.processPrefix dag dio).Stores P := by
  unfold State.processPrefix rplSetPrefix
  split
  · dsimp only
    split
    · exact stores
    · have masked := rule.mask _ _ announced
      refine Stores.note (stores.writePrefix dag _ ?_) _
      dsimp only
      rw [UInt8.ofNat_toNat]
      exact masked
  · exact stores

theorem Stores.rplFreeDag (stores : state.Stores P) (dag : DagRef config) :
    (state.rplFreeDag dag).Stores P := by
  have removed : ∀ state : State config, state.Stores P →
      ((state.removeParents dag 0).modifyDag dag fun entry =>
        { entry with used := false }).Stores P := fun state stores =>
    Stores.modifyDag ((storesRule P).removeParents state dag 0 stores) dag _
      fun _ => rfl
  unfold State.rplFreeDag
  dsimp only
  split
  · have left : ((state.modifyDag dag fun entry =>
        { entry with joined := false }).note
          (.removeRoutes dag)).Stores P := by
      refine Stores.note (stores.modifyDag dag _ ?_) _
      exact fun _ => rfl
    split
    · exact removed _ (left.of_eq rfl)
    · exact removed _ left
  · exact stores.modifyDag dag _ fun _ => rfl

theorem Stores.rplFreeInstance (stores : state.Stores P)
    (inst : Fin config.maxInstances) :
    (state.rplFreeInstance inst).Stores P := by
  have freed : ((dagRefs inst).foldl (fun state dag =>
      if (state.dagTable dag).used then state.rplFreeDag dag
      else state) state).Stores P := by
    refine List.foldlRecOn (dagRefs inst) _ stores ?_
    intro state stores dag _
    split
    · exact stores.rplFreeDag dag
    · exact stores
  have unrouted := (storesRule P).rplSetDefaultRoute _ inst none freed
  unfold State.rplFreeInstance
  dsimp only
  split
  · exact unrouted.of_eq rfl
  · exact unrouted.of_eq rfl

theorem Stores.findsInstance (rule : PrefixRule P) {found : State config}
    {instanceId : UInt8} {inst : Fin config.maxInstances}
    (stores : state.Stores P)
    (finds : FindsInstance state instanceId inst found) :
    found.Stores P := by
  cases finds with
  | known =>
      exact stores
  | new =>
      intro dag
      unfold State.clearInstance
      dsimp only
      split
      · exact rule.zero
      · exact stores dag

theorem Stores.rplAllocDag (rule : PrefixRule P) (stores : state.Stores P)
    (instanceId : UInt8) : (state.rplAllocDag instanceId).2.Stores P := by
  obtain ⟨dag, found, finds, _, allocated⟩ |
      ⟨inst, found, finds, _, freed⟩ | full :=
    rplAllocDag_cases state instanceId
  · rw [allocated]
    have foundStores := stores.findsInstance rule finds
    dsimp only
    unfold clearDag
    refine foundStores.writePrefix dag _ ?_
    exact rule.zero
  · rw [freed]
    exact (stores.findsInstance rule finds).rplFreeInstance inst
  · rw [full]
    exact stores

theorem Stores.describeDag (stores : state.Stores P) (dag : DagRef config)
    {dio : Dio}
    (announced : P dio.prefixInfo.length dio.prefixInfo.prefixAddr) :
    (state.describeDag dag dio).Stores P :=
  stores.writePrefix dag _ announced

theorem Stores.joinDag (stores : state.Stores P) (source : IpAddr)
    {dio : Dio} (dag : DagRef config)
    (parent : Fin config.nbrTableMaxNeighbors)
    (announced : P dio.prefixInfo.length dio.prefixInfo.prefixAddr) :
    (state.joinDag source dio dag parent).Stores P := by
  have rule := @storesRule config P
  unfold State.joinDag
  extract_lets inst noted described configured preferred ranked default
    routed
  have notedStores : noted.Stores P := by
    unfold noted
    split
    · exact stores.of_eq rfl
    · exact stores
  have describedStores : described.Stores P :=
    (notedStores.describeDag dag announced).modifyDag dag _ fun _ => rfl
  have rankedStores : ranked.Stores P :=
    rule.setFirstRank _ dag parent
      (rule.updateMetricContainer _ inst
        (rule.rplSetPreferredParent _ dag (some parent)
          (describedStores.of_eq rfl)))
  have defaultStores : default.Stores P := by
    unfold default
    split
    · exact rankedStores.of_eq rfl
    · exact rankedStores
  have routedStores : routed.Stores P :=
    rule.rplSetDefaultRoute _ inst (some source)
      (rule.rplResetDioTimer _ inst defaultStores)
  split
  · exact routedStores.of_eq rfl
  · exact routedStores

theorem Stores.rplJoinInstance (rule : PrefixRule P)
    (stores : state.Stores P) (source : IpAddr) {dio : Dio}
    (announced : P dio.prefixInfo.length dio.prefixInfo.prefixAddr) :
    (state.rplJoinInstance source dio).Stores P := by
  have allocatedStores := stores.rplAllocDag rule dio.instanceId
  unfold State.rplJoinInstance
  split
  · next later failed =>
      rw [failed] at allocatedStores
      exact allocatedStores
  · next dag later allocated =>
      rw [allocated] at allocatedStores
      have addedStores := (storesRule P).rplAddParent later dag dio source
        allocatedStores
      split
      · next later failed =>
          rw [failed] at addedStores
          exact addedStores.of_eq rfl
      · next parent later success =>
          rw [success] at addedStores
          split
          · exact Stores.of_eq ((storesRule P).rplRemoveParent later parent
              addedStores) rfl
          · exact addedStores.joinDag source dag parent announced

theorem Stores.enterDag (stores : state.Stores P) {dio : Dio}
    {dag : DagRef config} {parent : Fin config.nbrTableMaxNeighbors}
    (inDag : ∀ entry, state.rplParents parent = some entry →
      entry.dag = dag)
    (announced : P dio.prefixInfo.length dio.prefixInfo.prefixAddr) :
    (state.enterDag dio dag parent).Stores P := by
  have rule := @storesRule config P
  have rankedStores := rule.setFirstRank _ dag parent
    (rule.rplSetPreferredParent _ dag (some parent)
      (stores.describeDag dag announced))
  refine rule.setDtsn _ parent dio.dtsn
    (rule.rplProcessParentEvent _ dag.inst parent ?_ rankedStores)
  intro entry found
  change ((state.describeDag dag dio).rplSetPreferredParent dag
    (some parent)).rplParents parent = some entry at found
  rw [rplParents_rplSetPreferredParent] at found
  rw [inDag entry found]

theorem Stores.rplAddDag (rule : PrefixRule P) (stores : state.Stores P)
    (source : IpAddr) {dio : Dio}
    (announced : P dio.prefixInfo.length dio.prefixInfo.prefixAddr) :
    (state.rplAddDag source dio).Stores P := by
  have allocatedStores := stores.rplAllocDag rule dio.instanceId
  unfold State.rplAddDag
  split
  · next later failed =>
      rw [failed] at allocatedStores
      exact allocatedStores
  · next dag later allocated =>
      rw [allocated] at allocatedStores
      have takenStores := (storesRule P).takeParent later dag dio source
        allocatedStores
      split
      · next later failed =>
          rw [failed] at takenStores
          exact takenStores.modifyDag dag _ fun _ => rfl
      · next parent later taken =>
          rw [taken] at takenStores
          split
          · exact Stores.modifyDag ((storesRule P).rplRemoveParent later
              parent takenStores) dag _ fun _ => rfl
          · exact takenStores.enterDag (takeParent_dag taken) announced

theorem Stores.globalRepair (stores : state.Stores P) (source : IpAddr)
    (dag : DagRef config) (dio : Dio) :
    (state.globalRepair source dag dio).Stores P := by
  have rule := @storesRule config P
  have versionStores : ((state.removeParents dag 0).modifyDag dag
      fun entry => { entry with version := dio.version }).Stores P :=
    Stores.modifyDag (rule.removeParents state dag 0 stores) dag _
      fun _ => rfl
  refine rule.repairParent _ source dag dio ?_
  unfold State.startRepair
  exact rule.incrementDtsn _ dag.inst
    (Stores.modifyDag (versionStores.modifyInstance dag.inst _) dag _
      fun _ => rfl)

theorem Stores.processCurrentDio (rule : PrefixRule P)
    (stores : state.Stores P) (source : IpAddr) {dio : Dio}
    (inst : Fin config.maxInstances) (dag : DagRef config)
    (announced : P dio.prefixInfo.length dio.prefixInfo.prefixAddr) :
    (state.processCurrentDio source dio inst dag).Stores P := by
  unfold State.processCurrentDio
  split
  · exact stores
  · extract_lets poisoned prefixed
    have poisonedStores : poisoned.Stores P := by
      unfold poisoned
      split
      · exact (storesRule P).rplResetDioTimer state inst stores
      · exact stores
    have prefixedStores : prefixed.Stores P :=
      poisonedStores.processPrefix rule dag announced
    split
    · split
      · exact (storesRule P).countDio _ inst prefixedStores
      · exact prefixedStores
    · exact (storesRule P).processKnownDio _ source dio dag prefixedStores

theorem Stores.processVersion (rule : PrefixRule P)
    (stores : state.Stores P) (source : IpAddr) {dio : Dio}
    (inst : Fin config.maxInstances) (dag : Option (DagRef config))
    (announced : P dio.prefixInfo.length dio.prefixInfo.prefixAddr) :
    (state.processVersion source dio inst dag).Stores P := by
  unfold State.processVersion
  dsimp only
  split
  · exact stores
  · cases dag with
    | none =>
        exact stores.rplAddDag rule source announced
    | some dag =>
        exact stores.processCurrentDio rule source inst dag announced

theorem Stores.rplProcessDio (rule : PrefixRule P) (stores : state.Stores P)
    (source : IpAddr) {dio : Dio}
    (announced : P dio.prefixInfo.length dio.prefixInfo.prefixAddr) :
    (state.rplProcessDio source dio).Stores P := by
  unfold State.rplProcessDio
  split
  · exact stores
  split
  · exact stores.rplJoinInstance rule source announced
  next inst _ =>
  split
  · exact stores.processVersion rule source inst none announced
  next dag _ =>
  dsimp only
  split
  · exact (stores.processPrefix rule dag announced).globalRepair source dag
      dio
  split
  · exact (storesRule P).rplResetDioTimer _ inst
      (stores.modifyDag dag _ fun _ => rfl)
  split
  · exact (storesRule P).rplResetDioTimer state inst stores
  · exact stores.processVersion rule source inst (some dag) announced

theorem Stores.handleDioTimer (stores : state.Stores P)
    (inst : Fin config.maxInstances) :
    (state.handleDioTimer inst).Stores P := by
  unfold State.handleDioTimer
  extract_lets entry
  split
  · exact stores
  split
  · have sentStores : (if entry.dioRedundancy ≠ 0 ∧
        entry.dioCounter < entry.dioRedundancy then state.sendDio inst
      else state).Stores P := by
      split
      · exact (storesRule P).sendDio state inst stores
      · exact stores
    exact sentStores.of_eq rfl
  · exact stores.of_eq rfl

theorem Stores.configureRoot (stores : state.Stores P)
    (dag : DagRef config) (dagId : IpAddr) (version : UInt8) :
    (state.configureRoot dag dagId version).Stores P := by
  unfold State.configureRoot
  extract_lets described ranked
  have describedStores : described.Stores P :=
    stores.modifyDag dag _ fun _ => rfl
  have rankedStores : ranked.Stores P :=
    Stores.modifyDag ((storesRule P).rplSetPreferredParent described dag none
      describedStores) dag _ fun _ => rfl
  exact rankedStores.of_eq rfl

theorem Stores.enterRootDag (stores : state.Stores P)
    (dag : DagRef config) : (state.enterRootDag dag).Stores P := by
  have rule := @storesRule config P
  unfold State.enterRootDag
  extract_lets inst left current
  have leftStores : left.Stores P := by
    unfold left
    split
    · exact stores
    · split
      · exact Stores.modifyDag (stores.note _) _ _ fun _ => rfl
      · exact stores
  have currentStores : current.Stores P :=
    rule.updateMetricContainer _ inst (leftStores.of_eq rfl)
  exact rule.rplResetDioTimer _ inst (currentStores.of_eq rfl)

theorem Stores.dropDag (stores : state.Stores P) (dag : DagRef config) :
    (state.dropDag dag).Stores P := by
  unfold State.dropDag
  extract_lets left
  refine Stores.rplFreeDag ?_ dag
  unfold left
  split
  · exact stores.of_eq rfl
  · exact stores

theorem Stores.rplSetRoot (rule : PrefixRule P) (stores : state.Stores P)
    (instanceId : UInt8) (dagId : IpAddr) :
    (state.rplSetRoot instanceId dagId).Stores P := by
  have enters : ∀ (state : State config) (version : UInt8)
      (dag : DagRef config), state.Stores P →
      ((state.configureRoot dag dagId version).enterRootDag dag).Stores P :=
    fun state version dag stores =>
      (stores.configureRoot dag dagId version).enterRootDag dag
  unfold State.rplSetRoot
  cases state.getDag instanceId dagId with
  | none =>
      have allocatedStores := stores.rplAllocDag rule instanceId
      dsimp only
      split
      · next later failed =>
          rw [failed] at allocatedStores
          exact allocatedStores
      · next dag later allocated =>
          rw [allocated] at allocatedStores
          exact enters later _ dag allocatedStores
  | some old =>
      have allocatedStores := (stores.dropDag old).rplAllocDag rule instanceId
      dsimp only
      split
      · next later failed =>
          rw [failed] at allocatedStores
          exact allocatedStores
      · next dag later allocated =>
          rw [allocated] at allocatedStores
          exact enters later _ dag allocatedStores

/-- The input is no DIO, or its prefix has the property. -/
def Announces (P : UInt8 → IpAddr → Prop) : Input config → Prop
  | .dio _ dio => P dio.prefixInfo.length dio.prefixInfo.prefixAddr
  | _ => True

theorem Stores.step (rule : PrefixRule P) (stores : state.Stores P)
    {input : Input config} (announces : Announces P input) :
    (state.step input).Stores P := by
  have selection := @storesRule config P
  cases input with
  | dio source dio =>
      exact stores.rplProcessDio rule source announces
  | dao dao =>
      exact selection.daoInput state dao stores
  | dis multicast =>
      exact selection.disInput state multicast stores
  | linkMetric addr status numtx =>
      exact selection.rplLinkNeighborCallback state addr status numtx stores
  | addNeighbor ipaddr lladdr =>
      exact selection.uipDs6NbrAdd state ipaddr lladdr stores
  | removeNeighbor neighbor =>
      exact selection.uipDs6NbrRm state neighbor stores
  | evict neighbor =>
      exact selection.evict state neighbor stores
  | recalculate =>
      exact selection.rplRecalculateRanks state stores
  | dioTimer inst =>
      exact stores.handleDioTimer inst
  | setRoot instanceId dagId =>
      exact stores.rplSetRoot rule instanceId dagId

theorem stores_initial (rule : PrefixRule P) :
    (State.initial : State config).Stores P :=
  fun _ => rule.zero

end State

end Contiki.Rpl
