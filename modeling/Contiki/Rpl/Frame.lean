import Contiki.Rpl.Node

/-!
# What the selection of parents does

The functions that select parents and ranks change neither the configuration
of an instance nor what a DAG is.  A relation between states that holds of
their elementary steps holds of each of these functions.
-/

namespace Contiki.Rpl

open Contiki.Lib

variable {config : RplConfig}

/-- What a DAG is, without its parents and ranks. -/
def Dag.setup (dag : Dag config) : Dag config :=
  { dag with
    minRank := 0
    joined := false
    preferredParent := none
    rank := 0 }

/-- The configuration of an instance and its timer. -/
def Instance.setup (entry : Instance config) : Instance config :=
  { entry with
    mc := .zero
    currentDag := none
    defRoute := none
    dtsnOut := 0
    dioSend := false
    dioCounter := 0 }

/-- A write to an instance that keeps its configuration. -/
structure Instance.Keeps (before after : Instance config) : Prop where
  setup : after.setup = before.setup
  current : after.currentDag.isSome → before.currentDag.isSome

variable (state : State config) (dag : DagRef config)
  (inst other : Fin config.maxInstances)
  (parent : Fin config.nbrTableMaxNeighbors)

namespace State

theorem dagTable_modifyDag (ref other : DagRef config)
    (change : Dag config → Dag config) :
    (state.modifyDag ref change).dagTable other =
      if other = ref then change (state.dagTable ref)
      else state.dagTable other :=
  Function.update_apply _ _ _ _

theorem instanceTable_modifyInstance
    (change : Instance config → Instance config) :
    (state.modifyInstance inst change).instanceTable other =
      if other = inst then change (state.instanceTable inst)
      else state.instanceTable other :=
  Function.update_apply _ _ _ _

theorem rplParents_setParent (parent other : Fin config.nbrTableMaxNeighbors)
    (entry : Option (Parent config)) :
    (state.setParent parent entry).rplParents other =
      if other = parent then entry else state.rplParents other :=
  Function.update_apply _ _ _ _

/-- The event reports what the state holds. -/
def Supports (state : State config) : Event config → Prop
  | .dagRank divisor =>
      ∃ inst, divisor = (state.instanceTable inst).minHoprankinc ∧
        ((state.instanceTable inst).maxRankinc ≠ 0 ∨
          (state.instanceTable inst).currentDag.isSome)
  | .dioInterval _ => False
  | .acceptableRank rank minRank maxRankinc minHoprankinc acceptable =>
      ∃ dag, minRank = (state.dagTable dag).minRank ∧
        maxRankinc = (state.instanceTable dag.inst).maxRankinc ∧
        minHoprankinc = (state.instanceTable dag.inst).minHoprankinc ∧
        acceptable = state.acceptableRank dag rank
  | .calculateRank parentRank rank =>
      ∃ parent, parentRank = state.parentRank parent ∧
        rank = state.calculateRank (some parent) 0
  | _ => True

theorem Supports.of_eq {before after : State config} {event : Event config}
    (supports : before.Supports event)
    (instances : after.instanceTable = before.instanceTable)
    (dags : after.dagTable = before.dagTable)
    (neighbors : after.ds6Neighbors = before.ds6Neighbors)
    (parents : after.rplParents = before.rplParents) :
    after.Supports event := by
  unfold Supports acceptableRank parentRank calculateRank
    mrhofCalculateRank of0CalculateRank rplGetNbr parentRank at *
  rw [instances, dags, neighbors, parents]
  exact supports

theorem bestParent_divisions :
    ∀ event ∈ (state.bestParent dag).2,
      event = .dagRank (state.instanceTable dag.inst).minHoprankinc := by
  have step : ∀ (best next : Fin config.nbrTableMaxNeighbors),
      ∀ event ∈ (state.ofBestParent dag best next).2,
        event = .dagRank (state.instanceTable dag.inst).minHoprankinc := by
    intro best next event member
    unfold ofBestParent at member
    split at member
    · simp at member
    · unfold of0BestParent at member
      dsimp only at member
      split at member
      · simpa using member
      · simp at member
  refine List.foldlRecOn (motive := fun result => ∀ event ∈ result.2,
      event = .dagRank (state.instanceTable dag.inst).minHoprankinc)
    state.nbrTableKeys (state.betterParent dag) ?_
    fun result divisions parent _ => ?_
  · exact fun event member => absurd member List.not_mem_nil
  unfold betterParent
  split
  · split
    · exact divisions
    · split
      · exact divisions
      · intro event member
        cases List.mem_append.1 member with
        | inl earlier =>
            exact divisions event earlier
        | inr new =>
            exact step _ parent event new
  · exact divisions

@[simp]
theorem instanceTable_rplSetPreferredParent
    (parent : Option (Fin config.nbrTableMaxNeighbors)) :
    (state.rplSetPreferredParent dag parent).instanceTable =
      state.instanceTable := by
  unfold rplSetPreferredParent setLock
  dsimp only
  split
  · cases parent <;> cases (state.dagTable dag).preferredParent <;> rfl
  · rfl

@[simp]
theorem rplParents_rplSetPreferredParent
    (parent : Option (Fin config.nbrTableMaxNeighbors)) :
    (state.rplSetPreferredParent dag parent).rplParents =
      state.rplParents := by
  unfold rplSetPreferredParent setLock
  dsimp only
  split
  · cases parent <;> cases (state.dagTable dag).preferredParent <;> rfl
  · rfl

theorem instanceTable_rplSelectParent :
    (state.rplSelectParent dag).2.instanceTable = state.instanceTable := by
  unfold rplSelectParent
  dsimp only
  split
  · exact instanceTable_rplSetPreferredParent _ _ _
  · rfl

theorem instanceTable_chooseDag
    (inst : Fin config.maxInstances) (current parentDag : DagRef config) :
    (state.chooseDag inst current parentDag).2.instanceTable =
      state.instanceTable := by
  unfold chooseDag
  dsimp only
  split
  · split
    · exact instanceTable_rplSelectParent state parentDag
    · split
      · exact instanceTable_rplSelectParent state parentDag
      · exact instanceTable_rplSelectParent state parentDag
  · rfl

theorem currentDag_modifyInstance (change : Instance config → Instance config)
    (same : (change (state.instanceTable inst)).currentDag =
      (state.instanceTable inst).currentDag) :
    (state.modifyInstance inst change).currentDag other =
      state.currentDag other := by
  unfold currentDag
  rw [instanceTable_modifyInstance]
  split
  · next found =>
      rw [found, same]
  · rfl

theorem currentDag_removeDefRoute :
    (state.removeDefRoute inst).currentDag other =
      state.currentDag other := by
  unfold removeDefRoute
  split
  · rw [currentDag_modifyInstance _ _ _ _ rfl]
    unfold uipDs6DefrtRm
    split <;> rfl
  · rfl

theorem rplParents_removeDefRoute (inst : Fin config.maxInstances) :
    (state.removeDefRoute inst).rplParents = state.rplParents := by
  unfold removeDefRoute uipDs6DefrtRm
  split
  · split <;> rfl
  · rfl

theorem currentDag_rplNullifyParent (inst : Fin config.maxInstances) :
    (state.rplNullifyParent parent).currentDag inst =
      state.currentDag inst := by
  have same : ∀ dag : DagRef config,
      ((state.rplSetPreferredParent dag none).modifyDag dag
        fun entry => { entry with rank := infiniteRank }).currentDag inst =
      state.currentDag inst := by
    intro dag
    simp [currentDag, modifyDag]
  unfold rplNullifyParent
  split
  · rfl
  · dsimp only
    split
    · split
      · exact (currentDag_removeDefRoute _ _ _).trans (same _)
      · exact same _
    · rfl

theorem rplParents_rplNullifyParent :
    (state.rplNullifyParent parent).rplParents = state.rplParents := by
  unfold rplNullifyParent
  split
  · rfl
  · dsimp only
    split
    · split
      · exact (rplParents_removeDefRoute _ _).trans
          (rplParents_rplSetPreferredParent _ _ _)
      · exact rplParents_rplSetPreferredParent _ _ _
    · rfl

/-- What `rpl_add_parent` does. -/
theorem rplAddParent_cases {state later : State config}
    {dag : DagRef config} {dio : Dio} {addr : IpAddr}
    {result : Option (Fin config.nbrTableMaxNeighbors)}
    (added : state.rplAddParent dag dio addr = (result, later)) :
    result = state.uipDs6NbrLookup addr ∧
      (result = none ∧ later = state ∨
        ∃ parent, result = some parent ∧
          later = (state.setParent parent
            (some (newParent dag dio))).initLinkMetric parent) := by
  unfold rplAddParent at added
  split at added
  · next unknown =>
      simp only [Prod.mk.injEq] at added
      obtain ⟨rfl, rfl⟩ := added
      exact ⟨unknown.symm, Or.inl ⟨rfl, rfl⟩⟩
  · next parent known =>
      simp only [Prod.mk.injEq] at added
      obtain ⟨rfl, rfl⟩ := added
      exact ⟨known.symm, Or.inr ⟨parent, rfl, rfl⟩⟩

@[simp]
theorem rplParents_initLinkMetric :
    (state.initLinkMetric parent).rplParents = state.rplParents := by
  unfold initLinkMetric
  split <;> rfl

@[simp]
theorem instanceTable_initLinkMetric :
    (state.initLinkMetric parent).instanceTable = state.instanceTable := by
  unfold initLinkMetric
  split <;> rfl

@[simp]
theorem dagTable_initLinkMetric :
    (state.initLinkMetric parent).dagTable = state.dagTable := by
  unfold initLinkMetric
  split <;> rfl

@[simp]
theorem log_initLinkMetric :
    (state.initLinkMetric parent).log = state.log := by
  unfold initLinkMetric
  split <;> rfl

/-- The entry that `rpl_add_parent` returns is in the DAG. -/
theorem rplAddParent_dag {state later : State config}
    {dag : DagRef config} {dio : Dio} {addr : IpAddr}
    {parent : Fin config.nbrTableMaxNeighbors} {entry : Parent config}
    (added : state.rplAddParent dag dio addr = (some parent, later))
    (found : later.rplParents parent = some entry) :
    entry.dag = dag := by
  obtain ⟨_, ⟨failed, _⟩ | ⟨parent', same, rfl⟩⟩ :=
    rplAddParent_cases added
  · simp at failed
  · rw [rplParents_initLinkMetric, rplParents_setParent,
      if_pos (Option.some.inj same), Option.some.injEq] at found
    rw [← found]
    rfl

/-- What `rpl_alloc_instance` does. -/
theorem rplAllocInstance_cases (instanceId : UInt8) :
    (∃ inst, ¬ (state.instanceTable inst).used ∧
      state.rplAllocInstance instanceId =
        (some inst, state.clearInstance instanceId inst)) ∨
    state.rplAllocInstance instanceId = (none, state) := by
  unfold rplAllocInstance
  split
  · exact Or.inr rfl
  · next inst isFree =>
      exact Or.inl ⟨inst, by simpa using List.find?_some isFree, rfl⟩

theorem mem_dagRefs {inst : Fin config.maxInstances}
    {dag : DagRef config} (member : dag ∈ dagRefs inst) :
    dag.inst = inst := by
  obtain ⟨index, _, rfl⟩ := List.mem_map.1 member
  rfl

/-- The state in which `rpl_alloc_dag` looks for a free DAG of an
instance. -/
inductive FindsInstance (state : State config) (instanceId : UInt8)
    (inst : Fin config.maxInstances) : State config → Prop where
  | known (isInstance : state.rplGetInstance instanceId = some inst) :
      FindsInstance state instanceId inst state
  | new (unknown : state.rplGetInstance instanceId = none)
      (free : ¬ (state.instanceTable inst).used) :
      FindsInstance state instanceId inst
        (state.clearInstance instanceId inst)

/-- What `rpl_alloc_dag` does. -/
theorem rplAllocDag_cases (instanceId : UInt8) :
    (∃ dag found, FindsInstance state instanceId dag.inst found ∧
      ¬ (found.dagTable dag).used ∧
      state.rplAllocDag instanceId = (some dag, found.clearDag dag)) ∨
    (∃ inst found, FindsInstance state instanceId inst found ∧
      (∀ dag ∈ dagRefs inst, (found.dagTable dag).used) ∧
      state.rplAllocDag instanceId = (none, found.rplFreeInstance inst)) ∨
    state.rplAllocDag instanceId = (none, state) := by
  have search : ∀ (inst : Fin config.maxInstances) (found : State config),
      FindsInstance state instanceId inst found →
      (∀ dag, ((dagRefs inst).find? fun dag =>
          ¬ (found.dagTable dag).used) = some dag →
        state.rplAllocDag instanceId = (some dag, found.clearDag dag)) →
      (((dagRefs inst).find? fun dag =>
          ¬ (found.dagTable dag).used) = none →
        state.rplAllocDag instanceId =
          (none, found.rplFreeInstance inst)) →
      (∃ dag found, FindsInstance state instanceId dag.inst found ∧
        ¬ (found.dagTable dag).used ∧
        state.rplAllocDag instanceId = (some dag, found.clearDag dag)) ∨
      (∃ inst found, FindsInstance state instanceId inst found ∧
        (∀ dag ∈ dagRefs inst, (found.dagTable dag).used) ∧
        state.rplAllocDag instanceId =
          (none, found.rplFreeInstance inst)) := by
    intro inst found finds allocated notAllocated
    cases search : (dagRefs inst).find? fun dag =>
        ¬ (found.dagTable dag).used with
    | some dag =>
        have inInst := mem_dagRefs (List.mem_of_find?_eq_some search)
        refine Or.inl ⟨dag, found, ?_, ?_, allocated dag search⟩
        · rw [inInst]
          exact finds
        · simpa using List.find?_some search
    | none =>
        have allUsed := search
        refine Or.inr ⟨inst, found, finds, ?_, notAllocated search⟩
        intro dag member
        simpa using List.find?_eq_none.1 allUsed dag member
  cases known : state.rplGetInstance instanceId with
  | some inst =>
      refine (search inst state (.known known) ?_ ?_).elim Or.inl
        fun freed => Or.inr (Or.inl freed)
      · intro dag isFree
        unfold rplAllocDag
        rw [known]
        dsimp only
        rw [isFree]
      · intro allUsed
        unfold rplAllocDag
        rw [known]
        dsimp only
        rw [allUsed]
  | none =>
      obtain ⟨inst, free, new⟩ | full :=
        rplAllocInstance_cases state instanceId
      · refine (search inst _ (.new known free) ?_ ?_).elim Or.inl
          fun freed => Or.inr (Or.inl freed)
        · intro dag isFree
          unfold rplAllocDag
          rw [known]
          dsimp only
          rw [new]
          dsimp only
          rw [isFree]
        · intro allUsed
          unfold rplAllocDag
          rw [known]
          dsimp only
          rw [new]
          dsimp only
          rw [allUsed]
      · refine Or.inr (Or.inr ?_)
        unfold rplAllocDag
        rw [known]
        dsimp only
        rw [full]

theorem rplMoveParent_dag {state : State config}
    {dagSrc dagDst : DagRef config}
    {parent : Fin config.nbrTableMaxNeighbors} :
    ∀ entry, (state.rplMoveParent dagSrc dagDst parent).rplParents parent =
      some entry → entry.dag = dagDst := by
  intro entry found
  unfold rplMoveParent at found
  rw [rplParents_setParent, if_pos rfl, Option.map_eq_some_iff] at found
  obtain ⟨_, _, rfl⟩ := found
  rfl

theorem takeParent_dag {state later : State config} {dag : DagRef config}
    {dio : Dio} {source : IpAddr}
    {parent : Fin config.nbrTableMaxNeighbors}
    (taken : state.takeParent dag dio source = (some parent, later)) :
    ∀ entry, later.rplParents parent = some entry → entry.dag = dag := by
  unfold takeParent at taken
  split at taken
  · exact fun entry found => rplAddParent_dag taken found
  · split at taken
    · simp only [Prod.mk.injEq, Option.some.injEq] at taken
      obtain ⟨rfl, rfl⟩ := taken
      exact rplMoveParent_dag
    · simp at taken

theorem rplFindParent_dag {state : State config} {dag : DagRef config}
    {addr : IpAddr} {parent : Fin config.nbrTableMaxNeighbors}
    (isParent : state.rplFindParent dag addr = some parent) :
    ∀ entry, state.rplParents parent = some entry → entry.dag = dag := by
  intro entry found
  have matching := (Option.filter_eq_some_iff.1 isParent).2
  rw [found] at matching
  simpa using matching

/-- The parent that a DIO is from is in the DAG of the DIO. -/
theorem candidateParent_dag {state later : State config}
    {dag : DagRef config} {dio : Dio} {source : IpAddr}
    {parent : Fin config.nbrTableMaxNeighbors}
    (candidate : state.candidateParent dag dio source =
      (some parent, later)) :
    ∀ entry, later.rplParents parent = some entry → entry.dag = dag := by
  unfold candidateParent at candidate
  split at candidate
  · exact takeParent_dag candidate
  · next known isParent =>
      simp only [Prod.mk.injEq, Option.some.injEq] at candidate
      obtain ⟨rfl, rfl⟩ := candidate
      have inDag := rplFindParent_dag isParent
      intro entry found
      split at found
      · split at found
        · exact inDag entry found
        · exact inDag entry found
      · rw [rplParents_setParent, if_pos rfl,
          Option.map_eq_some_iff] at found
        obtain ⟨before, isEntry, rfl⟩ := found
        exact inDag before isEntry

theorem setMc_dag {state : State config} {dag : DagRef config}
    {parent : Fin config.nbrTableMaxNeighbors} {mc : MetricContainer}
    (inDag : ∀ entry, state.rplParents parent = some entry →
      entry.dag = dag) :
    ∀ entry, (state.setMc parent mc).rplParents parent = some entry →
      entry.dag = dag := by
  intro entry found
  unfold setMc at found
  split at found
  · exact inDag entry found
  · rw [rplParents_setParent, if_pos rfl, Option.map_eq_some_iff] at found
    obtain ⟨before, isEntry, rfl⟩ := found
    exact inDag before isEntry

end State

/-- The relation holds of every elementary write to parents and ranks, and of
sequences of them. -/
structure ParentRule (R : State config → State config → Prop) :
    Prop where
  refl : ∀ state, R state state
  trans : ∀ {first second third}, R first second → R second third →
    R first third
  note : ∀ state event, state.Supports event → R state (state.note event)
  modifyDag : ∀ state ref (change : Dag config → Dag config),
    (∀ dag, (change dag).setup = dag.setup) →
      R state (state.modifyDag ref change)
  modifyInstance : ∀ state inst (change : Instance config →
    Instance config),
    (state.instanceTable inst).Keeps (change (state.instanceTable inst)) →
      R state (state.modifyInstance inst change)
  tables : ∀ {before after : State config},
    after.dagTable = before.dagTable →
    after.instanceTable = before.instanceTable →
    after.log = before.log → R before after

/-- The relation also holds of a reset of the timer. -/
structure SelectionRule (R : State config → State config → Prop) : Prop
    extends ParentRule R where
  rplResetDioTimer : ∀ state inst, R state (state.rplResetDioTimer inst)

namespace ParentRule

open State

variable {R : State config → State config → Prop}

theorem noteAll (rule : ParentRule R) (state : State config)
    {events : List (Event config)}
    (supports : ∀ event ∈ events, state.Supports event) :
    R state (state.noteAll events) := by
  induction events generalizing state with
  | nil =>
      exact rule.tables rfl rfl (by simp [State.noteAll])
  | cons event rest inductionHypothesis =>
      have noted := rule.note state event (supports event List.mem_cons_self)
      have later := inductionHypothesis (state.note event)
        fun other member =>
          (supports other (List.mem_cons_of_mem event member)).of_eq
            rfl rfl rfl rfl
      have same : (state.note event).noteAll rest =
          state.noteAll (event :: rest) := by
        simp [State.noteAll, State.note]
      rw [same] at later
      exact rule.trans noted later

theorem setParent (rule : ParentRule R) (state : State config)
    (parent : Fin config.nbrTableMaxNeighbors)
    (entry : Option (Parent config)) :
    R state (state.setParent parent entry) :=
  rule.tables rfl rfl rfl

theorem setLock (rule : ParentRule R) (state : State config)
    (parent : Option (Fin config.nbrTableMaxNeighbors)) (locked : Bool) :
    R state (state.setLock parent locked) := by
  cases parent with
  | none =>
      exact rule.refl state
  | some parent =>
      exact rule.tables rfl rfl rfl

theorem setLinkMetric (rule : ParentRule R) (state : State config)
    (neighbor : Fin config.nbrTableMaxNeighbors) (linkMetric : UInt16) :
    R state (state.setLinkMetric neighbor linkMetric) :=
  rule.tables rfl rfl rfl

theorem foldl (rule : ParentRule R) {α : Type} (items : List α)
    {action : State config → α → State config}
    (step : ∀ state item, R state (action state item))
    (state : State config) :
    R state (items.foldl action state) := by
  induction items generalizing state with
  | nil =>
      exact rule.refl state
  | cons item rest inductionHypothesis =>
      exact rule.trans (step state item) (inductionHypothesis _)

theorem removeDefRoute (rule : ParentRule R) (state : State config)
    (inst : Fin config.maxInstances) :
    R state (state.removeDefRoute inst) := by
  unfold State.removeDefRoute
  split
  · next router _ =>
      have removed : R state (state.uipDs6DefrtRm router) := by
        unfold uipDs6DefrtRm
        split
        · exact rule.tables rfl rfl rfl
        · exact rule.refl state
      exact rule.trans removed
        (rule.modifyInstance _ inst _ ⟨rfl, id⟩)
  · exact rule.refl state

theorem uipDs6DefrtAdd (rule : ParentRule R) (state : State config)
    (addr : IpAddr) :
    R state (state.uipDs6DefrtAdd addr).2 := by
  unfold State.uipDs6DefrtAdd
  split
  · exact rule.refl state
  · split
    · exact rule.refl state
    · exact rule.tables rfl rfl rfl

theorem rplSetDefaultRoute (rule : ParentRule R) (state : State config)
    (inst : Fin config.maxInstances) (source : Option IpAddr) :
    R state (state.rplSetDefaultRoute inst source) := by
  cases source with
  | none =>
      exact rule.removeDefRoute state inst
  | some source =>
      have routed := rule.trans (rule.removeDefRoute state inst)
        (rule.uipDs6DefrtAdd _ source)
      exact rule.trans routed
        (rule.modifyInstance _ inst (fun entry => { entry with
          defRoute :=
            ((state.removeDefRoute inst).uipDs6DefrtAdd source).1 })
        ⟨rfl, id⟩)

theorem rplSetPreferredParent (rule : ParentRule R)
    (state : State config) (dag : DagRef config)
    (parent : Option (Fin config.nbrTableMaxNeighbors)) :
    R state (state.rplSetPreferredParent dag parent) := by
  unfold State.rplSetPreferredParent
  dsimp only
  split
  · exact rule.trans (rule.setLock state _ _) (rule.trans
      (rule.setLock _ _ _) (rule.modifyDag _ dag _ fun _ => rfl))
  · exact rule.refl state

theorem loseRank (rule : ParentRule R) (state : State config)
    (dag : DagRef config) :
    R state ((state.rplSetPreferredParent dag none).modifyDag dag
      fun entry => { entry with rank := infiniteRank }) :=
  rule.trans (rule.rplSetPreferredParent state dag none)
    (rule.modifyDag _ dag _ fun _ => rfl)

theorem rplNullifyParent (rule : ParentRule R) (state : State config)
    (parent : Fin config.nbrTableMaxNeighbors) :
    R state (state.rplNullifyParent parent) := by
  unfold State.rplNullifyParent
  split
  · exact rule.refl state
  · next entry _ =>
      dsimp only
      split
      · have lost := rule.loseRank state entry.dag
        split
        · exact rule.trans lost (rule.trans (rule.removeDefRoute _ _)
            (rule.note _ _ trivial))
        · exact lost
      · exact rule.refl state

theorem rplRemoveParent (rule : ParentRule R) (state : State config)
    (parent : Fin config.nbrTableMaxNeighbors) :
    R state (state.rplRemoveParent parent) :=
  rule.trans (rule.rplNullifyParent state parent)
    (rule.trans (rule.setParent _ _ _) (rule.setLock _ _ _))

theorem forParents (rule : ParentRule R) (state : State config)
    (dag : DagRef config) (minimumRank : UInt16)
    {action : State config → Fin config.nbrTableMaxNeighbors →
      State config}
    (step : ∀ state parent, R state (action state parent)) :
    R state (state.forParents dag minimumRank action) := by
  refine rule.foldl _ (fun state parent => ?_) state
  split
  · split
    · exact step state parent
    · exact rule.refl state
  · exact rule.refl state

theorem removeParents (rule : ParentRule R) (state : State config)
    (dag : DagRef config) (minimumRank : UInt16) :
    R state (state.removeParents dag minimumRank) :=
  rule.forParents state dag minimumRank rule.rplRemoveParent

theorem nullifyParents (rule : ParentRule R) (state : State config)
    (dag : DagRef config) (minimumRank : UInt16) :
    R state (state.nullifyParents dag minimumRank) :=
  rule.forParents state dag minimumRank rule.rplNullifyParent

theorem rplMoveParent (rule : ParentRule R) (state : State config)
    (dagSrc dagDst : DagRef config)
    (parent : Fin config.nbrTableMaxNeighbors) :
    R state (state.rplMoveParent dagSrc dagDst parent) := by
  unfold State.rplMoveParent
  dsimp only
  split
  · have lost := rule.loseRank state dagSrc
    split
    · exact rule.trans lost (rule.trans (rule.removeDefRoute _ _)
        (rule.setParent _ _ _))
    · exact rule.trans lost (rule.setParent _ _ _)
  · split
    · exact rule.trans
        (rule.note state (.removeRoutesByNexthop parent dagSrc) trivial)
        (rule.setParent _ _ _)
    · exact rule.setParent state _ _

theorem rplAddParent (rule : ParentRule R) (state : State config)
    (dag : DagRef config) (dio : Dio) (addr : IpAddr) :
    R state (state.rplAddParent dag dio addr).2 := by
  unfold State.rplAddParent
  split
  · exact rule.refl state
  · exact rule.tables (by simp [State.setParent])
      (by simp [State.setParent]) (by simp [State.setParent])

theorem takeParent (rule : ParentRule R) (state : State config)
    (dag : DagRef config) (dio : Dio) (source : IpAddr) :
    R state (state.takeParent dag dio source).2 := by
  unfold State.takeParent
  split
  · exact rule.rplAddParent state dag dio source
  · split
    · exact rule.rplMoveParent state _ dag _
    · exact rule.refl state

theorem rplSelectParent (rule : ParentRule R) (state : State config)
    (dag : DagRef config)
    (active : (state.instanceTable dag.inst).currentDag.isSome) :
    R state (state.rplSelectParent dag).2 := by
  have noted : R state (state.noteAll (state.bestParent dag).2) :=
    rule.noteAll state fun event member => by
      rw [bestParent_divisions state dag event member]
      exact ⟨dag.inst, rfl, Or.inr active⟩
  unfold State.rplSelectParent
  dsimp only
  split
  · exact rule.trans noted (rule.rplSetPreferredParent _ _ _)
  · exact noted

theorem updateMetricContainer (rule : ParentRule R)
    (state : State config) (inst : Fin config.maxInstances) :
    R state (state.updateMetricContainer inst) := by
  unfold State.updateMetricContainer mrhofUpdateMetricContainer
  split
  · split
    · exact rule.modifyInstance state inst _ ⟨rfl, id⟩
    · refine rule.modifyInstance state inst _ ?_
      dsimp only
      split <;> exact ⟨rfl, id⟩
  · exact rule.modifyInstance state inst _ ⟨rfl, id⟩

theorem setRank (rule : ParentRule R) (state : State config)
    (dag : DagRef config)
    (parent : Option (Fin config.nbrTableMaxNeighbors)) :
    R state (state.setRank dag parent) := by
  have noted : R state (state.noteCalculateRank parent) := by
    cases parent with
    | none =>
        exact rule.refl state
    | some parent =>
        exact rule.note state (.calculateRank _ _) ⟨parent, rfl, rfl⟩
  exact rule.trans noted (rule.modifyDag _ dag _ fun _ => rfl)

theorem setFirstRank (rule : ParentRule R) (state : State config)
    (dag : DagRef config) (parent : Fin config.nbrTableMaxNeighbors) :
    R state (state.setFirstRank dag parent) :=
  rule.trans (rule.setRank state dag (some parent))
    (rule.modifyDag _ dag _ fun _ => rfl)

theorem noteAcceptableRank (rule : ParentRule R) (state : State config)
    (dag : DagRef config) (rank : UInt16) :
    R state (state.noteAcceptableRank dag rank) := by
  refine rule.noteAll state fun event member => ?_
  simp only [List.mem_append, List.mem_singleton] at member
  rcases member with division | rfl
  · split at division
    · next divides =>
        have bounded : (state.instanceTable dag.inst).maxRankinc ≠ 0 :=
          (of_decide_eq_true divides).2
        have event_eq : event =
            .dagRank (state.instanceTable dag.inst).minHoprankinc := by
          simpa using division
        rw [event_eq]
        exact ⟨dag.inst, rfl, Or.inl bounded⟩
    · simp at division
  · exact ⟨dag, rfl, rfl, rfl, rfl⟩

theorem incrementDtsn (rule : ParentRule R) (state : State config)
    (inst : Fin config.maxInstances) :
    R state (state.incrementDtsn inst) :=
  rule.modifyInstance state inst _ ⟨rfl, id⟩

theorem noPathDao (rule : ParentRule R) (state : State config)
    (lastParent : Option (Fin config.nbrTableMaxNeighbors)) :
    R state (state.noPathDao lastParent) := by
  cases lastParent with
  | none =>
      exact rule.refl state
  | some parent =>
      exact rule.note state (.daoOutput parent 0) trivial

end ParentRule

namespace SelectionRule

open State

variable {R : State config → State config → Prop}

theorem changedParent (rule : SelectionRule R) (state : State config)
    (inst : Fin config.maxInstances) (best : DagRef config)
    (lastParent : Option (Fin config.nbrTableMaxNeighbors)) :
    R state (state.changedParent inst best lastParent) := by
  unfold State.changedParent
  dsimp only
  split
  · refine rule.trans ?_ (rule.rplResetDioTimer _ inst)
    have routed := rule.rplSetDefaultRoute state inst
      (state.rplGetParentIpaddr (state.dagTable best).preferredParent)
    split
    · exact rule.trans routed (rule.trans (rule.noPathDao _ lastParent)
        (rule.trans (rule.incrementDtsn _ inst)
          (rule.note _ (.scheduleDao inst) trivial)))
    · exact routed
  · exact rule.refl state

theorem chooseDag (rule : SelectionRule R) (state : State config)
    (inst : Fin config.maxInstances) (current parentDag : DagRef config)
    (active : (state.instanceTable parentDag.inst).currentDag.isSome) :
    R state (state.chooseDag inst current parentDag).2 := by
  have selected := rule.rplSelectParent state parentDag active
  unfold State.chooseDag
  dsimp only
  split
  · split
    · exact selected
    · split
      · exact selected
      · exact selected
  · exact rule.refl state

theorem makeCurrent (rule : SelectionRule R) (state : State config)
    (inst : Fin config.maxInstances) (current best : DagRef config)
    (active : (state.instanceTable inst).currentDag.isSome) :
    R state (state.makeCurrent inst current best) :=
  rule.trans (rule.modifyDag state best
      (fun entry => { entry with joined := true }) fun _ => rfl)
    (rule.trans (rule.modifyDag _ current
        (fun entry => { entry with joined := false }) fun _ => rfl)
      (rule.modifyInstance _ inst
        (fun entry => { entry with currentDag := some best.index })
        ⟨rfl, fun _ => active⟩))

theorem switchDag (rule : SelectionRule R) (state : State config)
    (inst : Fin config.maxInstances) (current best : DagRef config)
    (active : (state.instanceTable inst).currentDag.isSome) :
    R state (state.switchDag inst current best) := by
  unfold State.switchDag
  dsimp only
  split
  · have removed := rule.note state (.removeRoutes current) trivial
    split
    · exact rule.trans removed (rule.trans
        (rule.note _ (.checkPrefix _ _) trivial)
        (rule.makeCurrent _ inst current best active))
    · split
      · exact rule.trans removed (rule.trans
          (rule.note _ (.checkPrefix _ _) trivial)
          (rule.makeCurrent _ inst current best active))
      · exact rule.trans removed
          (rule.makeCurrent _ inst current best active)
  · exact rule.refl state

theorem checkRank (rule : SelectionRule R) (state : State config)
    (inst : Fin config.maxInstances) (best : DagRef config)
    (lastParent : Option (Fin config.nbrTableMaxNeighbors)) :
    R state (state.checkRank inst best lastParent).2 := by
  unfold State.checkRank
  dsimp only
  split
  · refine rule.trans ?_ (rule.changedParent _ inst best _)
    exact rule.modifyDag state best _ fun _ => rfl
  · have noted := rule.noteAcceptableRank state best
      (state.dagTable best).rank
    split
    · exact rule.trans noted (rule.changedParent _ inst best _)
    · have rejected := rule.trans noted
        (rule.rplSetPreferredParent _ best none)
      split
      · exact rule.trans rejected (rule.noPathDao _ _)
      · exact rejected

theorem rplSelectDag (rule : SelectionRule R) (state : State config)
    (inst : Fin config.maxInstances)
    (parent : Fin config.nbrTableMaxNeighbors)
    (sameInstance : ∀ entry, state.rplParents parent = some entry →
      entry.dag.inst = inst) :
    R state (state.rplSelectDag inst parent).2 := by
  unfold State.rplSelectDag
  split
  · next current parentDag isCurrent isParent =>
      have active : (state.instanceTable inst).currentDag.isSome := by
        cases index : (state.instanceTable inst).currentDag with
        | none =>
            simp [currentDag, index] at isCurrent
        | some index =>
            rfl
      have parentInst : parentDag.inst = inst := by
        obtain ⟨entry, found, rfl⟩ := Option.map_eq_some_iff.1 isParent
        exact sameInstance entry found
      have chosen := rule.chooseDag state inst current parentDag
        (by rw [parentInst]; exact active)
      have active' := active
      rw [← instanceTable_chooseDag state inst current parentDag] at active'
      dsimp only
      split
      · exact chosen
      · next best _ =>
          exact rule.trans chosen (rule.trans
            (rule.switchDag _ inst current best active')
            (rule.trans (rule.updateMetricContainer _ inst)
              (rule.trans (rule.setRank _ best _)
                (rule.checkRank _ inst best _))))
  · exact rule.refl state

theorem rplLocalRepair (rule : SelectionRule R) (state : State config)
    (inst : Fin config.maxInstances) :
    R state (state.rplLocalRepair inst) := by
  refine rule.trans (rule.foldl _ (fun state dag => ?_) state)
    (rule.rplResetDioTimer _ inst)
  split
  · exact rule.trans (rule.modifyDag state dag
        (fun entry => { entry with rank := infiniteRank }) fun _ => rfl)
      (rule.nullifyParents _ dag 0)
  · exact rule.refl state

theorem rplProcessParentEvent (rule : SelectionRule R)
    (state : State config) (inst : Fin config.maxInstances)
    (parent : Fin config.nbrTableMaxNeighbors)
    (sameInstance : ∀ entry, state.rplParents parent = some entry →
      entry.dag.inst = inst) :
    R state (state.rplProcessParentEvent inst parent).2 := by
  unfold State.rplProcessParentEvent
  split
  · exact rule.refl state
  · next entry found =>
      have noted := rule.noteAcceptableRank state entry.dag entry.rank
      have nullified : ∃ state', R state state' ∧
          state'.rplParents = state.rplParents ∧
          (if state.acceptableRank entry.dag entry.rank then
            state.noteAcceptableRank entry.dag entry.rank
          else (state.noteAcceptableRank entry.dag
            entry.rank).rplNullifyParent parent) = state' := by
        refine ⟨_, ?_, ?_, rfl⟩
        · split
          · exact noted
          · exact rule.trans noted (rule.rplNullifyParent _ parent)
        · split
          · rfl
          · exact rplParents_rplNullifyParent _ _
      obtain ⟨later, reached, same, later_eq⟩ := nullified
      dsimp only
      rw [later_eq]
      split
      · exact reached
      · have step := rule.rplSelectDag later inst parent
          (by rw [same]; exact sameInstance)
        split
        · exact rule.trans reached step
        · exact rule.trans reached
            (rule.trans step (rule.rplLocalRepair _ inst))

theorem countDio (rule : SelectionRule R) (state : State config)
    (inst : Fin config.maxInstances) :
    R state (state.countDio inst) :=
  rule.modifyInstance state inst _ ⟨rfl, id⟩

theorem repairParent (rule : SelectionRule R) (state : State config)
    (source : IpAddr) (dag : DagRef config) (dio : Dio) :
    R state (state.repairParent source dag dio) := by
  have added := rule.rplAddParent state dag dio source
  unfold State.repairParent
  split
  · next later failed =>
      rw [failed] at added
      exact rule.trans added (rule.modifyDag _ dag _ fun _ => rfl)
  · next parent later success =>
      rw [success] at added
      refine rule.trans added (rule.trans (rule.setFirstRank _ dag parent)
        (rule.rplProcessParentEvent _ dag.inst parent ?_))
      intro entry found
      rw [rplAddParent_dag success found]

theorem setDtsn (rule : SelectionRule R) (state : State config)
    (parent : Fin config.nbrTableMaxNeighbors) (dtsn : UInt8) :
    R state (state.setDtsn parent dtsn) :=
  rule.setParent state parent _

theorem candidateParent (rule : SelectionRule R) (state : State config)
    (dag : DagRef config) (dio : Dio) (source : IpAddr) :
    R state (state.candidateParent dag dio source).2 := by
  unfold State.candidateParent
  split
  · exact rule.takeParent state dag dio source
  · dsimp only
    split
    · split
      · exact rule.countDio state dag.inst
      · exact rule.refl state
    · exact rule.setParent state _ _

theorem acceptParent (rule : SelectionRule R) (state : State config)
    (source : IpAddr) (dio : Dio) (dag : DagRef config)
    (parent : Fin config.nbrTableMaxNeighbors) :
    R state (state.acceptParent source dio dag parent) := by
  unfold State.acceptParent
  dsimp only
  split
  · split
    · exact rule.trans (rule.incrementDtsn state dag.inst) (rule.trans
        (rule.note _ (.scheduleDao dag.inst) trivial) (rule.trans
        (rule.uipDs6DefrtAdd _ source) (rule.setDtsn _ parent _)))
    · exact rule.trans (rule.uipDs6DefrtAdd state source)
        (rule.setDtsn _ parent _)
  · exact rule.setDtsn state parent _

theorem processKnownDio (rule : SelectionRule R) (state : State config)
    (source : IpAddr) (dio : Dio) (dag : DagRef config) :
    R state (state.processKnownDio source dio dag) := by
  have candidate := rule.candidateParent state dag dio source
  unfold State.processKnownDio
  split
  · next later failed =>
      rw [failed] at candidate
      exact candidate
  · next parent later success =>
      rw [success] at candidate
      have described : R later (later.setMc parent dio.mc) := by
        unfold setMc
        split
        · exact rule.refl later
        · exact rule.setParent later parent _
      have processed := rule.trans candidate (rule.trans described
        (rule.rplProcessParentEvent _ dag.inst parent fun entry found =>
          congrArg DagRef.inst (setMc_dag
            (candidateParent_dag success) entry found)))
      dsimp only
      split
      · exact rule.trans processed (rule.acceptParent _ source dio dag parent)
      · exact processed

theorem loseParent (rule : SelectionRule R) (state : State config)
    (parent : Fin config.nbrTableMaxNeighbors) :
    R state (state.loseParent parent) :=
  rule.setParent state parent _

theorem daoInput (rule : SelectionRule R) (state : State config)
    (dao : Dao) :
    R state (state.daoInput dao) := by
  unfold State.daoInput
  split
  · exact rule.refl state
  · next inst _ =>
      split
      · exact rule.refl state
      · next dag isCurrent =>
          have active : (state.instanceTable inst).currentDag.isSome := by
            cases index : (state.instanceTable inst).currentDag with
            | none =>
                simp [currentDag, index] at isCurrent
            | some index =>
                rfl
          have divided : R state (state.noteAll
              [.dagRank (state.rootRank inst),
                .dagRank (state.rootRank inst)]) :=
            rule.noteAll state fun event member => by
              simp only [List.mem_cons, List.not_mem_nil, or_false,
                or_self] at member
              rw [member]
              exact ⟨inst, rfl, Or.inr active⟩
          dsimp only
          split
          · exact rule.refl state
          · split
            · exact rule.refl state
            · split
              · exact rule.trans divided (rule.loseParent _ _)
              · split
                · exact rule.trans divided (rule.setLock _ _ _)
                · exact divided

theorem forInstances (rule : SelectionRule R) (state : State config)
    {action : State config → Fin config.maxInstances → State config}
    (step : ∀ state inst, R state (action state inst)) :
    R state (state.forInstances action) := by
  refine rule.foldl _ (fun state inst => ?_) state
  split
  · exact step state inst
  · exact rule.refl state

theorem sendDio (rule : SelectionRule R) (state : State config)
    (inst : Fin config.maxInstances) :
    R state (state.sendDio inst) := by
  unfold State.sendDio afterDioOutput
  dsimp only
  split
  · exact rule.trans (rule.incrementDtsn state inst)
      (rule.updateMetricContainer _ inst)
  · exact rule.incrementDtsn state inst

theorem disInput (rule : SelectionRule R) (state : State config)
    (multicast : Bool) :
    R state (state.disInput multicast) := by
  refine rule.forInstances state fun state inst => ?_
  split
  · split
    · exact rule.refl state
    · exact rule.rplResetDioTimer state inst
  · exact rule.sendDio state inst

theorem neighborLinkCallback (rule : SelectionRule R)
    (state : State config) (parent : Fin config.nbrTableMaxNeighbors)
    (status : MacTx) (numtx : UInt16) :
    R state (state.neighborLinkCallback parent status numtx) := by
  unfold State.neighborLinkCallback
  split
  · split
    · exact rule.refl state
    · dsimp only
      split
      · exact rule.setLinkMetric state _ _
      · exact rule.trans (rule.setParent state _ _)
          (rule.setLinkMetric _ _ _)
  · exact rule.refl state

theorem rplLinkNeighborCallback (rule : SelectionRule R)
    (state : State config) (addr : IpAddr) (status : MacTx)
    (numtx : UInt16) :
    R state (state.rplLinkNeighborCallback addr status numtx) := by
  refine rule.forInstances state fun state inst => ?_
  split
  · exact rule.refl state
  · dsimp only
    split
    · exact rule.trans (rule.setParent state _ _)
        (rule.neighborLinkCallback _ _ status numtx)
    · exact rule.setParent state _ _

theorem rplIpv6NeighborCallback (rule : SelectionRule R)
    (state : State config) (addr : IpAddr) :
    R state (state.rplIpv6NeighborCallback addr) := by
  refine rule.forInstances state fun state inst => ?_
  split
  · exact rule.refl state
  · exact rule.loseParent state _

theorem uipDs6NbrRm (rule : SelectionRule R) (state : State config)
    (neighbor : Fin config.nbrTableMaxNeighbors) :
    R state (state.uipDs6NbrRm neighbor) := by
  unfold State.uipDs6NbrRm
  split
  · exact rule.refl state
  · exact rule.trans (rule.rplIpv6NeighborCallback state _)
      (rule.tables rfl rfl rfl)

theorem uipDs6NbrAdd (rule : SelectionRule R) (state : State config)
    (ipaddr : IpAddr) (lladdr : Lladdr) :
    R state (state.uipDs6NbrAdd ipaddr lladdr) := by
  have added : R state (state.nbrTableAddLladdr lladdr).2 := by
    unfold nbrTableAddLladdr
    split
    · exact rule.refl state
    · split
      · exact rule.tables rfl rfl rfl
      · exact rule.refl state
  unfold State.uipDs6NbrAdd
  split
  · next later failed =>
      rw [failed] at added
      exact added
  · next neighbor later success =>
      rw [success] at added
      refine rule.trans added (rule.trans ?_
        (rule.rplIpv6NeighborCallback _ ipaddr))
      exact rule.tables rfl rfl rfl

theorem evict (rule : SelectionRule R) (state : State config)
    (neighbor : Fin config.nbrTableMaxNeighbors) :
    R state (state.evict neighbor) := by
  have removed := rule.uipDs6NbrRm state neighbor
  unfold State.evict
  split
  · dsimp only
    split
    · exact rule.trans removed (rule.trans
        (rule.rplRemoveParent _ neighbor) (rule.tables rfl rfl rfl))
    · exact rule.trans removed (rule.tables rfl rfl rfl)
  · exact rule.refl state

theorem rplRecalculateRanks (rule : SelectionRule R)
    (state : State config) :
    R state state.rplRecalculateRanks := by
  refine rule.foldl _ (fun state parent => ?_) state
  split
  · next entry _ =>
      split
      · refine rule.trans (rule.setParent state parent
          (some { entry with updated := false }))
          (rule.rplProcessParentEvent _ entry.dag.inst parent ?_)
        intro written found
        rw [rplParents_setParent, if_pos rfl, Option.some.injEq] at found
        rw [← found]
      · exact rule.refl state
  · exact rule.refl state

end SelectionRule

end Contiki.Rpl
