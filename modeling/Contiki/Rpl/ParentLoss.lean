import Contiki.Rpl.Frame

/-!
# Lost parents

What `rpl_process_parent_event` leaves when the rank of a parent is not
acceptable: whether the DAG has another parent, or a local repair has been
started.
-/

namespace Contiki.Rpl

variable {config : RplConfig}

/-- The fields of an instance that `acceptable_rank` reads. -/
def Instance.limits (entry : Instance config) : UInt16 × UInt16 :=
  (entry.maxRankinc, entry.minHoprankinc)

variable {first second third : State config} {before after : State config}
  (state : State config) (dag : DagRef config)
  (parent : Option (Fin config.nbrTableMaxNeighbors))
  (inst : Fin config.maxInstances)

namespace State

/-! ## Writes and choices -/

theorem dagTable_rplSetPreferredParent (other : DagRef config) :
    (state.rplSetPreferredParent dag parent).dagTable other =
      if other = dag then
        { state.dagTable dag with preferredParent := parent }
      else state.dagTable other := by
  have locks : ∀ (state : State config)
      (parent : Option (Fin config.nbrTableMaxNeighbors)) (locked : Bool),
      (state.setLock parent locked).dagTable = state.dagTable := by
    intro state parent locked
    cases parent <;> rfl
  unfold rplSetPreferredParent
  dsimp only
  split
  · rw [dagTable_modifyDag, locks, locks]
  · next same =>
      rw [not_not] at same
      split
      · next found =>
          rw [found, ← same]
      · rfl

/-- `best_dag` chooses one of its arguments. -/
theorem bestDag_cases (d1 d2 : DagRef config) :
    state.bestDag d1 d2 = d1 ∨ state.bestDag d1 d2 = d2 := by
  unfold bestDag mrhofBestDag of0BestDag
  dsimp only
  split <;> repeat' split
  all_goals simp

/-! ## The event -/

/-- There is such a parent, and its rank is acceptable in the DAG. -/
def Accepted (state : State config) (dag : DagRef config)
    (parent : Option (Fin config.nbrTableMaxNeighbors)) : Prop :=
  ∃ index entry, parent = some index ∧
    state.rplParents index = some entry ∧
      state.acceptableRank dag entry.rank = true

/-- No parent in the DAG has an acceptable rank. -/
def NoCandidate (state : State config) (dag : DagRef config) : Prop :=
  ∀ index ∈ state.nbrTableKeys, ∀ entry,
    state.rplParents index = some entry → entry.dag = dag →
      state.acceptableRank dag entry.rank = false

/-- The state of `rpl_process_parent_event` behind `rpl_nullify_parent`. -/
def nullified (state : State config)
    (parent : Fin config.nbrTableMaxNeighbors) (entry : Parent config) :
    State config :=
  (state.noteAcceptableRank entry.dag entry.rank).rplNullifyParent parent

/-- `rpl_process_parent_event` comes to `rpl_local_repair`. -/
def startsLocalRepair (state : State config)
    (inst : Fin config.maxInstances)
    (parent : Fin config.nbrTableMaxNeighbors) : Bool :=
  match state.rplParents parent with
  | none => false
  | some entry =>
      let acceptable := state.acceptableRank entry.dag entry.rank
      let state := if acceptable
        then state.noteAcceptableRank entry.dag entry.rank
        else state.nullified parent entry
      let preferredParent := (state.currentDag inst).bind fun dag =>
        (state.dagTable dag).preferredParent
      (acceptable ∨ some parent = preferredParent) ∧
        (state.rplSelectDag inst parent).1 = none

/-- Behind the event the DAG has a preferred parent with an acceptable rank,
or there is none and a local repair has been started. -/
def Recovers (state : State config)
    (parent : Fin config.nbrTableMaxNeighbors) (entry : Parent config) :
    Prop :=
  let after := (state.rplProcessParentEvent entry.dag.inst parent).2
  after.Accepted entry.dag (after.dagTable entry.dag).preferredParent ∨
    after.NoCandidate entry.dag ∧
      state.startsLocalRepair entry.dag.inst parent = true

/-! ## What the choice of a parent depends on -/

/-- The parents of a DAG and their ranks stay, and what they are compared
with except for the lowest rank of a DAG. -/
structure SameBasis (before after : State config) : Prop where
  parents : after.rplParents = before.rplParents
  keys : after.nbrTableKeys = before.nbrTableKeys
  neighbors : after.ds6Neighbors = before.ds6Neighbors
  limits : ∀ inst, (after.instanceTable inst).limits =
    (before.instanceTable inst).limits
  used : ∀ dag, (after.dagTable dag).used = (before.dagTable dag).used

theorem SameBasis.refl : SameBasis state state :=
  ⟨rfl, rfl, rfl, fun _ => rfl, fun _ => rfl⟩

theorem SameBasis.trans
    (left : SameBasis first second) (right : SameBasis second third) :
    SameBasis first third where
  parents := right.parents.trans left.parents
  keys := right.keys.trans left.keys
  neighbors := right.neighbors.trans left.neighbors
  limits := fun inst => (right.limits inst).trans (left.limits inst)
  used := fun dag => (right.used dag).trans (left.used dag)

theorem SameBasis.symm
    (basis : SameBasis before after) : SameBasis after before where
  parents := basis.parents.symm
  keys := basis.keys.symm
  neighbors := basis.neighbors.symm
  limits := fun inst => (basis.limits inst).symm
  used := fun dag => (basis.used dag).symm

/-- The DAGs stay as well. -/
structure SameDags (before after : State config) : Prop
    extends SameBasis before after where
  dags : after.dagTable = before.dagTable

theorem SameDags.refl : SameDags state state :=
  ⟨SameBasis.refl state, rfl⟩

theorem SameDags.trans
    (left : SameDags first second) (right : SameDags second third) :
    SameDags first third :=
  ⟨left.toSameBasis.trans right.toSameBasis, right.dags.trans left.dags⟩

theorem SameDags.of_eq (dags : after.dagTable = before.dagTable)
    (instances : after.instanceTable = before.instanceTable)
    (parents : after.rplParents = before.rplParents)
    (keys : after.nbrTableKeys = before.nbrTableKeys)
    (neighbors : after.ds6Neighbors = before.ds6Neighbors) :
    SameDags before after :=
  ⟨⟨parents, keys, neighbors, fun _ => by rw [instances],
    fun _ => by rw [dags]⟩, dags⟩

theorem SameDags.note (event : Event config) :
    SameDags state (state.note event) :=
  SameDags.of_eq rfl rfl rfl rfl rfl

theorem SameDags.noteAll (events : List (Event config)) :
    SameDags state (state.noteAll events) :=
  SameDags.of_eq rfl rfl rfl rfl rfl

theorem SameDags.setLock (locked : Bool) :
    SameDags state (state.setLock parent locked) := by
  cases parent <;> exact SameDags.of_eq rfl rfl rfl rfl rfl

theorem SameDags.modifyInstance (change : Instance config → Instance config)
    (same : (change (state.instanceTable inst)).limits =
      (state.instanceTable inst).limits) :
    SameDags state (state.modifyInstance inst change) := by
  refine ⟨⟨rfl, rfl, rfl, fun other => ?_, fun _ => rfl⟩, rfl⟩
  rw [instanceTable_modifyInstance]
  split
  · next found =>
      rw [found, same]
  · rfl

theorem SameBasis.modifyDag (ref : DagRef config)
    (change : Dag config → Dag config)
    (same : (change (state.dagTable ref)).used =
      (state.dagTable ref).used) :
    SameBasis state (state.modifyDag ref change) := by
  refine ⟨rfl, rfl, rfl, fun _ => rfl, fun other => ?_⟩
  rw [dagTable_modifyDag]
  split
  · next found =>
      rw [found, same]
  · rfl

/-! ## Routes, timers and metric containers -/

theorem SameDags.removeDefRoute :
    SameDags state (state.removeDefRoute inst) := by
  unfold State.removeDefRoute
  split
  · next router _ =>
      have removed : SameDags state (state.uipDs6DefrtRm router) := by
        unfold uipDs6DefrtRm
        split <;> exact SameDags.of_eq rfl rfl rfl rfl rfl
      exact removed.trans (SameDags.modifyInstance _ inst _ rfl)
  · exact SameDags.refl state

theorem SameDags.rplSetDefaultRoute (source : Option IpAddr) :
    SameDags state (state.rplSetDefaultRoute inst source) := by
  cases source with
  | none =>
      exact SameDags.removeDefRoute state inst
  | some source =>
      have added : ∀ state : State config,
          SameDags state (state.uipDs6DefrtAdd source).2 := by
        intro state
        unfold State.uipDs6DefrtAdd
        split
        · exact SameDags.refl state
        · split <;> exact SameDags.of_eq rfl rfl rfl rfl rfl
      refine (SameDags.removeDefRoute state inst).trans
        ((added _).trans ?_)
      exact SameDags.modifyInstance _ inst (fun entry => { entry with
        defRoute :=
          ((state.removeDefRoute inst).uipDs6DefrtAdd source).1 }) rfl

theorem SameDags.rplResetDioTimer :
    SameDags state (state.rplResetDioTimer inst) := by
  unfold State.rplResetDioTimer
  dsimp only
  split
  · exact (SameDags.modifyInstance state inst _ rfl).trans
      ((SameDags.note _ _).trans (SameDags.modifyInstance _ inst _ rfl))
  · exact SameDags.refl state

theorem SameDags.updateMetricContainer :
    SameDags state (state.updateMetricContainer inst) := by
  unfold State.updateMetricContainer mrhofUpdateMetricContainer
  split
  · split
    · exact SameDags.modifyInstance state inst _ rfl
    · refine SameDags.modifyInstance state inst _ ?_
      dsimp only
      split <;> rfl
  · exact SameDags.modifyInstance state inst _ rfl

theorem SameDags.noPathDao
    (lastParent : Option (Fin config.nbrTableMaxNeighbors)) :
    SameDags state (state.noPathDao lastParent) := by
  cases lastParent <;> exact SameDags.of_eq rfl rfl rfl rfl rfl

theorem SameDags.changedParent (best : DagRef config)
    (lastParent : Option (Fin config.nbrTableMaxNeighbors)) :
    SameDags state (state.changedParent inst best lastParent) := by
  unfold State.changedParent
  dsimp only
  split
  · have routed := SameDags.rplSetDefaultRoute state inst
      (state.rplGetParentIpaddr (state.dagTable best).preferredParent)
    refine SameDags.trans ?_ (SameDags.rplResetDioTimer _ inst)
    split
    · exact routed.trans ((SameDags.noPathDao _ lastParent).trans
        ((SameDags.modifyInstance _ inst _ rfl).trans (SameDags.note _ _)))
    · exact routed
  · exact SameDags.refl state

/-! ## Preferred parents -/

theorem SameBasis.rplSetPreferredParent :
    SameBasis state (state.rplSetPreferredParent dag parent) := by
  unfold State.rplSetPreferredParent
  dsimp only
  split
  · exact (SameDags.setLock state _ _).toSameBasis.trans
      ((SameDags.setLock _ _ _).toSameBasis.trans
        (SameBasis.modifyDag _ dag _ rfl))
  · exact SameBasis.refl state

/-- The preferred parent of a DAG is lost if it is one of these parents, and
its lowest rank stays. -/
structure LosesParents (before after : State config) (dag : DagRef config)
    (lost : Fin config.nbrTableMaxNeighbors → Bool) : Prop where
  basis : SameBasis before after
  others : ∀ other, other ≠ dag →
    after.dagTable other = before.dagTable other
  preferred : (after.dagTable dag).preferredParent =
    (before.dagTable dag).preferredParent.filter fun parent => !lost parent
  minRank : (after.dagTable dag).minRank = (before.dagTable dag).minRank

theorem LosesParents.trans {dag : DagRef config}
    {lost lost' : Fin config.nbrTableMaxNeighbors → Bool}
    (left : LosesParents first second dag lost)
    (right : LosesParents second third dag lost') :
    LosesParents first third dag
      fun parent => lost parent || lost' parent where
  basis := left.basis.trans right.basis
  others := fun other different =>
    (right.others other different).trans (left.others other different)
  preferred := by
    rw [right.preferred, left.preferred, Option.filter_filter]
    congr 1
    funext parent
    rw [Bool.not_or, Bool.and_comm]
  minRank := right.minRank.trans left.minRank

theorem LosesParents.congr {dag : DagRef config}
    {lost lost' : Fin config.nbrTableMaxNeighbors → Bool}
    (loses : LosesParents before after dag lost)
    (same : ∀ parent, lost parent = lost' parent) :
    LosesParents before after dag lost' := by
  have equal : lost = lost' := funext same
  rw [← equal]
  exact loses

theorem LosesParents.refl :
    LosesParents state state dag fun _ => false where
  basis := SameBasis.refl state
  others := fun _ _ => rfl
  preferred := by
    cases (state.dagTable dag).preferredParent <;> rfl
  minRank := rfl

theorem rplNullifyParent_loses {state : State config}
    {parent : Fin config.nbrTableMaxNeighbors} {entry : Parent config}
    (found : state.rplParents parent = some entry) :
    LosesParents state (state.rplNullifyParent parent) entry.dag
      fun preferred => preferred = parent := by
  let lost := (state.rplSetPreferredParent entry.dag none).modifyDag
    entry.dag fun dag => { dag with rank := infiniteRank }
  have lostBasis : SameBasis state lost :=
    (SameBasis.rplSetPreferredParent state entry.dag none).trans
      (SameBasis.modifyDag _ entry.dag _ rfl)
  have lostDags : ∀ dag, lost.dagTable dag = if dag = entry.dag then
      { state.dagTable entry.dag with
        preferredParent := none
        rank := infiniteRank }
      else state.dagTable dag := by
    intro dag
    change ((state.rplSetPreferredParent entry.dag none).modifyDag
      entry.dag fun dag => { dag with rank := infiniteRank }).dagTable
        dag = _
    rw [dagTable_modifyDag, dagTable_rplSetPreferredParent,
      dagTable_rplSetPreferredParent, if_pos rfl]
    split <;> rfl
  have result : ∀ after, SameDags lost after →
      (state.dagTable entry.dag).preferredParent = some parent ∨
        (state.dagTable entry.dag).preferredParent = none →
      LosesParents state after entry.dag
        fun preferred => preferred = parent := by
    intro after same wasLost
    refine ⟨lostBasis.trans same.toSameBasis, fun dag other => ?_, ?_, ?_⟩
    · rw [same.dags, lostDags, if_neg other]
    · rw [same.dags, lostDags, if_pos rfl]
      cases wasLost with
      | inl preferred =>
          simp [preferred, Option.filter]
      | inr absent =>
          simp [absent]
    · rw [same.dags, lostDags, if_pos rfl]
  unfold State.rplNullifyParent
  rw [found]
  dsimp only
  split
  · next wasLost =>
      split
      · exact result _ ((SameDags.removeDefRoute lost _).trans
          (SameDags.note _ _)) wasLost
      · exact result _ (SameDags.refl lost) wasLost
  · next other =>
      rw [not_or] at other
      refine ⟨SameBasis.refl state, fun _ _ => rfl, ?_, rfl⟩
      cases preferred : (state.dagTable entry.dag).preferredParent with
      | none =>
          exact absurd preferred other.2
      | some index =>
          have different : index ≠ parent := by
            intro same
            exact other.1 (preferred.trans (congrArg some same))
          simp [different, Option.filter]

/-- The neighbour is a parent in the DAG. -/
def isParentIn (state : State config) (dag : DagRef config)
    (parent : Fin config.nbrTableMaxNeighbors) : Bool :=
  (state.rplParents parent).any fun entry => entry.dag = dag

theorem nullifyParents_loses :
    LosesParents state (state.nullifyParents dag 0) dag
      fun parent => state.nbrTableKeys.contains parent &&
        state.isParentIn dag parent := by
  unfold State.nullifyParents forParents
  generalize state.nbrTableKeys = keys
  induction keys generalizing state with
  | nil =>
      exact LosesParents.refl state dag
  | cons key rest inductionHypothesis =>
      rw [List.foldl_cons]
      cases found : state.rplParents key with
      | none =>
          refine (inductionHypothesis state).congr fun parent => ?_
          by_cases same : parent = key
          · simp [same, isParentIn, found]
          · simp [same]
      | some entry =>
          dsimp only
          by_cases inDag : entry.dag = dag
          · rw [if_pos ⟨inDag, UInt16.zero_le⟩]
            have first := rplNullifyParent_loses found
            rw [inDag] at first
            refine (first.trans (inductionHypothesis _)).congr
              fun parent => ?_
            unfold isParentIn
            rw [first.basis.parents]
            by_cases same : parent = key
            · simp [same, found, inDag]
            · simp [same]
          · rw [if_neg fun both => inDag both.1]
            refine (inductionHypothesis state).congr fun parent => ?_
            by_cases same : parent = key
            · simp [same, isParentIn, found, inDag]
            · simp [same]

/-- The step of `rpl_local_repair` for a DAG. -/
def repairDag (state : State config) (dag : DagRef config) : State config :=
  if (state.dagTable dag).used then
    (state.modifyDag dag fun entry =>
      { entry with rank := infiniteRank }).nullifyParents dag 0
  else state

/-- A local repair of the instance loses this parent in the DAG. -/
def losesInRepair (state : State config) (dag : DagRef config)
    (parent : Fin config.nbrTableMaxNeighbors) : Bool :=
  (state.dagTable dag).used && (state.nbrTableKeys.contains parent &&
    state.isParentIn dag parent)

theorem SameBasis.losesInRepair
    (basis : SameBasis before after) (dag : DagRef config)
    (parent : Fin config.nbrTableMaxNeighbors) :
    after.losesInRepair dag parent = before.losesInRepair dag parent := by
  unfold State.losesInRepair isParentIn
  rw [basis.used, basis.keys, basis.parents]

theorem repairDag_loses :
    LosesParents state (state.repairDag dag) dag
      (state.losesInRepair dag) := by
  unfold repairDag
  split
  · next used =>
      have written : SameBasis state (state.modifyDag dag
          fun entry => { entry with rank := infiniteRank }) :=
        SameBasis.modifyDag state dag _ rfl
      have loses := nullifyParents_loses (state.modifyDag dag
        fun entry => { entry with rank := infiniteRank }) dag
      refine ⟨written.trans loses.basis, fun other different => ?_, ?_, ?_⟩
      · rw [loses.others other different, dagTable_modifyDag,
          if_neg different]
      · rw [loses.preferred, dagTable_modifyDag, if_pos rfl]
        congr 1
        funext parent
        unfold losesInRepair isParentIn
        rw [written.keys, written.parents, used, Bool.true_and]
      · rw [loses.minRank, dagTable_modifyDag, if_pos rfl]
  · next unused =>
      refine (LosesParents.refl state dag).congr fun parent => ?_
      simp [losesInRepair, unused]

/-- What a local repair leaves of a DAG. -/
structure RepairsDag (before after : State config) (dag : DagRef config)
    (repaired : Bool) : Prop where
  basis : SameBasis before after
  preferred : (after.dagTable dag).preferredParent =
    (before.dagTable dag).preferredParent.filter fun parent =>
      !(repaired && before.losesInRepair dag parent)
  minRank : (after.dagTable dag).minRank = (before.dagTable dag).minRank

theorem foldl_repairDag (dags : List (DagRef config)) (state : State config) :
    RepairsDag state (dags.foldl repairDag state) dag
      (dags.contains dag) := by
  induction dags generalizing state with
  | nil =>
      refine ⟨SameBasis.refl state, ?_, rfl⟩
      change (state.dagTable dag).preferredParent = _
      cases (state.dagTable dag).preferredParent <;> rfl
  | cons first rest inductionHypothesis =>
      rw [List.foldl_cons]
      have loses := repairDag_loses state first
      have later := inductionHypothesis (state.repairDag first)
      refine ⟨loses.basis.trans later.basis, ?_, later.minRank.trans ?_⟩
      · rw [later.preferred]
        by_cases same : dag = first
        · rw [same, loses.preferred, Option.filter_filter]
          congr 1
          funext parent
          rw [loses.basis.losesInRepair]
          cases state.losesInRepair first parent <;> simp
        · rw [loses.others dag same]
          congr 1
          funext parent
          rw [loses.basis.losesInRepair]
          simp [same]
      · by_cases same : dag = first
        · rw [same, loses.minRank]
        · rw [loses.others dag same]

theorem rplLocalRepair_repairs :
    RepairsDag state (state.rplLocalRepair dag.inst) dag true := by
  have repaired := foldl_repairDag dag (dagRefs dag.inst) state
  have reset := SameDags.rplResetDioTimer
    ((dagRefs dag.inst).foldl repairDag state) dag.inst
  have member : (dagRefs dag.inst).contains dag = true := by
    rw [List.contains_iff_mem]
    unfold dagRefs
    exact List.mem_map.2 ⟨dag.index, List.mem_finRange _, rfl⟩
  rw [member] at repaired
  change RepairsDag state
    (((dagRefs dag.inst).foldl repairDag state).rplResetDioTimer dag.inst)
      dag true
  refine ⟨repaired.basis.trans reset.toSameBasis, ?_, ?_⟩
  · rw [reset.dags]
    exact repaired.preferred
  · rw [reset.dags]
    exact repaired.minRank

/-! ## Acceptable ranks -/

theorem SameBasis.acceptableRank
    (basis : SameBasis before after) {dag : DagRef config}
    (minRank : (after.dagTable dag).minRank =
      (before.dagTable dag).minRank) (rank : UInt16) :
    after.acceptableRank dag rank = before.acceptableRank dag rank := by
  have limits := basis.limits dag.inst
  unfold Instance.limits at limits
  rw [Prod.mk.injEq] at limits
  unfold State.acceptableRank
  simp only [minRank, limits.1, limits.2]

theorem SameBasis.accepted_iff
    (basis : SameBasis before after) {dag : DagRef config}
    (minRank : (after.dagTable dag).minRank =
      (before.dagTable dag).minRank)
    (parent : Option (Fin config.nbrTableMaxNeighbors)) :
    after.Accepted dag parent ↔ before.Accepted dag parent := by
  unfold Accepted
  simp only [basis.parents, basis.acceptableRank minRank]

theorem SameBasis.noCandidate_iff
    (basis : SameBasis before after) {dag : DagRef config}
    (minRank : (after.dagTable dag).minRank =
      (before.dagTable dag).minRank) :
    after.NoCandidate dag ↔ before.NoCandidate dag := by
  unfold NoCandidate
  simp only [basis.parents, basis.keys, basis.acceptableRank minRank]

theorem not_accepted_none : ¬ state.Accepted dag none := by
  rintro ⟨index, entry, same, _⟩
  exact nomatch same

theorem SameBasis.calculateRank (basis : SameBasis before after)
    (parent : Option (Fin config.nbrTableMaxNeighbors)) (baseRank : UInt16) :
    after.calculateRank parent baseRank =
      before.calculateRank parent baseRank := by
  have minHoprankinc : ∀ inst,
      (after.instanceTable inst).minHoprankinc =
        (before.instanceTable inst).minHoprankinc :=
    fun inst => congrArg Prod.snd (basis.limits inst)
  unfold State.calculateRank mrhofCalculateRank of0CalculateRank
    rplGetNbr parentRank
  simp only [basis.parents, basis.neighbors, minHoprankinc]

/-! ## The selection of another DAG -/

/-- The parent that `rpl_select_dag` gives to a DAG that is not the current
one. -/
def selectedParent (state : State config) (current dag : DagRef config) :
    Option (Fin config.nbrTableMaxNeighbors) :=
  if (state.dagTable current).rank ≠ state.rootRank dag.inst then
    (state.bestParent dag).1
  else none

/-- The DAG with its selected parent becomes the current one. -/
def takesOver (state : State config) (current dag : DagRef config) : Bool :=
  (state.selectedParent current dag).isSome ∧
    state.bestDag current dag = dag

/-- The rank is lower than before, or acceptable. -/
def keepsRank (state : State config) (dag : DagRef config)
    (rank : UInt16) : Bool :=
  rank < (state.dagTable dag).minRank ∨ state.acceptableRank dag rank

theorem bestDag_rplSelectParent (dag first second : DagRef config) :
    (state.rplSelectParent dag).2.bestDag first second =
      state.bestDag first second := by
  have fields : ∀ other,
      ((state.rplSelectParent dag).2.dagTable other).grounded =
          (state.dagTable other).grounded ∧
        ((state.rplSelectParent dag).2.dagTable other).preference =
          (state.dagTable other).preference ∧
        ((state.rplSelectParent dag).2.dagTable other).rank =
          (state.dagTable other).rank := by
    intro other
    unfold rplSelectParent
    dsimp only
    split
    · rw [dagTable_rplSetPreferredParent]
      split
      · next same =>
          rw [same]
          exact ⟨rfl, rfl, rfl⟩
      · exact ⟨rfl, rfl, rfl⟩
    · exact ⟨rfl, rfl, rfl⟩
  unfold bestDag mrhofBestDag of0BestDag
  simp only [fields]

/-- What is written while a DAG is selected for a parent in another DAG. -/
structure SelectsFor (before after : State config) (dag : DagRef config)
    (preferred : Option (Fin config.nbrTableMaxNeighbors)) : Prop where
  basis : SameBasis before after
  minRank : ∀ other, (after.dagTable other).minRank =
    (before.dagTable other).minRank
  others : ∀ other, other ≠ dag →
    (after.dagTable other).preferredParent =
      (before.dagTable other).preferredParent
  preferred : (after.dagTable dag).preferredParent = preferred

theorem SelectsFor.sameDags {before middle after : State config}
    {dag : DagRef config}
    {preferred : Option (Fin config.nbrTableMaxNeighbors)}
    (selects : SelectsFor before middle dag preferred)
    (same : SameDags middle after) :
    SelectsFor before after dag preferred := by
  refine ⟨selects.basis.trans same.toSameBasis, ?_, ?_, ?_⟩
  · rw [same.dags]
    exact selects.minRank
  · rw [same.dags]
    exact selects.others
  · rw [same.dags]
    exact selects.preferred

theorem SelectsFor.modifyDag {before middle : State config}
    {dag : DagRef config}
    {preferred : Option (Fin config.nbrTableMaxNeighbors)}
    (selects : SelectsFor before middle dag preferred)
    (ref : DagRef config) (change : Dag config → Dag config)
    (used : ∀ entry, (change entry).used = entry.used)
    (minRank : ∀ entry, (change entry).minRank = entry.minRank)
    (parent : ∀ entry,
      (change entry).preferredParent = entry.preferredParent) :
    SelectsFor before (middle.modifyDag ref change) dag preferred := by
  have written := SameBasis.modifyDag middle ref change (used _)
  have keeps : ∀ other,
      ((middle.modifyDag ref change).dagTable other).minRank =
          (middle.dagTable other).minRank ∧
        ((middle.modifyDag ref change).dagTable other).preferredParent =
          (middle.dagTable other).preferredParent := by
    intro other
    rw [dagTable_modifyDag]
    split
    · next same =>
        rw [same]
        exact ⟨minRank _, parent _⟩
    · exact ⟨rfl, rfl⟩
  refine ⟨selects.basis.trans written, fun other => ?_,
    fun other different => ?_, ?_⟩
  · rw [(keeps other).1]
    exact selects.minRank other
  · rw [(keeps other).2]
    exact selects.others other different
  · rw [(keeps dag).2]
    exact selects.preferred

theorem rplSelectParent_selects :
    SelectsFor state (state.rplSelectParent dag).2 dag
      ((state.bestParent dag).1.or
        (state.dagTable dag).preferredParent) := by
  have noted := SameDags.noteAll state (state.bestParent dag).2
  unfold rplSelectParent
  dsimp only
  cases selected : (state.bestParent dag).1 with
  | none =>
      exact ⟨noted.toSameBasis, fun _ => rfl, fun _ _ => rfl, rfl⟩
  | some parent =>
      have table := dagTable_rplSetPreferredParent
        (state.noteAll (state.bestParent dag).2) dag (some parent)
      refine ⟨noted.toSameBasis.trans
        (SameBasis.rplSetPreferredParent _ dag _), fun other => ?_,
        fun other different => ?_, ?_⟩
      · rw [table]
        split
        · next same =>
            rw [same]
            rfl
        · rfl
      · rw [table, if_neg different]
        rfl
      · rw [table, if_pos rfl]
        rfl

theorem chooseDag_other
    {current dag : DagRef config} (different : current ≠ dag) :
    (state.chooseDag dag.inst current dag).1 =
        some (if state.takesOver current dag then dag else current) ∧
      SelectsFor state (state.chooseDag dag.inst current dag).2 dag
        ((state.selectedParent current dag).or
          (state.dagTable dag).preferredParent) := by
  unfold chooseDag takesOver selectedParent
  dsimp only
  by_cases notRoot : (state.dagTable current).rank ≠
      state.rootRank dag.inst
  · have selects := rplSelectParent_selects state dag
    have result : (state.rplSelectParent dag).1 =
        (state.bestParent dag).1 := rfl
    rw [if_pos notRoot, if_pos notRoot, result,
      bestDag_rplSelectParent]
    cases selected : (state.bestParent dag).1 with
    | none =>
        rw [selected] at selects
        rw [if_neg (by simp), if_neg (Ne.symm different)]
        exact ⟨by simp, selects⟩
    | some parent =>
        rw [selected] at selects
        rw [if_pos (show (some parent).isSome = true from rfl),
          if_pos (Ne.symm different)]
        refine ⟨?_, selects⟩
        obtain first | second := bestDag_cases state current dag
        · simp [first, different]
        · simp [second]
  · rw [if_neg notRoot, if_neg notRoot]
    exact ⟨by simp, SameBasis.refl state, fun _ => rfl, fun _ _ => rfl,
      by simp⟩

theorem switchDag_selects {before state : State config}
    {dag : DagRef config}
    {preferred : Option (Fin config.nbrTableMaxNeighbors)}
    (selects : SelectsFor before state dag preferred)
    (inst : Fin config.maxInstances) (current best : DagRef config) :
    SelectsFor before (state.switchDag inst current best) dag
      preferred := by
  have makes : ∀ noted : State config, SameDags state noted →
      SelectsFor before (noted.makeCurrent inst current best) dag
        preferred := by
    intro noted same
    have joined := (selects.sameDags same).modifyDag best
      (fun entry => { entry with joined := true }) (fun _ => rfl)
      (fun _ => rfl) (fun _ => rfl)
    have left := joined.modifyDag current
      (fun entry => { entry with joined := false }) (fun _ => rfl)
      (fun _ => rfl) (fun _ => rfl)
    exact left.sameDags (SameDags.modifyInstance _ inst
      (fun entry => { entry with currentDag := some best.index }) rfl)
  unfold switchDag
  dsimp only
  split
  · have removed := SameDags.note state (.removeRoutes current)
    split
    · exact makes _ (removed.trans (SameDags.note _ _))
    · split
      · exact makes _ (removed.trans (SameDags.note _ _))
      · exact makes _ removed
  · exact selects

theorem setRank_selects {before state : State config} {dag : DagRef config}
    {preferred : Option (Fin config.nbrTableMaxNeighbors)}
    (selects : SelectsFor before state dag preferred)
    (best : DagRef config)
    (parent : Option (Fin config.nbrTableMaxNeighbors)) :
    SelectsFor before (state.setRank best parent) dag preferred ∧
      ((state.setRank best parent).dagTable best).rank =
        before.calculateRank parent 0 := by
  have noted : SameDags state (state.noteCalculateRank parent) := by
    cases parent with
    | none =>
        exact SameDags.refl state
    | some parent =>
        exact SameDags.note state _
  refine ⟨(selects.sameDags noted).modifyDag best _ (fun _ => rfl)
    (fun _ => rfl) fun _ => rfl, ?_⟩
  unfold setRank
  rw [dagTable_modifyDag, if_pos rfl]
  exact selects.basis.calculateRank parent 0

/-- The preferred parent and the lowest rank of a DAG that a rank has been
written to: a lower rank is stored, and without an acceptable one the
preferred parent is lost. -/
structure ChecksRank (before after : State config) (best : DagRef config)
    (rank : UInt16) : Prop where
  basis : SameBasis before after
  others : ∀ other, other ≠ best →
    (after.dagTable other).preferredParent =
        (before.dagTable other).preferredParent ∧
      (after.dagTable other).minRank = (before.dagTable other).minRank
  preferred : (after.dagTable best).preferredParent =
    if before.keepsRank best rank then
      (before.dagTable best).preferredParent
    else none
  minRank : (after.dagTable best).minRank =
    if rank < (before.dagTable best).minRank then rank
    else (before.dagTable best).minRank

theorem checkRank_checks (best : DagRef config)
    (lastParent : Fin config.nbrTableMaxNeighbors) :
    ((state.checkRank inst best (some lastParent)).1.isSome =
        state.keepsRank best (state.dagTable best).rank) ∧
      ChecksRank state (state.checkRank inst best (some lastParent)).2 best
        (state.dagTable best).rank := by
  unfold checkRank keepsRank
  dsimp only
  by_cases lower : (state.dagTable best).rank < (state.dagTable best).minRank
  · rw [if_pos (Or.inr lower)]
    have changed := SameDags.changedParent (state.modifyDag best
      fun entry => { entry with minRank := (state.dagTable best).rank }) inst
      best (some lastParent)
    refine ⟨by simp [lower], ?_, fun other different => ?_, ?_, ?_⟩
    · exact (SameBasis.modifyDag state best _ rfl).trans changed.toSameBasis
    · rw [changed.dags, dagTable_modifyDag, if_neg different]
      exact ⟨rfl, rfl⟩
    · rw [changed.dags, dagTable_modifyDag, if_pos rfl]
      simp [keepsRank, lower]
    · rw [changed.dags, dagTable_modifyDag, if_pos rfl, if_pos lower]
  · rw [if_neg (by simp [lower])]
    have noted := SameDags.noteAll state
      ((if decide ((state.dagTable best).rank ≠ infiniteRank ∧
          (state.instanceTable best.inst).maxRankinc ≠ 0) then
        [.dagRank (state.instanceTable best.inst).minHoprankinc,
          .dagRank (state.instanceTable best.inst).minHoprankinc]
      else []) ++ [.acceptableRank (state.dagTable best).rank
        (state.dagTable best).minRank
        (state.instanceTable best.inst).maxRankinc
        (state.instanceTable best.inst).minHoprankinc
        (state.acceptableRank best (state.dagTable best).rank)])
    change SameDags state (state.noteAcceptableRank best
      (state.dagTable best).rank) at noted
    by_cases acceptable : state.acceptableRank best
        (state.dagTable best).rank = true
    · rw [if_pos acceptable]
      have changed := noted.trans (SameDags.changedParent
        (state.noteAcceptableRank best (state.dagTable best).rank) inst
        best (some lastParent))
      refine ⟨by simp [acceptable], changed.toSameBasis,
        fun other _ => ?_, ?_, ?_⟩
      · rw [changed.dags]
        exact ⟨rfl, rfl⟩
      · rw [changed.dags]
        simp [keepsRank, acceptable]
      · rw [changed.dags, if_neg lower]
    · rw [if_neg acceptable]
      have unset := dagTable_rplSetPreferredParent
        (state.noteAcceptableRank best (state.dagTable best).rank) best none
      have basis := noted.toSameBasis.trans (SameBasis.rplSetPreferredParent
        (state.noteAcceptableRank best (state.dagTable best).rank) best none)
      have result : ∀ after, SameDags ((state.noteAcceptableRank best
          (state.dagTable best).rank).rplSetPreferredParent best none)
            after → ChecksRank state after best
              (state.dagTable best).rank := by
        intro after same
        refine ⟨basis.trans same.toSameBasis, fun other different => ?_, ?_,
          ?_⟩
        · rw [same.dags, unset, if_neg different]
          exact ⟨rfl, rfl⟩
        · rw [same.dags, unset, if_pos rfl]
          simp [keepsRank, lower, acceptable]
        · rw [same.dags, unset, if_pos rfl, if_neg lower]
          rfl
      refine ⟨by simp [lower, acceptable], ?_⟩
      split
      · exact result _ (SameDags.noPathDao
          ((state.noteAcceptableRank best
            (state.dagTable best).rank).rplSetPreferredParent best none)
          (some lastParent))
      · exact result _ (SameDags.refl _)

/-- The lowest rank of a DAG with another rank. -/
def lowered (state : State config) (dag : DagRef config) (rank : UInt16) :
    State config :=
  state.modifyDag dag fun entry =>
    { entry with
      minRank := if rank < entry.minRank then rank else entry.minRank }

/-- The event recovers although its parent is the preferred parent of the
current DAG, which is another one. -/
def ReselectionRecovers (state : State config) (current dag : DagRef config)
    (parent : Fin config.nbrTableMaxNeighbors) : Prop :=
  let selected := state.selectedParent current dag
  let takes := state.takesOver current dag
  let best := if takes then dag else current
  let rank := state.calculateRank
    (if takes then selected else some parent) 0
  let preferred := selected.or (state.dagTable dag).preferredParent
  if state.keepsRank best rank then
    (state.lowered best rank).Accepted dag preferred
  else
    state.NoCandidate dag ∨ takes = false ∧
      state.Accepted dag
        (preferred.filter fun kept => !state.losesInRepair dag kept)

/-- What `rpl_select_dag` leaves for a parent of another DAG than the current
one. -/
theorem rplSelectDag_other {state : State config}
    {current dag : DagRef config} {entry : Parent config}
    {parent : Fin config.nbrTableMaxNeighbors}
    (isCurrent : state.currentDag dag.inst = some current)
    (found : state.rplParents parent = some entry)
    (inDag : entry.dag = dag) (different : current ≠ dag)
    (isPreferred : (state.dagTable current).preferredParent =
      some parent) :
    ∃ middle, SelectsFor state middle dag
        ((state.selectedParent current dag).or
          (state.dagTable dag).preferredParent) ∧
      ((state.rplSelectDag dag.inst parent).1.isSome =
        middle.keepsRank
          (if state.takesOver current dag then dag else current)
          (state.calculateRank (if state.takesOver current dag
            then state.selectedParent current dag else some parent) 0)) ∧
      ChecksRank middle (state.rplSelectDag dag.inst parent).2
        (if state.takesOver current dag then dag else current)
        (state.calculateRank (if state.takesOver current dag
          then state.selectedParent current dag else some parent) 0) := by
  obtain ⟨chosen, selects⟩ := chooseDag_other state different
  have isParent : (state.rplParents parent).map Parent.dag = some dag := by
    rw [found, Option.map_some, inDag]
  unfold rplSelectDag
  rw [isCurrent, isParent]
  dsimp only
  rw [chosen, isPreferred]
  dsimp only
  generalize bestEq :
    (if state.takesOver current dag then dag else current) = best
  have switched := (switchDag_selects selects dag.inst current
    best).sameDags (SameDags.updateMetricContainer _ dag.inst)
  generalize ((state.chooseDag dag.inst current dag).2.switchDag dag.inst
    current best).updateMetricContainer dag.inst = before at switched ⊢
  have bestParent : (before.dagTable best).preferredParent =
      if state.takesOver current dag then state.selectedParent current dag
      else some parent := by
    rw [← bestEq]
    by_cases takes : state.takesOver current dag = true
    · rw [if_pos takes, if_pos takes, switched.preferred]
      unfold takesOver at takes
      obtain ⟨someParent, _⟩ := of_decide_eq_true takes
      exact Option.or_of_isSome someParent
    · rw [if_neg takes, if_neg takes, switched.others current different,
        isPreferred]
  rw [bestParent]
  obtain ⟨ranked, rank⟩ := setRank_selects switched best
    (if state.takesOver current dag then state.selectedParent current dag
      else some parent)
  obtain ⟨result, checks⟩ := checkRank_checks
    (before.setRank best (if state.takesOver current dag
      then state.selectedParent current dag else some parent))
    dag.inst best parent
  rw [rank] at result checks
  exact ⟨_, ranked, result, checks⟩

/-! ## Recovery -/

/-- The current DAG of the instance, if it is another one in which the parent
is the preferred one. -/
def otherDag (state : State config)
    (parent : Fin config.nbrTableMaxNeighbors) (dag : DagRef config) :
    Option (DagRef config) :=
  (state.currentDag dag.inst).filter fun current =>
    current ≠ dag ∧
      (state.dagTable current).preferredParent = some parent

/-- The DAG has another preferred parent, which is acceptable, or the parent
is also the preferred one of the current DAG and the selection recovers. -/
def RecoveryCondition (state : State config)
    (parent : Fin config.nbrTableMaxNeighbors) (entry : Parent config) :
    Prop :=
  match state.otherDag parent entry.dag with
  | none =>
      state.Accepted entry.dag (state.dagTable entry.dag).preferredParent
  | some current =>
      (state.nullified parent entry).ReselectionRecovers current entry.dag
        parent

theorem nullified_loses {state : State config}
    {parent : Fin config.nbrTableMaxNeighbors} {entry : Parent config}
    (found : state.rplParents parent = some entry) :
    LosesParents state (state.nullified parent entry) entry.dag
      fun preferred => preferred = parent := by
  have noted : SameDags state
      (state.noteAcceptableRank entry.dag entry.rank) :=
    SameDags.noteAll state _
  have found' : (state.noteAcceptableRank entry.dag
      entry.rank).rplParents parent = some entry := found
  have loses := rplNullifyParent_loses found'
  exact ⟨noted.toSameBasis.trans loses.basis, loses.others,
    loses.preferred, loses.minRank⟩

theorem currentDag_nullified
    (parent : Fin config.nbrTableMaxNeighbors) (entry : Parent config)
    (inst : Fin config.maxInstances) :
    (state.nullified parent entry).currentDag inst =
      state.currentDag inst := by
  unfold nullified
  rw [currentDag_rplNullifyParent]
  rfl

/-- The parent is still preferred in the current DAG if that is another
one. -/
theorem preferred_nullified {state : State config}
    {parent : Fin config.nbrTableMaxNeighbors} {entry : Parent config}
    (found : state.rplParents parent = some entry) :
    some parent = ((state.nullified parent entry).currentDag
        entry.dag.inst).bind (fun dag =>
          ((state.nullified parent entry).dagTable dag).preferredParent) ↔
      (state.otherDag parent entry.dag).isSome := by
  have loses := nullified_loses found
  unfold otherDag
  rw [currentDag_nullified]
  cases state.currentDag entry.dag.inst with
  | none =>
      simp
  | some current =>
      rw [Option.bind_some]
      by_cases same : current = entry.dag
      · rw [same, loses.preferred]
        cases (state.dagTable entry.dag).preferredParent with
        | none =>
            simp
        | some preferred =>
            by_cases isParent : preferred = parent
            · simp [isParent, Option.filter]
            · simp [isParent, Option.filter, Ne.symm isParent]
      · rw [loses.others current same, eq_comm]
        simp [Option.filter, same]

/-- The two ways in which the event ends for a parent that is not
acceptable. -/
theorem rplProcessParentEvent_unacceptable {state : State config}
    {parent : Fin config.nbrTableMaxNeighbors} {entry : Parent config}
    (found : state.rplParents parent = some entry)
    (unacceptable : state.acceptableRank entry.dag entry.rank = false) :
    (state.otherDag parent entry.dag = none →
      (state.rplProcessParentEvent entry.dag.inst parent).2 =
          state.nullified parent entry ∧
        state.startsLocalRepair entry.dag.inst parent = false) ∧
    (∀ current, state.otherDag parent entry.dag = some current →
      let selection := (state.nullified parent entry).rplSelectDag
        entry.dag.inst parent
      (state.rplProcessParentEvent entry.dag.inst parent).2 =
          (if selection.1.isSome then selection.2
            else selection.2.rplLocalRepair entry.dag.inst) ∧
        state.startsLocalRepair entry.dag.inst parent =
          !selection.1.isSome) := by
  have stillPreferred := preferred_nullified found
  unfold rplProcessParentEvent startsLocalRepair
  rw [found]
  simp only [unacceptable, Bool.false_eq_true, if_false, not_false_eq_true,
    true_and, false_or]
  constructor
  · intro none
    rw [none] at stillPreferred
    have leaves := mt stillPreferred.1 (by simp)
    constructor
    · exact congrArg Prod.snd (if_pos leaves)
    · simp [leaves]
  · intro current isOther
    rw [isOther] at stillPreferred
    have stays := stillPreferred.2 rfl
    constructor
    · refine (congrArg Prod.snd (if_neg (not_not_intro stays))).trans ?_
      exact apply_ite Prod.snd _ _ _
    · rw [← stays]
      cases ((state.nullified parent entry).rplSelectDag entry.dag.inst
        parent).1 <;> simp

theorem accepted_filter_iff {state : State config} {dag : DagRef config}
    {parent : Fin config.nbrTableMaxNeighbors} {entry : Parent config}
    (found : state.rplParents parent = some entry)
    (unacceptable : state.acceptableRank dag entry.rank = false)
    (preferred : Option (Fin config.nbrTableMaxNeighbors)) :
    state.Accepted dag (preferred.filter fun kept =>
        !decide (kept = parent)) ↔
      state.Accepted dag preferred := by
  cases preferred with
  | none =>
      rfl
  | some kept =>
      by_cases same : kept = parent
      · rw [same]
        simp only [Option.filter, decide_true, Bool.not_true,
          Bool.false_eq_true, if_false]
        refine iff_of_false (not_accepted_none state dag) ?_
        rintro ⟨index, other, isIndex, isEntry, acceptable⟩
        rw [← Option.some.inj isIndex, found] at isEntry
        rw [← Option.some.inj isEntry, unacceptable] at acceptable
        exact Bool.noConfusion acceptable
      · simp [Option.filter, same]

/-- The selection for another DAG recovers under the condition on the state
before it. -/
theorem reselection_recovers_iff {state : State config}
    {current dag : DagRef config} {entry : Parent config}
    {parent : Fin config.nbrTableMaxNeighbors}
    (isCurrent : state.currentDag dag.inst = some current)
    (found : state.rplParents parent = some entry)
    (inDag : entry.dag = dag) (different : current ≠ dag)
    (isPreferred : (state.dagTable current).preferredParent =
      some parent) :
    let selection := state.rplSelectDag dag.inst parent
    let after := if selection.1.isSome then selection.2
      else selection.2.rplLocalRepair dag.inst
    (after.Accepted dag (after.dagTable dag).preferredParent ∨
        after.NoCandidate dag ∧ (!selection.1.isSome) = true) ↔
      state.ReselectionRecovers current dag parent := by
  obtain ⟨middle, selects, result, checks⟩ := rplSelectDag_other isCurrent
    found inDag different isPreferred
  unfold ReselectionRecovers
  dsimp only
  generalize state.rplSelectDag dag.inst parent = selection
    at result checks ⊢
  generalize bestEq :
    (if state.takesOver current dag then dag else current) = best
    at result checks ⊢
  generalize state.calculateRank (if state.takesOver current dag
    then state.selectedParent current dag else some parent) 0 = rank
    at result checks ⊢
  have kept : middle.keepsRank best rank = state.keepsRank best rank := by
    unfold keepsRank
    rw [selects.minRank, selects.basis.acceptableRank (selects.minRank best)]
  rw [result, kept]
  have basis := selects.basis.trans checks.basis
  by_cases keeps : state.keepsRank best rank = true
  · rw [if_pos keeps, if_pos keeps, keeps]
    have lowered : SameBasis state (state.lowered best rank) :=
      SameBasis.modifyDag state best _ rfl
    have preferred : (selection.2.dagTable dag).preferredParent =
        (state.selectedParent current dag).or
          (state.dagTable dag).preferredParent := by
      rw [← selects.preferred]
      by_cases same : dag = best
      · rw [same, checks.preferred, kept, if_pos keeps]
      · rw [(checks.others dag same).1]
    have minRank : (selection.2.dagTable dag).minRank =
        ((state.lowered best rank).dagTable dag).minRank := by
      unfold State.lowered
      rw [dagTable_modifyDag]
      by_cases same : dag = best
      · rw [if_pos same, same, checks.minRank, selects.minRank]
      · rw [if_neg same, (checks.others dag same).2, selects.minRank]
    rw [preferred, (lowered.symm.trans basis).accepted_iff minRank]
    simp
  · rw [if_neg keeps, if_neg keeps, Bool.eq_false_of_not_eq_true keeps]
    have notLower : ¬ rank < (state.dagTable best).minRank := by
      intro lower
      exact keeps (by simp [keepsRank, lower])
    have repaired := rplLocalRepair_repairs selection.2 dag
    have minRank : (selection.2.dagTable dag).minRank =
        (state.dagTable dag).minRank := by
      by_cases same : dag = best
      · rw [same, checks.minRank, selects.minRank, if_neg notLower]
      · rw [(checks.others dag same).2, selects.minRank]
    have whole := basis.trans repaired.basis
    rw [whole.accepted_iff (repaired.minRank.trans minRank),
      whole.noCandidate_iff (repaired.minRank.trans minRank),
      repaired.preferred]
    simp only [Bool.true_and, basis.losesInRepair]
    by_cases takes : state.takesOver current dag = true
    · rw [if_pos takes] at bestEq
      subst bestEq
      rw [checks.preferred, kept, if_neg keeps]
      have notAccepted := not_accepted_none state dag
      simp [takes, notAccepted]
    · rw [if_neg takes] at bestEq
      have notBest : dag ≠ best := by
        rw [← bestEq]
        exact Ne.symm different
      rw [(checks.others dag notBest).1, selects.preferred]
      simp [takes, or_comm]

/-- A parent that is not the preferred one of another DAG: nothing is
selected. -/
theorem recovers_iff_accepted {state : State config}
    {parent : Fin config.nbrTableMaxNeighbors} {entry : Parent config}
    (found : state.rplParents parent = some entry)
    (unacceptable : state.acceptableRank entry.dag entry.rank = false)
    (noOther : state.otherDag parent entry.dag = none) :
    state.Recovers parent entry ↔
      state.Accepted entry.dag
        (state.dagTable entry.dag).preferredParent := by
  have loses := nullified_loses found
  obtain ⟨after, noRepair⟩ :=
    (rplProcessParentEvent_unacceptable found unacceptable).1 noOther
  unfold Recovers
  simp only [after, noRepair, Bool.false_eq_true, and_false, or_false]
  rw [loses.basis.accepted_iff loses.minRank, loses.preferred]
  exact accepted_filter_iff found unacceptable _

/-- For each parent that is not acceptable. -/
theorem recovers_iff {state : State config}
    {parent : Fin config.nbrTableMaxNeighbors} {entry : Parent config}
    (found : state.rplParents parent = some entry)
    (unacceptable : state.acceptableRank entry.dag entry.rank = false) :
    state.Recovers parent entry ↔ state.RecoveryCondition parent entry := by
  unfold RecoveryCondition
  cases isOther : state.otherDag parent entry.dag with
  | none =>
      exact recovers_iff_accepted found unacceptable isOther
  | some current =>
      have loses := nullified_loses found
      obtain ⟨after, repair⟩ :=
        (rplProcessParentEvent_unacceptable found unacceptable).2 current
          isOther
      obtain ⟨isCurrent, chosen⟩ := Option.filter_eq_some_iff.1 isOther
      obtain ⟨different, isPreferred⟩ := of_decide_eq_true chosen
      unfold Recovers
      simp only [after, repair]
      refine reselection_recovers_iff ?_ ?_ rfl different ?_
      · rw [currentDag_nullified]
        exact isCurrent
      · rw [loses.basis.parents]
        exact found
      · rw [loses.others current different]
        exact isPreferred

/-! ## A node with two parents -/

def firstNeighbor : Fin RplConfig.rplConf.nbrTableMaxNeighbors :=
  ⟨0, first_lt_four⟩

def secondNeighbor : Fin RplConfig.rplConf.nbrTableMaxNeighbors :=
  ⟨1, second_lt_four⟩

/-- Two neighbours with the same rank have sent a DIO. -/
def twoParents : State .rplConf :=
  initial.run
    [.addNeighbor neighborAddr (Vector.replicate 8 1),
      .addNeighbor (Vector.replicate 16 0xfd) (Vector.replicate 8 2),
      .dio neighborAddr (dioWithVersion 240),
      .dio (Vector.replicate 16 0xfd) (dioWithVersion 240)]

/-- A parent whose rank has become too high. -/
def raisedParent : Parent .rplConf where
  dag := firstDag
  mc := .zero
  rank := 60000
  dtsn := 0
  updated := false
  linkMetricValid := false

def raised (parent : Fin RplConfig.rplConf.nbrTableMaxNeighbors) :
    State .rplConf :=
  twoParents.setParent parent (some raisedParent)

theorem raised_second_recovers_iff :
    (raised secondNeighbor).Recovers secondNeighbor raisedParent ↔
      (raised secondNeighbor).RecoveryCondition secondNeighbor
        raisedParent :=
  recovers_iff (by rw [raised, rplParents_setParent, if_pos rfl])
    (by decide +kernel)

/-- The second parent is not chosen for the first one. -/
theorem raised_first_not_recovers :
    ¬ (raised firstNeighbor).Recovers firstNeighbor raisedParent := by
  have found : (raised firstNeighbor).rplParents firstNeighbor =
      some raisedParent := by
    rw [raised, rplParents_setParent, if_pos rfl]
  rw [recovers_iff_accepted found (by decide +kernel) (by decide +kernel)]
  rintro ⟨index, entry, isPreferred, isEntry, acceptable⟩
  have preferred : ((raised firstNeighbor).dagTable
      raisedParent.dag).preferredParent = some firstNeighbor := by
    decide +kernel
  rw [preferred, Option.some.injEq] at isPreferred
  rw [← isPreferred, found, Option.some.injEq] at isEntry
  rw [← isEntry] at acceptable
  exact absurd acceptable (by decide +kernel)

end State

end Contiki.Rpl
