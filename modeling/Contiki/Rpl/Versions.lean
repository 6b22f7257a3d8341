import Contiki.Rpl.Frame

/-!
# The order of DAG versions

Two versions can each be newer than the other, so that each of them makes a
node that has the other one repair the DAG.
-/

namespace Contiki.Rpl

variable {config : RplConfig}

/-- The counters are on both sides of the lollipop, at a distance at which
each of the rules finds its first argument greater. -/
def AmbiguousVersions (v w : UInt8) : Prop :=
  let apart : UInt8 → UInt8 → Prop := fun a b =>
    127 < a.toNat ∧ b.toNat ≤ 127 ∧
      112 < a.toNat - b.toNat ∧ a.toNat - b.toNat < 240
  apart v w ∨ apart w v

theorem lollipopGreaterThan_both_iff (v w : UInt8) :
    (lollipopGreaterThan w v ∧ lollipopGreaterThan v w) ↔
      AmbiguousVersions v w := by
  have bound_v := v.toNat_lt
  have bound_w := w.toNat_lt
  unfold lollipopGreaterThan AmbiguousVersions
  dsimp only
  split <;> split <;> simp only [decide_eq_true_eq] <;> omega

variable (state : State config) (dag : DagRef config)

namespace State

/-- The version of the DAG with this name, if the node is part of it. -/
def versionOf (state : State config) (instanceId : UInt8)
    (dagId : IpAddr) : Option UInt8 :=
  (state.getDag instanceId dagId).map fun dag =>
    (state.dagTable dag).version

/-- The DIO makes the node perform a global repair. -/
def Repairs (state : State config) (dio : Dio) : Prop :=
  supportsMop config dio ∧
    ∃ dag, state.getDag dio.instanceId dio.dagId = some dag ∧
      state.startsGlobalRepair dio dag

/-- None of the inputs changes the version of the DAG. -/
def KeepsVersion (instanceId : UInt8) (dagId : IpAddr) :
    State config → List (Input config) → Prop
  | _, [] => True
  | state, input :: rest =>
      (state.step input).versionOf instanceId dagId =
        state.versionOf instanceId dagId ∧
      KeepsVersion instanceId dagId (state.step input) rest

/-- The same DAGs and instances are in use, under the same names. -/
structure SameNames (before after : State config) : Prop where
  dagUsed : ∀ ref, (after.dagTable ref).used = (before.dagTable ref).used
  dagId : ∀ ref, (after.dagTable ref).dagId = (before.dagTable ref).dagId
  instanceUsed : ∀ inst, (after.instanceTable inst).used =
    (before.instanceTable inst).used
  instanceId : ∀ inst, (after.instanceTable inst).instanceId =
    (before.instanceTable inst).instanceId

/-- The same DAGs under the same names, in the same versions. -/
structure SameVersions (before after : State config) : Prop extends
    SameNames before after where
  version : ∀ ref, (after.dagTable ref).version =
    (before.dagTable ref).version

theorem SameNames.refl : SameNames state state :=
  ⟨fun _ => rfl, fun _ => rfl, fun _ => rfl, fun _ => rfl⟩

theorem SameNames.trans {first second third : State config}
    (left : SameNames first second) (right : SameNames second third) :
    SameNames first third where
  dagUsed := fun ref => (right.dagUsed ref).trans (left.dagUsed ref)
  dagId := fun ref => (right.dagId ref).trans (left.dagId ref)
  instanceUsed := fun inst =>
    (right.instanceUsed inst).trans (left.instanceUsed inst)
  instanceId := fun inst =>
    (right.instanceId inst).trans (left.instanceId inst)

theorem SameNames.modifyDag (ref : DagRef config)
    (change : Dag config → Dag config)
    (same : ∀ dag, (change dag).used = dag.used ∧
      (change dag).dagId = dag.dagId) :
    SameNames state (state.modifyDag ref change) where
  dagUsed := by
    intro other
    rw [dagTable_modifyDag]
    split
    · next found => rw [found, (same _).1]
    · rfl
  dagId := by
    intro other
    rw [dagTable_modifyDag]
    split
    · next found => rw [found, (same _).2]
    · rfl
  instanceUsed := fun _ => rfl
  instanceId := fun _ => rfl

theorem SameNames.modifyInstance (inst : Fin config.maxInstances)
    (change : Instance config → Instance config)
    (same : ∀ entry, (change entry).used = entry.used ∧
      (change entry).instanceId = entry.instanceId) :
    SameNames state (state.modifyInstance inst change) where
  dagUsed := fun _ => rfl
  dagId := fun _ => rfl
  instanceUsed := by
    intro other
    rw [instanceTable_modifyInstance]
    split
    · next found => rw [found, (same _).1]
    · rfl
  instanceId := by
    intro other
    rw [instanceTable_modifyInstance]
    split
    · next found => rw [found, (same _).2]
    · rfl

theorem SameNames.note (event : Event config) :
    SameNames state (state.note event) :=
  ⟨fun _ => rfl, fun _ => rfl, fun _ => rfl, fun _ => rfl⟩

theorem SameNames.newDioInterval (inst : Fin config.maxInstances) :
    SameNames state (state.newDioInterval inst) :=
  (SameNames.note state _).trans
    (SameNames.modifyInstance _ inst _ fun _ => ⟨rfl, rfl⟩)

theorem SameNames.getDag {before after : State config}
    (same : SameNames before after) (instanceId : UInt8) (dagId : IpAddr) :
    after.getDag instanceId dagId = before.getDag instanceId dagId := by
  unfold State.getDag rplGetInstance
  simp only [same.dagUsed, same.dagId, same.instanceUsed, same.instanceId]

theorem SameVersions.versionOf {before after : State config}
    (same : SameVersions before after) (instanceId : UInt8)
    (dagId : IpAddr) :
    after.versionOf instanceId dagId = before.versionOf instanceId dagId := by
  unfold State.versionOf
  rw [same.toSameNames.getDag]
  simp only [same.version]

theorem SameVersions.rule : SelectionRule (@SameVersions config) where
  refl := fun state => ⟨SameNames.refl state, fun _ => rfl⟩
  trans := fun left right =>
    ⟨left.toSameNames.trans right.toSameNames,
      fun ref => (right.version ref).trans (left.version ref)⟩
  note := fun state event _ => ⟨SameNames.note state event, fun _ => rfl⟩
  modifyDag := by
    intro state ref change same
    refine ⟨SameNames.modifyDag state ref _ fun dag =>
      ⟨(congrArg Dag.used (same dag) :),
        (congrArg Dag.dagId (same dag) :)⟩, ?_⟩
    intro other
    rw [dagTable_modifyDag]
    split
    · next found =>
        rw [found]
        exact (congrArg Dag.version (same _) :)
    · rfl
  modifyInstance := by
    intro state inst change keeps
    refine ⟨⟨fun _ => rfl, fun _ => rfl, ?_, ?_⟩, fun _ => rfl⟩
    · intro other
      rw [instanceTable_modifyInstance]
      split
      · next found =>
          rw [found]
          exact (congrArg Instance.used keeps.setup :)
      · rfl
    · intro other
      rw [instanceTable_modifyInstance]
      split
      · next found =>
          rw [found]
          exact (congrArg Instance.instanceId keeps.setup :)
      · rfl
  rplResetDioTimer := by
    intro state inst
    refine ⟨?_, fun ref => ?_⟩
    · unfold State.rplResetDioTimer
      dsimp only
      split
      · have interval := SameNames.modifyInstance state inst
          (fun entry =>
            { entry with dioCounter := 0, dioIntcurrent := entry.dioIntmin })
          fun _ => ⟨rfl, rfl⟩
        exact interval.trans (SameNames.newDioInterval _ inst)
      · exact SameNames.refl state
    · unfold State.rplResetDioTimer
      dsimp only
      split <;> rfl
  tables := by
    intro before after dags instances _
    refine ⟨⟨?_, ?_, ?_, ?_⟩, ?_⟩ <;> intro _
    · rw [dags]
    · rw [dags]
    · rw [instances]
    · rw [instances]
    · rw [dags]

theorem sameVersions_processPrefix (dio : Dio) :
    SameVersions state (state.processPrefix dag dio) := by
  have written : ∀ prefixInfo : Prefix, SameVersions state
      (state.modifyDag dag fun entry =>
        { entry with prefixInfo := prefixInfo }) := by
    intro prefixInfo
    refine ⟨SameNames.modifyDag state dag _ fun _ => ⟨rfl, rfl⟩, ?_⟩
    intro other
    rw [dagTable_modifyDag]
    split
    · next found => rw [found]
    · rfl
  unfold processPrefix rplSetPrefix
  split
  · dsimp only
    split
    · exact SameVersions.rule.refl state
    · exact SameVersions.rule.trans (written _)
        (SameVersions.rule.note _ (.checkPrefix _ _) trivial)
  · exact SameVersions.rule.refl state

theorem sameNames_startRepair (dio : Dio) :
    SameNames state (state.startRepair dag dio) := by
  have removed := SameVersions.rule.removeParents state dag 0
  unfold startRepair incrementDtsn
  refine removed.toSameNames.trans (SameNames.trans
    (SameNames.modifyDag _ dag _ fun _ => ?_) (SameNames.trans
    (SameNames.modifyInstance _ dag.inst _ fun _ => ?_) (SameNames.trans
    (SameNames.modifyDag _ dag _ fun _ => ?_)
    (SameNames.modifyInstance _ dag.inst _ fun _ => ?_))))
  all_goals exact ⟨rfl, rfl⟩

theorem version_startRepair (dio : Dio) :
    ((state.startRepair dag dio).dagTable dag).version = dio.version := by
  simp [startRepair, incrementDtsn, modifyInstance, modifyDag]

theorem rplProcessDio_repair {state : State config} {dio : Dio}
    {dag : DagRef config} (source : IpAddr)
    (supported : supportsMop config dio)
    (known : state.getDag dio.instanceId dio.dagId = some dag)
    (starts : state.startsGlobalRepair dio dag) :
    state.rplProcessDio source dio =
      (state.processPrefix dag dio).globalRepair source dag dio := by
  obtain ⟨inst, isInstance, _⟩ := Option.bind_eq_some_iff.1 known
  unfold rplProcessDio
  simp [supported, known, isInstance, starts]

theorem versionOf_repair {state : State config} {dio : Dio}
    (source : IpAddr) (repairs : state.Repairs dio) :
    (state.rplProcessDio source dio).versionOf dio.instanceId dio.dagId =
      some dio.version := by
  obtain ⟨supported, dag, known, starts⟩ := repairs
  rw [rplProcessDio_repair source supported known starts]
  have added := SameVersions.rule.repairParent
    ((state.processPrefix dag dio).startRepair dag dio) source dag dio
  have named := (sameVersions_processPrefix state dag dio).toSameNames.trans
    (sameNames_startRepair _ dag dio)
  unfold globalRepair
  rw [added.versionOf]
  unfold versionOf
  rw [named.getDag, known, Option.map_some, version_startRepair]

theorem versionOf_run {state : State config} {instanceId : UInt8}
    {dagId : IpAddr} {inputs : List (Input config)}
    (keeps : KeepsVersion instanceId dagId state inputs) :
    (state.run inputs).versionOf instanceId dagId =
      state.versionOf instanceId dagId := by
  induction inputs generalizing state with
  | nil =>
      rfl
  | cons input rest inductionHypothesis =>
      obtain ⟨same, later⟩ := keeps
      exact (inductionHypothesis later).trans same

/-- A repair compares the version of the DIO with that of the DAG. -/
theorem Repairs.greater {state : State config} {dio : Dio} {version : UInt8}
    (repairs : state.Repairs dio)
    (isVersion : state.versionOf dio.instanceId dio.dagId = some version) :
    lollipopGreaterThan dio.version version := by
  obtain ⟨_, dag, known, starts⟩ := repairs
  unfold versionOf at isVersion
  rw [known, Option.map_some, Option.some.injEq] at isVersion
  rw [← isVersion]
  exact (of_decide_eq_true starts).1

end State

/-- After a DIO with version `w` has made a node with version `v` repair the
DAG, no DIO with version `v` makes it repair the DAG again. -/
def NeverRepairsBack (config : RplConfig) (v w : UInt8) : Prop :=
  ∀ (state : State config) (source : IpAddr) (dio : Dio),
    state.versionOf dio.instanceId dio.dagId = some v →
    dio.version = w →
    state.Repairs dio →
    ∀ inputs, State.KeepsVersion dio.instanceId dio.dagId
        (state.rplProcessDio source dio) inputs →
      ∀ back : Dio, back.instanceId = dio.instanceId →
        back.dagId = dio.dagId → back.version = v →
        ¬ ((state.rplProcessDio source dio).run inputs).Repairs back

theorem neverRepairsBack_of_not_ambiguous {v w : UInt8}
    (unambiguous : ¬ AmbiguousVersions v w) :
    NeverRepairsBack config v w := by
  intro state source dio isVersion carries repairs inputs keeps back
    sameInstance sameDag backVersion repairsBack
  have forth := repairs.greater isVersion
  have kept := State.versionOf_run keeps
  rw [State.versionOf_repair source repairs, ← sameInstance, ← sameDag]
    at kept
  have backwards := repairsBack.greater kept
  rw [carries] at forth backwards
  rw [backVersion] at backwards
  exact unambiguous ((lollipopGreaterThan_both_iff v w).1 ⟨forth, backwards⟩)

/-- A node in a DAG without neighbours. -/
def aloneInDag (version : UInt8) : State .rplConf :=
  { State.initial with
    instanceTable := fun _ =>
      { Instance.zero with
        currentDag := some firstDag.index
        used := true
        minHoprankinc := 256 }
    dagTable := fun ref =>
      if ref = firstDag then
        { Dag.zero with
          version := version
          used := true
          joined := true
          rank := infiniteRank
          inInstance := true }
      else .zero }

theorem not_neverRepairsBack_of_ambiguous {v w : UInt8}
    (ambiguous : AmbiguousVersions v w) :
    ¬ NeverRepairsBack .rplConf v w := by
  obtain ⟨forth, backwards⟩ := (lollipopGreaterThan_both_iff v w).2 ambiguous
  have known : ∀ version, (aloneInDag version).getDag 0
      (Vector.replicate 16 0) = some firstDag := by
    intro version
    rfl
  have starts : (aloneInDag v).startsGlobalRepair (dioWithVersion w)
      firstDag := by
    refine decide_eq_true ⟨forth, ?_⟩
    change infiniteRank ≠ 256
    decide
  have repairs : (aloneInDag v).Repairs (dioWithVersion w) :=
    ⟨rfl, firstDag, known v, starts⟩
  have repaired := @State.rplProcessDio_repair _ _ (dioWithVersion w) _
    (Vector.replicate 16 0) rfl (known v) starts
  -- no neighbour has the address of the sender, so the rank stays infinite
  have startsBack : ((aloneInDag v).rplProcessDio (Vector.replicate 16 0)
      (dioWithVersion w)).startsGlobalRepair (dioWithVersion v)
        firstDag := by
    rw [repaired]
    refine decide_eq_true ⟨backwards, ?_⟩
    change infiniteRank ≠ 256
    decide
  have knownBack : ((aloneInDag v).rplProcessDio (Vector.replicate 16 0)
      (dioWithVersion w)).getDag 0 (Vector.replicate 16 0) =
        some firstDag := by
    rw [repaired]
    rfl
  intro never
  exact never _ (Vector.replicate 16 0) (dioWithVersion w) rfl rfl repairs
    [] trivial (dioWithVersion v) rfl rfl rfl
    ⟨rfl, firstDag, knownBack, startsBack⟩

/-- A global repair is never undone by a DIO with the version before it,
exactly when the two versions are not each newer than the other. -/
theorem neverRepairsBack_iff (v w : UInt8) :
    (∀ config, NeverRepairsBack config v w) ↔ ¬ AmbiguousVersions v w := by
  constructor
  · intro never ambiguous
    exact not_neverRepairsBack_of_ambiguous ambiguous (never .rplConf)
  · intro unambiguous config
    exact neverRepairsBack_of_not_ambiguous unambiguous

/-- The node has a neighbour and has joined its DAG in version 5. -/
def joinedInVersion5 : State .rplConf :=
  State.initial.run
    [.addNeighbor neighborAddr (Vector.replicate 8 1),
      .dio neighborAddr (dioWithVersion 5)]

/-- The versions 5 and 240, in turn, make the node repair the DAG. -/
theorem version240_repairsBack :
    ¬ NeverRepairsBack .rplConf 5 240 := by
  intro never
  refine never joinedInVersion5 neighborAddr (dioWithVersion 240)
    (by decide +kernel) rfl
    ⟨rfl, firstDag, by decide +kernel, by decide +kernel⟩
    [] trivial (dioWithVersion 5) rfl rfl rfl
    ⟨rfl, firstDag, by decide +kernel, by decide +kernel⟩

end Contiki.Rpl
