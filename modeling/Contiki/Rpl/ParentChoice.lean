import Contiki.Lib.Contest
import Contiki.Rpl.Parents

/-!
# The choice of a parent with MRHOF

`rpl_select_parent` goes through the neighbour table with a comparison that
keeps the preferred parent for similar path costs.  The order of the table
does not matter as long as the comparison of 16-bit costs says the same as
that of the exact ones.
-/

namespace Contiki.Rpl

open Contiki.Lib

variable {config : RplConfig}

variable (state : State config) (dag : DagRef config)

namespace State

/-- `best_parent` of a DAG does not ignore the parent. -/
def isCandidate (state : State config) (dag : DagRef config)
    (parent : Fin config.nbrTableMaxNeighbors) : Bool :=
  (state.rplParents parent).any fun entry =>
    entry.dag = dag ∧ entry.rank ≠ infiniteRank

/-- The parents of a DAG that can be chosen. -/
def candidates (state : State config) (dag : DagRef config) :
    List (Fin config.nbrTableMaxNeighbors) :=
  state.nbrTableKeys.filter (state.isCandidate dag)

def reportedMetric (entry : Parent config) : Nat :=
  match config.dagMc with
  | .none => entry.rank.toNat
  | .etx => entry.mc.obj.etx.toNat
  | .energy => entry.mc.obj.energyEst.toNat

/-- The path cost as an exact sum, and `MAX_PATH_COST` without a
neighbour. -/
def pathCost (state : State config)
    (parent : Fin config.nbrTableMaxNeighbors) : Nat :=
  match state.ds6Neighbors parent with
  | some nbr =>
      ((state.rplParents parent).map reportedMetric).getD 0 +
        nbr.linkMetric.toNat
  | none => 100 * 256

/-- The hysteresis threshold, half of `RPL_DAG_MC_ETX_DIVISOR`. -/
def threshold : Nat := 128

/-- The preferred parent can be chosen, and its path cost is within the
threshold of the least one. -/
def KeepsPreferred (state : State config) (dag : DagRef config)
    (preferred : Fin config.nbrTableMaxNeighbors) : Prop :=
  (state.dagTable dag).preferredParent = some preferred ∧
    preferred ∈ state.candidates dag ∧
    ∀ parent ∈ state.candidates dag,
      state.pathCost preferred < state.pathCost parent + threshold

def Cheapest (state : State config) (dag : DagRef config)
    (parent : Fin config.nbrTableMaxNeighbors) : Prop :=
  parent ∈ state.candidates dag ∧
    ∀ other ∈ state.candidates dag,
      state.pathCost parent ≤ state.pathCost other

/-- The choice is the preferred parent if that is to be kept, and a parent of
minimal path cost else. -/
def RightChoice (state : State config) (dag : DagRef config)
    (choice : Option (Fin config.nbrTableMaxNeighbors)) : Prop :=
  (∀ preferred, state.KeepsPreferred dag preferred →
    choice = some preferred) ∧
  ((¬ ∃ preferred, state.KeepsPreferred dag preferred) →
    state.candidates dag ≠ [] →
      ∃ parent, choice = some parent ∧ state.Cheapest dag parent)

def withKeys (state : State config)
    (order : List (Fin config.nbrTableMaxNeighbors)) : State config :=
  { state with nbrTableKeys := order }

/-- For every order of the neighbour table the choice is right, and its path
cost is the same. -/
def ChoosesRight (state : State config) (dag : DagRef config) : Prop :=
  (∀ order, order.Perm state.nbrTableKeys →
    state.RightChoice dag ((state.withKeys order).rplSelectParent dag).1) ∧
  ∀ order other, order.Perm state.nbrTableKeys →
    other.Perm state.nbrTableKeys →
    (((state.withKeys order).rplSelectParent dag).1).map state.pathCost =
      (((state.withKeys other).rplSelectParent dag).1).map state.pathCost

/-! ## The comparison of MRHOF -/

/-- The path metrics of the parents are similar, as `best_parent` computes
it. -/
def similar (state : State config)
    (p1 p2 : Fin config.nbrTableMaxNeighbors) : Bool :=
  config.lessThanSum (state.calculatePathMetric (some p1))
      (state.calculatePathMetric (some p2)) (dagMcEtxDivisor / 2) &&
    config.greaterThanDifference (state.calculatePathMetric (some p1))
      (state.calculatePathMetric (some p2)) (dagMcEtxDivisor / 2)

/-- In an `int` of 16 bits the hysteresis ends where a bound wraps. -/
theorem similar_iff (p1 p2 : Fin config.nbrTableMaxNeighbors) :
    state.similar p1 p2 = true ↔
      (config.uintBits = 16 →
        threshold ≤ (state.calculatePathMetric (some p2)).toNat ∧
          (state.calculatePathMetric (some p2)).toNat + threshold < 65536) ∧
      (state.calculatePathMetric (some p1)).toNat <
        (state.calculatePathMetric (some p2)).toNat + threshold ∧
      (state.calculatePathMetric (some p2)).toNat <
        (state.calculatePathMetric (some p1)).toNat + threshold := by
  have firstLt := (state.calculatePathMetric (some p1)).toNat_lt
  have secondLt := (state.calculatePathMetric (some p2)).toNat_lt
  have isThreshold : (dagMcEtxDivisor / 2).toNat = threshold := by decide
  unfold similar RplConfig.lessThanSum RplConfig.greaterThanDifference
  split
  · next narrow =>
      simp only [narrow, forall_const, Bool.and_eq_true, decide_eq_true_eq,
        gt_iff_lt, UInt16.lt_iff_toNat_lt, UInt16.toNat_add,
        UInt16.toNat_sub, isThreshold]
      unfold threshold
      omega
  · next wide =>
      simp only [wide, false_implies, true_and, Bool.and_eq_true,
        decide_eq_true_eq, gt_iff_lt, isThreshold]

/-- The preferred parent loses to an earlier parent. -/
def losesLater (state : State config) (dag : DagRef config)
    (p1 : Fin config.nbrTableMaxNeighbors) : Bool :=
  (state.dagTable dag).preferredParent.any fun preferred =>
    !state.similar p1 preferred &&
      decide (state.calculatePathMetric (some p1) <
        state.calculatePathMetric (some preferred))

/-- The preferred parent loses to a later parent. -/
def losesFirst (state : State config) (dag : DagRef config)
    (p2 : Fin config.nbrTableMaxNeighbors) : Bool :=
  (state.dagTable dag).preferredParent.any fun preferred =>
    !state.similar preferred p2 &&
      !decide (state.calculatePathMetric (some preferred) <
        state.calculatePathMetric (some p2))

/-- A parent at most as heavy as one to which the preferred parent loses wins
as well. -/
theorem losesLater_of_le (item lighter : Fin config.nbrTableMaxNeighbors)
    (loses : state.losesLater dag item)
    (light : (state.calculatePathMetric (some lighter)).toNat ≤
      (state.calculatePathMetric (some item)).toNat) :
    state.losesLater dag lighter := by
  unfold losesLater at loses ⊢
  cases isPreferred : (state.dagTable dag).preferredParent with
  | none =>
      rw [isPreferred] at loses
      exact loses
  | some preferred =>
      rw [isPreferred] at loses
      rw [Option.any_some, Bool.and_eq_true, Bool.not_eq_true',
        decide_eq_true_eq] at loses ⊢
      obtain ⟨notSimilar, less⟩ := loses
      rw [UInt16.lt_iff_toNat_lt] at less ⊢
      refine ⟨?_, Nat.lt_of_le_of_lt light less⟩
      rw [← Bool.not_eq_true, similar_iff] at notSimilar ⊢
      unfold threshold at *
      omega

def rules (state : State config) (dag : DagRef config) :
    Contest (Fin config.nbrTableMaxNeighbors) where
  weight := fun parent => (state.calculatePathMetric (some parent)).toNat
  favourite := (state.dagTable dag).preferredParent
  losesLater := state.losesLater dag
  losesFirst := state.losesFirst dag
  losesLater_of_le := state.losesLater_of_le dag

theorem mrhofBestParent_eq (p1 p2 : Fin config.nbrTableMaxNeighbors) :
    state.mrhofBestParent dag p1 p2 =
      some ((state.rules dag).better p1 p2) := by
  have compared : state.mrhofBestParent dag p1 p2 =
      if (some p1 = (state.dagTable dag).preferredParent ∨
          some p2 = (state.dagTable dag).preferredParent) ∧
          state.similar p1 p2 = true then
        (state.dagTable dag).preferredParent
      else if (state.calculatePathMetric (some p1)).toNat <
          (state.calculatePathMetric (some p2)).toNat then some p1
      else some p2 := by
    refine if_congr (and_congr_right' ?_) rfl rfl
    unfold similar
    rw [Bool.and_eq_true]
  rw [compared]
  change _ = some (if some p1 = (state.dagTable dag).preferredParent then
      if state.losesFirst dag p2 then p2 else p1
    else if some p2 = (state.dagTable dag).preferredParent then
      if state.losesLater dag p1 then p1 else p2
    else if (state.calculatePathMetric (some p1)).toNat <
        (state.calculatePathMetric (some p2)).toNat then p1
    else p2)
  unfold losesFirst losesLater
  by_cases first : some p1 = (state.dagTable dag).preferredParent
  · rw [← first, if_pos rfl, Option.any_some]
    cases similar : state.similar p1 p2 <;> by_cases less :
      state.calculatePathMetric (some p1) <
        state.calculatePathMetric (some p2) <;>
      simp [less, ← UInt16.lt_iff_toNat_lt]
  · rw [if_neg first]
    by_cases second : some p2 = (state.dagTable dag).preferredParent
    · rw [← second, if_pos rfl, Option.any_some]
      cases similar : state.similar p1 p2 <;> by_cases less :
        state.calculatePathMetric (some p1) <
          state.calculatePathMetric (some p2) <;>
        simp [less, ← UInt16.lt_iff_toNat_lt]
    · rw [if_neg second, if_neg]
      · split <;> rfl
      · rintro ⟨isPreferred | isPreferred, -⟩
        · exact first isPreferred
        · exact second isPreferred

theorem betterParent_skip
    (result : Option (Fin config.nbrTableMaxNeighbors) × List (Event config))
    {parent : Fin config.nbrTableMaxNeighbors}
    (ignored : ¬ state.isCandidate dag parent) :
    state.betterParent dag result parent = result := by
  unfold betterParent
  unfold isCandidate at ignored
  cases isEntry : state.rplParents parent with
  | none =>
      rfl
  | some entry =>
      rw [isEntry, Option.any_some, decide_eq_true_eq] at ignored
      exact if_pos (by tauto)

theorem betterParent_first (events : List (Event config))
    {parent : Fin config.nbrTableMaxNeighbors}
    (looked : state.isCandidate dag parent) :
    state.betterParent dag (none, events) parent =
      (some parent, events) := by
  unfold betterParent
  unfold isCandidate at looked
  cases isEntry : state.rplParents parent with
  | none =>
      rw [isEntry] at looked
      cases looked
  | some entry =>
      rw [isEntry, Option.any_some, decide_eq_true_eq] at looked
      exact if_neg (by tauto)

theorem betterParent_next (isMrhof : config.of = .mrhof)
    (state : State config) (dag : DagRef config)
    (best : Fin config.nbrTableMaxNeighbors) (events : List (Event config))
    {parent : Fin config.nbrTableMaxNeighbors}
    (looked : state.isCandidate dag parent) :
    (state.betterParent dag (some best, events) parent).1 =
      some ((state.rules dag).better best parent) := by
  unfold betterParent
  unfold isCandidate at looked
  cases isEntry : state.rplParents parent with
  | none =>
      rw [isEntry] at looked
      cases looked
  | some entry =>
      rw [isEntry, Option.any_some, decide_eq_true_eq] at looked
      dsimp only
      rw [if_neg (by tauto), ← mrhofBestParent_eq]
      unfold ofBestParent
      rw [isMrhof]

theorem foldl_betterParent (isMrhof : config.of = .mrhof)
    (state : State config) (dag : DagRef config)
    (best : Fin config.nbrTableMaxNeighbors) (events : List (Event config))
    (keys : List (Fin config.nbrTableMaxNeighbors)) :
    (keys.foldl (state.betterParent dag) (some best, events)).1 =
      some ((state.rules dag).winner best
        (keys.filter (state.isCandidate dag))) := by
  induction keys generalizing best events with
  | nil =>
      rfl
  | cons parent keys inductionHypothesis =>
      rw [List.foldl_cons]
      by_cases looked : state.isCandidate dag parent
      · rw [List.filter_cons_of_pos looked, Contest.winner_cons]
        have next := betterParent_next isMrhof state dag best events looked
        generalize state.betterParent dag (some best, events) parent =
          result at next
        obtain ⟨result, later⟩ := result
        rw [show result = _ from next]
        exact inductionHypothesis _ later
      · rw [betterParent_skip state dag _ looked,
          List.filter_cons_of_neg looked]
        exact inductionHypothesis best events

/-- Where MRHOF is linked, `best_parent` is a contest of the candidates. -/
theorem bestParent_eq (isMrhof : config.of = .mrhof) (state : State config)
    (dag : DagRef config) :
    (state.bestParent dag).1 =
      (state.rules dag).select (state.candidates dag) := by
  unfold bestParent candidates
  generalize state.nbrTableKeys = keys
  induction keys with
  | nil =>
      rfl
  | cons parent keys inductionHypothesis =>
      rw [List.foldl_cons]
      by_cases looked : state.isCandidate dag parent
      · rw [List.filter_cons_of_pos looked,
          betterParent_first state dag [] looked]
        exact foldl_betterParent isMrhof state dag parent [] keys
      · rw [betterParent_skip state dag _ looked,
          List.filter_cons_of_neg looked]
        exact inductionHypothesis

theorem rplSelectParent_withKeys (isMrhof : config.of = .mrhof)
    (state : State config) (dag : DagRef config)
    (order : List (Fin config.nbrTableMaxNeighbors)) :
    ((state.withKeys order).rplSelectParent dag).1 =
      (state.rules dag).select (order.filter (state.isCandidate dag)) :=
  bestParent_eq isMrhof (state.withKeys order) dag

/-! ## All orders of the table -/

theorem forall_order_iff (isMrhof : config.of = .mrhof)
    (state : State config) (dag : DagRef config)
    (Right : Option (Fin config.nbrTableMaxNeighbors) → Prop) :
    (∀ order, order.Perm state.nbrTableKeys →
      Right ((state.withKeys order).rplSelectParent dag).1) ↔
      ∀ order, order.Perm (state.candidates dag) →
        Right ((state.rules dag).select order) := by
  constructor
  · intro right order perm
    let others := state.nbrTableKeys.filter fun parent =>
      !state.isCandidate dag parent
    have whole : (order ++ others).Perm state.nbrTableKeys :=
      (perm.append_right others).trans
        (List.filter_append_perm (state.isCandidate dag) _)
    have onlyOrder : order.filter (state.isCandidate dag) = order :=
      List.filter_eq_self.2 fun parent member =>
        (List.mem_filter.1 (perm.mem_iff.1 member)).2
    have noOthers : others.filter (state.isCandidate dag) = [] := by
      refine List.filter_eq_nil_iff.2 fun parent member looked => ?_
      have ignored := (List.mem_filter.1 member).2
      rw [looked] at ignored
      exact Bool.noConfusion ignored
    have chosen := right _ whole
    rw [rplSelectParent_withKeys isMrhof, List.filter_append, onlyOrder,
      noOthers, List.append_nil] at chosen
    exact chosen
  · intro right order perm
    rw [rplSelectParent_withKeys isMrhof]
    exact right _ (perm.filter _)

/-- The costs of 16 bits say the same as the exact ones.  A preferred parent
that is to be kept loses to no candidate; one that is to be left loses to
some candidate in both orders, and the candidates that cost at most as much
as all such ones are of minimal cost; and if the preferred parent is no
candidate, those that cost least are of minimal cost. -/
structure CostsAgree (state : State config) (dag : DagRef config) :
    Prop where
  keeps : ∀ preferred, state.KeepsPreferred dag preferred →
    ∀ parent ∈ state.candidates dag, parent ≠ preferred →
      ¬ (state.rules dag).Threatens parent
  leaves : (¬ ∃ preferred, state.KeepsPreferred dag preferred) →
    ∀ preferred ∈ state.candidates dag,
      (state.dagTable dag).preferredParent = some preferred →
        (∃ parent ∈ state.candidates dag, parent ≠ preferred ∧
          (state.rules dag).Beats parent) ∧
        ∀ parent ∈ state.candidates dag, parent ≠ preferred →
          (∀ other ∈ state.candidates dag, other ≠ preferred →
            (state.rules dag).Beats other →
              state.calculatePathMetric (some parent) ≤
                state.calculatePathMetric (some other)) →
          state.Cheapest dag parent
  finds : (∀ preferred ∈ state.candidates dag,
      (state.dagTable dag).preferredParent ≠ some preferred) →
    ∀ parent ∈ state.candidates dag,
      (∀ other ∈ state.candidates dag,
        state.calculatePathMetric (some parent) ≤
          state.calculatePathMetric (some other)) →
      state.Cheapest dag parent

variable {state : State config} {dag : DagRef config}

theorem KeepsPreferred.unique
    {first second : Fin config.nbrTableMaxNeighbors}
    (keepsFirst : state.KeepsPreferred dag first)
    (keepsSecond : state.KeepsPreferred dag second) : first = second :=
  Option.some.inj (keepsFirst.1.symm.trans keepsSecond.1)

theorem not_cheapest_of_leaves {preferred : Fin config.nbrTableMaxNeighbors}
    (leaves : ¬ state.KeepsPreferred dag preferred)
    (isPreferred : (state.dagTable dag).preferredParent = some preferred) :
    ¬ state.Cheapest dag preferred := by
  rintro ⟨isCandidate, cheapest⟩
  refine leaves ⟨isPreferred, isCandidate, fun parent member => ?_⟩
  have least := cheapest parent member
  unfold threshold
  omega

/-- Where the choice is right in every order, its cost is the same. -/
theorem cost_unique {first second : Option (Fin config.nbrTableMaxNeighbors)}
    (rightFirst : state.RightChoice dag first)
    (rightSecond : state.RightChoice dag second)
    (empty : state.candidates dag = [] → first = none ∧ second = none) :
    first.map state.pathCost = second.map state.pathCost := by
  by_cases keeps : ∃ preferred, state.KeepsPreferred dag preferred
  · obtain ⟨preferred, keeps⟩ := keeps
    rw [rightFirst.1 preferred keeps, rightSecond.1 preferred keeps]
  · by_cases isEmpty : state.candidates dag = []
    · obtain ⟨noFirst, noSecond⟩ := empty isEmpty
      rw [noFirst, noSecond]
    · obtain ⟨one, isFirst, oneMember, oneLeast⟩ :=
        rightFirst.2 keeps isEmpty
      obtain ⟨two, isSecond, twoMember, twoLeast⟩ :=
        rightSecond.2 keeps isEmpty
      rw [isFirst, isSecond, Option.map_some, Option.map_some]
      exact congrArg some (Nat.le_antisymm (oneLeast two twoMember)
        (twoLeast one oneMember))

/-- The choice is right if it is a cheapest parent and none is kept. -/
theorem rightChoice_iff_of_leaves
    (leaves : ¬ ∃ preferred, state.KeepsPreferred dag preferred) :
    (∀ order, order.Perm (state.candidates dag) →
      state.RightChoice dag ((state.rules dag).select order)) ↔
      ∀ order best, order.Perm (state.candidates dag) →
        (state.rules dag).select order = some best →
          state.Cheapest dag best := by
  constructor
  · intro right order best perm isBest
    have notEmpty : state.candidates dag ≠ [] :=
      List.ne_nil_of_mem
        (perm.mem_iff.1 (Contest.select_mem _ isBest))
    obtain ⟨parent, isParent, cheapest⟩ :=
      (right order perm).2 leaves notEmpty
    rw [isBest] at isParent
    rw [Option.some.inj isParent]
    exact cheapest
  · intro good order perm
    refine ⟨fun preferred keeps => absurd ⟨preferred, keeps⟩ leaves,
      fun _ notEmpty => ?_⟩
    have orderNotEmpty : order ≠ [] := by
      rintro rfl
      exact notEmpty perm.nil_eq.symm
    obtain ⟨best, isBest⟩ := Contest.exists_select (state.rules dag)
      orderNotEmpty
    exact ⟨best, isBest, good order best perm isBest⟩

theorem rightChoice_iff (state : State config) (dag : DagRef config) :
    (∀ order, order.Perm (state.candidates dag) →
      state.RightChoice dag ((state.rules dag).select order)) ↔
      state.CostsAgree dag := by
  by_cases keeps : ∃ preferred, state.KeepsPreferred dag preferred
  · obtain ⟨preferred, keeps⟩ := keeps
    have right_iff : ∀ choice, state.RightChoice dag choice ↔
        choice = some preferred := by
      intro choice
      constructor
      · exact fun right => right.1 preferred keeps
      · rintro rfl
        exact ⟨fun other keepsOther => congrArg some
          (keeps.unique keepsOther), fun leaves =>
            absurd ⟨preferred, keeps⟩ leaves⟩
    simp only [right_iff]
    rw [Contest.forall_select_favourite_iff keeps.1 keeps.2.1]
    constructor
    · intro safe
      refine ⟨fun other keepsOther => ?_, fun leaves => ?_, fun absent => ?_⟩
      · rw [← keeps.unique keepsOther]
        exact safe
      · exact absurd ⟨preferred, keeps⟩ leaves
      · exact absurd keeps.1 (absent preferred keeps.2.1)
    · exact fun agree => agree.keeps preferred keeps
  · rw [rightChoice_iff_of_leaves keeps]
    by_cases present : ∃ preferred ∈ state.candidates dag,
        (state.dagTable dag).preferredParent = some preferred
    · obtain ⟨preferred, isCandidate, isPreferred⟩ := present
      have bad := not_cheapest_of_leaves
        (fun kept => keeps ⟨preferred, kept⟩) isPreferred
      have isFavourite : (state.rules dag).favourite = some preferred :=
        isPreferred
      rw [Contest.forall_select_good_iff isFavourite isCandidate bad]
      constructor
      · intro good
        refine ⟨fun other kept => absurd ⟨other, kept⟩ keeps,
          fun _ other _ isOther => ?_, fun absent => ?_⟩
        · obtain rfl := Option.some.inj (isPreferred.symm.trans isOther)
          exact good
        · exact absurd isPreferred (absent preferred isCandidate)
      · exact fun agree =>
          agree.leaves keeps preferred isCandidate isPreferred
    · have absent : ∀ parent ∈ state.candidates dag,
          some parent ≠ (state.rules dag).favourite :=
        fun parent member same => present ⟨parent, member, same.symm⟩
      rw [Contest.forall_select_light_iff absent]
      constructor
      · intro good
        refine ⟨fun other kept => absurd ⟨other, kept⟩ keeps,
          fun _ other member isOther => absurd isOther.symm
            (absent other member), fun _ => good⟩
      · exact fun agree => agree.finds fun preferred member isPreferred =>
          absent preferred member isPreferred.symm

/-- Where MRHOF is linked, the choice of a parent is right for every order of
the neighbour table if and only if the comparisons of 16-bit costs agree with
the exact ones. -/
theorem choosesRight_iff (isMrhof : config.of = .mrhof)
    (state : State config) (dag : DagRef config) :
    state.ChoosesRight dag ↔ state.CostsAgree dag := by
  have right_iff := forall_order_iff isMrhof state dag
    (state.RightChoice dag)
  unfold ChoosesRight
  rw [right_iff, ← rightChoice_iff]
  refine and_iff_left_of_imp fun right order other perm otherPerm => ?_
  have all := right_iff.2 right
  refine cost_unique (all order perm) (all other otherPerm) fun isEmpty => ?_
  rw [rplSelectParent_withKeys isMrhof, rplSelectParent_withKeys isMrhof]
  have none_of : ∀ order : List (Fin config.nbrTableMaxNeighbors),
      order.Perm state.nbrTableKeys →
      (state.rules dag).select (order.filter (state.isCandidate dag)) =
        none := by
    intro order perm
    have isNil : order.filter (state.isCandidate dag) = [] := by
      have filtered := perm.filter (state.isCandidate dag)
      rw [show state.nbrTableKeys.filter (state.isCandidate dag) = []
        from isEmpty] at filtered
      exact filtered.eq_nil
    rw [isNil]
    rfl
  exact ⟨none_of order perm, none_of other otherPerm⟩

/-! ## Costs that do not wrap -/

theorem toNat_calculatePathMetric (state : State config)
    (parent : Fin config.nbrTableMaxNeighbors) :
    (state.calculatePathMetric (some parent)).toNat =
      state.pathCost parent % 65536 := by
  unfold calculatePathMetric pathCost rplGetNbr
  rw [Option.bind_some]
  cases state.ds6Neighbors parent with
  | none =>
      rfl
  | some nbr =>
      have metricLt := nbr.linkMetric.toNat_lt
      dsimp only
      cases state.rplParents parent with
      | none =>
          rw [Option.map_none, Option.getD_none, Nat.zero_add,
            Nat.mod_eq_of_lt metricLt]
      | some entry =>
          rw [Option.map_some, Option.getD_some]
          unfold reportedMetric
          cases config.dagMc with
          | none | etx =>
              exact UInt16.toNat_add ..
          | energy =>
              have isSum := UInt16.toNat_add
                entry.mc.obj.energyEst.toUInt16 nbr.linkMetric
              rw [UInt8.toNat_toUInt16] at isSum
              exact isSum

/-- The costs of the candidates are in the range where nothing wraps. -/
def CostsFit (state : State config) (dag : DagRef config) : Prop :=
  ∀ parent ∈ state.candidates dag, state.pathCost parent < 65536 ∧
    (config.uintBits = 16 → threshold ≤ state.pathCost parent ∧
      state.pathCost parent + threshold < 65536)

theorem CostsFit.similar_iff (fit : state.CostsFit dag)
    {p1 p2 : Fin config.nbrTableMaxNeighbors}
    (first : p1 ∈ state.candidates dag)
    (second : p2 ∈ state.candidates dag) :
    state.similar p1 p2 = true ↔
      state.pathCost p1 < state.pathCost p2 + threshold ∧
        state.pathCost p2 < state.pathCost p1 + threshold := by
  have fitFirst := fit p1 first
  have fitSecond := fit p2 second
  rw [State.similar_iff, toNat_calculatePathMetric,
    toNat_calculatePathMetric, Nat.mod_eq_of_lt fitFirst.1,
    Nat.mod_eq_of_lt fitSecond.1]
  exact and_iff_right fitSecond.2

theorem CostsFit.metric_le_iff (fit : state.CostsFit dag)
    {p1 p2 : Fin config.nbrTableMaxNeighbors}
    (first : p1 ∈ state.candidates dag)
    (second : p2 ∈ state.candidates dag) :
    state.calculatePathMetric (some p1) ≤
        state.calculatePathMetric (some p2) ↔
      state.pathCost p1 ≤ state.pathCost p2 := by
  rw [UInt16.le_iff_toNat_le, toNat_calculatePathMetric,
    toNat_calculatePathMetric, Nat.mod_eq_of_lt (fit p1 first).1,
    Nat.mod_eq_of_lt (fit p2 second).1]

/-- The preferred parent loses to an earlier candidate that is cheaper by the
threshold. -/
theorem CostsFit.losesLater_iff (fit : state.CostsFit dag)
    {preferred parent : Fin config.nbrTableMaxNeighbors}
    (isPreferred : (state.dagTable dag).preferredParent = some preferred)
    (member : preferred ∈ state.candidates dag)
    (isParent : parent ∈ state.candidates dag) :
    state.losesLater dag parent = true ↔
      state.pathCost parent + threshold ≤ state.pathCost preferred := by
  have similar := fit.similar_iff isParent member
  have least := fit.metric_le_iff member isParent
  unfold losesLater
  rw [isPreferred, Option.any_some, Bool.and_eq_true, Bool.not_eq_true',
    ← Bool.not_eq_true, similar, decide_eq_true_eq, ← UInt16.not_le, least]
  unfold threshold
  omega

theorem CostsFit.losesFirst_iff (fit : state.CostsFit dag)
    {preferred parent : Fin config.nbrTableMaxNeighbors}
    (isPreferred : (state.dagTable dag).preferredParent = some preferred)
    (member : preferred ∈ state.candidates dag)
    (isParent : parent ∈ state.candidates dag) :
    state.losesFirst dag parent = true ↔
      state.pathCost parent + threshold ≤ state.pathCost preferred := by
  have similar := fit.similar_iff member isParent
  have least := fit.metric_le_iff isParent member
  unfold losesFirst
  rw [isPreferred, Option.any_some, Bool.and_eq_true, Bool.not_eq_true',
    ← Bool.not_eq_true, similar, Bool.not_eq_true', decide_eq_false_iff_not,
    UInt16.not_lt, least]
  unfold threshold
  omega

theorem CostsFit.costsAgree (fit : state.CostsFit dag) :
    state.CostsAgree dag where
  keeps := by
    intro preferred kept parent isParent _ threatens
    have near := kept.2.2 parent isParent
    have notLighter : ¬ state.pathCost parent + threshold ≤
        state.pathCost preferred := Nat.not_le.2 near
    cases threatens with
    | inl losesLater =>
        exact notLighter
          ((fit.losesLater_iff kept.1 kept.2.1 isParent).1 losesLater)
    | inr losesFirst =>
        exact notLighter
          ((fit.losesFirst_iff kept.1 kept.2.1 isParent).1 losesFirst)
  leaves := by
    intro notKept preferred member isPreferred
    have beats_of_lighter : ∀ parent ∈ state.candidates dag,
        state.pathCost parent + threshold ≤ state.pathCost preferred →
          parent ≠ preferred ∧ (state.rules dag).Beats parent := by
      intro parent isParent lighter
      refine ⟨?_, (fit.losesLater_iff isPreferred member isParent).2 lighter,
        (fit.losesFirst_iff isPreferred member isParent).2 lighter⟩
      rintro rfl
      unfold threshold at lighter
      omega
    obtain ⟨rival, isRival, lighter⟩ : ∃ parent ∈ state.candidates dag,
        state.pathCost parent + threshold ≤ state.pathCost preferred := by
      by_contra none
      refine notKept ⟨preferred, isPreferred, member, ?_⟩
      intro parent isParent
      by_contra far
      exact none ⟨parent, isParent, Nat.le_of_not_lt far⟩
    obtain ⟨rivalOther, beats⟩ := beats_of_lighter rival isRival lighter
    refine ⟨⟨rival, isRival, rivalOther, beats⟩,
      fun parent isParent _ light => ⟨isParent, fun other isOther => ?_⟩⟩
    have belowRival := (fit.metric_le_iff isParent isRival).1
      (light rival isRival rivalOther beats)
    by_cases otherLighter : state.pathCost other + threshold ≤
        state.pathCost preferred
    · obtain ⟨different, otherBeats⟩ :=
        beats_of_lighter other isOther otherLighter
      exact (fit.metric_le_iff isParent isOther).1
        (light other isOther different otherBeats)
    · omega
  finds := fun _ parent isParent light => ⟨isParent, fun other isOther =>
    (fit.metric_le_iff isParent isOther).1 (light other isOther)⟩

/-- Where no cost wraps, the choice is right for every order of the table. -/
theorem CostsFit.rightChoice (isMrhof : config.of = .mrhof)
    (fit : state.CostsFit dag) {order : List (Fin config.nbrTableMaxNeighbors)}
    (perm : order.Perm state.nbrTableKeys) :
    state.RightChoice dag ((state.withKeys order).rplSelectParent dag).1 := by
  have right := (rightChoice_iff state dag).2 fit.costsAgree
  exact (forall_order_iff isMrhof state dag _).2 right order perm

/-! ## A sum that wraps -/

/-- Two parents of the first DAG without a preferred one; the sum of the rank
and the link metric of the first parent is 66000. -/
def wrappingParents : State .rplConf :=
  let entry : UInt16 → Parent .rplConf := fun rank =>
    { dag := ⟨⟨0, first_lt_one⟩, ⟨0, first_lt_two⟩⟩
      mc := .zero
      rank := rank
      dtsn := 0
      updated := false
      linkMetricValid := true }
  let neighbor : UInt16 → Neighbor := fun linkMetric =>
    { ipaddr := Vector.replicate 16 0
      linkMetric := linkMetric }
  { State.initial with
    nbrTableKeys := [⟨0, first_lt_four⟩,
      ⟨1, second_lt_four⟩]
    rplParents := fun parent =>
      if parent.val = 0 then some (entry 65000)
      else if parent.val = 1 then some (entry 512) else none
    ds6Neighbors := fun parent =>
      if parent.val = 0 then some (neighbor 1000)
      else if parent.val = 1 then some (neighbor 256) else none }

def wrappingDag : DagRef .rplConf :=
  ⟨⟨0, first_lt_one⟩, ⟨0, first_lt_two⟩⟩

theorem wrappingParents_agree_iff :
    wrappingParents.ChoosesRight wrappingDag ↔
      wrappingParents.CostsAgree wrappingDag :=
  choosesRight_iff rfl wrappingParents wrappingDag

/-- The first link is as good as the second one, and no sum wraps. -/
def fittingParents : State .rplConf :=
  { wrappingParents with
    ds6Neighbors := fun parent =>
      if parent.val = 0 then
        wrappingParents.ds6Neighbors ⟨1, second_lt_four⟩
      else wrappingParents.ds6Neighbors parent }

theorem fittingParents_right : fittingParents.RightChoice wrappingDag
    ((fittingParents.withKeys fittingParents.nbrTableKeys).rplSelectParent
      wrappingDag).1 := by
  refine CostsFit.rightChoice rfl ?_ (List.Perm.refl _)
  unfold CostsFit
  decide +kernel

/-- The first parent is chosen, as its cost is 464 in 16 bits. -/
theorem wrappingParents_not_right :
    ¬ wrappingParents.ChoosesRight wrappingDag := by
  rintro ⟨right, -⟩
  have chosen : ((wrappingParents.withKeys
      wrappingParents.nbrTableKeys).rplSelectParent wrappingDag).1 =
        some ⟨0, first_lt_four⟩ := by decide +kernel
  have noPreferred : ¬ ∃ preferred,
      wrappingParents.KeepsPreferred wrappingDag preferred := by
    rintro ⟨preferred, isPreferred, -⟩
    cases isPreferred
  obtain ⟨parent, isParent, -, cheapest⟩ :=
    (right _ (List.Perm.refl _)).2 noPreferred (by decide +kernel)
  rw [chosen] at isParent
  obtain rfl := Option.some.inj isParent
  have cheaper : ¬ ∀ other ∈ wrappingParents.candidates wrappingDag,
      wrappingParents.pathCost ⟨0, Nat.succ_pos 3⟩ ≤
        wrappingParents.pathCost other := by decide +kernel
  exact cheaper cheapest

end State

end Contiki.Rpl
