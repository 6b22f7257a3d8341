import Mathlib.Logic.Relation
import Contiki.Cfs.CoffeeCreate

/-!
# What garbage collection keeps

A file that is on the walk from page 0 is not collected.
-/

namespace Contiki.Cfs

variable {config : CoffeeConfig}

/-- The walk goes from a page to the next one. -/
def Steps (config : CoffeeConfig) (medium : Nat → PageStart)
    (page later : Nat) : Prop :=
  page < config.pages ∧ page < later ∧
    later = nextFile config page (medium page).hdr

/-- The walk from page 0 comes to the page. -/
def Visits (config : CoffeeConfig) (medium : Nat → PageStart)
    (page : Nat) : Prop :=
  Relation.ReflTransGen (Steps config medium) 0 page

variable {medium : Nat → PageStart}

theorem le_of_reaches {page later : Nat}
    (reaches : Relation.ReflTransGen (Steps config medium) page later) :
    page ≤ later := by
  induction reaches with
  | refl =>
      exact Nat.le_refl page
  | tail _ step inductionHypothesis =>
      exact inductionHypothesis.trans (Nat.le_of_lt step.2.1)

/-- Between a page of the walk and the next one there is none. -/
theorem next_le_of_reaches {first page later other : Nat}
    (reaches : Relation.ReflTransGen (Steps config medium) first page)
    (step : Steps config medium page later)
    (reachesOther : Relation.ReflTransGen (Steps config medium) first other)
    (isLater : page < other) : later ≤ other := by
  have unique : Relator.RightUnique (Steps config medium) := by
    intro first second third left right
    rw [left.2.2, right.2.2]
  cases Relation.ReflTransGen.total_of_right_unique unique reaches
      reachesOther with
  | inl onward =>
      cases Relation.ReflTransGen.cases_head onward with
      | inl same =>
          omega
      | inr way =>
          obtain ⟨next, isNext, rest⟩ := way
          rw [unique step isNext]
          exact le_of_reaches rest
  | inr back =>
      have := le_of_reaches back
      omega

theorem Visits.next_le {page later other : Nat}
    (visits : Visits config medium page) (step : Steps config medium page later)
    (visitsOther : Visits config medium other) (isLater : page < other) :
    later ≤ other :=
  next_le_of_reaches visits step visitsOther isLater

/-- The headers on the walk are either allocated or zero. -/
def WellMarked (config : CoffeeConfig) (medium : Nat → PageStart) : Prop :=
  ∀ page, Visits config medium page → (medium page).hdr.isFree →
    (medium page).hdr.isolated = false ∧ (medium page).hdr.obsolete = false

/-- What `get_sector_status` counts from a page of the walk on, up to the end
of the sector. -/
structure Counted (config : CoffeeConfig) (medium : Nat → PageStart)
    (sectorEnd page : Nat) (before after : SectorStatus) (last : Bool) :
    Prop where
  ends : ∃ later, Visits config medium later ∧ sectorEnd ≤ later ∧
    (∀ other, Visits config medium other → sectorEnd ≤ other →
      later ≤ other) ∧
    after.active + after.obsolete + after.free + page =
      before.active + before.obsolete + later
  between : ∀ other, Visits config medium other → page ≤ other →
    other < sectorEnd → (medium other).hdr.isActive → after.active ≠ 0
  active : before.active ≤ after.active

theorem FileHeader.isActive_iff (hdr : FileHeader) :
    hdr.isActive = true ↔ hdr.isFree = false ∧ hdr.obsolete = false ∧
      hdr.isolated = false := by
  simp [FileHeader.isActive, FileHeader.isFree]

section Count

variable {page : Nat} (inside : page < config.pages)

include inside

theorem steps_of_extent (allocated : (medium page).hdr.isFree = false)
    (whole : (medium page).hdr.isolated = false)
    (forward : 0 < (medium page).hdr.maxPages) :
    Steps config medium page (page + (medium page).hdr.maxPages) := by
  refine ⟨inside, by omega, ?_⟩
  unfold nextFile
  simp [allocated, whole]

theorem steps_of_isolated (allocated : (medium page).hdr.isFree = false)
    (isolated : (medium page).hdr.isolated = true) :
    Steps config medium page (page + 1) := by
  refine ⟨inside, by omega, ?_⟩
  unfold nextFile
  simp [allocated, isolated]

theorem steps_of_free (free : (medium page).hdr.isFree = true)
    {sector : Nat} (start : sector * config.pagesPerSector ≤ page)
    (before : page < (sector + 1) * config.pagesPerSector) :
    Steps config medium page ((sector + 1) * config.pagesPerSector) := by
  refine ⟨inside, before, ?_⟩
  have isSector : page / config.pagesPerSector = sector := by
    apply Nat.div_eq_of_lt_le
    · exact start
    · exact before
  unfold nextFile
  rw [if_pos free, isSector]

end Count

theorem Counted.step {sectorEnd page later : Nat}
    {before next after : SectorStatus} {last : Bool}
    (visits : Visits config medium page)
    (step : Steps config medium page later)
    (counted : Counted config medium sectorEnd later next after last)
    (pages : next.active + next.obsolete + page =
      before.active + before.obsolete + later)
    (grows : before.active ≤ next.active)
    (active : (medium page).hdr.isActive → next.active ≠ 0) :
    Counted config medium sectorEnd page before after last := by
  obtain ⟨⟨ends, isVisited, isBehind, least, total⟩, between, grown⟩ :=
    counted
  refine ⟨⟨ends, isVisited, isBehind, least, by omega⟩, ?_, by omega⟩
  intro other visitsOther from_ below isActive
  by_cases same : other = page
  · rw [same] at isActive
    have := active isActive
    omega
  · exact between other visitsOther
      (visits.next_le step visitsOther (by omega)) below isActive

theorem counted_of_countPages {seen : Nat → PageStart}
    {sector sectorEnd page : Nat} {before after : SectorStatus}
    {first last : Bool} (marked : WellMarked config medium)
    (inside : sector < config.sectorCount)
    (isEnd : (sector + 1) * config.pagesPerSector = sectorEnd)
    (visits : Visits config medium page)
    (ahead : ∀ other, page ≤ other → seen other = medium other)
    (start : sector * config.pagesPerSector ≤ page)
    (least : ∀ other, Visits config medium other → sectorEnd ≤ other →
      page ≤ other)
    (noFree : before.free = 0)
    (counts : countPages seen sectorEnd page before first =
      some (after, last)) :
    Counted config medium sectorEnd page before after last ∧
      (last = true →
        first = true ∧ sectorEnd ≤ page ∧
            after.obsolete = before.obsolete ∨
          after.obsolete + page < before.obsolete + sectorEnd) := by
  have all : sectorEnd ≤ config.pages := by
    rw [← isEnd]
    exact Nat.mul_le_mul_right _ inside
  fun_induction countPages seen sectorEnd page before first with
  | case1 page counted first below hdr isActive forward
      inductionHypothesis =>
      have same : seen page = medium page := ahead page (Nat.le_refl page)
      have isHdr : hdr = (medium page).hdr := congrArg PageStart.hdr same
      rw [isHdr] at isActive inductionHypothesis counts
      rw [same] at forward
      obtain ⟨allocated, -, whole⟩ :=
        (FileHeader.isActive_iff _).mp isActive
      have inPages : page < config.pages := Nat.lt_of_lt_of_le below all
      have step := steps_of_extent inPages allocated
        whole forward
      obtain ⟨isCounted, isLast⟩ := inductionHypothesis (visits.tail step)
        (fun other from_ => ahead other (by omega)) (by omega)
        (fun other visitsOther from_ =>
          visits.next_le step visitsOther (by omega)) noFree counts
      refine ⟨isCounted.step visits step ?_ ?_ ?_, ?_⟩
      · dsimp only
        omega
      · exact Nat.le_add_right _ _
      · intro _
        dsimp only
        omega
      · intro wasActive
        have := isLast wasActive
        dsimp only at this
        omega
  | case2 =>
      cases counts
  | case3 page counted first below hdr notActive isIsolated
      inductionHypothesis =>
      have same : seen page = medium page := ahead page (Nat.le_refl page)
      have isHdr : hdr = (medium page).hdr := congrArg PageStart.hdr same
      rw [isHdr] at notActive isIsolated
      have allocated : (medium page).hdr.isFree = false := by
        cases isFree : (medium page).hdr.isFree with
        | false =>
            rfl
        | true =>
            rw [(marked page visits isFree).1] at isIsolated
            cases isIsolated
      have inPages : page < config.pages := Nat.lt_of_lt_of_le below all
      have step := steps_of_isolated inPages allocated
        isIsolated
      obtain ⟨isCounted, isLast⟩ := inductionHypothesis (visits.tail step)
        (fun other from_ => ahead other (by omega)) (by omega)
        (fun other visitsOther from_ =>
          visits.next_le step visitsOther (by omega)) noFree counts
      refine ⟨isCounted.step visits step ?_ (Nat.le_refl _) ?_, ?_⟩
      · dsimp only
        omega
      · intro isActive
        exact absurd isActive notActive
      · intro wasActive
        have := isLast wasActive
        simp only [Bool.false_eq_true, false_and, false_or] at this
        omega
  | case4 page counted first below hdr notActive notIsolated isObsolete
      forward inductionHypothesis =>
      have same : seen page = medium page := ahead page (Nat.le_refl page)
      have isHdr : hdr = (medium page).hdr := congrArg PageStart.hdr same
      rw [isHdr] at notActive notIsolated isObsolete inductionHypothesis counts
      rw [same] at forward
      have allocated : (medium page).hdr.isFree = false := by
        cases isFree : (medium page).hdr.isFree with
        | false =>
            rfl
        | true =>
            rw [(marked page visits isFree).2] at isObsolete
            cases isObsolete
      have inPages : page < config.pages := Nat.lt_of_lt_of_le below all
      have step := steps_of_extent inPages allocated
        (Bool.eq_false_iff.mpr notIsolated) forward
      obtain ⟨isCounted, isLast⟩ := inductionHypothesis (visits.tail step)
        (fun other from_ => ahead other (by omega)) (by omega)
        (fun other visitsOther from_ =>
          visits.next_le step visitsOther (by omega)) noFree counts
      refine ⟨isCounted.step visits step ?_ (Nat.le_refl _) ?_, ?_⟩
      · dsimp only
        omega
      · intro isActive
        exact absurd isActive notActive
      · intro wasActive
        have := isLast wasActive
        simp only [Bool.false_eq_true, false_and, false_or] at this
        omega
  | case5 =>
      cases counts
  | case6 page counted first below hdr notActive notIsolated notObsolete =>
      have same : seen page = medium page := ahead page (Nat.le_refl page)
      have isHdr : hdr = (medium page).hdr := congrArg PageStart.hdr same
      rw [isHdr] at notActive notIsolated notObsolete
      have isFree : (medium page).hdr.isFree = true := by
        cases isFree : (medium page).hdr.isFree with
        | true =>
            rfl
        | false =>
            exact absurd ((FileHeader.isActive_iff _).mpr ⟨isFree,
              Bool.eq_false_iff.mpr notObsolete,
              Bool.eq_false_iff.mpr notIsolated⟩) notActive
      have inPages : page < config.pages := Nat.lt_of_lt_of_le below all
      have step := steps_of_free inPages isFree start
        (isEnd ▸ below)
      rw [isEnd] at step
      obtain ⟨rfl, rfl⟩ := Prod.mk.inj (Option.some.inj counts)
      refine ⟨⟨⟨sectorEnd, visits.tail step, Nat.le_refl _,
        fun _ _ => id, ?_⟩, ?_, Nat.le_refl _⟩, nofun⟩
      · dsimp only
        omega
      · intro other visitsOther from_ to_ isActive
        by_cases isPage : other = page
        · rw [isPage] at isActive
          exact absurd isActive notActive
        · have := visits.next_le step visitsOther (by omega)
          omega
  | case7 page counted first notBelow =>
      obtain ⟨rfl, rfl⟩ := Prod.mk.inj (Option.some.inj counts)
      refine ⟨⟨⟨page, visits, by omega, least, by omega⟩, ?_,
        Nat.le_refl _⟩, ?_⟩
      · intro other _ from_ to_
        omega
      · intro isLast
        exact Or.inl ⟨isLast, by omega, rfl⟩

/-- The first page of the walk that is not before the sector. -/
structure AtSector (config : CoffeeConfig) (medium : Nat → PageStart)
    (sector page : Nat) : Prop where
  visits : Visits config medium page
  start : sector * config.pagesPerSector ≤ page
  least : ∀ other, Visits config medium other →
    sector * config.pagesPerSector ≤ other → page ≤ other

/-- A sector without active pages has no active file on the walk, and only
pages before the next one on the walk are isolated. -/
theorem getSectorStatus_spec {seen : Nat → PageStart} {sector : Nat}
    {walk later : SectorWalk} {status : SectorStatus} {isolation : Nat}
    (marked : WellMarked config medium)
    (inside : sector < config.sectorCount)
    (atSector : AtSector config medium sector
      (sector * config.pagesPerSector + walk.skipPages))
    (ahead : ∀ other, sector * config.pagesPerSector + walk.skipPages ≤
      other → seen other = medium other)
    (isStatus : getSectorStatus config seen sector walk =
      some (status, isolation, later)) :
    AtSector config medium (sector + 1)
        ((sector + 1) * config.pagesPerSector + later.skipPages) ∧
      isolation ≤ later.skipPages ∧
      (status.active = 0 → ∀ other, Visits config medium other →
        sector * config.pagesPerSector ≤ other →
        other < (sector + 1) * config.pagesPerSector →
        ¬ (medium other).hdr.isActive) := by
  obtain ⟨visits, -, least⟩ := atSector
  have isNext : (sector + 1) * config.pagesPerSector =
      sector * config.pagesPerSector + config.pagesPerSector :=
    Nat.succ_mul _ _
  unfold getSectorStatus at isStatus
  dsimp only at isStatus
  split at isStatus
  · next covered =>
      have skipped : AtSector config medium (sector + 1)
          ((sector + 1) * config.pagesPerSector +
            (walk.skipPages - config.pagesPerSector)) := by
        have same : (sector + 1) * config.pagesPerSector +
            (walk.skipPages - config.pagesPerSector) =
            sector * config.pagesPerSector + walk.skipPages := by
          omega
        rw [same]
        exact ⟨visits, by omega, fun other visitsOther from_ =>
          least other visitsOther (by omega)⟩
      have nothing : ∀ other, Visits config medium other →
          sector * config.pagesPerSector ≤ other →
          other < (sector + 1) * config.pagesPerSector →
          ¬ (medium other).hdr.isActive := by
        intro other visitsOther from_ below
        have := least other visitsOther from_
        omega
      split at isStatus
      · obtain ⟨-, isIsolation, isLater⟩ := (by simpa using isStatus :
          _ ∧ 0 = isolation ∧ _ = later)
        rw [← isIsolation, ← isLater]
        exact ⟨skipped, Nat.zero_le _, fun _ => nothing⟩
      · obtain ⟨-, isIsolation, isLater⟩ := (by simpa using isStatus :
          _ ∧ _ = isolation ∧ _ = later)
        rw [← isIsolation, ← isLater]
        refine ⟨skipped, ?_, fun _ => nothing⟩
        split
        · exact Nat.zero_le _
        · exact Nat.le_refl _
  next partly =>
  split at isStatus
  · cases isStatus
  next counted last counts =>
  obtain ⟨rfl, isIsolation, isLater⟩ := (by simpa using isStatus :
    _ = status ∧ _ = isolation ∧ _ = later)
  rw [← isIsolation, ← isLater]
  have noFree : (if walk.lastPagesAreActive then
      ({ active := walk.skipPages, obsolete := 0, free := 0 } : SectorStatus)
      else { active := 0, obsolete := walk.skipPages, free := 0 }).free =
        0 := by
    split <;> rfl
  have begun : (if walk.lastPagesAreActive then
      ({ active := walk.skipPages, obsolete := 0, free := 0 } : SectorStatus)
      else { active := 0, obsolete := walk.skipPages, free := 0 }).active +
      (if walk.lastPagesAreActive then
      ({ active := walk.skipPages, obsolete := 0, free := 0 } : SectorStatus)
      else { active := 0, obsolete := walk.skipPages, free := 0 }).obsolete =
        walk.skipPages := by
    split <;> simp
  obtain ⟨⟨⟨ends, isVisited, isBehind, isLeast, total⟩, between, -⟩, isLast⟩ :=
    counted_of_countPages marked inside isNext visits ahead
      (Nat.le_add_right _ _)
      (fun other visitsOther from_ => least other visitsOther (by omega))
      noFree counts
  refine ⟨?_, ?_, ?_⟩
  · have isEnds : (sector + 1) * config.pagesPerSector +
        (counted.active + counted.obsolete + counted.free -
          config.pagesPerSector) = ends := by
      omega
    rw [isEnds]
    exact ⟨isVisited, by omega, fun other visitsOther from_ =>
      isLeast other visitsOther (by omega)⟩
  · split
    · exact Nat.zero_le _
    · exact Nat.le_refl _
  · intro noActive other visitsOther from_ below isActive
    have page_le := least other visitsOther from_
    have counts := between other visitsOther page_le (by omega) isActive
    split at noActive
    · split at noActive
      · next wasActive =>
          have := isLast wasActive
          dsimp only at noActive
          omega
      · exact counts noActive
    · exact counts noActive

namespace Coffee

/-- The page is as before, or it is not active and no active file on the walk
starts there. -/
def Spares (before after : Coffee config) : Prop :=
  ∀ page, after.medium page = before.medium page ∨
    (after.medium page).hdr.isActive = false ∧
      (Visits config before.medium page →
        ¬ (before.medium page).hdr.isActive)

theorem medium_collectSector (state : Coffee config)
    (sector isolation page : Nat) :
    let after := state.collectSector sector isolation
    after.medium page = state.medium page ∨
      (after.medium page).hdr.isActive = false ∧
        (page / config.pagesPerSector = sector ∨
          (sector + 1) * config.pagesPerSector ≤ page ∧
            page < (sector + 1) * config.pagesPerSector + isolation) := by
  have isNext : (sector + 1) * config.pagesPerSector =
      sector * config.pagesPerSector + config.pagesPerSector :=
    Nat.succ_mul _ _
  unfold collectSector
  dsimp only
  generalize isLowered : (if sector * config.pagesPerSector <
      state.nextFree then { state with
        nextFree := sector * config.pagesPerSector } else state) = lowered
  have same : lowered.medium = state.medium := by
    rw [← isLowered]
    split <;> rfl
  unfold erase isolatePages
  dsimp only
  split
  · next isSector =>
      exact Or.inr ⟨rfl, Or.inl isSector⟩
  split
  · dsimp only
    split
    · next isIsolated =>
        exact Or.inr ⟨rfl, Or.inr (by omega)⟩
    · rw [same]
      exact Or.inl rfl
  · rw [same]
    exact Or.inl rfl

theorem spares_collectFrom {before state after : Coffee config}
    {count sector : Nat} {walk : SectorWalk}
    (marked : WellMarked config before.medium)
    (inside : sector + count = config.sectorCount)
    (atSector : AtSector config before.medium sector
      (sector * config.pagesPerSector + walk.skipPages))
    (ahead : ∀ page, sector * config.pagesPerSector + walk.skipPages ≤
      page → state.medium page = before.medium page)
    (spares : before.Spares state)
    (collects : collectFrom count sector walk state = some after) :
    before.Spares after := by
  induction count generalizing sector walk state with
  | zero =>
      obtain rfl := Option.some.inj collects
      exact spares
  | succ count inductionHypothesis =>
      unfold collectFrom at collects
      split at collects
      · cases collects
      next status isolation later isStatus =>
      obtain ⟨atNext, isolated, noActive⟩ := getSectorStatus_spec marked
        (by omega) atSector ahead isStatus
      have isNext : (sector + 1) * config.pagesPerSector =
          sector * config.pagesPerSector + config.pagesPerSector :=
        Nat.succ_mul _ _
      have onward : sector * config.pagesPerSector + walk.skipPages ≤
          (sector + 1) * config.pagesPerSector + later.skipPages :=
        atSector.least _ atNext.visits (by omega)
      have below_of_sector : ∀ page, page / config.pagesPerSector = sector →
          sector * config.pagesPerSector ≤ page ∧
            page < (sector + 1) * config.pagesPerSector := by
        intro page isSector
        have whole := Nat.div_add_mod' page config.pagesPerSector
        have rest := Nat.mod_lt page config.pagesPerSector_pos
        rw [isSector] at whole
        omega
      refine inductionHypothesis (by omega) atNext ?_ ?_ collects
      · intro page isAhead
        split
        · obtain same | ⟨-, isSector | isIsolated⟩ :=
            state.medium_collectSector sector isolation page
          · rw [same]
            exact ahead page (by omega)
          · have := below_of_sector page isSector
            omega
          · omega
        · exact ahead page (by omega)
      · intro page
        split
        · next erased =>
            obtain same | ⟨notActive, isSector | isIsolated⟩ :=
              state.medium_collectSector sector isolation page
            · rw [same]
              exact spares page
            · obtain ⟨from_, below⟩ := below_of_sector page isSector
              exact Or.inr ⟨notActive, fun visits =>
                noActive erased.1 page visits from_ below⟩
            · refine Or.inr ⟨notActive, fun visits => ?_⟩
              have := atNext.least page visits (by omega)
              omega
        · exact spares page

/-- Each active file is on the walk. -/
structure Visible (state : Coffee config) : Prop where
  marked : WellMarked config state.medium
  visits : ∀ page, state.activeHeader page ≠ none →
    Visits config state.medium page

theorem Visible.keepsActive {state after : Coffee config}
    (visible : state.Visible) (collects : state.collectGarbage = some after) :
    state.KeepsActive after := by
  have spares : state.Spares after := by
    refine spares_collectFrom visible.marked (Nat.zero_add _) ?_
      (fun _ _ => rfl) (fun _ => Or.inl rfl) collects
    rw [Nat.zero_mul]
    exact ⟨Relation.ReflTransGen.refl, by omega, fun _ _ _ => Nat.zero_le _⟩
  intro page
  unfold activeHeader
  dsimp only
  cases spares page with
  | inl same =>
      rw [same]
  | inr touched =>
      obtain ⟨notActive, spared⟩ := touched
      have wasNone : state.activeHeader page = none := by
        by_contra isFile
        refine absurd ?_ (spared (visible.visits page isFile))
        unfold activeHeader at isFile
        dsimp only at isFile
        by_contra inactive
        exact isFile (if_neg fun both => inactive both.2)
      unfold activeHeader at wasNone
      dsimp only at wasNone
      rw [wasNone]
      apply if_neg
      rw [notActive]
      simp

/-- Exactly when a call that fails to create a file keeps the active files,
the descriptors and the reference counts; garbage collection alone does so
where each active file is on the walk. -/
theorem failingCreate_exact (state : Coffee config) :
    (∀ fileEnd name flags,
      state.FailsCleanly (state.cfsOpen fileEnd name flags) ↔
        state.OpenFits name flags) ∧
    (∀ name size,
      state.ReserveKeeps name size ↔ state.CoffeeReserveFits name size) ∧
    (state.Visible → ∀ collected, state.collectGarbage = some collected →
      state.KeepsActive collected) :=
  ⟨state.failsCleanly_cfsOpen_iff, state.reserveKeeps_iff,
    fun visible _ collects => visible.keepsActive collects⟩

/-! ## A file without a place -/

/-- Two sectors of four pages, one cached file and two descriptors. -/
def smallConfig : CoffeeConfig where
  pagesPerSector := 4
  pagesPerSector_pos := Nat.succ_pos 3
  sectorCount := 2
  nameLength := 16
  maxOpenFiles := 1
  fdSetSize := 2
  dynSize := 0
  pageCount := fun _ => 1

/-- After `cfs_coffee_format`. -/
def formatted (config : CoffeeConfig) : Coffee config where
  medium := fun _ => { hdr := FileHeader.zero, written := false }
  files := fun _ =>
    { fileEnd := 0, page := 0, maxPages := 0, recordCount := 0
      references := 0, modified := false }
  fdSet := fun _ => { offset := 0, file := none, flags := 0 }
  nextFree := 0
  gcWait := false

def oneOpen : Coffee smallConfig :=
  match (formatted smallConfig).cfsOpen (fun _ => 0) [97] cfsWrite with
  | none => formatted smallConfig
  | some (state, _) => state

theorem oneOpen_missing : oneOpen.Missing [98] := by
  have cached : ((List.finRange smallConfig.maxOpenFiles).find? fun place =>
      (oneOpen.files place).maxPages ≠ 0 ∧
        isFileNamed [98] (oneOpen.medium (oneOpen.files place).page).hdr) =
      none := by
    decide +kernel
  have walked : walkTo smallConfig oneOpen.medium (isFileNamed [98]) 0 =
      some none := by
    decide +kernel
  unfold Missing findFile
  dsimp only
  rw [cached]
  dsimp only
  rw [walked]

/-- The second file stays on the medium, though `cfs_open` fails. -/
theorem oneOpen_not_failsCleanly :
    ¬ oneOpen.FailsCleanly (oneOpen.cfsOpen (fun _ => 0) [98] cfsWrite) := by
  intro cleanly
  have fits := (failsCleanly_cfsOpen_iff oneOpen (fun _ => 0) [98]
    cfsWrite).mp cleanly
  have writes : ¬ readsOnly cfsWrite := by
    unfold readsOnly
    decide
  have reserve := fits.reserve (by decide +kernel) oneOpen_missing writes
  exact reserve.place 1 (by decide +kernel) (by decide +kernel)

end Coffee

end Contiki.Cfs
