import Contiki.Cfs.CoffeeCollect

/-!
# Runs of free pages

`find_contiguous_pages` looks for free pages on the walk from `next_free` on.
-/

namespace Contiki.Cfs

open Coffee

variable {config : CoffeeConfig} {medium : Nat → PageStart}

/-- The walk from a page comes to another one. -/
def Follows (config : CoffeeConfig) (medium : Nat → PageStart)
    (first page : Nat) : Prop :=
  Relation.ReflTransGen (Steps config medium) first page

/-- The page belongs to a free area of the walk. -/
def SeenFree (config : CoffeeConfig) (medium : Nat → PageStart)
    (first page : Nat) : Prop :=
  ∃ area, Follows config medium first area ∧ area < config.pages ∧
    (medium area).hdr.isFree = true ∧ area ≤ page ∧
    page < nextFile config area (medium area).hdr

/-- Free pages of the walk, one after the other. -/
def SeenRun (config : CoffeeConfig) (medium : Nat → PageStart)
    (first amount start : Nat) : Prop :=
  ∀ page, start ≤ page → page < start + amount →
    SeenFree config medium first page

/-- The page belongs to an active extent. -/
def InActive (config : CoffeeConfig) (medium : Nat → PageStart)
    (page : Nat) : Prop :=
  ∃ extent, Visits config medium extent ∧
    (medium extent).hdr.isActive = true ∧ extent ≤ page ∧
    page < extent + (medium extent).hdr.maxPages

/-- A free area begins at the page, and no other one ends there. -/
def Begins (config : CoffeeConfig) (medium : Nat → PageStart)
    (first page : Nat) : Prop :=
  Follows config medium first page ∧ page < config.pages ∧
    (medium page).hdr.isFree = true ∧
    ∀ before, before + 1 = page → ¬ SeenFree config medium first before

/-! ## The walk -/

variable {first page later other amount start : Nat}

theorem last_of_stuck (follows : Follows config medium first page)
    (stuck : ∀ later, ¬ Steps config medium page later)
    (followsOther : Follows config medium first other) : other ≤ page := by
  have unique : Relator.RightUnique (Steps config medium) := by
    intro first second third left right
    rw [left.2.2, right.2.2]
  cases Relation.ReflTransGen.total_of_right_unique unique follows
      followsOther with
  | inl onward =>
      cases Relation.ReflTransGen.cases_head onward with
      | inl same =>
          exact Nat.le_of_eq same.symm
      | inr way =>
          obtain ⟨next, isNext, _⟩ := way
          exact absurd isNext (stuck next)
  | inr back =>
      exact le_of_reaches back

theorem nextFile_of_free (free : (medium page).hdr.isFree = true) :
    nextFile config page (medium page).hdr =
      (page / config.pagesPerSector + 1) * config.pagesPerSector := by
  unfold nextFile
  exact if_pos free

theorem step_of_free (inside : page < config.pages)
    (free : (medium page).hdr.isFree = true) :
    Steps config medium page (nextFile config page (medium page).hdr) := by
  refine ⟨inside, ?_, rfl⟩
  rw [nextFile_of_free free, Nat.mul_comm]
  exact Nat.lt_mul_div_succ page config.pagesPerSector_pos

theorem nextFile_le_of_free (inside : page < config.pages)
    (free : (medium page).hdr.isFree = true) :
    nextFile config page (medium page).hdr ≤ config.pages := by
  rw [nextFile_of_free free]
  exact Nat.mul_le_mul_right _
    ((Nat.div_lt_iff_lt_mul config.pagesPerSector_pos).mpr inside)

theorem SeenFree.lt_pages (seen : SeenFree config medium first page) :
    page < config.pages := by
  obtain ⟨area, _, inside, free, _, before⟩ := seen
  exact Nat.lt_of_lt_of_le before (nextFile_le_of_free inside free)

theorem SeenFree.first_le (seen : SeenFree config medium first page) :
    first ≤ page := by
  obtain ⟨area, follows, _, _, after, _⟩ := seen
  exact (le_of_reaches follows).trans after

/-- The pages of a step of the walk are free if and only if its page is. -/
theorem seenFree_iff_of_step (follows : Follows config medium first page)
    (step : Steps config medium page later) (after : page ≤ other)
    (before : other < later) :
    SeenFree config medium first other ↔
      (medium page).hdr.isFree = true := by
  constructor
  · rintro ⟨area, followsArea, inside, free, start, stop⟩
    rcases Nat.lt_trichotomy area page with less | same | greater
    · have next := next_le_of_reaches followsArea
        (step_of_free inside free) follows less
      omega
    · rw [← same]
      exact free
    · have next := next_le_of_reaches follows step followsArea greater
      omega
  · intro free
    exact ⟨page, follows, step.1, free, after, step.2.2 ▸ before⟩

theorem not_seenFree_of_stuck (follows : Follows config medium first page)
    (stuck : ∀ later, ¬ Steps config medium page later)
    (after : page ≤ other) : ¬ SeenFree config medium first other := by
  rintro ⟨area, followsArea, inside, free, start, stop⟩
  have step := step_of_free inside free
  rcases Nat.lt_trichotomy area page with less | same | greater
  · have next := next_le_of_reaches followsArea step follows less
    omega
  · rw [same] at step
    exact stuck _ step
  · exact absurd greater (Nat.not_lt_of_le (last_of_stuck follows stuck
      followsArea))

/-! ## The search -/

/-- What the loop of `find_contiguous_pages` has seen when it comes to a page:
no free run yet, and whether it is in a free area. -/
inductive Searched (config : CoffeeConfig) (medium : Nat → PageStart)
    (first amount : Nat) : Nat → Option Nat → Prop where
  | between {page : Nat} (follows : Follows config medium first page)
      (gap : ∀ before, before + 1 = page →
        ¬ SeenFree config medium first before)
      (runs : ∀ run, SeenRun config medium first amount run → page ≤ run)
      (early : ∀ area, Begins config medium first area → area < page →
        area + amount < config.pages) :
      Searched config medium first amount page none
  | inside {page start : Nat} (follows : Follows config medium first page)
      (short : start + amount < config.pages)
      (before : start < page) (few : page < start + amount)
      (seen : ∀ other, start ≤ other → other < page →
        SeenFree config medium first other)
      (runs : ∀ run, SeenRun config medium first amount run → start ≤ run)
      (early : ∀ area, Begins config medium first area → area < page →
        area + amount < config.pages) :
      Searched config medium first amount page (some start)

/-- The search ends: the walk leaves the medium, or a free area begins too
late. -/
def SearchEnds (config : CoffeeConfig) (medium : Nat → PageStart)
    (first amount : Nat) : Prop :=
  (∃ page, Follows config medium first page ∧ config.pages ≤ page) ∨
    ∃ area, Begins config medium first area ∧ config.pages ≤ area + amount

/-- What the search finds: the first run that does not end with the medium. -/
inductive SearchResult (config : CoffeeConfig) (medium : Nat → PageStart)
    (first amount : Nat) : Option (Option Nat) → Prop where
  | found {start : Nat} (run : SeenRun config medium first amount start)
      (short : start + amount < config.pages)
      (least : ∀ other, SeenRun config medium first amount other →
        start ≤ other) :
      SearchResult config medium first amount (some (some start))
  | failed (noRun : ∀ run, SeenRun config medium first amount run →
        config.pages ≤ run + amount)
      (ends : SearchEnds config medium first amount) :
      SearchResult config medium first amount (some none)
  | endless (noRun : ∀ run, ¬ SeenRun config medium first amount run)
      (goesOn : ¬ SearchEnds config medium first amount) :
      SearchResult config medium first amount none

theorem searched_first (positive : 0 < amount) (medium : Nat → PageStart)
    (first : Nat) :
    Searched config medium first amount first none := by
  refine .between Relation.ReflTransGen.refl ?_ ?_ ?_
  · intro before isBefore seen
    have := seen.first_le
    omega
  · intro run isRun
    exact (isRun run (Nat.le_refl _) (by omega)).first_le
  · intro area begins less
    have := le_of_reaches begins.1
    omega

theorem Searched.follows {start : Option Nat}
    (searched : Searched config medium first amount page start) :
    Follows config medium first page := by
  cases searched with
  | between follows => exact follows
  | inside follows => exact follows

theorem Searched.early {start : Option Nat}
    (searched : Searched config medium first amount page start) :
    ∀ area, Begins config medium first area → area < page →
      area + amount < config.pages := by
  cases searched with
  | between _ _ _ early => exact early
  | inside _ _ _ _ _ _ early => exact early

/-- A run that has not been found needs a free page from here on. -/
theorem Searched.exists_seenFree {start : Option Nat} {run : Nat}
    (positive : 0 < amount)
    (searched : Searched config medium first amount page start)
    (isRun : SeenRun config medium first amount run) :
    ∃ other, page ≤ other ∧ SeenFree config medium first other ∧
      start.getD page ≤ run ∧ (run ≤ page → other = page) := by
  cases searched with
  | between _ _ runs =>
      have isLater := runs run isRun
      exact ⟨run, isLater, isRun run (Nat.le_refl _) (by omega), isLater,
        fun le => by omega⟩
  | inside _ _ before few _ runs _ =>
      have isLater := runs run isRun
      by_cases le : run ≤ page
      · exact ⟨page, Nat.le_refl _, isRun page le (by omega), isLater,
          fun _ => rfl⟩
      · exact ⟨run, by omega, isRun run (Nat.le_refl _) (by omega), isLater,
          fun less => absurd less le⟩

/-- A free area does not begin at the page of a stop, or behind it. -/
theorem Searched.notFree_step {start : Option Nat} (positive : 0 < amount)
    (searched : Searched config medium first amount page start)
    (step : Steps config medium page later)
    (allocated : ¬ (medium page).hdr.isFree = true) :
    Searched config medium first amount later none := by
  have notSeen : ∀ other, page ≤ other → other < later →
      ¬ SeenFree config medium first other := fun other after before seen =>
    allocated ((seenFree_iff_of_step searched.follows step after before).mp
      seen)
  refine .between (searched.follows.tail step) ?_ ?_ ?_
  · intro before isBefore
    have := step.2.1
    exact notSeen before (by omega) (by omega)
  · intro run isRun
    obtain ⟨other, after, seen, _, atPage⟩ :=
      searched.exists_seenFree positive isRun
    by_contra less
    by_cases le : run ≤ page
    · rw [atPage le] at seen
      exact notSeen page (Nat.le_refl _) step.2.1 seen
    · exact notSeen run (by omega) (by omega)
        (isRun run (Nat.le_refl _) (by omega))
  · intro area begins less
    by_cases isEarly : area < page
    · exact searched.early area begins isEarly
    · by_cases same : area = page
      · rw [same] at begins
        exact absurd begins.2.2.1 allocated
      · have next := next_le_of_reaches searched.follows step begins.1
          (by omega)
        omega

/-- Where the free pages begin when the loop is at a free page. -/
theorem Searched.begins
    (searched : Searched config medium first amount page none)
    (inside : page < config.pages)
    (free : (medium page).hdr.isFree = true) :
    Begins config medium first page := by
  cases searched with
  | between follows gap =>
      exact ⟨follows, inside, free, gap⟩

/-- The first page of the free area that the loop is in. -/
structure InArea (config : CoffeeConfig) (medium : Nat → PageStart)
    (first amount page start : Nat) : Prop where
  follows : Follows config medium first page
  short : start + amount < config.pages
  before : start ≤ page
  seen : ∀ other, start ≤ other → other < page →
    SeenFree config medium first other
  runs : ∀ run, SeenRun config medium first amount run → start ≤ run
  early : ∀ area, Begins config medium first area → area < page →
    area + amount < config.pages

/-- At a free page the loop is in a free area, unless this begins too late. -/
theorem Searched.inArea {start : Option Nat}
    (searched : Searched config medium first amount page start)
    (enough : ¬ (start = none ∧ config.pages ≤ page + amount)) :
    InArea config medium first amount page (start.getD page) := by
  cases searched with
  | between follows gap runs early =>
      exact ⟨follows, Nat.lt_of_not_le fun le => enough ⟨rfl, le⟩,
        Nat.le_refl _, fun other after less => absurd less
          (Nat.not_lt_of_le after), runs, early⟩
  | inside follows short before few seen runs early =>
      exact ⟨follows, short, Nat.le_of_lt before, seen, runs, early⟩

theorem InArea.seen_step {start : Nat}
    (inArea : InArea config medium first amount page start)
    (step : Steps config medium page later)
    (free : (medium page).hdr.isFree = true) {other : Nat}
    (after : start ≤ other) (less : other < later) :
    SeenFree config medium first other := by
  by_cases before : other < page
  · exact inArea.seen other after before
  · exact (seenFree_iff_of_step inArea.follows step
      (Nat.le_of_not_lt before) less).mpr free

theorem InArea.step {start : Nat}
    (inArea : InArea config medium first amount page start)
    (step : Steps config medium page later)
    (free : (medium page).hdr.isFree = true)
    (few : ¬ start + amount ≤ later) :
    Searched config medium first amount later (some start) := by
  refine .inside (inArea.follows.tail step) inArea.short
    (Nat.lt_of_le_of_lt inArea.before step.2.1) (Nat.lt_of_not_le few)
    (fun other after less => inArea.seen_step step free after less)
    inArea.runs ?_
  intro area begins less
  by_cases isEarly : area < page
  · exact inArea.early area begins isEarly
  by_cases same : area = page
  · by_cases isFirst : start = page
    · rw [same, ← isFirst]
      exact inArea.short
    · have bound := inArea.before
      rw [same] at begins
      exact absurd (inArea.seen (page - 1) (by omega) (by omega))
        (begins.2.2.2 (page - 1) (by omega))
  · have next := next_le_of_reaches inArea.follows step begins.1 (by omega)
    omega

theorem walkOn_none (stays : walkOn config medium page = none) (later : Nat) :
    ¬ Steps config medium page later := by
  rintro ⟨_, forward, rfl⟩
  unfold walkOn at stays
  rw [dif_pos forward] at stays
  cases stays

theorem walkOn_some {next : { next : Nat // page < next }}
    (inside : page < config.pages)
    (goesOn : walkOn config medium page = some next) :
    Steps config medium page next.val := by
  unfold walkOn at goesOn
  dsimp only at goesOn
  split at goesOn
  · next forward =>
      rw [← Option.some.inj goesOn]
      exact ⟨inside, forward, rfl⟩
  · cases goesOn

theorem Searched.atEnd {start : Option Nat} (positive : 0 < amount)
    (searched : Searched config medium first amount page start)
    (outside : ¬ page < config.pages) :
    SearchResult config medium first amount (some none) := by
  refine .failed ?_
    (Or.inl ⟨page, searched.follows, Nat.le_of_not_lt outside⟩)
  intro run isRun
  obtain ⟨other, after, seen, _⟩ := searched.exists_seenFree positive isRun
  have := seen.lt_pages
  omega

theorem Searched.stuck {start : Option Nat} (positive : 0 < amount)
    (searched : Searched config medium first amount page start)
    (inside : page < config.pages)
    (stays : walkOn config medium page = none) :
    SearchResult config medium first amount none := by
  have stuck := walkOn_none stays
  have notSeen : ∀ other, page ≤ other →
      ¬ SeenFree config medium first other := fun other after =>
    not_seenFree_of_stuck searched.follows stuck after
  refine .endless ?_ ?_
  · intro run isRun
    obtain ⟨other, after, seen, _⟩ := searched.exists_seenFree positive isRun
    exact notSeen other after seen
  · rintro (⟨other, follows, outside⟩ | ⟨area, begins, late⟩)
    · have := last_of_stuck searched.follows stuck follows
      omega
    · have le := last_of_stuck searched.follows stuck begins.1
      by_cases same : area = page
      · rw [same] at begins
        exact stuck _ (step_of_free inside begins.2.2.1)
      · have := searched.early area begins (by omega)
        omega

theorem contiguousFrom_spec (positive : 0 < amount) {start : Option Nat}
    (searched : Searched config medium first amount page start) :
    SearchResult config medium first amount
      (contiguousFrom config medium amount page start) := by
  fun_induction contiguousFrom config medium amount page start with
  | case1 page start inside hdr late =>
      obtain ⟨free, rfl, late⟩ := late
      have begins := searched.begins inside free
      refine .failed ?_ (Or.inr ⟨page, begins, late⟩)
      intro run isRun
      obtain ⟨_, _, _, isLater, _⟩ :=
        searched.exists_seenFree positive isRun
      exact late.trans (Nat.add_le_add_right isLater amount)
  | case2 page start inside hdr notLate stays =>
      exact searched.stuck positive inside stays
  | case3 page start inside hdr notLate next goesOn free enough =>
      have inArea := searched.inArea fun late =>
        notLate ⟨free, late.1, late.2⟩
      refine .found ?_ inArea.short inArea.runs
      intro other after less
      exact inArea.seen_step (walkOn_some inside goesOn) free after
        (Nat.lt_of_lt_of_le less enough)
  | case4 page start inside hdr notLate next goesOn free few
      inductionHypothesis =>
      have inArea := searched.inArea fun late =>
        notLate ⟨free, late.1, late.2⟩
      exact inductionHypothesis
        (inArea.step (walkOn_some inside goesOn) free few)
  | case5 page start inside hdr notLate next goesOn notFree
      inductionHypothesis =>
      exact inductionHypothesis
        (searched.notFree_step positive (walkOn_some inside goesOn) notFree)
  | case6 page start outside =>
      exact searched.atEnd positive outside

/-! ## The pages that are found -/

/-- A run of pages without an active extent is found, or there are not enough
contiguous free pages on the medium. -/
def FindsRun (state : Coffee config) (amount : Nat) : Prop :=
  match state.findContiguousPages amount with
  | none => False
  | some (_, some start) => ∀ page, start ≤ page → page < start + amount →
      page < config.pages ∧ ¬ InActive config state.medium page
  | some (_, none) => ∀ run, ¬ SeenRun config state.medium 0 amount run

/-- What the search needs: the first run of free pages on the walk from
`next_free` ends before the medium does and has no page of an active extent;
or there is none that ends before the medium, the walk ends, and there is no
run on the whole medium. -/
def RunFits (state : Coffee config) (amount : Nat) : Prop :=
  (∃ start, SeenRun config state.medium state.nextFree amount start ∧
    start + amount < config.pages ∧
    (∀ other, SeenRun config state.medium state.nextFree amount other →
      start ≤ other) ∧
    ∀ page, start ≤ page → page < start + amount →
      ¬ InActive config state.medium page) ∨
  ((∀ run, SeenRun config state.medium state.nextFree amount run →
      config.pages ≤ run + amount) ∧
    SearchEnds config state.medium state.nextFree amount ∧
    ∀ run, ¬ SeenRun config state.medium 0 amount run)

/-- With nothing on the medium, the pages of the whole medium are not
found. -/
theorem wholeMedium_notFound :
    (formatted smallConfig).findContiguousPages 8 =
        some (formatted smallConfig, none) ∧
      SeenRun smallConfig (formatted smallConfig).medium 0 8 0 := by
  have first : Steps smallConfig (formatted smallConfig).medium 0 4 :=
    ⟨by decide, by decide, rfl⟩
  refine ⟨?_, fun page _ before => ?_⟩
  · unfold findContiguousPages contiguousFrom
    rfl
  · by_cases inFirst : page < 4
    · exact ⟨0, .refl, by decide, rfl, Nat.zero_le _, inFirst⟩
    · exact ⟨4, .single first, by decide, rfl, Nat.le_of_not_lt inFirst,
        before⟩

/-- `find_contiguous_pages` does what it is meant for exactly when the search
fits. -/
theorem findsRun_iff (state : Coffee config) (amount : Nat)
    (positive : 0 < amount) :
    FindsRun state amount ↔ RunFits state amount := by
  have spec := state.findContiguousPages_spec amount
  have result : SearchResult config state.medium state.nextFree amount
      (contiguousFrom config state.medium amount state.nextFree none) :=
    contiguousFrom_spec positive
      (searched_first positive state.medium state.nextFree)
  unfold roomFor at spec
  unfold FindsRun RunFits
  generalize contiguousFrom config state.medium amount state.nextFree none =
    room at spec result
  cases result with
  | @found start run short least =>
      obtain ⟨nextFree, isFound⟩ := spec
      rw [isFound]
      constructor
      · intro avoids
        exact Or.inl ⟨start, run, short, least,
          fun page after before => (avoids page after before).2⟩
      · rintro (⟨other, otherRun, _, otherLeast, avoids⟩ | ⟨noRun, _, _⟩)
        · have same : other = start := Nat.le_antisymm
            (otherLeast start run) (least other otherRun)
          rw [same] at avoids
          intro page after before
          exact ⟨by omega, avoids page after before⟩
        · exact absurd short (Nat.not_lt_of_le (noRun start run))
  | failed noRun ends =>
      rw [show state.findContiguousPages amount = some (state, none) from
        spec]
      constructor
      · intro none
        exact Or.inr ⟨noRun, ends, none⟩
      · rintro (⟨start, run, short, _, _⟩ | ⟨_, _, none⟩)
        · exact absurd short (Nat.not_lt_of_le (noRun start run))
        · exact none
  | endless noRun goesOn =>
      rw [show state.findContiguousPages amount = none from spec]
      refine iff_of_false id ?_
      rintro (⟨start, run, _⟩ | ⟨_, ends, _⟩)
      · exact noRun start run
      · exact goesOn ends

/-- The pages behind the only file. -/
theorem findsRun_besideFile :
    FindsRun oneOpen 2 ∧ RunFits oneOpen 2 := by
  have found : (oneOpen.findContiguousPages 2).map Prod.snd =
      some (some 1) := by
    decide +kernel
  have finds : FindsRun oneOpen 2 := by
    unfold FindsRun
    cases result : oneOpen.findContiguousPages 2 with
    | none =>
        rw [result] at found
        cases found
    | some pair =>
        obtain ⟨later, page⟩ := pair
        rw [result] at found
        obtain rfl : page = some 1 := Option.some.inj found
        intro page after before
        refine ⟨Nat.lt_of_lt_of_le before (by decide), ?_⟩
        rintro ⟨extent, -, active, start, stop⟩
        have isExtent : extent = 0 ∨ extent = 1 ∨ extent = 2 := by omega
        rcases isExtent with rfl | rfl | rfl
        · have length : (oneOpen.medium 0).hdr.maxPages = 1 := by
            decide +kernel
          omega
        · exact absurd active (by decide +kernel)
        · exact absurd active (by decide +kernel)
  exact ⟨finds, (findsRun_iff oneOpen 2 (by decide)).mp finds⟩

end Contiki.Cfs
