import Contiki.Cfs.Coffee

/-!
# Files that are not created

What a failing `cfs_open` or `cfs_coffee_reserve` leaves behind.
-/

namespace Contiki.Cfs

namespace Coffee

variable {config : CoffeeConfig}

/-- The header of the active file that starts at the page. -/
def activeHeader (state : Coffee config) (page : Nat) : Option FileHeader :=
  let start := state.medium page
  if start.written ∧ start.hdr.isActive then some start.hdr else none

def KeepsActive (before after : Coffee config) : Prop :=
  ∀ page, after.activeHeader page = before.activeHeader page

/-- The active files, the descriptors and the reference counts are the
same. -/
structure Kept (before after : Coffee config) : Prop where
  active : before.KeepsActive after
  fdSet : after.fdSet = before.fdSet
  references : ∀ place,
    (after.files place).references = (before.files place).references

variable {state after : Coffee config}

theorem Kept.refl (state : Coffee config) : Kept state state :=
  ⟨fun _ => rfl, rfl, fun _ => rfl⟩

/-! ## Finding a file -/

theorem kept_loadFile (state : Coffee config) (start : Nat)
    (hdr : FileHeader) : Kept state (state.loadFile start hdr).1 := by
  unfold loadFile
  split
  · exact Kept.refl state
  · next place _ =>
      refine ⟨fun _ => rfl, rfl, fun other => ?_⟩
      by_cases isPlace : other = place
      · rw [isPlace]
        dsimp only
        rw [Function.update_self]
      · dsimp only
        rw [Function.update_of_ne isPlace]

theorem loadFile_eq_none {start : Nat} {hdr : FileHeader}
    (failed : (state.loadFile start hdr).2 = none) :
    state.loadPlace = none ∧ (state.loadFile start hdr).1 = state := by
  unfold loadFile at *
  split at failed
  · next noPlace =>
      exact ⟨noPlace, rfl⟩
  · cases failed

variable {name : List UInt8}

theorem kept_findFile {place : Option (Fin config.maxOpenFiles)}
    (found : state.findFile name = some (after, place)) :
    Kept state after := by
  unfold findFile at found
  dsimp only at found
  split at found
  · obtain ⟨rfl, -⟩ := Prod.mk.inj (Option.some.inj found)
    exact Kept.refl state
  split at found
  · cases found
  · obtain ⟨rfl, -⟩ := Prod.mk.inj (Option.some.inj found)
    exact Kept.refl state
  · next page _ =>
      have loaded := kept_loadFile state page (state.medium page).hdr
      rw [Option.some.inj found] at loaded
      exact loaded

theorem findFile_eq_none
    (missing : state.findFile name = some (after, none)) : after = state := by
  unfold findFile at missing
  dsimp only at missing
  split at missing
  · cases missing
  split at missing
  · cases missing
  · exact (Prod.mk.inj (Option.some.inj missing)).1.symm
  · next page _ =>
      have loaded := Option.some.inj missing
      have failed : (state.loadFile page (state.medium page).hdr).2 =
        none := congrArg Prod.snd loaded
      rw [← (loadFile_eq_none failed).2]
      exact (congrArg Prod.fst loaded).symm

/-! ## Free pages -/

/-- What `find_contiguous_pages` finds: a page, or that there is no room. -/
def roomFor (state : Coffee config) (pages : Nat) : Option (Option Nat) :=
  contiguousFrom config state.medium pages state.nextFree none

/-- Only `next_free` changes. -/
theorem findContiguousPages_spec (state : Coffee config) (pages : Nat) :
    match state.roomFor pages with
    | none => state.findContiguousPages pages = none
    | some none => state.findContiguousPages pages = some (state, none)
    | some (some page) => ∃ nextFree, state.findContiguousPages pages =
        some ({ state with nextFree }, some page) := by
  unfold findContiguousPages roomFor
  cases room : contiguousFrom config state.medium pages state.nextFree
      none with
  | none =>
      rfl
  | some found =>
      cases found with
      | none =>
          rfl
      | some page =>
          by_cases first : page = state.nextFree
          · exact ⟨page + pages, by simp only [if_pos first]⟩
          · exact ⟨state.nextFree, by simp only [if_neg first]⟩

theorem isFree_of_contiguousFrom {medium : Nat → PageStart}
    {amount page : Nat} {start : Option Nat} {found : Nat}
    (free : ∀ first, start = some first → (medium first).hdr.isFree)
    (isFound : contiguousFrom config medium amount page start =
      some (some found)) : (medium found).hdr.isFree := by
  fun_induction contiguousFrom config medium amount page start with
  | case1 => cases isFound
  | case2 => cases isFound
  | case3 page start inside hdr notEnd next isNext isFree enough =>
      obtain rfl := Option.some.inj (Option.some.inj isFound)
      cases start with
      | none =>
          exact isFree
      | some first =>
          exact free first rfl
  | case4 page start inside hdr notEnd next isNext isFree tooFew
      inductionHypothesis =>
      refine inductionHypothesis ?_ isFound
      intro first isFirst
      obtain rfl := Option.some.inj isFirst
      cases start with
      | none =>
          exact isFree
      | some first =>
          exact free first rfl
  | case5 page start inside hdr notEnd next isNext notFree
      inductionHypothesis =>
      exact inductionHypothesis nofun isFound
  | case6 => cases isFound

/-! ## A new file -/

theorem loadPlace_writeHeader (state : Coffee config) (page : Nat)
    (hdr : FileHeader) :
    (state.writeHeader page hdr).loadPlace = state.loadPlace := rfl

/-- A file that is reserved has a place in `coffee_files`. -/
theorem reserveAt_eq_none_iff {pages page : Nat} {log : Bool} :
    (state.reserveAt name pages page log).2 = none ↔
      state.loadPlace = none := by
  unfold reserveAt loadFile
  dsimp only
  rw [loadPlace_writeHeader]
  cases state.loadPlace with
  | none =>
      exact iff_of_true rfl rfl
  | some place =>
      exact iff_of_false nofun nofun

theorem reserveAt_of_noPlace {pages page : Nat}
    {log : Bool} (noPlace : state.loadPlace = none) :
    state.reserveAt name pages page log =
      (state.writeHeader page (newHeader config name pages log), none) := by
  unfold reserveAt loadFile
  dsimp only
  rw [loadPlace_writeHeader, noPlace]

theorem activeHeader_writeHeader (state : Coffee config) (page : Nat)
    {hdr : FileHeader} (active : hdr.isActive) :
    (state.writeHeader page hdr).activeHeader page = some hdr := by
  unfold activeHeader writeHeader
  dsimp only
  rw [Function.update_self]
  exact if_pos ⟨rfl, active⟩

theorem isActive_newHeader (config : CoffeeConfig) (name : List UInt8)
    (pages : Nat) (log : Bool) :
    (newHeader config name pages log).isActive := by
  simp [newHeader, FileHeader.isActive, FileHeader.zero]

theorem activeHeader_of_isFree {page : Nat}
    (free : (state.medium page).hdr.isFree) :
    state.activeHeader page = none := by
  unfold activeHeader
  apply if_neg
  unfold FileHeader.isFree at free
  unfold FileHeader.isActive
  simp at free ⊢
  simp [free]

/-- The call keeps everything if it does not create a file. -/
def FailsCleanly {α : Type} (state : Coffee config)
    (result : Option (Coffee config × Option α)) : Prop :=
  ∀ after, result = some (after, none) → Kept state after

/-- There is a place in `coffee_files`, or the header that stays changes
nothing. -/
theorem failsCleanly_reserveAt_iff (before : Coffee config)
    (name : List UInt8) (pages page : Nat) (log : Bool) :
    before.FailsCleanly (some (state.reserveAt name pages page log)) ↔
      state.loadPlace ≠ none ∨ Kept before
        (state.writeHeader page (newHeader config name pages log)) := by
  constructor
  · intro cleanly
    by_cases noPlace : state.loadPlace = none
    · exact Or.inr (cleanly _ (by rw [reserveAt_of_noPlace noPlace]))
    · exact Or.inl noPlace
  · intro fits after failed
    have result := Option.some.inj failed
    have noPlace : state.loadPlace = none :=
      reserveAt_eq_none_iff.mp (congrArg Prod.snd result)
    rw [reserveAt_of_noPlace noPlace] at result
    obtain ⟨rfl, -⟩ := Prod.mk.inj result
    exact fits.resolve_left (not_not.mpr noPlace)

theorem not_kept_writeHeader {nextFree pages page : Nat}
    (room : state.roomFor pages = some (some page)) {hdr : FileHeader}
    (active : hdr.isActive) :
    ¬ Kept state ({ state with nextFree }.writeHeader page hdr) := by
  intro kept
  have isFree := isFree_of_contiguousFrom
    (by intro _ noStart; cases noStart) room
  have same := kept.active page
  rw [activeHeader_writeHeader _ page active,
    activeHeader_of_isFree isFree] at same
  cases same

/-- Garbage collection only touches the medium and `next_free`. -/
theorem collectFrom_spec {count sector : Nat} {walk : SectorWalk}
    (collects : collectFrom count sector walk state = some after) :
    after.files = state.files ∧ after.fdSet = state.fdSet ∧
      after.gcWait = state.gcWait := by
  induction count generalizing sector walk state with
  | zero =>
      obtain rfl := Option.some.inj collects
      exact ⟨rfl, rfl, rfl⟩
  | succ count inductionHypothesis =>
      unfold collectFrom at collects
      split at collects
      · cases collects
      · obtain ⟨files, fdSet, gcWait⟩ := inductionHypothesis collects
        rw [files, fdSet, gcWait]
        split
        · unfold collectSector
          dsimp only
          split <;> split <;> exact ⟨rfl, rfl, rfl⟩
        · exact ⟨rfl, rfl, rfl⟩

/-- A sector that `collect_garbage` erases, and the number of pages behind it
that it isolates. -/
structure ErasedSector where
  sector : Nat
  isolation : Nat

/-- The page is in the sector, or it is isolated. -/
def ErasedSector.Covers (erased : ErasedSector) (config : CoffeeConfig)
    (page : Nat) : Prop :=
  page / config.pagesPerSector = erased.sector ∨
    (erased.sector + 1) * config.pagesPerSector ≤ page ∧
      page < (erased.sector + 1) * config.pagesPerSector + erased.isolation

/-- The sectors that the loop of `collect_garbage` erases. -/
def erasedFrom : Nat → Nat → SectorWalk → Coffee config → List ErasedSector
  | 0, _, _, _ => []
  | count + 1, sector, walk, state =>
      match getSectorStatus config state.medium sector walk with
      | none => []
      | some (status, isolation, walk) =>
          if status.active = 0 ∧ 0 < status.obsolete then
            { sector, isolation } :: erasedFrom count (sector + 1) walk
              (state.collectSector sector isolation)
          else erasedFrom count (sector + 1) walk state

/-- Garbage collection erases the page or isolates it. -/
def Erases (state : Coffee config) (page : Nat) : Prop :=
  ∃ erased ∈ erasedFrom config.sectorCount 0
    { skipPages := 0, lastPagesAreActive := false } state,
    erased.Covers config page

theorem activeHeader_collectSector (state : Coffee config)
    (sector isolation page : Nat) :
    let erased : ErasedSector := { sector, isolation }
    let header := (state.collectSector sector isolation).activeHeader page
    (erased.Covers config page → header = none) ∧
      (¬ erased.Covers config page → header = state.activeHeader page) := by
  have next : (sector + 1) * config.pagesPerSector =
      sector * config.pagesPerSector + config.pagesPerSector :=
    Nat.succ_mul _ _
  dsimp only
  unfold ErasedSector.Covers collectSector
  dsimp only
  rw [next]
  by_cases inSector : page / config.pagesPerSector = sector
  · refine ⟨fun _ => ?_, fun outside => absurd (Or.inl inSector) outside⟩
    unfold activeHeader erase
    simp [inSector]
  have unerased : ∀ before : Coffee config,
      (before.erase sector).activeHeader page =
        before.activeHeader page := by
    intro before
    unfold activeHeader erase
    dsimp only
    rw [if_neg inSector]
  rw [unerased]
  by_cases isolates : 0 < isolation
  · rw [if_pos isolates]
    unfold isolatePages
    constructor
    · intro covered
      unfold activeHeader
      dsimp only
      rw [if_pos (covered.resolve_left inSector)]
      exact if_neg (by simp [isolatedHeader, FileHeader.isActive])
    · intro outside
      unfold activeHeader
      dsimp only
      rw [if_neg fun behind => outside (Or.inr behind)]
      split <;> rfl
  · rw [if_neg isolates]
    constructor
    · intro covered
      have := covered.resolve_left inSector
      omega
    · intro _
      split <;> rfl

/-- No active file is left in the pages that are erased, and the others stay
as they are. -/
theorem activeHeader_collectFrom {count sector : Nat} {walk : SectorWalk}
    (collects : collectFrom count sector walk state = some after)
    (page : Nat) :
    ((∃ erased ∈ erasedFrom count sector walk state,
        erased.Covers config page) → after.activeHeader page = none) ∧
      ((¬ ∃ erased ∈ erasedFrom count sector walk state,
        erased.Covers config page) →
          after.activeHeader page = state.activeHeader page) := by
  induction count generalizing sector walk state with
  | zero =>
      obtain rfl := Option.some.inj collects
      refine ⟨?_, fun _ => rfl⟩
      rintro ⟨erased, isErased, -⟩
      cases isErased
  | succ count inductionHypothesis =>
      unfold collectFrom at collects
      unfold erasedFrom
      cases isStatus : getSectorStatus config state.medium sector walk with
      | none =>
          rw [isStatus] at collects
          cases collects
      | some found =>
          obtain ⟨status, isolation, later⟩ := found
          rw [isStatus] at collects
          dsimp only at collects ⊢
          split at collects
          · next erases =>
              rw [if_pos erases]
              obtain ⟨erased, kept⟩ := inductionHypothesis collects
              obtain ⟨here, elsewhere⟩ :=
                state.activeHeader_collectSector sector isolation page
              simp only [List.exists_mem_cons_iff]
              constructor
              · rintro (covered | covered)
                · by_cases again : ∃ other ∈ erasedFrom count (sector + 1)
                      later (state.collectSector sector isolation),
                      other.Covers config page
                  · exact erased again
                  · rw [kept again]
                    exact here covered
                · exact erased covered
              · intro outside
                rw [not_or] at outside
                rw [kept outside.2]
                exact elsewhere outside.1
          · next keeps =>
              rw [if_neg keeps]
              exact inductionHypothesis collects

variable {collected : Coffee config}

/-- Garbage collection leaves the active files, if and only if it erases
none of them. -/
theorem keepsActive_collected_iff
    (collects : state.collectGarbage = some collected) :
    state.KeepsActive collected ↔
      ∀ page, state.Erases page → state.activeHeader page = none := by
  refine forall_congr' fun page => ?_
  obtain ⟨erased, kept⟩ := activeHeader_collectFrom collects page
  by_cases erases : state.Erases page
  · rw [erased erases]
    exact ⟨fun none _ => none.symm, fun none => (none erases).symm⟩
  · exact iff_of_true (kept erases) fun isErased => absurd isErased erases

/-- A new header changes nothing if it was there and has been erased. -/
theorem keepsActive_writeHeader_iff
    (collects : state.collectGarbage = some collected) (page : Nat)
    {hdr : FileHeader} (active : hdr.isActive) :
    state.KeepsActive (collected.writeHeader page hdr) ↔
      state.activeHeader page = some hdr ∧ ∀ other, other ≠ page →
        state.Erases other → state.activeHeader other = none := by
  have others : ∀ other, other ≠ page →
      (collected.writeHeader page hdr).activeHeader other =
        collected.activeHeader other := by
    intro other isOther
    unfold activeHeader writeHeader
    dsimp only
    rw [Function.update_of_ne isOther]
  have here := activeHeader_writeHeader collected page active
  constructor
  · intro keeps
    refine ⟨(keeps page).symm.trans here, fun other isOther erases => ?_⟩
    rw [← keeps other, others other isOther]
    exact (activeHeader_collectFrom collects other).1 erases
  · rintro ⟨same, elsewhere⟩ other
    by_cases isPage : other = page
    · rw [isPage, here, same]
    · rw [others other isPage]
      obtain ⟨erased, kept⟩ := activeHeader_collectFrom collects other
      by_cases erases : state.Erases other
      · rw [erased erases, elsewhere other isPage erases]
      · exact kept erases

/-- Garbage collection makes room, and there is a place in `coffee_files`, or
the header is one that it erases and no other active file is erased; or it
makes no room and erases no active file. -/
structure CollectedFits (state collected : Coffee config)
    (name : List UInt8) (pages : Nat) (log : Bool) : Prop where
  place : ∀ page, collected.roomFor pages = some (some page) →
    state.loadPlace ≠ none ∨
      state.activeHeader page = some (newHeader config name pages log) ∧
        ∀ other, other ≠ page → state.Erases other →
          state.activeHeader other = none
  active : collected.roomFor pages = some none →
    ∀ page, state.Erases page → state.activeHeader page = none

theorem failsCleanly_reserveCollected_iff
    (collects : state.collectGarbage = some collected) (name : List UInt8)
    (pages : Nat) (log : Bool) :
    state.FailsCleanly (collected.reserveCollected name pages log) ↔
      CollectedFits state collected name pages log := by
  obtain ⟨files, fdSet, -⟩ := collectFrom_spec collects
  have places : collected.loadPlace = state.loadPlace := by
    unfold loadPlace
    rw [files]
  have kept_iff : ∀ after : Coffee config, after.files = collected.files →
      after.fdSet = collected.fdSet →
      (Kept state after ↔ state.KeepsActive after) := by
    intro after sameFiles sameFds
    refine ⟨Kept.active, fun active => ⟨active, ?_, ?_⟩⟩
    · rw [sameFds, fdSet]
    · intro place
      rw [sameFiles, files]
  have found := collected.findContiguousPages_spec pages
  unfold reserveCollected
  cases room : collected.roomFor pages with
  | none =>
      rw [room] at found
      rw [show collected.findContiguousPages pages = none from found]
      refine iff_of_true nofun ⟨?_, ?_⟩
      · intro page isRoom
        rw [room] at isRoom
        cases isRoom
      · intro noRoom
        rw [room] at noRoom
        cases noRoom
  | some page =>
  cases page with
  | some page =>
      rw [room] at found
      obtain ⟨nextFree, isFound⟩ := found
      rw [isFound]
      refine (failsCleanly_reserveAt_iff state name pages page log).trans ?_
      have keeps := kept_iff ({ collected with nextFree }.writeHeader page
        (newHeader config name pages log)) rfl rfl
      have there := keepsActive_writeHeader_iff collects page
        (isActive_newHeader config name pages log)
      refine (or_congr_right (keeps.trans there)).trans ?_
      change collected.loadPlace ≠ none ∨ _ ↔ _
      rw [places]
      constructor
      · intro fits
        refine ⟨?_, ?_⟩
        · intro other isRoom
          rw [room] at isRoom
          obtain rfl := Option.some.inj (Option.some.inj isRoom)
          exact fits
        · intro noRoom
          rw [room] at noRoom
          cases noRoom
      · intro fits
        exact fits.place page room
  | none =>
      rw [room] at found
      rw [show collected.findContiguousPages pages =
        some (collected, none) from found]
      dsimp only
      constructor
      · intro cleanly
        refine ⟨?_, fun _ => ?_⟩
        · intro page isRoom
          rw [room] at isRoom
          cases isRoom
        · exact (keepsActive_collected_iff collects).mp
            (cleanly _ rfl).active
      · intro fits after failed
        obtain ⟨rfl, -⟩ := Prod.mk.inj (Option.some.inj failed)
        have active : state.KeepsActive { collected with gcWait := true } :=
          (keepsActive_collected_iff collects).mpr (fits.active room)
        exact (kept_iff { collected with gcWait := true } rfl
          rfl).mpr active

/-- When a call of `reserve` for a new file that fails keeps everything:
where there is room, there is a place in `coffee_files`, and where there is
none, garbage collection is not run or fits. -/
structure ReserveFits (state : Coffee config) (name : List UInt8)
    (pages : Nat) (log : Bool) : Prop where
  place : ∀ page, state.roomFor pages = some (some page) →
    state.loadPlace ≠ none
  collected : ∀ collected, state.roomFor pages = some none →
    state.gcWait = false → state.collectGarbage = some collected →
    CollectedFits state collected name pages log

theorem failsCleanly_reserveNew_iff (state : Coffee config)
    (name : List UInt8) (pages : Nat) (log : Bool) :
    state.FailsCleanly (state.reserveNew name pages log) ↔
      state.ReserveFits name pages log := by
  have found := state.findContiguousPages_spec pages
  unfold reserveNew
  cases room : state.roomFor pages with
  | none =>
      rw [room] at found
      rw [show state.findContiguousPages pages = none from found]
      refine iff_of_true nofun ⟨?_, ?_⟩
      · intro page isRoom
        rw [room] at isRoom
        cases isRoom
      · intro collected isRoom
        rw [room] at isRoom
        cases isRoom
  | some page =>
  cases page with
  | some page =>
      rw [room] at found
      obtain ⟨nextFree, isFound⟩ := found
      rw [isFound]
      refine (failsCleanly_reserveAt_iff state name pages page log).trans ?_
      rw [or_iff_left (not_kept_writeHeader room
        (isActive_newHeader config name pages log))]
      constructor
      · intro hasPlace
        refine ⟨fun _ _ => hasPlace, ?_⟩
        intro collected noRoom
        rw [room] at noRoom
        cases noRoom
      · intro fits
        exact fits.place page room
  | none =>
  have place_of_room : ∀ page, state.roomFor pages = some (some page) →
      state.loadPlace ≠ none := by
    intro page isRoom
    rw [room] at isRoom
    cases isRoom
  rw [room] at found
  rw [show state.findContiguousPages pages = some (state, none) from found]
  dsimp only
  cases waits : state.gcWait with
  | true =>
      refine iff_of_true ?_ ⟨place_of_room, ?_⟩
      · intro after failed
        obtain ⟨rfl, -⟩ := Prod.mk.inj (Option.some.inj failed)
        exact Kept.refl state
      · intro collected _ notWaits
        rw [waits] at notWaits
        cases notWaits
  | false =>
  rw [if_neg Bool.false_ne_true]
  cases collects : state.collectGarbage with
  | none =>
      refine iff_of_true nofun ⟨place_of_room, ?_⟩
      intro collected _ _ isCollected
      rw [collects] at isCollected
      cases isCollected
  | some collected =>
      refine (failsCleanly_reserveCollected_iff collects name pages
        log).trans ?_
      constructor
      · intro fits
        refine ⟨place_of_room, ?_⟩
        intro other _ _ isCollected
        rw [collects] at isCollected
        obtain rfl := Option.some.inj isCollected
        exact fits
      · intro fits
        exact fits.collected collected room waits collects

/-! ## Calls that fail -/

/-- There is room for a new file, but no place in `coffee_files`, or there is
no room, even after garbage collection where that is run. -/
def ReserveFails (state : Coffee config) (pages : Nat) : Prop :=
  (∃ page, state.roomFor pages = some (some page)) ∧
      state.loadPlace = none ∨
    state.roomFor pages = some none ∧ (state.gcWait ∨
      ∃ collected, state.collectGarbage = some collected ∧
        (collected.roomFor pages = some none ∨
          (∃ page, collected.roomFor pages = some (some page)) ∧
            state.loadPlace = none))

theorem reserveCollected_eq_none_iff
    (collects : state.collectGarbage = some collected) (name : List UInt8)
    (pages : Nat) (log : Bool) :
    (∃ after, collected.reserveCollected name pages log =
        some (after, none)) ↔
      collected.roomFor pages = some none ∨
        (∃ page, collected.roomFor pages = some (some page)) ∧
          state.loadPlace = none := by
  obtain ⟨files, -, -⟩ := collectFrom_spec collects
  have places : collected.loadPlace = state.loadPlace := by
    unfold loadPlace
    rw [files]
  have found := collected.findContiguousPages_spec pages
  unfold reserveCollected
  cases room : collected.roomFor pages with
  | none =>
      rw [room] at found
      rw [show collected.findContiguousPages pages = none from found]
      simp
  | some page =>
  cases page with
  | some page =>
      rw [room] at found
      obtain ⟨nextFree, isFound⟩ := found
      rw [isFound, ← places]
      have noPlace_iff : ({ collected with nextFree }.reserveAt name pages
          page log).2 = none ↔ collected.loadPlace = none :=
        reserveAt_eq_none_iff
      simp [Prod.ext_iff, noPlace_iff]
  | none =>
      rw [room] at found
      rw [show collected.findContiguousPages pages =
        some (collected, none) from found]
      simp

theorem reserveNew_eq_none_iff (state : Coffee config) (name : List UInt8)
    (pages : Nat) (log : Bool) :
    (∃ after, state.reserveNew name pages log = some (after, none)) ↔
      state.ReserveFails pages := by
  have found := state.findContiguousPages_spec pages
  unfold reserveNew ReserveFails
  cases room : state.roomFor pages with
  | none =>
      rw [room] at found
      rw [show state.findContiguousPages pages = none from found]
      simp
  | some page =>
  cases page with
  | some page =>
      rw [room] at found
      obtain ⟨nextFree, isFound⟩ := found
      rw [isFound]
      have noPlace_iff : ({ state with nextFree }.reserveAt name pages
          page log).2 = none ↔ state.loadPlace = none :=
        reserveAt_eq_none_iff
      simp [Prod.ext_iff, noPlace_iff]
  | none =>
  rw [room] at found
  rw [show state.findContiguousPages pages = some (state, none) from found]
  dsimp only
  cases waits : state.gcWait with
  | true =>
      simp
  | false =>
  rw [if_neg Bool.false_ne_true]
  cases collects : state.collectGarbage with
  | none =>
      simp
  | some collected =>
      refine (reserveCollected_eq_none_iff collects name pages log).trans ?_
      simp

/-- There is no file with the name, or no place in `coffee_files` for it. -/
def Missing (state : Coffee config) (name : List UInt8) : Prop :=
  state.findFile name = some (state, none)

/-- The file is opened only for reading. -/
def readsOnly (flags : UInt8) : Prop :=
  flags &&& (cfsRead ||| cfsWrite) = cfsRead

/-- When a call of `cfs_open` that fails keeps everything: reserving a file
fits, and where none is reserved, the free descriptor has no file. -/
structure OpenFits (state : Coffee config) (name : List UInt8)
    (flags : UInt8) : Prop where
  reserve : state.getAvailableFd ≠ none → state.Missing name →
    ¬ readsOnly flags →
    state.ReserveFits name (config.pageCount config.dynSize) false
  file : ∀ fd, state.getAvailableFd = some fd → state.Missing name →
    (readsOnly flags ∨
      state.ReserveFails (config.pageCount config.dynSize)) →
    (state.fdSet fd).file = none

/-- When a call of `cfs_coffee_reserve` that fails keeps everything. -/
def CoffeeReserveFits (state : Coffee config) (name : List UInt8)
    (size : Int) : Prop :=
  state.Missing name → state.ReserveFits name (config.pageCount size) false

theorem kept_clearFd_iff {before : Coffee config}
    {fd : Fin config.fdSetSize} (free : (before.fdSet fd).flags = 0)
    (sameFds : after.fdSet = before.fdSet) :
    Kept before (after.clearFd fd) ↔
      Kept before after ∧ (before.fdSet fd).file = none := by
  have same_iff : (after.clearFd fd).fdSet = before.fdSet ↔
      (before.fdSet fd).file = none := by
    unfold clearFd
    dsimp only
    rw [sameFds, Function.update_eq_self_iff]
    constructor
    · intro same
      rw [← same]
    · intro noFile
      cases isFd : before.fdSet fd with
      | mk offset file flags =>
          rw [isFd] at free noFile
          simp only at free noFile
          rw [noFile, free]
  constructor
  · intro kept
    exact ⟨⟨kept.active, sameFds, kept.references⟩,
      same_iff.mp kept.fdSet⟩
  · rintro ⟨kept, noFile⟩
    exact ⟨kept.active, same_iff.mpr noFile, kept.references⟩

theorem fdSet_reserveAt (state : Coffee config) (name : List UInt8)
    (pages page : Nat) (log : Bool) :
    (state.reserveAt name pages page log).1.fdSet = state.fdSet := by
  unfold reserveAt loadFile
  dsimp only
  cases (state.writeHeader page
      (newHeader config name pages log)).loadPlace with
  | none =>
      rfl
  | some place =>
      rfl

theorem fdSet_findContiguousPages {pages : Nat} {page : Option Nat}
    (found : state.findContiguousPages pages = some (after, page)) :
    after.fdSet = state.fdSet := by
  unfold findContiguousPages at found
  split at found
  · cases found
  · obtain ⟨rfl, -⟩ := Prod.mk.inj (Option.some.inj found)
    rfl
  · obtain ⟨rfl, -⟩ := Prod.mk.inj (Option.some.inj found)
    split <;> rfl

theorem fdSet_reserveNew {pages : Nat} {log : Bool}
    {place : Option (Fin config.maxOpenFiles)}
    (reserved : state.reserveNew name pages log = some (after, place)) :
    after.fdSet = state.fdSet := by
  have atPage : ∀ {before : Coffee config} {page : Nat},
      before.reserveAt name pages page log = (after, place) →
      after.fdSet = before.fdSet := by
    intro before page isAfter
    have same := before.fdSet_reserveAt name pages page log
    rw [isAfter] at same
    exact same
  unfold reserveNew at reserved
  split at reserved
  · cases reserved
  · next first page found =>
      rw [atPage (Option.some.inj reserved),
        fdSet_findContiguousPages found]
  next first found =>
  split at reserved
  · obtain ⟨rfl, -⟩ := Prod.mk.inj (Option.some.inj reserved)
    exact fdSet_findContiguousPages found
  split at reserved
  · cases reserved
  next collected collects =>
  obtain ⟨-, fdSet, -⟩ := collectFrom_spec collects
  unfold reserveCollected at reserved
  split at reserved
  · cases reserved
  · next second page foundAgain =>
      rw [atPage (Option.some.inj reserved),
        fdSet_findContiguousPages foundAgain, fdSet,
        fdSet_findContiguousPages found]
  · next second foundAgain =>
      obtain ⟨rfl, -⟩ := Prod.mk.inj (Option.some.inj reserved)
      change second.fdSet = state.fdSet
      rw [fdSet_findContiguousPages foundAgain, fdSet,
        fdSet_findContiguousPages found]

theorem flags_of_getAvailableFd {fd : Fin config.fdSetSize}
    (available : state.getAvailableFd = some fd) :
    (state.fdSet fd).flags = 0 := by
  have isFree : (state.fdSet fd).flags = coffeeFdFree := by
    simpa using List.find?_some available
  exact isFree

theorem failsCleanly_cfsOpen_iff (state : Coffee config)
    (fileEnd : Nat → Int) (name : List UInt8) (flags : UInt8) :
    state.FailsCleanly (state.cfsOpen fileEnd name flags) ↔
      state.OpenFits name flags := by
  unfold cfsOpen
  cases available : state.getAvailableFd with
  | none =>
      refine iff_of_true ?_ ⟨?_, ?_⟩
      · intro after failed
        obtain ⟨rfl, -⟩ := Prod.mk.inj (Option.some.inj failed)
        exact Kept.refl state
      · intro isSome
        exact absurd available isSome
      · intro fd isFd
        rw [available] at isFd
        cases isFd
  | some fd =>
  have free := flags_of_getAvailableFd available
  have found_of_place : ∀ {after place},
      state.findFile name = some (after, some place) →
      ¬ state.Missing name := by
    intro after place found missing
    cases found.symm.trans missing
  cases found : state.findFile name with
  | none =>
      have notMissing : ¬ state.Missing name := by
        intro missing
        cases found.symm.trans missing
      exact iff_of_true nofun ⟨fun _ missing => absurd missing notMissing,
        fun _ _ missing => absurd missing notMissing⟩
  | some result =>
  obtain ⟨later, place⟩ := result
  cases place with
  | some place =>
      have notMissing := found_of_place found
      refine iff_of_true ?_ ⟨fun _ missing => absurd missing notMissing,
        fun _ _ missing => absurd missing notMissing⟩
      intro after failed
      cases (Prod.mk.inj (Option.some.inj failed)).2
  | none =>
  obtain rfl := findFile_eq_none found
  dsimp only
  by_cases reads : flags &&& (cfsRead ||| cfsWrite) = cfsRead
  · rw [if_pos reads]
    have cleared := @kept_clearFd_iff _ later later fd free rfl
    constructor
    · intro cleanly
      refine ⟨fun _ _ writes => absurd reads writes, ?_⟩
      intro other isOther _ _
      rw [available] at isOther
      obtain rfl := Option.some.inj isOther
      exact (cleared.mp (cleanly _ rfl)).2
    · intro fits after failed
      obtain ⟨rfl, -⟩ := Prod.mk.inj (Option.some.inj failed)
      exact cleared.mpr ⟨Kept.refl later,
        fits.file fd available found (Or.inl reads)⟩
  · rw [if_neg reads]
    have fits_iff := later.failsCleanly_reserveNew_iff name
      (config.pageCount config.dynSize) false
    have fails_iff := later.reserveNew_eq_none_iff name
      (config.pageCount config.dynSize) false
    have created : (∀ after, later.reserveNew name
        (config.pageCount config.dynSize) false ≠ some (after, none)) →
        later.OpenFits name flags := by
      intro neverFails
      refine ⟨fun _ _ _ => fits_iff.mp ?_, ?_⟩
      · intro after failed
        exact absurd failed (neverFails after)
      · intro other _ _ fails
        obtain ⟨after, failed⟩ := fails_iff.mpr (fails.resolve_left reads)
        exact absurd failed (neverFails after)
    unfold reserve
    rw [if_pos rfl]
    cases reserved : later.reserveNew name
        (config.pageCount config.dynSize) false with
    | none =>
        refine iff_of_true nofun (created ?_)
        intro after failed
        cases reserved.symm.trans failed
    | some result =>
    obtain ⟨after, place⟩ := result
    cases place with
    | some place =>
        refine iff_of_true ?_ (created ?_)
        · intro other failed
          cases (Prod.mk.inj (Option.some.inj failed)).2
        · intro other failed
          cases reserved.symm.trans failed
    | none =>
    have cleared := kept_clearFd_iff free (fdSet_reserveNew reserved)
    dsimp only
    constructor
    · intro cleanly
      obtain ⟨kept, noFile⟩ := cleared.mp (cleanly _ rfl)
      refine ⟨fun _ _ _ => fits_iff.mp ?_, ?_⟩
      · intro other failed
        obtain ⟨rfl, -⟩ := Prod.mk.inj
          (Option.some.inj (reserved.symm.trans failed))
        exact kept
      · intro other isOther _ _
        rw [available] at isOther
        obtain rfl := Option.some.inj isOther
        exact noFile
    · intro fits other failed
      obtain ⟨rfl, -⟩ := Prod.mk.inj (Option.some.inj failed)
      have hasFd : later.getAvailableFd ≠ none := by
        rw [available]
        exact nofun
      have fails := fails_iff.mp ⟨after, reserved⟩
      exact cleared.mpr ⟨fits_iff.mpr (fits.reserve hasFd found reads) after
        reserved, fits.file fd available found (Or.inr fails)⟩

/-- A call of `cfs_coffee_reserve` that fails. -/
def ReserveKeeps (state : Coffee config) (name : List UInt8) (size : Int) :
    Prop :=
  ∀ after, state.cfsCoffeeReserve name size = some (after, false) →
    Kept state after

theorem reserveKeeps_iff (state : Coffee config) (name : List UInt8)
    (size : Int) :
    state.ReserveKeeps name size ↔ state.CoffeeReserveFits name size := by
  have fits_iff := state.failsCleanly_reserveNew_iff name
    (config.pageCount size) false
  have keeps_iff : state.ReserveKeeps name size ↔ state.FailsCleanly
      (state.reserve name (config.pageCount size) false false) := by
    unfold ReserveKeeps FailsCleanly cfsCoffeeReserve
    refine forall_congr' fun after => imp_congr_left ?_
    simp [Prod.ext_iff]
  rw [keeps_iff]
  unfold reserve CoffeeReserveFits Missing
  rw [if_neg Bool.false_ne_true]
  cases found : state.findFile name with
  | none =>
      exact iff_of_true nofun nofun
  | some result =>
  obtain ⟨after, place⟩ := result
  cases place with
  | none =>
      obtain rfl := findFile_eq_none found
      exact fits_iff.trans (imp_iff_right rfl).symm
  | some place =>
      refine iff_of_true ?_ ?_
      · intro other failed
        obtain ⟨rfl, -⟩ := Prod.mk.inj (Option.some.inj failed)
        exact kept_findFile found
      · intro missing
        cases (Prod.mk.inj (Option.some.inj missing)).2

end Coffee

end Contiki.Cfs
