import Mathlib.Data.List.FinRange
import Mathlib.Logic.Function.Basic

/-!
# Coffee

The file system of `cfs-coffee.c` as far as files are found, created, closed
and removed.  Each page of the medium is known by what `read_header` returns
for it.
-/

namespace Contiki.Cfs

/-- The configuration of the architecture. -/
structure CoffeeConfig where
  /-- `COFFEE_PAGES_PER_SECTOR`, a power of two -/
  pagesPerSector : Nat
  pagesPerSector_pos : 0 < pagesPerSector
  /-- `COFFEE_SECTOR_COUNT` -/
  sectorCount : Nat
  /-- `COFFEE_NAME_LENGTH` -/
  nameLength : Nat
  /-- `COFFEE_MAX_OPEN_FILES` -/
  maxOpenFiles : Nat
  /-- `COFFEE_FD_SET_SIZE` -/
  fdSetSize : Nat
  /-- `COFFEE_DYN_SIZE` -/
  dynSize : Int
  /-- `page_count()` -/
  pageCount : Int → Nat

/-- `COFFEE_PAGE_COUNT` -/
def CoffeeConfig.pages (config : CoffeeConfig) : Nat :=
  config.sectorCount * config.pagesPerSector

/-! ## Data -/

/-- `struct file_header`; the flags are those that are tested. -/
structure FileHeader where
  logPage : Nat
  logRecords : UInt16
  logRecordSize : UInt16
  maxPages : Nat
  allocated : Bool
  obsolete : Bool
  modified : Bool
  log : Bool
  isolated : Bool
  /-- The bytes before the first zero. -/
  name : List UInt8
  deriving DecidableEq

namespace FileHeader

def zero : FileHeader where
  logPage := 0
  logRecords := 0
  logRecordSize := 0
  maxPages := 0
  allocated := false
  obsolete := false
  modified := false
  log := false
  isolated := false
  name := []

/-- `HDR_FREE` -/
def isFree (hdr : FileHeader) : Bool := ¬ hdr.allocated

/-- `HDR_ACTIVE` -/
def isActive (hdr : FileHeader) : Bool :=
  hdr.allocated ∧ ¬ hdr.obsolete ∧ ¬ hdr.isolated

end FileHeader

/-- The start of a page: what `read_header` returns for it, and if that is a
header that was written since the sector was erased, which the source does not
know. -/
structure PageStart where
  hdr : FileHeader
  written : Bool

/-- `struct file`, with `UNKNOWN_OFFSET` as -1. -/
structure File where
  fileEnd : Int
  page : Nat
  maxPages : Nat
  recordCount : Int
  references : Nat
  modified : Bool

/-- `struct file_desc`, with the file as its place in `coffee_files`. -/
structure FileDesc (config : CoffeeConfig) where
  offset : Int
  file : Option (Fin config.maxOpenFiles)
  flags : UInt8

/-- `COFFEE_FD_FREE` -/
def coffeeFdFree : UInt8 := 0
/-- `CFS_READ` -/
def cfsRead : UInt8 := 1
/-- `CFS_WRITE` -/
def cfsWrite : UInt8 := 2
/-- `CFS_APPEND` -/
def cfsAppend : UInt8 := 4

/-- The medium and `protected_mem`. -/
structure Coffee (config : CoffeeConfig) where
  medium : Nat → PageStart
  files : Fin config.maxOpenFiles → File
  fdSet : Fin config.fdSetSize → FileDesc config
  nextFree : Nat
  gcWait : Bool

variable {config : CoffeeConfig}

/-! ## The walk over the medium -/

/-- `next_file` -/
def nextFile (config : CoffeeConfig) (page : Nat) (hdr : FileHeader) : Nat :=
  if hdr.isFree then
    (page / config.pagesPerSector + 1) * config.pagesPerSector
  else if hdr.isolated then page + 1
  else page + hdr.maxPages

/-- The page that follows on a page of the walk; without a result the walk
stays at its page. -/
def walkOn (config : CoffeeConfig) (medium : Nat → PageStart) (page : Nat) :
    Option { next : Nat // page < next } :=
  let next := nextFile config page (medium page).hdr
  if forward : page < next then some ⟨next, forward⟩ else none

/-- The first page of the walk from `page` on whose header is searched for.
Without an outer result the walk does not end. -/
def walkTo (config : CoffeeConfig) (medium : Nat → PageStart)
    (searched : FileHeader → Bool) (page : Nat) : Option (Option Nat) :=
  if page < config.pages then
    if searched (medium page).hdr then some (some page)
    else
      match walkOn config medium page with
      | none => none
      | some next => walkTo config medium searched next.val
  else some none
termination_by config.pages - page
decreasing_by
  have := next.property
  omega

/-! ## Garbage collection -/

/-- `struct sector_status` -/
structure SectorStatus where
  active : Nat
  obsolete : Nat
  free : Nat

/-- The static variables of `get_sector_status`. -/
structure SectorWalk where
  skipPages : Nat
  lastPagesAreActive : Bool

/-- The loop of `get_sector_status` from `page` on. -/
def countPages (medium : Nat → PageStart) (sectorEnd page : Nat)
    (counted : SectorStatus) (last : Bool) :
    Option (SectorStatus × Bool) :=
  if page < sectorEnd then
    let hdr := (medium page).hdr
    if hdr.isActive then
      if _forward : 0 < (medium page).hdr.maxPages then
        countPages medium sectorEnd (page + hdr.maxPages)
          { counted with active := counted.active + hdr.maxPages } true
      else none
    else if hdr.isolated then
      countPages medium sectorEnd (page + 1)
        { counted with obsolete := counted.obsolete + 1 } false
    else if hdr.obsolete then
      if _forward : 0 < (medium page).hdr.maxPages then
        countPages medium sectorEnd (page + hdr.maxPages)
          { counted with obsolete := counted.obsolete + hdr.maxPages } false
      else none
    else some ({ counted with free := sectorEnd - page }, false)
  else some (counted, last)
termination_by sectorEnd - page
decreasing_by
  all_goals omega

/-- `get_sector_status`: the status, the pages to isolate and the static
variables afterwards. -/
def getSectorStatus (config : CoffeeConfig) (medium : Nat → PageStart)
    (sector : Nat) (walk : SectorWalk) :
    Option (SectorStatus × Nat × SectorWalk) :=
  let perSector := config.pagesPerSector
  let start := sector * perSector
  let skip := walk.skipPages
  let nothing : SectorStatus := { active := 0, obsolete := 0, free := 0 }
  if perSector ≤ skip then
    let later := { walk with skipPages := skip - perSector }
    if walk.lastPagesAreActive then
      some ({ nothing with active := perSector }, 0, later)
    else
      some ({ nothing with obsolete := perSector },
        if perSector ≤ later.skipPages then 0 else later.skipPages, later)
  else
    let counted := if walk.lastPagesAreActive then
        { nothing with active := skip }
      else { nothing with obsolete := skip }
    match countPages medium (start + perSector) (start + skip) counted
        walk.lastPagesAreActive with
    | none => none
    | some (counted, last) =>
        let skip := counted.active + counted.obsolete + counted.free -
          perSector
        let status :=
          if 0 < skip then
            if last then
              { counted with active := perSector - counted.obsolete }
            else { counted with obsolete := perSector - counted.active }
          else counted
        some (status, if last ∨ perSector ≤ skip then 0 else skip,
          { skipPages := skip, lastPagesAreActive := last })

def isolatedHeader : FileHeader :=
  { FileHeader.zero with allocated := true, isolated := true }

namespace Coffee

/-- `write_header` -/
def writeHeader (state : Coffee config) (page : Nat) (hdr : FileHeader) :
    Coffee config :=
  { state with
    medium := Function.update state.medium page
      { hdr := hdr, written := true } }

/-- `isolate_pages` -/
def isolatePages (state : Coffee config) (start skipPages : Nat) :
    Coffee config :=
  { state with
    medium := fun page =>
      if start ≤ page ∧ page < start + skipPages then
        { hdr := isolatedHeader, written := true }
      else state.medium page }

/-- `COFFEE_ERASE` -/
def erase (state : Coffee config) (sector : Nat) : Coffee config :=
  { state with
    medium := fun page =>
      if page / config.pagesPerSector = sector then
        { hdr := FileHeader.zero, written := false }
      else state.medium page }

/-- The action of `collect_garbage` for a sector that can be erased. -/
def collectSector (state : Coffee config) (sector isolation : Nat) :
    Coffee config :=
  let firstPage := sector * config.pagesPerSector
  let state :=
    if firstPage < state.nextFree then { state with nextFree := firstPage }
    else state
  let state :=
    if 0 < isolation then
      state.isolatePages (firstPage + config.pagesPerSector) isolation
    else state
  state.erase sector

/-- The loop of `collect_garbage(GC_GREEDY)` from a sector on, over `count`
sectors.  Without a result it does not end. -/
def collectFrom : Nat → Nat → SectorWalk → Coffee config →
    Option (Coffee config)
  | 0, _, _, state => some state
  | count + 1, sector, walk, state =>
      match getSectorStatus config state.medium sector walk with
      | none => none
      | some (status, isolation, walk) =>
          collectFrom count (sector + 1) walk
            (if status.active = 0 ∧ 0 < status.obsolete then
              state.collectSector sector isolation
            else state)

/-- `collect_garbage(GC_GREEDY)` -/
def collectGarbage (state : Coffee config) : Option (Coffee config) :=
  collectFrom config.sectorCount 0
    { skipPages := 0, lastPagesAreActive := false } state

/-! ## Files -/

/-- The place in `coffee_files` that `load_file` takes: the first free one, or
else the last one without references. -/
def loadPlace (state : Coffee config) : Option (Fin config.maxOpenFiles) :=
  let places := List.finRange config.maxOpenFiles
  match places.find? fun place => (state.files place).maxPages = 0 with
  | some free => some free
  | none => places.reverse.find? fun place =>
      (state.files place).references = 0

/-- `load_file` -/
def loadFile (state : Coffee config) (start : Nat) (hdr : FileHeader) :
    Coffee config × Option (Fin config.maxOpenFiles) :=
  match state.loadPlace with
  | none => (state, none)
  | some place =>
      let file := { state.files place with
        page := start
        fileEnd := -1
        maxPages := hdr.maxPages
        modified := hdr.modified
        recordCount := -1 }
      ({ state with files := Function.update state.files place file },
        some place)

/-- The header is that of the file with the name. -/
def isFileNamed (name : List UInt8) (hdr : FileHeader) : Bool :=
  hdr.isActive ∧ ¬ hdr.log ∧ hdr.name = name

/-- `find_file` -/
def findFile (state : Coffee config) (name : List UInt8) :
    Option (Coffee config × Option (Fin config.maxOpenFiles)) :=
  let cached := (List.finRange config.maxOpenFiles).find? fun place =>
    (state.files place).maxPages ≠ 0 ∧
      isFileNamed name (state.medium (state.files place).page).hdr
  match cached with
  | some place => some (state, some place)
  | none =>
      match walkTo config state.medium (isFileNamed name) 0 with
      | none => none
      | some none => some (state, none)
      | some (some page) =>
          some (state.loadFile page (state.medium page).hdr)

/-- The loop of `find_contiguous_pages` from `page` on, where free pages
begin at `start`. -/
def contiguousFrom (config : CoffeeConfig) (medium : Nat → PageStart)
    (amount page : Nat) (start : Option Nat) : Option (Option Nat) :=
  if page < config.pages then
    let hdr := (medium page).hdr
    if hdr.isFree ∧ start = none ∧ config.pages ≤ page + amount then
      some none
    else
      match walkOn config medium page with
      | none => none
      | some next =>
          if hdr.isFree then
            if start.getD page + amount ≤ next.val then
              some (some (start.getD page))
            else
              contiguousFrom config medium amount next.val
                (some (start.getD page))
          else contiguousFrom config medium amount next.val none
  else some none
termination_by config.pages - page
decreasing_by
  all_goals
    have := next.property
    omega

/-- `find_contiguous_pages` -/
def findContiguousPages (state : Coffee config) (amount : Nat) :
    Option (Coffee config × Option Nat) :=
  match contiguousFrom config state.medium amount state.nextFree none with
  | none => none
  | some none => some (state, none)
  | some (some start) =>
      some (if start = state.nextFree then
          { state with nextFree := start + amount }
        else state, some start)

/-- The header that `reserve` writes. -/
def newHeader (config : CoffeeConfig) (name : List UInt8) (pages : Nat)
    (log : Bool) : FileHeader :=
  { FileHeader.zero with
    name := name.take (config.nameLength - 1)
    maxPages := pages
    allocated := true
    log := log }

/-- The end of `reserve`, with the pages for the file. -/
def reserveAt (state : Coffee config) (name : List UInt8)
    (pages page : Nat) (log : Bool) :
    Coffee config × Option (Fin config.maxOpenFiles) :=
  let hdr := newHeader config name pages log
  match (state.writeHeader page hdr).loadFile page hdr with
  | (state, none) => (state, none)
  | (state, some place) =>
      ({ state with
        files := Function.update state.files place
          { state.files place with fileEnd := 0 } }, some place)

/-- `reserve` after garbage collection. -/
def reserveCollected (state : Coffee config) (name : List UInt8)
    (pages : Nat) (log : Bool) :
    Option (Coffee config × Option (Fin config.maxOpenFiles)) :=
  match state.findContiguousPages pages with
  | none => none
  | some (state, some page) => some (state.reserveAt name pages page log)
  | some (state, none) => some ({ state with gcWait := true }, none)

/-- `reserve` for a name that may be used. -/
def reserveNew (state : Coffee config) (name : List UInt8) (pages : Nat)
    (log : Bool) :
    Option (Coffee config × Option (Fin config.maxOpenFiles)) :=
  match state.findContiguousPages pages with
  | none => none
  | some (state, some page) => some (state.reserveAt name pages page log)
  | some (state, none) =>
      if state.gcWait then some (state, none)
      else
        match state.collectGarbage with
        | none => none
        | some state => state.reserveCollected name pages log

/-- `reserve` -/
def reserve (state : Coffee config) (name : List UInt8) (pages : Nat)
    (allowDuplicates log : Bool) :
    Option (Coffee config × Option (Fin config.maxOpenFiles)) :=
  if allowDuplicates then state.reserveNew name pages log
  else
    match state.findFile name with
    | none => none
    | some (state, some _) => some (state, none)
    | some (state, none) => state.reserveNew name pages log

/-! ## The interface -/

/-- `get_available_fd` -/
def getAvailableFd (state : Coffee config) : Option (Fin config.fdSetSize) :=
  (List.finRange config.fdSetSize).find? fun fd =>
    (state.fdSet fd).flags = coffeeFdFree

def openFd (state : Coffee config) (fd : Fin config.fdSetSize)
    (place : Fin config.maxOpenFiles) (flags : UInt8) : Coffee config :=
  let file := state.files place
  { state with
    fdSet := Function.update state.fdSet fd
      { offset := if flags &&& cfsAppend ≠ 0 then file.fileEnd else 0
        file := some place
        flags := flags }
    files := Function.update state.files place
      { file with references := file.references + 1 } }

def clearFd (state : Coffee config) (fd : Fin config.fdSetSize) :
    Coffee config :=
  { state with
    fdSet := Function.update state.fdSet fd
      { state.fdSet fd with file := none, flags := 0 } }

/-- `cfs_open`; `fileEnd` is what `file_end` finds at a page. -/
def cfsOpen (state : Coffee config) (fileEnd : Nat → Int)
    (name : List UInt8) (flags : UInt8) :
    Option (Coffee config × Option (Fin config.fdSetSize)) :=
  match state.getAvailableFd with
  | none => some (state, none)
  | some fd =>
      match state.findFile name with
      | none => none
      | some (state, some place) =>
          let file := state.files place
          let file :=
            if file.fileEnd = -1 then
              { file with fileEnd := fileEnd file.page }
            else file
          some (openFd { state with
            files := Function.update state.files place file } fd place flags,
            some fd)
      | some (state, none) =>
          if flags &&& (cfsRead ||| cfsWrite) = cfsRead then
            some (state.clearFd fd, none)
          else
            match state.reserve name (config.pageCount config.dynSize) true
                false with
            | none => none
            | some (state, none) => some (state.clearFd fd, none)
            | some (state, some place) =>
                some (openFd { state with
                  files := Function.update state.files place
                    { state.files place with fileEnd := 0 } } fd place flags,
                  some fd)

/-- `cfs_coffee_reserve`, and whether it returns 0. -/
def cfsCoffeeReserve (state : Coffee config) (name : List UInt8)
    (size : Int) : Option (Coffee config × Bool) :=
  (state.reserve name (config.pageCount size) false false).map
    fun (state, place) => (state, place.isSome)

end Coffee

end Contiki.Cfs
