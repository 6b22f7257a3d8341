import Mathlib.Data.List.Induction
import Contiki.Llsec.SecureRoundTrip

/-!
# Replays

The neighbour tables of a node are used by all its modules.  Over every
sequence of received frames and of operations on the other tables, the counter
of a sender that has been heard is kept, and a frame is passed up at most
once.
-/

namespace Contiki.Llsec

open Contiki.Net

variable {maxNeighbors : Nat} {Table Others : Type}

/-- The modules with a neighbour table.  Only noncoresec touches the
anti-replay information, and a callback clears no locks of other tables. -/
structure Neighbors (maxNeighbors : Nat) (Table Others : Type) extends
    Tables maxNeighbors Table (List UInt8)
      (TableData maxNeighbors Others) where
  antiReplayTable : Table
  clearOwn : ∀ item other client, other ≠ item →
    (clear antiReplayTable item client).antiReplayTable other =
      client.antiReplayTable other
  clearOther : ∀ table item client, table ≠ antiReplayTable →
    (clear table item client).antiReplayTable = client.antiReplayTable
  callbackInfo : ∀ table item tables, table ≠ antiReplayTable →
    (callback table item tables).client.antiReplayTable =
      tables.client.antiReplayTable
  lockedOther : ∀ table item tables other bit,
    bit ≠ (tables.index table).val →
    ((callback table item tables).lockedMap other).getLsbD bit =
      (tables.lockedMap other).getLsbD bit

variable (modules : Neighbors maxNeighbors Table Others)

/-! ## The items of noncoresec -/

/-- An item of the table of anti-replay information is in use. -/
def Uses (tables : NodeTables maxNeighbors Table Others)
    (item : Fin maxNeighbors) : Prop :=
  (tables.usedMap item).getLsbD (tables.index modules.antiReplayTable) = true

/-- An item of the table of anti-replay information is locked. -/
def Locks (tables : NodeTables maxNeighbors Table Others)
    (item : Fin maxNeighbors) : Prop :=
  (tables.lockedMap item).getLsbD
    (tables.index modules.antiReplayTable) = true

/-- The neighbour tables when noncoresec is running: its items are
locked. -/
structure Ready (tables : NodeTables maxNeighbors Table Others) : Prop where
  keys : tables.KeysOk
  once : tables.RegisteredOnce
  registered : ∃ place,
    tables.allTables place = some modules.antiReplayTable
  noCallback : tables.hasCallback modules.antiReplayTable = false
  locked : ∀ item, Uses modules tables item → Locks modules tables item

/-- The items in use stay with their addresses, and the counters do not
fall. -/
structure Grows (before after : NodeTables maxNeighbors Table Others) :
    Prop where
  used : ∀ item, Uses modules before item → Uses modules after item
  lladdr : ∀ item, Uses modules before item →
    after.lladdr item = before.lladdr item
  last : ∀ item, Uses modules before item → ∀ broadcast,
    (NodeTables.info before item).last broadcast ≤
      (NodeTables.info after item).last broadcast

variable {modules}

theorem Grows.refl (tables : NodeTables maxNeighbors Table Others) :
    Grows modules tables tables :=
  ⟨fun _ => id, fun _ _ => rfl, fun _ _ _ => Nat.le_refl _⟩

theorem Grows.trans
    {first second third : NodeTables maxNeighbors Table Others}
    (left : Grows modules first second)
    (right : Grows modules second third) : Grows modules first third where
  used := fun item isUsed => right.used item (left.used item isUsed)
  lladdr := fun item isUsed =>
    (right.lladdr item (left.used item isUsed)).trans
      (left.lladdr item isUsed)
  last := fun item isUsed broadcast =>
    Nat.le_trans (left.last item isUsed broadcast)
      (right.last item (left.used item isUsed) broadcast)

theorem index_ne {tables : NodeTables maxNeighbors Table Others}
    (once : tables.RegisteredOnce)
    (registered : ∃ place,
      tables.allTables place = some modules.antiReplayTable)
    {table : Table} (other : table ≠ modules.antiReplayTable)
    (isRegistered : ∃ place, tables.allTables place = some table) :
    (tables.index modules.antiReplayTable).val ≠
      (tables.index table).val := by
  rcases registered with ⟨ownPlace, isOwn⟩
  rcases isRegistered with ⟨place, isPlace⟩
  intro same
  have places : ownPlace = place := by
    rw [← (once ownPlace _ isOwn).1, ← (once place _ isPlace).1]
    exact Fin.ext same
  rw [places, isPlace] at isOwn
  exact other (Option.some.inj isOwn)

/-! ## Callbacks -/

variable (modules)

/-- Nothing of noncoresec is changed. -/
structure Untouched (before after : NodeTables maxNeighbors Table Others) :
    Prop where
  clears : NbrTables.ClearsBits before after
  used : ∀ item, Uses modules after item ↔ Uses modules before item
  locked : ∀ item, Locks modules after item ↔ Locks modules before item
  info : ∀ item, NodeTables.info after item = NodeTables.info before item

variable {modules}

theorem Untouched.refl (tables : NodeTables maxNeighbors Table Others) :
    Untouched modules tables tables :=
  ⟨NbrTables.ClearsBits.refl tables, fun _ => Iff.rfl, fun _ => Iff.rfl,
    fun _ => rfl⟩

theorem Untouched.trans
    {first second third : NodeTables maxNeighbors Table Others}
    (left : Untouched modules first second)
    (right : Untouched modules second third) :
    Untouched modules first third where
  clears := left.clears.trans right.clears
  used := fun item => (right.used item).trans (left.used item)
  locked := fun item => (right.locked item).trans (left.locked item)
  info := fun item => (right.info item).trans (left.info item)

theorem Untouched.ready {before after : NodeTables maxNeighbors Table Others}
    (untouched : Untouched modules before after)
    (ready : Ready modules before) : Ready modules after where
  keys := ready.keys.clearsBits untouched.clears
  once := untouched.clears.registeredOnce ready.once
  registered := by
    rw [untouched.clears.allTables]
    exact ready.registered
  noCallback := by
    rw [untouched.clears.hasCallback]
    exact ready.noCallback
  locked := fun item isUsed => (untouched.locked item).mpr
    (ready.locked item ((untouched.used item).mp isUsed))

theorem Untouched.grows {before after : NodeTables maxNeighbors Table Others}
    (untouched : Untouched modules before after) :
    Grows modules before after where
  used := fun item => (untouched.used item).mpr
  lladdr := fun item _ => congrFun untouched.clears.lladdr item
  last := fun item _ broadcast => by
    rw [untouched.info item]

variable {tables : NodeTables maxNeighbors Table Others}

theorem callBack_untouched
    (ready : Ready modules tables) (key : Fin maxNeighbors)
    (place : Fin maxNumTables) :
    Untouched modules tables
      (NbrTables.callBack modules.toTables key tables place) := by
  have clears := NbrTables.clearsBits_callBack modules.toTables key tables
    place
  unfold NbrTables.callBack at clears ⊢
  cases isTable : tables.allTables place with
  | none => exact Untouched.refl tables
  | some table =>
      rw [isTable] at clears
      dsimp only at clears ⊢
      by_cases called : tables.hasCallback table ∧
          tables.nbrGetBit tables.usedMap table (some key)
      case neg =>
        rw [if_neg called]
        exact Untouched.refl tables
      case pos =>
        rw [if_pos called] at clears ⊢
        have other : table ≠ modules.antiReplayTable := by
          rintro rfl
          rw [ready.noCallback] at called
          exact Bool.noConfusion called.1
        have bit := index_ne ready.once ready.registered other
          ⟨place, isTable⟩
        have own := modules.own table key
          { tables with calls := tables.calls ++ [(table, key)] }
        constructor
        case clears => exact clears
        case used =>
          intro item
          unfold Uses
          rw [own.index, own.usedOther item _ bit]
        case locked =>
          intro item
          unfold Locks
          rw [own.index, modules.lockedOther table key
            { tables with calls := tables.calls ++ [(table, key)] } item _
            bit]
        case info =>
          intro item
          exact congrFun (modules.callbackInfo table key _ other) item

theorem callBacks_untouched
    (ready : Ready modules tables) (key : Fin maxNeighbors)
    (places : List (Fin maxNumTables)) :
    Untouched modules tables
      (places.foldl (NbrTables.callBack modules.toTables key) tables) := by
  induction places generalizing tables with
  | nil => exact Untouched.refl tables
  | cons place rest inductionHypothesis =>
      have first := callBack_untouched ready key place
      exact first.trans (inductionHypothesis (first.ready ready))

/-! ## Adding an address -/

/-- A key is found for an address, and the items in use stay. -/
theorem findsKey_ready {tables found : NodeTables maxNeighbors Table Others}
    (ready : Ready modules tables) {lladdr : List UInt8}
    {key : Fin maxNeighbors}
    (finds : NbrTables.FindsKey modules.toTables tables lladdr key found) :
    Ready modules found ∧ Grows modules tables found ∧
      (Uses modules found key → Uses modules tables key ∧
        tables.lladdr key = lladdr) := by
  have keysOk := (finds.keysOk modules.toTables ready.keys).1
  cases finds with
  | listed member address =>
      exact ⟨ready, Grows.refl tables, fun isUsed => ⟨isUsed, address⟩⟩
  | free unknown unused =>
      have unlisted : ¬ Uses modules tables key := by
        intro isUsed
        have listed := ready.keys.used key _ isUsed
        exact unused ((ready.keys.mem_iff key).mp listed)
      refine ⟨⟨keysOk, ready.once, ready.registered, ready.noCallback,
        ready.locked⟩, ⟨fun _ => id, ?_, fun _ _ _ => Nat.le_refl _⟩,
        fun isUsed => absurd isUsed unlisted⟩
      intro item isUsed
      apply Function.update_of_ne
      rintro rfl
      exact unlisted isUsed
  | evicted unknown member unlocked told isTold =>
      have untouched : Untouched modules tables told := by
        rw [isTold]
        exact callBacks_untouched ready key _
      have toldReady := untouched.ready ready
      have unused : ¬ Uses modules tables key := by
        intro isUsed
        have isLocked := ready.locked key isUsed
        rw [Locks, unlocked] at isLocked
        simp at isLocked
      have others : ∀ item, Uses modules tables item → item ≠ key := by
        rintro item isUsed rfl
        exact unused isUsed
      have kept : ∀ item, item ≠ key → Function.update told.usedMap key 0
          item = told.usedMap item := fun item different =>
        Function.update_of_ne different _ _
      refine ⟨⟨keysOk, toldReady.once, toldReady.registered,
        toldReady.noCallback, ?_⟩, ⟨?_, ?_, ?_⟩, ?_⟩
      · intro item isUsed
        change ((Function.update told.usedMap key 0) item).getLsbD _ = true
          at isUsed
        by_cases same : item = key
        case pos =>
          rw [same, Function.update_self] at isUsed
          simp at isUsed
        case neg =>
          rw [kept item same] at isUsed
          exact toldReady.locked item isUsed
      · intro item isUsed
        change ((Function.update told.usedMap key 0) item).getLsbD _ = true
        rw [kept item (others item isUsed)]
        exact (untouched.used item).mpr isUsed
      · intro item isUsed
        exact (Function.update_of_ne (others item isUsed) _ _).trans
          (congrFun untouched.clears.lladdr item)
      · intro item isUsed broadcast
        exact untouched.grows.last item isUsed broadcast
      · intro isUsed
        change ((Function.update told.usedMap key 0) key).getLsbD _ = true
          at isUsed
        rw [Function.update_self] at isUsed
        simp at isUsed

theorem useItem_ready (ready : Ready modules tables) {table : Table}
    (other : table ≠ modules.antiReplayTable)
    (isRegistered : ∃ place, tables.allTables place = some table)
    {item : Fin maxNeighbors} (listed : item ∈ tables.nbrTableKeys) :
    Ready modules (tables.useItem modules.toTables table item) ∧
      Grows modules tables (tables.useItem modules.toTables table item) := by
  have bit := index_ne ready.once ready.registered other isRegistered
  have uses : ∀ used, Uses modules
      (tables.useItem modules.toTables table item) used ↔
        Uses modules tables used := by
    intro used
    unfold Uses
    change ((tables.nbrSetBit tables.usedMap table (some item) true).2
      used).getLsbD _ = true ↔ _
    rw [NbrTables.getLsbD_nbrSetBit, if_neg fun both => bit both.2]
    rfl
  have info : ∀ used, NodeTables.info
      (tables.useItem modules.toTables table item) used =
        NodeTables.info tables used := fun used =>
    congrFun (modules.clearOther table item tables.client other) used
  constructor
  · exact ⟨ready.keys.useItem modules.toTables table listed, ready.once,
      ready.registered, ready.noCallback,
      fun used isUsed => ready.locked used ((uses used).mp isUsed)⟩
  · exact ⟨fun used => (uses used).mpr, fun _ _ => rfl,
      fun used _ broadcast => by rw [info used]⟩

theorem addLladdr_ready (ready : Ready modules tables) {table : Table}
    (other : table ≠ modules.antiReplayTable)
    (isRegistered : ∃ place, tables.allTables place = some table)
    (lladdr : Option (List UInt8)) :
    Ready modules
        (tables.nbrTableAddLladdr modules.toTables table lladdr).2 ∧
      Grows modules tables
        (tables.nbrTableAddLladdr modules.toTables table lladdr).2 := by
  rcases NbrTables.nbrTableAddLladdr_cases modules.toTables tables table
    lladdr with ⟨key, found, finds, added⟩ | full
  · rw [added]
    have foundReady := findsKey_ready ready finds
    have listed := (finds.keysOk modules.toTables ready.keys).2.1
    have sameTables : found.allTables = tables.allTables := by
      cases finds with
      | listed => rfl
      | free => rfl
      | evicted _ _ _ told isTold =>
          rw [isTold]
          exact (NbrTables.clearsBits_callBacks modules.toTables key tables
            _).allTables
    rw [← sameTables] at isRegistered
    have used := useItem_ready foundReady.1 other isRegistered listed
    exact ⟨used.1, foundReady.2.1.trans used.2⟩
  · rw [full]
    exact ⟨ready, Grows.refl tables⟩

/-! ## Operations on other tables -/

variable (modules) in
/-- Another module registers its table, or uses it after that. -/
def Allowed (tables : NodeTables maxNeighbors Table Others) :
    NbrTables.Operation maxNeighbors Table (List UInt8) → Prop
  | .register table _ => ∀ place, tables.allTables place ≠ some table
  | .addLladdr table _ | .remove table _ | .lock table _ | .unlock table _ =>
      table ≠ modules.antiReplayTable ∧
        ∃ place, tables.allTables place = some table

theorem setBit_other (ready : Ready modules tables) {table : Table}
    (allowed : table ≠ modules.antiReplayTable ∧
      ∃ place, tables.allTables place = some table)
    (bitmap : Fin maxNeighbors → BitVec 8) (item : Option (Fin maxNeighbors))
    (value : Bool) (used : Fin maxNeighbors) :
    ((tables.nbrSetBit bitmap table item value).2 used).getLsbD
        (tables.index modules.antiReplayTable) =
      (bitmap used).getLsbD (tables.index modules.antiReplayTable) := by
  have bit := index_ne ready.once ready.registered allowed.1 allowed.2
  cases item with
  | none => rfl
  | some item =>
      rw [NbrTables.getLsbD_nbrSetBit, if_neg fun both => bit both.2]

theorem ready_of_bits {before after : NodeTables maxNeighbors Table Others}
    (ready : Ready modules before) (keys : after.KeysOk)
    (once : after.RegisteredOnce)
    (allTables : after.allTables = before.allTables)
    (hasCallback : after.hasCallback = before.hasCallback)
    (lladdr : after.lladdr = before.lladdr)
    (info : ∀ item, NodeTables.info after item = NodeTables.info before item)
    (used : ∀ item, Uses modules after item ↔ Uses modules before item)
    (locked : ∀ item, Locks modules after item ↔
      Locks modules before item) :
    Ready modules after ∧ Grows modules before after := by
  constructor
  · refine ⟨keys, once, ?_, ?_, ?_⟩
    · rw [allTables]
      exact ready.registered
    · rw [hasCallback]
      exact ready.noCallback
    · intro item isUsed
      exact (locked item).mpr (ready.locked item ((used item).mp isUsed))
  · refine ⟨fun item => (used item).mpr, fun item _ => congrFun lladdr item,
      ?_⟩
    intro item _ broadcast
    rw [info item]

variable [DecidableEq Table]

theorem register_ready {tables : NodeTables maxNeighbors Table Others}
    (ready : Ready modules tables) {table : Table}
    (new : ∀ place, tables.allTables place ≠ some table)
    (hasCallback : Bool) :
    Ready modules (tables.nbrTableRegister table hasCallback).2 ∧
      Grows modules tables (tables.nbrTableRegister table hasCallback).2 := by
  have keys := ready.keys.step modules.toTables (.register table hasCallback)
  have once := NbrTables.RegisteredOnce.step modules.toTables ready.once
    (show tables.RegistersNew (.register table hasCallback) from new)
  change (tables.nbrTableRegister table hasCallback).2.KeysOk at keys
  change (tables.nbrTableRegister table hasCallback).2.RegisteredOnce at once
  rcases ready.registered with ⟨place, isOwn⟩
  have other : modules.antiReplayTable ≠ table := by
    rintro rfl
    exact new place isOwn
  unfold NbrTables.nbrTableRegister at keys once ⊢
  by_cases room : tables.numTables < maxNumTables
  case neg =>
    rw [dif_neg room]
    exact ⟨ready, Grows.refl tables⟩
  case pos =>
    rw [dif_pos room] at keys once ⊢
    dsimp only at keys once ⊢
    have index : Function.update tables.index table
        (⟨tables.numTables, room⟩ : Fin maxNumTables)
          modules.antiReplayTable = tables.index modules.antiReplayTable :=
      Function.update_of_ne other _ _
    have elsewhere : place ≠ ⟨tables.numTables, room⟩ := by
      rintro rfl
      exact Nat.lt_irrefl _ (ready.once _ _ isOwn).2
    constructor
    · refine ⟨keys, once, ⟨place, ?_⟩, ?_, ?_⟩
      · exact (Function.update_of_ne elsewhere _ _).trans isOwn
      · exact (Function.update_of_ne other _ _).trans ready.noCallback
      · intro item isUsed
        unfold Uses at isUsed
        unfold Locks
        dsimp only at isUsed ⊢
        rw [index] at isUsed ⊢
        exact ready.locked item isUsed
    · refine ⟨?_, fun _ _ => rfl, fun _ _ _ => Nat.le_refl _⟩
      intro item isUsed
      unfold Uses
      dsimp only
      rw [index]
      exact isUsed

theorem operation_ready {tables : NodeTables maxNeighbors Table Others}
    (ready : Ready modules tables)
    {operation : NbrTables.Operation maxNeighbors Table (List UInt8)}
    (allowed : Allowed modules tables operation) :
    Ready modules (tables.step modules.toTables operation) ∧
      Grows modules tables (tables.step modules.toTables operation) := by
  have keys := ready.keys.step modules.toTables operation
  cases operation with
  | register table hasCallback =>
      exact register_ready ready allowed hasCallback
  | addLladdr table lladdr =>
      exact addLladdr_ready ready allowed.1 allowed.2 lladdr
  | remove table item =>
      apply ready_of_bits ready keys ready.once rfl rfl rfl fun _ => rfl
      · intro used
        exact Bool.eq_iff_iff.mp
          (setBit_other ready allowed tables.usedMap item false used)
      · intro used
        exact Bool.eq_iff_iff.mp
          (setBit_other ready allowed tables.lockedMap item false used)
  | lock table item =>
      apply ready_of_bits ready keys ready.once rfl rfl rfl fun _ => rfl
      · exact fun _ => Iff.rfl
      · intro used
        exact Bool.eq_iff_iff.mp
          (setBit_other ready allowed tables.lockedMap item true used)
  | unlock table item =>
      apply ready_of_bits ready keys ready.once rfl rfl rfl fun _ => rfl
      · exact fun _ => Iff.rfl
      · intro used
        exact Bool.eq_iff_iff.mp
          (setBit_other ready allowed tables.lockedMap item false used)

/-! ## Frames -/

/-- A frame that has been passed up. -/
structure Passed where
  sender : List UInt8
  counter : Nat
  broadcast : Bool
  deriving DecidableEq

/-- What makes a frame a replay of another one. -/
def Passed.ofFrame (config : LlsecConfig) (buf : Frame) : Passed where
  sender := linkaddr config buf .sender
  counter := antiReplayGetCounter buf
  broadcast := holdsBroadcast config buf

variable (modules) in
/-- The counter of a frame is not above the last one of its sender. -/
def Known (tables : NodeTables maxNeighbors Table Others) (entry : Passed) :
    Prop :=
  ∃ item, Uses modules tables item ∧ tables.lladdr item = entry.sender ∧
    entry.counter ≤ (NodeTables.info tables item).last entry.broadcast

omit [DecidableEq Table] in
theorem Known.grows {before after : NodeTables maxNeighbors Table Others}
    {entry : Passed} (known : Known modules before entry)
    (grows : Grows modules before after) : Known modules after entry := by
  rcases known with ⟨item, isUsed, sender, counter⟩
  exact ⟨item, grows.used item isUsed,
    (grows.lladdr item isUsed).trans sender,
    Nat.le_trans counter (grows.last item isUsed _)⟩

omit [DecidableEq Table] in
theorem getFromLladdr_eq_some {tables : NodeTables maxNeighbors Table Others}
    (ready : Ready modules tables) (sender : List UInt8)
    (item : Fin maxNeighbors) :
    tables.nbrTableGetFromLladdr modules.toTables modules.antiReplayTable
        (some sender) = some item ↔
      Uses modules tables item ∧ tables.lladdr item = sender := by
  unfold NbrTables.nbrTableGetFromLladdr
  dsimp only
  constructor
  · intro isItem
    split at isItem
    case isTrue used =>
      rw [isItem] at used
      refine ⟨used, ?_⟩
      have same := List.find?_some isItem
      exact (of_decide_eq_true same).symm
    case isFalse => cases isItem
  · rintro ⟨isUsed, address⟩
    have index : tables.indexFromLladdr modules.toTables (some sender) =
        some item :=
      ready.keys.indexFromLladdr modules.toTables
        (ready.keys.used item _ isUsed) address
    rw [index]
    exact if_pos isUsed

omit [DecidableEq Table] in
theorem newSender_ready {found : NodeTables maxNeighbors Table Others}
    (ready : Ready modules found) {key : Fin maxNeighbors}
    (listed : key ∈ found.nbrTableKeys) (unused : ¬ Uses modules found key)
    (info : AntiReplayInfo) :
    let later := NodeTables.setInfo ((found.useItem modules.toTables
      modules.antiReplayTable key).nbrTableLock modules.antiReplayTable
        (some key)).2 key info
    Ready modules later ∧ Grows modules found later ∧
      Uses modules later key ∧ later.lladdr = found.lladdr ∧
      NodeTables.info later key = info := by
  intro later
  have keys := ready.keys.useItem modules.toTables modules.antiReplayTable
    listed
  have uses : ∀ item, Uses modules later item ↔
      item = key ∨ Uses modules found item := by
    intro item
    unfold Uses
    change ((found.nbrSetBit found.usedMap modules.antiReplayTable
      (some key) true).2 item).getLsbD (found.index _) = true ↔ _
    rw [NbrTables.getLsbD_nbrSetBit]
    by_cases same : item = key <;> simp [same]
  have locks : ∀ item, Locks modules later item ↔
      item = key ∨ Locks modules found item := by
    intro item
    unfold Locks
    change ((found.nbrSetBit found.lockedMap modules.antiReplayTable
      (some key) true).2 item).getLsbD (found.index _) = true ↔ _
    rw [NbrTables.getLsbD_nbrSetBit]
    by_cases same : item = key <;> simp [same]
  have isInfo : NodeTables.info later key = info := if_pos rfl
  have kept : ∀ item, Uses modules found item →
      NodeTables.info later item = NodeTables.info found item := by
    intro item isUsed
    have different : item ≠ key := by
      rintro rfl
      exact unused isUsed
    exact (if_neg different).trans
      (modules.clearOwn key item found.client different)
  refine ⟨⟨⟨keys.nodup, keys.mem_iff, keys.lladdr, keys.used⟩, ready.once,
    ready.registered, ready.noCallback, ?_⟩, ⟨?_, fun _ _ => rfl, ?_⟩,
    (uses key).mpr (Or.inl rfl), rfl, isInfo⟩
  · intro item isUsed
    exact (locks item).mpr (((uses item).mp isUsed).imp_right
      (ready.locked item))
  · exact fun item isUsed => (uses item).mpr (Or.inr isUsed)
  · intro item isUsed broadcast
    rw [kept item isUsed]

theorem AntiReplayInfo.wasReplayed_last (info : AntiReplayInfo)
    {broadcast : Bool} {counter : Nat}
    (fresh : ¬ counter ≤ info.last broadcast) (cast : Bool) :
    (info.wasReplayed broadcast counter).2.last cast =
      if cast = broadcast then counter else info.last cast := by
  unfold wasReplayed last
  cases broadcast
  case false =>
    have above : ¬ counter ≤ info.lastUnicastCounter := fresh
    cases cast <;> simp [above]
  case true =>
    have above : ¬ counter ≤ info.lastBroadcastCounter := fresh
    cases cast <;> simp [above]

omit [DecidableEq Table] in
/-- The anti-replay information passes a frame that is not known, and then
it is. -/
theorem antiReplay_spec (config : LlsecConfig) (buf : Frame)
    {tables : NodeTables maxNeighbors Table Others}
    (ready : Ready modules tables) :
    let result := antiReplay config modules.toTables modules.antiReplayTable
      buf tables
    Ready modules result.1 ∧ Grows modules tables result.1 ∧
      (result.2 = true →
        ¬ Known modules tables (Passed.ofFrame config buf) ∧
        Known modules result.1 (Passed.ofFrame config buf)) := by
  have get := getFromLladdr_eq_some ready (linkaddr config buf .sender)
  unfold antiReplay
  dsimp only
  cases isItem : tables.nbrTableGetFromLladdr modules.toTables
      modules.antiReplayTable (some (linkaddr config buf .sender)) with
  | none =>
      have unknown : ∀ item, Uses modules tables item →
          tables.lladdr item ≠ linkaddr config buf .sender := by
        intro item isUsed address
        have isKnown := (get item).mpr ⟨isUsed, address⟩
        rw [isItem] at isKnown
        cases isKnown
      rcases NbrTables.nbrTableAddLladdr_cases modules.toTables tables
        modules.antiReplayTable (some (linkaddr config buf .sender)) with
          ⟨key, found, finds, added⟩ | full
      · rw [added]
        have foundReady := findsKey_ready ready finds
        have keysOk := finds.keysOk modules.toTables ready.keys
        have unused : ¬ Uses modules found key := by
          intro isUsed
          have wasUsed := foundReady.2.2 isUsed
          exact unknown key wasUsed.1 wasUsed.2
        have item := newSender_ready foundReady.1 keysOk.2.1 unused
          (.init (antiReplayGetCounter buf))
        refine ⟨item.1, foundReady.2.1.trans item.2.1, fun _ => ⟨?_, ?_⟩⟩
        · rintro ⟨known, isUsed, sender, _⟩
          exact unknown known isUsed sender
        · refine ⟨key, item.2.2.1, ?_, ?_⟩
          · exact (congrFun item.2.2.2.1 key).trans keysOk.2.2
          · refine Nat.le_of_eq ?_
            change _ = AntiReplayInfo.last (NodeTables.info
              (NodeTables.setInfo _ key _) key) _
            rw [item.2.2.2.2]
            unfold AntiReplayInfo.last AntiReplayInfo.init Passed.ofFrame
            split <;> rfl
      · rw [full]
        exact ⟨ready, Grows.refl tables, fun passed => by cases passed⟩
  | some item =>
      have isKnown := (get item).mp isItem
      have isReplay := (NodeTables.info tables item).wasReplayed_iff
        (holdsBroadcast config buf) (antiReplayGetCounter buf)
      dsimp only
      by_cases replayed : antiReplayGetCounter buf ≤
          (NodeTables.info tables item).last (holdsBroadcast config buf)
      case pos =>
        rw [if_pos (isReplay.mpr replayed)]
        exact ⟨ready, Grows.refl tables, fun passed => by cases passed⟩
      case neg =>
        rw [if_neg fun isTrue => replayed (isReplay.mp isTrue)]
        have last := (NodeTables.info tables item).wasReplayed_last replayed
        have isInfo : ∀ info, NodeTables.info
            (NodeTables.setInfo tables item info) item = info :=
          fun info => if_pos rfl
        refine ⟨⟨⟨ready.keys.nodup, ready.keys.mem_iff, ready.keys.lladdr,
          ready.keys.used⟩, ready.once, ready.registered, ready.noCallback,
          ready.locked⟩, ⟨fun _ => id, fun _ _ => rfl, ?_⟩,
          fun _ => ⟨?_, ?_⟩⟩
        · intro used _ broadcast
          by_cases same : used = item
          case pos =>
            rw [same, isInfo, last]
            split
            case isTrue isCast =>
              rw [isCast]
              exact Nat.le_of_not_le replayed
            case isFalse => exact Nat.le_refl _
          case neg => exact Nat.le_of_eq (congrArg
            (fun info => AntiReplayInfo.last info broadcast)
            (if_neg same).symm)
        · rintro ⟨known, isUsed, sender, counter⟩
          have same := (get known).mpr ⟨isUsed, sender⟩
          rw [isItem] at same
          rw [← Option.some.inj same] at counter
          exact replayed counter
        · refine ⟨item, isKnown.1, isKnown.2, Nat.le_of_eq ?_⟩
          rw [isInfo, last]
          exact (if_pos rfl).symm

/-! ## Runs -/

/-- A node with the frames that it has passed up. -/
structure Receiver (maxNeighbors : Nat) (Table Others : Type) where
  tables : NodeTables maxNeighbors Table Others
  passed : List Passed

/-- A frame is received, or another module works on its table. -/
inductive Event (maxNeighbors : Nat) (Table : Type) where
  | frame (buf : Frame)
  | operation (operation : NbrTables.Operation maxNeighbors Table (List UInt8))

section Runs

variable (config : LlsecConfig) (encrypt : Block → Block)
  (nodeAddr : List UInt8) (modules)

/-- There is no later state when `input` does not return. -/
def Receiver.step (receiver : Receiver maxNeighbors Table Others) :
    Event maxNeighbors Table → Option (Receiver maxNeighbors Table Others)
  | .frame buf =>
      (input config encrypt modules.toTables modules.antiReplayTable nodeAddr
        receiver.tables buf).map fun result =>
          { tables := result.1
            passed :=
              if result.2.2 then
                receiver.passed ++ [Passed.ofFrame config buf]
              else receiver.passed }
  | .operation operation =>
      some { receiver with
        tables := receiver.tables.step modules.toTables operation }

/-- The other modules use their tables only, once these are registered. -/
def OrderlyRun (receiver : Receiver maxNeighbors Table Others) :
    List (Event maxNeighbors Table) → Prop
  | [] => True
  | event :: rest =>
      (match event with
        | .frame _ => True
        | .operation operation =>
            Allowed modules receiver.tables operation) ∧
      ∀ later, receiver.step modules config encrypt nodeAddr event =
        some later → OrderlyRun later rest

/-- A frame with a wrong code changes nothing, and a frame that is shorter
than the code is rejected as it is. -/
structure Rejects (receiver : Receiver maxNeighbors Table Others)
    (buf : Frame) : Prop where
  nonauthentic : ∀ restored,
    isForUs config nodeAddr buf = true →
    unsecure config encrypt buf = some (restored, false) →
    receiver.step modules config encrypt nodeAddr (.frame buf) =
      some receiver
  short : buf.buflen < config.micLength →
    input config encrypt modules.toTables modules.antiReplayTable nodeAddr
      receiver.tables buf = some (receiver.tables, buf, false)

/-- No frame is passed up twice, and frames are rejected, in every state of a
run. -/
def ProtectedRun (receiver : Receiver maxNeighbors Table Others) :
    List (Event maxNeighbors Table) → Prop
  | [] => receiver.passed.Nodup
  | event :: rest =>
      receiver.passed.Nodup ∧
      (match event with
        | .frame buf =>
            Rejects modules config encrypt nodeAddr receiver buf
        | .operation _ => True) ∧
      ∀ later, receiver.step modules config encrypt nodeAddr event =
        some later → ProtectedRun later rest

/-- Each frame for the node has at least the bytes of the code. -/
def LongRun (receiver : Receiver maxNeighbors Table Others) :
    List (Event maxNeighbors Table) → Prop
  | [] => True
  | event :: rest =>
      (match event with
        | .frame buf =>
            isForUs config nodeAddr buf = true →
              config.micLength ≤ buf.buflen
        | .operation _ => True) ∧
      ∀ later, receiver.step modules config encrypt nodeAddr event =
        some later → LongRun later rest

variable {config encrypt nodeAddr modules}

variable (modules) in
/-- The frames that have been passed up are known, and they are
different. -/
structure Guarded (receiver : Receiver maxNeighbors Table Others) : Prop where
  ready : Ready modules receiver.tables
  known : ∀ entry ∈ receiver.passed, Known modules receiver.tables entry
  nodup : receiver.passed.Nodup

omit [DecidableEq Table] in
/-- The packet buffer keeps the attributes and the addresses of a frame, and
its length is that without the code. -/
theorem unsecure_frame {buf restored : Frame} {authentic : Bool}
    (isRestored : unsecure config encrypt buf = some (restored, authentic)) :
    restored.attrs = buf.attrs ∧ restored.addrs = buf.addrs ∧
      restored.buflen = (cutMic config buf).buflen := by
  unfold unsecure at isRestored
  dsimp only at isRestored
  rcases Option.bind_eq_some_iff.mp isRestored with
    ⟨decrypted, isDecrypted, isMapped⟩
  rcases Option.map_eq_some_iff.mp isMapped with ⟨code, _, same⟩
  rw [← (Prod.mk.inj same).1]
  split at isDecrypted
  case isTrue =>
    unfold ctr at isDecrypted
    rcases Option.map_eq_some_iff.mp isDecrypted with ⟨memory, _, isBuf⟩
    rw [← isBuf]
    exact ⟨rfl, rfl, rfl⟩
  case isFalse =>
    rw [← Option.some.inj isDecrypted]
    exact ⟨rfl, rfl, rfl⟩

omit [DecidableEq Table] in
/-- What `input` does with a frame that it finishes. -/
theorem input_cases {tables : NodeTables maxNeighbors Table Others}
    {buf : Frame} {result : NodeTables maxNeighbors Table Others ×
      Frame × Bool}
    (isInput : input config encrypt modules.toTables modules.antiReplayTable
      nodeAddr tables buf = some result) :
    (result.1 = tables ∧ result.2.2 = false) ∨
      ∃ restored, unsecure config encrypt buf = some (restored, true) ∧
        Passed.ofFrame config restored = Passed.ofFrame config buf ∧
        result = ((antiReplay config modules.toTables
          modules.antiReplayTable restored tables).1, restored,
          (antiReplay config modules.toTables modules.antiReplayTable
            restored tables).2) := by
  unfold input at isInput
  split at isInput
  case isFalse =>
    rw [← Option.some.inj isInput]
    exact Or.inl ⟨rfl, rfl⟩
  case isTrue =>
    rcases Option.map_eq_some_iff.mp isInput with
      ⟨⟨restored, authentic⟩, isRestored, same⟩
    cases authentic with
    | false =>
        rw [← same]
        exact Or.inl ⟨rfl, rfl⟩
    | true =>
        have frame := unsecure_frame isRestored
        refine Or.inr ⟨restored, isRestored, ?_, same.symm⟩
        unfold Passed.ofFrame linkaddr antiReplayGetCounter holdsBroadcast
          linkaddr
        rw [frame.1, frame.2.1]

theorem Guarded.step {receiver later : Receiver maxNeighbors Table Others}
    (guarded : Guarded modules receiver) {event : Event maxNeighbors Table}
    (allowed : match event with
      | .frame _ => True
      | .operation operation =>
          Allowed modules receiver.tables operation)
    (isStep : receiver.step modules config encrypt nodeAddr event =
      some later) :
    Guarded modules later := by
  cases event with
  | operation operation =>
      have ready := operation_ready guarded.ready allowed
      rw [← Option.some.inj isStep]
      exact ⟨ready.1,
        fun entry isPassed => (guarded.known entry isPassed).grows ready.2,
        guarded.nodup⟩
  | frame buf =>
      rcases Option.map_eq_some_iff.mp isStep with ⟨result, isInput, same⟩
      rw [← same]
      rcases input_cases isInput with ⟨tables, rejected⟩ |
        ⟨restored, _, isFrame, isResult⟩
      · rw [tables, rejected]
        exact ⟨guarded.ready, guarded.known, guarded.nodup⟩
      · have spec := antiReplay_spec config restored guarded.ready
        dsimp only at spec
        rw [isResult]
        dsimp only
        have known : ∀ entry ∈ receiver.passed, Known modules
            (antiReplay config modules.toTables modules.antiReplayTable
              restored receiver.tables).1 entry := fun entry isPassed =>
          (guarded.known entry isPassed).grows spec.2.1
        split
        case isFalse => exact ⟨spec.1, known, guarded.nodup⟩
        case isTrue passed =>
          have isNew := spec.2.2 passed
          rw [isFrame] at isNew
          refine ⟨spec.1, ?_, ?_⟩
          · intro entry isEntry
            rcases List.mem_append.mp isEntry with old | new
            · exact known entry old
            · rw [List.mem_singleton.mp new]
              exact isNew.2
          · apply List.nodup_append.mpr
            refine ⟨guarded.nodup, List.nodup_singleton _, ?_⟩
            rintro entry old _ new rfl
            rw [List.mem_singleton.mp new] at old
            exact isNew.1 (guarded.known _ old)

omit [DecidableEq Table] in
/-- A frame for the node that is shorter than the code is not rejected as it
is: its length wraps around. -/
theorem short_not_rejected {tables : NodeTables maxNeighbors Table Others}
    {buf : Frame} (forUs : isForUs config nodeAddr buf = true)
    (short : buf.buflen < config.micLength) :
    input config encrypt modules.toTables modules.antiReplayTable nodeAddr
      tables buf ≠ some (tables, buf, false) := by
  intro rejected
  have bound := config.micLength_le
  unfold input at rejected
  rw [if_pos forUs] at rejected
  rcases Option.map_eq_some_iff.mp rejected with
    ⟨⟨restored, authentic⟩, isRestored, same⟩
  have isBuf : restored = buf := by
    have frames := congrArg (fun result => result.2.1) same
    cases authentic <;> exact frames
  have length := (unsecure_frame isRestored).2.2
  rw [isBuf] at length
  change buf.buflen = (buf.buflen + (65536 - config.micLength)) % 65536
    at length
  omega

theorem rejects_iff (receiver : Receiver maxNeighbors Table Others)
    (buf : Frame) :
    Rejects modules config encrypt nodeAddr receiver buf ↔
      (isForUs config nodeAddr buf = true →
        config.micLength ≤ buf.buflen) := by
  constructor
  · intro rejects forUs
    by_contra short
    exact short_not_rejected forUs (Nat.lt_of_not_le short)
      (rejects.short (Nat.lt_of_not_le short))
  · intro long
    constructor
    case nonauthentic =>
      intro restored forUs isRestored
      unfold Receiver.step input
      dsimp only
      rw [if_pos forUs, isRestored]
      rfl
    case short =>
      intro short
      unfold input
      rw [if_neg fun forUs => Nat.not_le_of_lt short (long forUs)]

/-- From a guarded state on, a run is protected exactly when each frame for
the node has at least the bytes of the code. -/
theorem Guarded.protectedRun_iff
    {receiver : Receiver maxNeighbors Table Others}
    (guarded : Guarded modules receiver)
    {events : List (Event maxNeighbors Table)}
    (orderly : OrderlyRun modules config encrypt nodeAddr receiver events) :
    ProtectedRun modules config encrypt nodeAddr receiver events ↔
      LongRun modules config encrypt nodeAddr receiver events := by
  induction events generalizing receiver with
  | nil => exact iff_of_true guarded.nodup trivial
  | cons event rest inductionHypothesis =>
      have later : ∀ later,
          receiver.step modules config encrypt nodeAddr event = some later →
          (ProtectedRun modules config encrypt nodeAddr later rest ↔
            LongRun modules config encrypt nodeAddr later rest) :=
        fun later isStep => inductionHypothesis
          (guarded.step orderly.1 isStep) (orderly.2 later isStep)
      unfold ProtectedRun LongRun
      cases event with
      | frame buf =>
          constructor
          · rintro ⟨_, rejects, protectedLater⟩
            exact ⟨(rejects_iff receiver buf).mp rejects,
              fun next isStep => (later next isStep).mp
                (protectedLater next isStep)⟩
          · rintro ⟨long, longLater⟩
            exact ⟨guarded.nodup, (rejects_iff receiver buf).mpr long,
              fun next isStep => (later next isStep).mpr
                (longLater next isStep)⟩
      | operation operation =>
          constructor
          · rintro ⟨_, _, protectedLater⟩
            exact ⟨trivial, fun next isStep => (later next isStep).mp
              (protectedLater next isStep)⟩
          · rintro ⟨_, longLater⟩
            exact ⟨guarded.nodup, trivial, fun next isStep =>
              (later next isStep).mpr (longLater next isStep)⟩

end Runs

/-! ## The start -/

section Start

variable (modules) (before : List (Table × Bool)) (lladdr : List UInt8)
  (client : TableData maxNeighbors Others)

/-- Other tables are registered, with or without a callback. -/
def registerAll : NodeTables maxNeighbors Table Others :=
  (NbrTables.initial lladdr client).run modules.toTables
    (before.map fun entry => .register entry.1 entry.2)

/-- `bootstrap`: noncoresec registers its table. -/
def bootstrap : NodeTables maxNeighbors Table Others :=
  ((registerAll modules before lladdr client).nbrTableRegister
    modules.antiReplayTable false).2

variable {before}

theorem registerAll_spec (nodup : (before.map Prod.fst).Nodup) :
    let tables := registerAll modules before lladdr client
    tables.KeysOk ∧ tables.RegisteredOnce ∧ tables.usedMap = (fun _ => 0) ∧
      tables.numTables ≤ before.length ∧
      ∀ place table, tables.allTables place = some table →
        table ∈ before.map Prod.fst := by
  induction before using List.reverseRecOn with
  | nil =>
      refine ⟨NbrTables.keysOk_initial lladdr client, ?_, rfl, Nat.le_refl _,
        ?_⟩
      · intro place table isTable
        cases isTable
      · intro place table isTable
        cases isTable
  | append_singleton before entry inductionHypothesis =>
      rw [List.map_append, List.nodup_append] at nodup
      have old := inductionHypothesis nodup.1
      dsimp only at old ⊢
      have isNext : registerAll modules (before ++ [entry]) lladdr client =
          (registerAll modules before lladdr client).step modules.toTables
            (.register entry.1 entry.2) := by
        unfold registerAll NbrTables.run
        rw [List.map_append, List.foldl_append]
        rfl
      have new : ∀ place,
          (registerAll modules before lladdr client).allTables place ≠
            some entry.1 := by
        intro place isEntry
        exact nodup.2.2 entry.1 (old.2.2.2.2 place entry.1 isEntry) entry.1
          (by simp) rfl
      have keys := old.1.step modules.toTables (.register entry.1 entry.2)
      have once := NbrTables.RegisteredOnce.step modules.toTables old.2.1
        (show NbrTables.RegistersNew _ (.register entry.1 entry.2) from new)
      rw [isNext]
      refine ⟨keys, once, ?_⟩
      unfold NbrTables.step NbrTables.nbrTableRegister
      dsimp only
      rw [List.length_append, List.map_append]
      split
      case isTrue room =>
        refine ⟨old.2.2.1, Nat.succ_le_succ old.2.2.2.1, ?_⟩
        intro place table isTable
        dsimp only at isTable
        rw [Function.update_apply] at isTable
        split at isTable
        case isTrue =>
          rw [← Option.some.inj isTable]
          simp
        case isFalse =>
          exact List.mem_append_left _ (old.2.2.2.2 place table isTable)
      case isFalse =>
        exact ⟨old.2.2.1, Nat.le_succ_of_le old.2.2.2.1, fun place table
          isTable => List.mem_append_left _
            (old.2.2.2.2 place table isTable)⟩

variable {modules lladdr client}

theorem bootstrap_ready
    (nodup : (before.map Prod.fst ++ [modules.antiReplayTable]).Nodup)
    (room : before.length < maxNumTables) :
    Ready modules (bootstrap modules before lladdr client) := by
  rw [List.nodup_append] at nodup
  have old := registerAll_spec modules lladdr client nodup.1
  dsimp only at old
  have new : ∀ place,
      (registerAll modules before lladdr client).allTables place ≠
        some modules.antiReplayTable := by
    intro place isOwn
    exact nodup.2.2 _ (old.2.2.2.2 place _ isOwn) modules.antiReplayTable
      (List.mem_singleton_self _) rfl
  have isRoom : (registerAll modules before lladdr client).numTables <
      maxNumTables := Nat.lt_of_le_of_lt old.2.2.2.1 room
  have keys := old.1.step modules.toTables
    (.register modules.antiReplayTable false)
  have once := NbrTables.RegisteredOnce.step modules.toTables old.2.1
    (show NbrTables.RegistersNew _ (.register modules.antiReplayTable false)
      from new)
  refine ⟨keys, once, ⟨⟨_, isRoom⟩, ?_⟩, ?_, ?_⟩
  · unfold bootstrap NbrTables.nbrTableRegister
    rw [dif_pos isRoom]
    exact Function.update_self _ _ _
  · unfold bootstrap NbrTables.nbrTableRegister
    rw [dif_pos isRoom]
    exact Function.update_self _ _ _
  · intro item isUsed
    unfold Uses bootstrap NbrTables.nbrTableRegister at isUsed
    rw [dif_pos isRoom] at isUsed
    dsimp only at isUsed
    rw [old.2.2.1] at isUsed
    simp at isUsed

/-- From the bootstrap of noncoresec on, a run is protected exactly when each
frame for the node has at least the bytes of the code. -/
theorem bootstrap_protectedRun_iff (config : LlsecConfig)
    (encrypt : Block → Block) (nodeAddr : List UInt8)
    (nodup : (before.map Prod.fst ++ [modules.antiReplayTable]).Nodup)
    (room : before.length < maxNumTables)
    {events : List (Event maxNeighbors Table)}
    (orderly : OrderlyRun modules config encrypt nodeAddr
      ⟨bootstrap modules before lladdr client, []⟩ events) :
    ProtectedRun modules config encrypt nodeAddr
        ⟨bootstrap modules before lladdr client, []⟩ events ↔
      LongRun modules config encrypt nodeAddr
        ⟨bootstrap modules before lladdr client, []⟩ events := by
  have guarded : Guarded modules
      (⟨bootstrap modules before lladdr client, []⟩ :
        Receiver maxNeighbors Table Others) :=
    ⟨bootstrap_ready nodup room, by simp, List.nodup_nil⟩
  exact guarded.protectedRun_iff orderly

end Start

/-- Noncoresec is the only module with a table. -/
def ownNeighbors : Neighbors 1 Unit Unit where
  toTables := ownTables
  antiReplayTable := ()
  clearOwn := fun item other _ different =>
    absurd (Subsingleton.elim other item) different
  clearOther := fun _ _ _ other => absurd rfl other
  callbackInfo := fun _ _ _ _ => rfl
  lockedOther := fun _ _ _ _ _ _ => rfl

/-- The state of `ownNeighbors` after the bootstrap. -/
def ownStart : Receiver 1 Unit Unit where
  tables := bootstrap ownNeighbors [] [] ⟨fun _ => .init 0, ()⟩
  passed := []

/-- A frame of another node with so many bytes of data. -/
def heardFrame (buflen : Nat) : Frame :=
  { delivered [1, 0] firstFrame with buflen := buflen }

/-- A frame that is received twice. -/
theorem heardTwice_protected :
    ProtectedRun ownNeighbors shortConfig (addKey 7) [2, 0] ownStart
      [.frame (heardFrame 5), .frame (heardFrame 5)] := by
  have orderly : OrderlyRun ownNeighbors shortConfig (addKey 7) [2, 0]
      ownStart [.frame (heardFrame 5), .frame (heardFrame 5)] :=
    ⟨trivial, fun _ _ => ⟨trivial, fun _ _ => trivial⟩⟩
  have long : shortConfig.micLength ≤ (heardFrame 5).buflen := by decide
  exact (bootstrap_protectedRun_iff shortConfig (addKey 7) [2, 0]
    (by decide) (by decide) orderly).mpr
      ⟨fun _ => long, fun _ _ => ⟨fun _ => long, fun _ _ => trivial⟩⟩

/-- A frame of two bytes is not rejected. -/
theorem shortFrame_not_protected :
    ¬ ∀ events, OrderlyRun ownNeighbors shortConfig (addKey 7) [2, 0]
        ownStart events →
      ProtectedRun ownNeighbors shortConfig (addKey 7) [2, 0] ownStart
        events := by
  intro always
  have isProtected := always [.frame (heardFrame 2)]
    ⟨trivial, fun _ _ => trivial⟩
  have forUs : isForUs shortConfig [2, 0] (heardFrame 2) = true := by
    decide +kernel
  have short : (heardFrame 2).buflen < shortConfig.micLength := by decide
  exact short_not_rejected forUs short (isProtected.2.1.short short)

end Contiki.Llsec
