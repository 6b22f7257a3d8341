import Contiki.Net.NbrTable

/-!
# Neighbour tables over runs

What holds after every sequence of operations on the neighbour tables: the
listed keys have different addresses, only listed keys are used, and a key is
evicted only if no table locks it.
-/

namespace Contiki.Net

namespace NbrTables

variable {maxNeighbors : Nat} {Table Lladdr Client : Type}

/-! ## Bits -/

variable (tables : NbrTables maxNeighbors Table Lladdr Client)

theorem getLsbD_nbrSetBit
    (bitmap : Fin maxNeighbors → BitVec 8) (table : Table)
    (item other : Fin maxNeighbors) (value : Bool) (bit : Nat) :
    ((tables.nbrSetBit bitmap table (some item) value).2 other).getLsbD bit =
      if other = item ∧ bit = tables.index table then value
      else (bitmap other).getLsbD bit := by
  have bound : (tables.index table).val < 8 := (tables.index table).isLt
  unfold nbrSetBit
  dsimp only
  by_cases same : other = item
  · subst same
    rw [Function.update_self]
    by_cases isBit : bit = tables.index table
    · subst isBit
      cases value <;> simp [bound]
    · have notBit : ¬ (tables.index table).val = bit := Ne.symm isBit
      cases value with
      | true =>
          simp [notBit, isBit]
      | false =>
          by_cases inside : bit < 8
          · simp [isBit, inside]
          · simp [isBit, BitVec.getLsbD_of_ge _ _ (Nat.not_lt.1 inside)]
  · rw [Function.update_of_ne same, if_neg fun both => same both.1]

/-! ## What the operations do -/

/-- The keys and the registered tables stay, and bits are only cleared. -/
structure ClearsBits
    (before after : NbrTables maxNeighbors Table Lladdr Client) : Prop where
  used : ∀ item bit, (after.usedMap item).getLsbD bit →
    (before.usedMap item).getLsbD bit
  locked : ∀ item bit, (after.lockedMap item).getLsbD bit →
    (before.lockedMap item).getLsbD bit
  allTables : after.allTables = before.allTables
  numTables : after.numTables = before.numTables
  index : after.index = before.index
  hasCallback : after.hasCallback = before.hasCallback
  neighborAddrMem : after.neighborAddrMem = before.neighborAddrMem
  nbrTableKeys : after.nbrTableKeys = before.nbrTableKeys
  lladdr : after.lladdr = before.lladdr

theorem ClearsBits.refl : ClearsBits tables tables :=
  ⟨fun _ _ => id, fun _ _ => id, rfl, rfl, rfl, rfl, rfl, rfl, rfl⟩

theorem ClearsBits.trans
    {first second third : NbrTables maxNeighbors Table Lladdr Client}
    (left : ClearsBits first second) (right : ClearsBits second third) :
    ClearsBits first third where
  used := fun item bit isSet => left.used item bit (right.used item bit isSet)
  locked := fun item bit isSet =>
    left.locked item bit (right.locked item bit isSet)
  allTables := right.allTables.trans left.allTables
  numTables := right.numTables.trans left.numTables
  index := right.index.trans left.index
  hasCallback := right.hasCallback.trans left.hasCallback
  neighborAddrMem := right.neighborAddrMem.trans left.neighborAddrMem
  nbrTableKeys := right.nbrTableKeys.trans left.nbrTableKeys
  lladdr := right.lladdr.trans left.lladdr

theorem OwnItems.clearsBits {table : Table}
    {before after : NbrTables maxNeighbors Table Lladdr Client}
    (own : OwnItems table before after) : ClearsBits before after :=
  ⟨own.used, own.locked, own.allTables, own.numTables, own.index,
    own.hasCallback, own.neighborAddrMem, own.nbrTableKeys, own.lladdr⟩

variable (table : Table)

theorem OwnItems.refl (tables : NbrTables maxNeighbors Table Lladdr Client) :
    OwnItems table tables tables :=
  ⟨fun _ _ => id, fun _ _ => id, fun _ _ _ => rfl, rfl, rfl, rfl, rfl, rfl,
    rfl, rfl, rfl⟩

theorem OwnItems.trans {table : Table}
    {first second third : NbrTables maxNeighbors Table Lladdr Client}
    (left : OwnItems table first second)
    (right : OwnItems table second third) : OwnItems table first third where
  used := fun item bit isSet => left.used item bit (right.used item bit isSet)
  locked := fun item bit isSet =>
    left.locked item bit (right.locked item bit isSet)
  usedOther := fun item bit notOwn => by
    rw [right.usedOther item bit (by rw [left.index]; exact notOwn),
      left.usedOther item bit notOwn]
  allTables := right.allTables.trans left.allTables
  numTables := right.numTables.trans left.numTables
  index := right.index.trans left.index
  hasCallback := right.hasCallback.trans left.hasCallback
  neighborAddrMem := right.neighborAddrMem.trans left.neighborAddrMem
  nbrTableKeys := right.nbrTableKeys.trans left.nbrTableKeys
  lladdr := right.lladdr.trans left.lladdr
  calls := right.calls.trans left.calls

theorem ownItems_nbrTableRemove (item : Option (Fin maxNeighbors)) :
    OwnItems table tables (tables.nbrTableRemove table item).2 := by
  have cleared : ∀ (bitmap : Fin maxNeighbors → BitVec 8) (other) (bit : Nat),
      ((tables.nbrSetBit bitmap table item false).2 other).getLsbD bit →
        (bitmap other).getLsbD bit := by
    intro bitmap other bit isSet
    cases item with
    | none =>
        exact isSet
    | some item =>
        rw [getLsbD_nbrSetBit] at isSet
        split at isSet
        · simp at isSet
        · exact isSet
  refine ⟨cleared tables.usedMap, cleared tables.lockedMap,
    fun other bit notOwn => ?_, rfl, rfl, rfl, rfl, rfl, rfl, rfl, rfl⟩
  cases item with
  | none =>
      rfl
  | some item =>
      exact (getLsbD_nbrSetBit tables _ table item other false bit).trans
        (if_neg fun both => notOwn both.2)

theorem clearsBits_nbrTableUnlock (item : Option (Fin maxNeighbors)) :
    ClearsBits tables (tables.nbrTableUnlock table item).2 := by
  refine ⟨fun _ _ => id, fun other bit isSet => ?_, rfl, rfl, rfl, rfl, rfl,
    rfl, rfl⟩
  exact (ownItems_nbrTableRemove tables table item).locked other bit isSet

variable (modules : Tables maxNeighbors Table Lladdr Client)

theorem clearsBits_callBack (key : Fin maxNeighbors)
    (tables : NbrTables maxNeighbors Table Lladdr Client)
    (place : Fin maxNumTables) :
    ClearsBits tables (callBack modules key tables place) := by
  unfold callBack
  split
  · exact ClearsBits.refl tables
  · next table _ =>
      split
      · have own := (modules.own table key
          { tables with calls := tables.calls ++ [(table, key)] }).clearsBits
        exact ⟨own.used, own.locked, own.allTables, own.numTables, own.index,
          own.hasCallback, own.neighborAddrMem, own.nbrTableKeys, own.lladdr⟩
      · exact ClearsBits.refl tables

theorem clearsBits_callBacks (key : Fin maxNeighbors)
    (tables : NbrTables maxNeighbors Table Lladdr Client)
    (places : List (Fin maxNumTables)) :
    ClearsBits tables (places.foldl (callBack modules key) tables) := by
  induction places generalizing tables with
  | nil =>
      exact ClearsBits.refl tables
  | cons place rest inductionHypothesis =>
      exact (clearsBits_callBack modules key tables place).trans
        (inductionHypothesis _)

theorem leastUsedKey_spec
    (tables : NbrTables maxNeighbors Table Lladdr Client)
    {keys : List (Fin maxNeighbors)} {best : Option (Fin maxNeighbors)}
    {key : Fin maxNeighbors}
    (found : tables.leastUsedKey keys best = some key) :
    best = some key ∨ key ∈ keys ∧ tables.lockedMap key = 0 := by
  induction keys generalizing best with
  | nil =>
      exact Or.inl found
  | cons first rest inductionHypothesis =>
      unfold leastUsedKey at found
      split at found
      · next better =>
          split at found
          · rw [Option.some.injEq] at found
            subst found
            exact Or.inr ⟨List.mem_cons_self, better.1⟩
          · obtain same | ⟨member, unlocked⟩ := inductionHypothesis found
            · rw [Option.some.injEq] at same
              subst same
              exact Or.inr ⟨List.mem_cons_self, better.1⟩
            · exact Or.inr ⟨List.mem_cons_of_mem _ member, unlocked⟩
      · obtain same | ⟨member, unlocked⟩ := inductionHypothesis found
        · exact Or.inl same
        · exact Or.inr ⟨List.mem_cons_of_mem _ member, unlocked⟩

/-- The ways in which `nbr_table_add_lladdr` finds a key: it is listed, it is
free, or it is evicted. -/
inductive FindsKey (tables : NbrTables maxNeighbors Table Lladdr Client)
    (lladdr : Lladdr) (key : Fin maxNeighbors) :
    NbrTables maxNeighbors Table Lladdr Client → Prop where
  | listed (member : key ∈ tables.nbrTableKeys)
      (address : tables.lladdr key = lladdr) :
      FindsKey tables lladdr key tables
  | free (unknown : ∀ key ∈ tables.nbrTableKeys, tables.lladdr key ≠ lladdr)
      (unused : ¬ tables.neighborAddrMem key) :
      FindsKey tables lladdr key ({ tables with
        neighborAddrMem := Function.update tables.neighborAddrMem key true
        }.listKey key lladdr)
  | evicted (unknown : ∀ key ∈ tables.nbrTableKeys,
        tables.lladdr key ≠ lladdr)
      (member : key ∈ tables.nbrTableKeys)
      (unlocked : tables.lockedMap key = 0)
      (told : NbrTables maxNeighbors Table Lladdr Client)
      (isTold : told = (List.finRange maxNumTables).foldl
        (callBack modules key) tables) :
      FindsKey tables lladdr key ({ told with
        usedMap := Function.update told.usedMap key 0
        nbrTableKeys := told.nbrTableKeys.erase key }.listKey key lladdr)

/-! ## Keys -/

/-- The listed keys are those that are given out, they have different
addresses, and only they are used. -/
structure KeysOk (tables : NbrTables maxNeighbors Table Lladdr Client) :
    Prop where
  nodup : tables.nbrTableKeys.Nodup
  mem_iff : ∀ key, key ∈ tables.nbrTableKeys ↔ tables.neighborAddrMem key
  lladdr : ∀ first ∈ tables.nbrTableKeys, ∀ second ∈ tables.nbrTableKeys,
    tables.lladdr first = tables.lladdr second → first = second
  used : ∀ key bit, (tables.usedMap key).getLsbD bit →
    key ∈ tables.nbrTableKeys

theorem KeysOk.clearsBits
    {before after : NbrTables maxNeighbors Table Lladdr Client}
    (keys : before.KeysOk) (clears : ClearsBits before after) :
    after.KeysOk where
  nodup := by
    rw [clears.nbrTableKeys]
    exact keys.nodup
  mem_iff := by
    rw [clears.nbrTableKeys, clears.neighborAddrMem]
    exact keys.mem_iff
  lladdr := by
    rw [clears.nbrTableKeys, clears.lladdr]
    exact keys.lladdr
  used := by
    intro key bit isSet
    rw [clears.nbrTableKeys]
    exact keys.used key bit (clears.used key bit isSet)

theorem KeysOk.listKey
    {tables : NbrTables maxNeighbors Table Lladdr Client}
    {key : Fin maxNeighbors} {lladdr : Lladdr}
    (nodup : tables.nbrTableKeys.Nodup)
    (notListed : key ∉ tables.nbrTableKeys)
    (mem_iff : ∀ other, other = key ∨ other ∈ tables.nbrTableKeys ↔
      tables.neighborAddrMem other)
    (distinct : ∀ first ∈ tables.nbrTableKeys,
      ∀ second ∈ tables.nbrTableKeys,
        tables.lladdr first = tables.lladdr second → first = second)
    (unknown : ∀ other ∈ tables.nbrTableKeys, tables.lladdr other ≠ lladdr)
    (used : ∀ other bit, (tables.usedMap other).getLsbD bit →
      other = key ∨ other ∈ tables.nbrTableKeys) :
    (tables.listKey key lladdr).KeysOk := by
  have member : ∀ other, other ∈ (tables.listKey key lladdr).nbrTableKeys ↔
      other = key ∨ other ∈ tables.nbrTableKeys := by
    intro other
    unfold NbrTables.listKey
    rw [List.erase_of_not_mem notListed, List.mem_append,
      List.mem_singleton, or_comm]
  have newAddress : (tables.listKey key lladdr).lladdr key = lladdr :=
    Function.update_self _ _ _
  have oldAddress : ∀ other ∈ tables.nbrTableKeys,
      (tables.listKey key lladdr).lladdr other = tables.lladdr other := by
    intro other inKeys
    refine Function.update_of_ne ?_ _ _
    rintro rfl
    exact notListed inKeys
  refine ⟨?_, fun other => ?_, ?_, fun other bit isSet => ?_⟩
  · unfold NbrTables.listKey
    rw [List.erase_of_not_mem notListed]
    exact nodup.append (List.nodup_singleton key)
      (List.disjoint_singleton.2 notListed)
  · rw [member]
    exact mem_iff other
  · intro first firstMember second secondMember same
    rw [member] at firstMember secondMember
    obtain rfl | firstOld := firstMember
    · obtain rfl | secondOld := secondMember
      · rfl
      · rw [newAddress, oldAddress second secondOld] at same
        exact absurd same.symm (unknown second secondOld)
    · obtain rfl | secondOld := secondMember
      · rw [newAddress, oldAddress first firstOld] at same
        exact absurd same (unknown first firstOld)
      · rw [oldAddress first firstOld, oldAddress second secondOld] at same
        exact distinct first firstOld second secondOld same
  · rw [member]
    exact used other bit isSet

theorem FindsKey.keysOk
    {tables found : NbrTables maxNeighbors Table Lladdr Client}
    {lladdr : Lladdr} {key : Fin maxNeighbors} (keys : tables.KeysOk)
    (finds : FindsKey modules tables lladdr key found) :
    found.KeysOk ∧ key ∈ found.nbrTableKeys ∧ found.lladdr key = lladdr := by
  cases finds with
  | listed member address =>
      exact ⟨keys, member, address⟩
  | free unknown unused =>
      have notListed : key ∉ tables.nbrTableKeys := by
        rw [keys.mem_iff]
        exact unused
      refine ⟨KeysOk.listKey keys.nodup notListed (fun other => ?_)
        keys.lladdr unknown fun other bit isSet =>
          Or.inr (keys.used other bit isSet), ?_, ?_⟩
      · dsimp only
        rw [keys.mem_iff, Function.update_apply]
        by_cases same : other = key
        · simp [same]
        · simp [same]
      · exact List.mem_append_right _ List.mem_cons_self
      · exact Function.update_self _ _ _
  | evicted unknown member unlocked told isTold =>
      have clears : ClearsBits tables told := by
        rw [isTold]
        exact clearsBits_callBacks modules key tables _
      have toldKeys := keys.clearsBits clears
      have inKeys : ∀ other ∈ told.nbrTableKeys.erase key,
          other ∈ told.nbrTableKeys := fun other => List.mem_of_mem_erase
      have mem_erase : ∀ other, other ∈ told.nbrTableKeys.erase key ↔
          other ≠ key ∧ other ∈ told.nbrTableKeys :=
        fun other => toldKeys.nodup.mem_erase_iff
      refine ⟨KeysOk.listKey (toldKeys.nodup.erase key)
        toldKeys.nodup.not_mem_erase (fun other => ?_)
        (fun first isFirst second isSecond => toldKeys.lladdr first
          (inKeys first isFirst) second (inKeys second isSecond))
        (fun other isOther => ?_) fun other bit isSet => ?_, ?_, ?_⟩
      · dsimp only
        rw [mem_erase, ← toldKeys.mem_iff]
        by_cases same : other = key
        · simp [same, clears.nbrTableKeys, member]
        · simp [same]
      · dsimp only
        rw [clears.lladdr]
        refine unknown other ?_
        rw [← clears.nbrTableKeys]
        exact inKeys other isOther
      · dsimp only at isSet ⊢
        by_cases same : other = key
        · exact Or.inl same
        · rw [Function.update_of_ne same] at isSet
          exact Or.inr ((mem_erase other).2
            ⟨same, toldKeys.used other bit isSet⟩)
      · exact List.mem_append_right _ List.mem_cons_self
      · exact Function.update_self _ _ _

theorem KeysOk.useItem
    {tables : NbrTables maxNeighbors Table Lladdr Client}
    (keys : tables.KeysOk) (table : Table) {item : Fin maxNeighbors}
    (listed : item ∈ tables.nbrTableKeys) :
    (tables.useItem modules table item).KeysOk := by
  refine ⟨keys.nodup, keys.mem_iff, keys.lladdr, fun key bit isSet => ?_⟩
  change ((tables.nbrSetBit tables.usedMap table (some item) true).2
    key).getLsbD bit = true at isSet
  rw [getLsbD_nbrSetBit] at isSet
  split at isSet
  · next isItem =>
      rw [isItem.1]
      exact listed
  · exact keys.used key bit isSet

theorem keysOk_initial (lladdr : Lladdr) (client : Client) :
    (initial lladdr client :
      NbrTables maxNeighbors Table Lladdr Client).KeysOk where
  nodup := List.nodup_nil
  mem_iff := by simp [initial]
  lladdr := by simp [initial]
  used := by simp [initial]

/-! ## Evictions -/

/-- A listed key has got another address. -/
def Evicted (before after : NbrTables maxNeighbors Table Lladdr Client)
    (key : Fin maxNeighbors) : Prop :=
  key ∈ before.nbrTableKeys ∧ after.lladdr key ≠ before.lladdr key

/-- Each place has the table with its index. -/
def RegisteredOnce (tables : NbrTables maxNeighbors Table Lladdr Client) :
    Prop :=
  ∀ place table, tables.allTables place = some table →
    tables.index table = place ∧ place.val < tables.numTables

/-- The call of a callback when a key is removed. -/
def calledAt (tables : NbrTables maxNeighbors Table Lladdr Client)
    (key : Fin maxNeighbors) (place : Fin maxNumTables) :
    Option (Table × Fin maxNeighbors) :=
  (tables.allTables place).bind fun table =>
    if tables.hasCallback table ∧
        tables.nbrGetBit tables.usedMap table (some key) then
      some (table, key)
    else none

theorem calledAt_eq_some
    {tables : NbrTables maxNeighbors Table Lladdr Client}
    {key item : Fin maxNeighbors} {place : Fin maxNumTables}
    {table : Table} :
    tables.calledAt key place = some (table, item) ↔
      item = key ∧ tables.allTables place = some table ∧
      tables.hasCallback table ∧
      tables.nbrGetBit tables.usedMap table (some key) := by
  unfold calledAt
  rw [Option.bind_eq_some_iff]
  constructor
  · rintro ⟨found, isFound, called⟩
    split at called
    · next uses =>
        simp only [Option.some.injEq, Prod.mk.injEq] at called
        obtain ⟨rfl, rfl⟩ := called
        exact ⟨rfl, isFound, uses⟩
    · simp at called
  · rintro ⟨rfl, isTable, uses⟩
    exact ⟨table, isTable, if_pos uses⟩

theorem callBack_spec
    {tables : NbrTables maxNeighbors Table Lladdr Client}
    (registered : tables.RegisteredOnce) (key : Fin maxNeighbors)
    (place : Fin maxNumTables) :
    (callBack modules key tables place).calls =
      tables.calls ++ (tables.calledAt key place).toList ∧
    ∀ other, other ≠ place →
      (callBack modules key tables place).calledAt key other =
        tables.calledAt key other := by
  unfold callBack calledAt
  cases isTable : tables.allTables place with
  | none =>
      exact ⟨by simp, fun _ _ => rfl⟩
  | some table =>
      dsimp only [Option.bind_some]
      split
      · have own := modules.own table key
          { tables with calls := tables.calls ++ [(table, key)] }
        refine ⟨own.calls, fun other different => ?_⟩
        generalize modules.callback table key
          { tables with calls := tables.calls ++ [(table, key)] } = later
            at own
        have sameBit : ∀ otherTable, tables.allTables other = some otherTable →
            later.nbrGetBit later.usedMap otherTable (some key) =
              tables.nbrGetBit tables.usedMap otherTable (some key) := by
          intro otherTable isOther
          have index := congrFun own.index otherTable
          unfold nbrGetBit
          dsimp only at index ⊢
          rw [index]
          refine own.usedOther key _ fun same => different ?_
          rw [← (registered other otherTable isOther).1,
            ← (registered place table isTable).1]
          exact Fin.ext same
        rw [own.allTables]
        dsimp only
        cases isOther : tables.allTables other with
        | none =>
            rfl
        | some otherTable =>
            have callback := congrFun own.hasCallback otherTable
            dsimp only at callback
            simp only [Option.bind_some, sameBit otherTable isOther, callback]
      · exact ⟨by simp, fun _ _ => rfl⟩

theorem callBacks_spec
    {tables : NbrTables maxNeighbors Table Lladdr Client}
    (registered : tables.RegisteredOnce) (key : Fin maxNeighbors)
    {places : List (Fin maxNumTables)} (nodup : places.Nodup) :
    (places.foldl (callBack modules key) tables).calls =
      tables.calls ++ places.filterMap (tables.calledAt key) := by
  induction places generalizing tables with
  | nil =>
      simp
  | cons place rest inductionHypothesis =>
      obtain ⟨notInRest, restNodup⟩ := List.nodup_cons.1 nodup
      obtain ⟨calls, others⟩ := callBack_spec modules registered key place
      have clears := clearsBits_callBack modules key tables place
      have stillRegistered :
          (callBack modules key tables place).RegisteredOnce := by
        unfold RegisteredOnce
        rw [clears.allTables, clears.index, clears.numTables]
        exact registered
      rw [List.foldl_cons, inductionHypothesis stillRegistered restNodup,
        calls, List.append_assoc]
      congr 1
      have same : rest.filterMap
          ((callBack modules key tables place).calledAt key) =
            rest.filterMap (tables.calledAt key) := by
        refine List.filterMap_congr fun other member => others other ?_
        rintro rfl
        exact notInRest member
      rw [same, List.filterMap_cons]
      cases tables.calledAt key place <;> rfl

/-- An eviction: the key had no lock, and each table that used it has been told
once. -/
structure EvictionOk (before after : NbrTables maxNeighbors Table Lladdr Client)
    (key : Fin maxNeighbors) : Prop where
  unlocked : before.lockedMap key = 0
  calls : before.RegisteredOnce → ∃ calls,
    after.calls = before.calls ++ calls ∧ calls.Nodup ∧
    ∀ table item, (table, item) ∈ calls ↔
      item = key ∧ (∃ place, before.allTables place = some table) ∧
      before.hasCallback table ∧
      before.nbrGetBit before.usedMap table (some key)

theorem evictionOk_callBacks
    {tables : NbrTables maxNeighbors Table Lladdr Client}
    {key : Fin maxNeighbors} (unlocked : tables.lockedMap key = 0)
    {after : NbrTables maxNeighbors Table Lladdr Client}
    (calls : after.calls = ((List.finRange maxNumTables).foldl
      (callBack modules key) tables).calls) :
    EvictionOk tables after key where
  unlocked := unlocked
  calls := by
    intro registered
    refine ⟨(List.finRange maxNumTables).filterMap (tables.calledAt key),
      ?_, ?_, fun table item => ?_⟩
    · rw [calls]
      exact callBacks_spec modules registered key (List.nodup_finRange _)
    · refine (List.nodup_finRange _).filterMap fun first second call isFirst
        isSecond => ?_
      obtain ⟨table, item⟩ := call
      obtain ⟨_, firstTable, _⟩ := calledAt_eq_some.1 isFirst
      obtain ⟨_, secondTable, _⟩ := calledAt_eq_some.1 isSecond
      rw [← (registered first table firstTable).1,
        ← (registered second table secondTable).1]
    · rw [List.mem_filterMap]
      constructor
      · rintro ⟨place, _, called⟩
        obtain ⟨same, isTable, uses⟩ := calledAt_eq_some.1 called
        exact ⟨same, ⟨place, isTable⟩, uses⟩
      · rintro ⟨same, ⟨place, isTable⟩, uses⟩
        exact ⟨place, List.mem_finRange place,
          calledAt_eq_some.2 ⟨same, isTable, uses⟩⟩

theorem ClearsBits.registeredOnce
    {before after : NbrTables maxNeighbors Table Lladdr Client}
    (registered : before.RegisteredOnce) (clears : ClearsBits before after) :
    after.RegisteredOnce := by
  unfold RegisteredOnce
  rw [clears.allTables, clears.index, clears.numTables]
  exact registered

/-! ## Adding an address -/

variable [DecidableEq Lladdr]

/-- What `nbr_table_add_lladdr` does. -/
theorem nbrTableAddLladdr_cases
    (tables : NbrTables maxNeighbors Table Lladdr Client) (table : Table)
    (lladdr : Option Lladdr) :
    (∃ key found, FindsKey modules tables
        (lladdr.getD modules.linkaddrNull) key found ∧
      tables.nbrTableAddLladdr modules table lladdr =
        (some key, found.useItem modules table key)) ∨
    tables.nbrTableAddLladdr modules table lladdr = (none, tables) := by
  unfold nbrTableAddLladdr
  split
  · next key isKey =>
      refine Or.inl ⟨key, tables, .listed
        (List.mem_of_find?_eq_some isKey) ?_, rfl⟩
      have same := List.find?_some isKey
      exact (of_decide_eq_true same).symm
  · next notListed =>
      have unknown : ∀ key ∈ tables.nbrTableKeys,
          tables.lladdr key ≠ lladdr.getD modules.linkaddrNull := by
        intro key member same
        have different := List.find?_eq_none.1 notListed key member
        exact different (decide_eq_true same.symm)
      unfold nbrTableAllocate
      split
      · next allocated =>
          split at allocated
          · simp at allocated
          · split at allocated
            · simp only [Prod.mk.injEq, true_and] at allocated
              exact Or.inr (by rw [allocated])
            · simp at allocated
      · next key later allocated =>
          split at allocated
          · next free isFree =>
              simp only [Prod.mk.injEq, Option.some.injEq] at allocated
              obtain ⟨rfl, rfl⟩ := allocated
              have unused := List.find?_some isFree
              exact Or.inl ⟨_, _, .free unknown (by simpa using unused), rfl⟩
          · split at allocated
            · simp at allocated
            · next victim isVictim =>
                simp only [Prod.mk.injEq, Option.some.injEq] at allocated
                obtain ⟨rfl, rfl⟩ := allocated
                obtain none | ⟨member, unlocked⟩ :=
                  leastUsedKey_spec tables isVictim
                · simp at none
                · exact Or.inl ⟨_, _,
                    .evicted unknown member unlocked _ rfl, rfl⟩

theorem KeysOk.nbrTableAddLladdr
    {tables : NbrTables maxNeighbors Table Lladdr Client}
    (keys : tables.KeysOk) (table : Table) (lladdr : Option Lladdr) :
    (tables.nbrTableAddLladdr modules table lladdr).2.KeysOk := by
  obtain ⟨key, found, finds, added⟩ | full :=
    nbrTableAddLladdr_cases modules tables table lladdr
  · rw [added]
    obtain ⟨foundKeys, listed, _⟩ := finds.keysOk modules keys
    exact foundKeys.useItem modules table listed
  · rw [full]
    exact keys

theorem KeysOk.indexFromLladdr
    {tables : NbrTables maxNeighbors Table Lladdr Client}
    (keys : tables.KeysOk) {lladdr : Option Lladdr}
    {key : Fin maxNeighbors} (listed : key ∈ tables.nbrTableKeys)
    (address : tables.lladdr key = lladdr.getD modules.linkaddrNull) :
    tables.indexFromLladdr modules lladdr = some key := by
  unfold NbrTables.indexFromLladdr
  cases isFound : tables.nbrTableKeys.find? fun key =>
      lladdr.getD modules.linkaddrNull = tables.lladdr key with
  | none =>
      exact absurd (decide_eq_true address.symm)
        (List.find?_eq_none.1 isFound key listed)
  | some found =>
      have isSame := List.find?_some isFound
      have same := of_decide_eq_true isSame
      rw [keys.lladdr found (List.mem_of_find?_eq_some isFound) key listed
        (same.symm.trans address.symm)]

theorem KeysOk.nbrTableGetFromLladdr
    {tables : NbrTables maxNeighbors Table Lladdr Client}
    (keys : tables.KeysOk) {table : Table} {lladdr : Option Lladdr}
    {item : Fin maxNeighbors}
    (added : (tables.nbrTableAddLladdr modules table lladdr).1 = some item) :
    (tables.nbrTableAddLladdr modules table lladdr).2.nbrTableGetFromLladdr
      modules table lladdr = some item := by
  obtain ⟨key, found, finds, isAdded⟩ | full :=
    nbrTableAddLladdr_cases modules tables table lladdr
  · rw [isAdded, Option.some.injEq] at added
    subst added
    rw [isAdded]
    obtain ⟨foundKeys, listed, address⟩ := finds.keysOk modules keys
    have used := foundKeys.useItem modules table listed
    have index : (found.useItem modules table key).indexFromLladdr modules
        lladdr = some key := used.indexFromLladdr modules listed address
    unfold NbrTables.nbrTableGetFromLladdr
    dsimp only
    rw [index]
    refine if_pos ?_
    change ((found.nbrSetBit found.usedMap table (some key) true).2
      key).getLsbD (found.index table) = true
    rw [getLsbD_nbrSetBit]
    simp
  · rw [full] at added
    simp at added

theorem nbrTableAddLladdr_evicts
    {tables : NbrTables maxNeighbors Table Lladdr Client}
    (keys : tables.KeysOk) (table : Table) (lladdr : Option Lladdr) :
    (∀ key, Evicted tables
        (tables.nbrTableAddLladdr modules table lladdr).2 key →
      EvictionOk tables (tables.nbrTableAddLladdr modules table lladdr).2
        key) ∧
    ((∀ key, ¬ Evicted tables
        (tables.nbrTableAddLladdr modules table lladdr).2 key) →
      (tables.nbrTableAddLladdr modules table lladdr).2.calls =
        tables.calls) := by
  obtain ⟨key, found, finds, added⟩ | full :=
    nbrTableAddLladdr_cases modules tables table lladdr
  · rw [added]
    cases finds with
    | listed member address =>
        exact ⟨fun key evicted => absurd rfl evicted.2, fun _ => rfl⟩
    | free unknown unused =>
        refine ⟨fun other evicted => absurd ?_ evicted.2, fun _ => rfl⟩
        refine Function.update_of_ne ?_ _ _
        rintro rfl
        exact unused ((keys.mem_iff other).1 evicted.1)
    | evicted unknown member unlocked told isTold =>
        have clears : ClearsBits tables told := by
          rw [isTold]
          exact clearsBits_callBacks modules key tables _
        have toldCalls : told.calls = ((List.finRange maxNumTables).foldl
            (callBack modules key) tables).calls := by
          rw [isTold]
        have isEvicted : Evicted tables (({ told with
            usedMap := Function.update told.usedMap key 0
            nbrTableKeys := told.nbrTableKeys.erase key }.listKey key
              (lladdr.getD modules.linkaddrNull)).useItem modules table key)
                key := by
          refine ⟨member, fun same => unknown key member ?_⟩
          rw [← same]
          exact Function.update_self _ _ _
        refine ⟨fun other evicted => ?_, fun none => absurd isEvicted
          (none key)⟩
        by_cases same : other = key
        · rw [same]
          exact evictionOk_callBacks modules unlocked toldCalls
        · refine absurd ?_ evicted.2
          exact (Function.update_of_ne same _ _).trans
            (congrFun clears.lladdr other)
  · rw [full]
    exact ⟨fun key evicted => absurd rfl evicted.2, fun _ => rfl⟩

theorem RegisteredOnce.nbrTableAddLladdr
    {tables : NbrTables maxNeighbors Table Lladdr Client}
    (registered : tables.RegisteredOnce) (table : Table)
    (lladdr : Option Lladdr) :
    (tables.nbrTableAddLladdr modules table lladdr).2.RegisteredOnce := by
  obtain ⟨key, found, finds, added⟩ | full :=
    nbrTableAddLladdr_cases modules tables table lladdr
  · rw [added]
    cases finds with
    | listed _ _ =>
        exact registered
    | free _ _ =>
        exact registered
    | evicted _ _ _ told isTold =>
        have clears : ClearsBits tables told := by
          rw [isTold]
          exact clearsBits_callBacks modules key tables _
        have toldRegistered := clears.registeredOnce registered
        exact fun place other isOther => toldRegistered place other isOther
  · rw [full]
    exact registered

/-! ## Runs -/

/-- The operations on the tables. -/
inductive Operation (maxNeighbors : Nat) (Table Lladdr : Type) where
  | register (table : Table) (hasCallback : Bool)
  | addLladdr (table : Table) (lladdr : Option Lladdr)
  | remove (table : Table) (item : Option (Fin maxNeighbors))
  | lock (table : Table) (item : Option (Fin maxNeighbors))
  | unlock (table : Table) (item : Option (Fin maxNeighbors))

variable [DecidableEq Table]

def step (tables : NbrTables maxNeighbors Table Lladdr Client) :
    Operation maxNeighbors Table Lladdr →
    NbrTables maxNeighbors Table Lladdr Client
  | .register table hasCallback =>
      (tables.nbrTableRegister table hasCallback).2
  | .addLladdr table lladdr =>
      (tables.nbrTableAddLladdr modules table lladdr).2
  | .remove table item => (tables.nbrTableRemove table item).2
  | .lock table item => (tables.nbrTableLock table item).2
  | .unlock table item => (tables.nbrTableUnlock table item).2

def run (tables : NbrTables maxNeighbors Table Lladdr Client)
    (operations : List (Operation maxNeighbors Table Lladdr)) :
    NbrTables maxNeighbors Table Lladdr Client :=
  operations.foldl (step modules) tables

/-- A table that is registered is not registered before. -/
def RegistersNew (tables : NbrTables maxNeighbors Table Lladdr Client) :
    Operation maxNeighbors Table Lladdr → Prop
  | .register table _ => ∀ place, tables.allTables place ≠ some table
  | _ => True

/-- No table of a run is registered twice. -/
def RegistersNewRun (tables : NbrTables maxNeighbors Table Lladdr Client) :
    List (Operation maxNeighbors Table Lladdr) → Prop
  | [] => True
  | operation :: rest =>
      tables.RegistersNew operation ∧
        (tables.step modules operation).RegistersNewRun rest

theorem KeysOk.step
    {tables : NbrTables maxNeighbors Table Lladdr Client}
    (keys : tables.KeysOk)
    (operation : Operation maxNeighbors Table Lladdr) :
    (tables.step modules operation).KeysOk := by
  cases operation with
  | register table hasCallback =>
      unfold NbrTables.step nbrTableRegister
      dsimp only
      split
      · exact ⟨keys.nodup, keys.mem_iff, keys.lladdr, keys.used⟩
      · exact keys
  | addLladdr table lladdr =>
      exact keys.nbrTableAddLladdr modules table lladdr
  | remove table item =>
      exact keys.clearsBits
        (ownItems_nbrTableRemove tables table item).clearsBits
  | lock table item =>
      exact ⟨keys.nodup, keys.mem_iff, keys.lladdr, keys.used⟩
  | unlock table item =>
      exact keys.clearsBits (clearsBits_nbrTableUnlock tables table item)

theorem KeysOk.run
    {tables : NbrTables maxNeighbors Table Lladdr Client}
    (keys : tables.KeysOk)
    (operations : List (Operation maxNeighbors Table Lladdr)) :
    (tables.run modules operations).KeysOk := by
  induction operations generalizing tables with
  | nil =>
      exact keys
  | cons operation rest inductionHypothesis =>
      exact inductionHypothesis (keys.step modules operation)

theorem RegisteredOnce.step
    {tables : NbrTables maxNeighbors Table Lladdr Client}
    (registered : tables.RegisteredOnce)
    {operation : Operation maxNeighbors Table Lladdr}
    (new : tables.RegistersNew operation) :
    (tables.step modules operation).RegisteredOnce := by
  cases operation with
  | register table hasCallback =>
      unfold NbrTables.step nbrTableRegister
      dsimp only
      split
      · next room =>
          intro place other isOther
          dsimp only at isOther ⊢
          rw [Function.update_apply] at isOther
          split at isOther
          · next same =>
              rw [Option.some.injEq] at isOther
              rw [← isOther, Function.update_self, same]
              exact ⟨rfl, Nat.lt_succ_self _⟩
          · have different : other ≠ table := by
              rintro rfl
              exact new place isOther
            obtain ⟨index, bound⟩ := registered place other isOther
            rw [Function.update_of_ne different]
            exact ⟨index, Nat.lt_succ_of_lt bound⟩
      · exact registered
  | addLladdr table lladdr =>
      exact registered.nbrTableAddLladdr modules table lladdr
  | remove table item =>
      exact registered
  | lock table item =>
      exact registered
  | unlock table item =>
      exact registered

theorem RegisteredOnce.run
    {tables : NbrTables maxNeighbors Table Lladdr Client}
    (registered : tables.RegisteredOnce)
    {operations : List (Operation maxNeighbors Table Lladdr)}
    (new : tables.RegistersNewRun modules operations) :
    (tables.run modules operations).RegisteredOnce := by
  induction operations generalizing tables with
  | nil =>
      exact registered
  | cons operation rest inductionHypothesis =>
      exact inductionHypothesis (registered.step modules new.1) new.2

/-- Keys are evicted by `nbr_table_add_lladdr` only. -/
theorem KeysOk.step_evicts
    {tables : NbrTables maxNeighbors Table Lladdr Client}
    (keys : tables.KeysOk)
    (operation : Operation maxNeighbors Table Lladdr) :
    (∀ key, Evicted tables (tables.step modules operation) key →
      EvictionOk tables (tables.step modules operation) key) ∧
    ((∀ key, ¬ Evicted tables (tables.step modules operation) key) →
      (tables.step modules operation).calls = tables.calls) := by
  cases operation with
  | register table hasCallback =>
      unfold NbrTables.step nbrTableRegister
      dsimp only
      split
      · exact ⟨fun key evicted => absurd rfl evicted.2, fun _ => rfl⟩
      · exact ⟨fun key evicted => absurd rfl evicted.2, fun _ => rfl⟩
  | addLladdr table lladdr =>
      exact nbrTableAddLladdr_evicts modules keys table lladdr
  | remove table item =>
      exact ⟨fun key evicted => absurd rfl evicted.2, fun _ => rfl⟩
  | lock table item =>
      exact ⟨fun key evicted => absurd rfl evicted.2, fun _ => rfl⟩
  | unlock table item =>
      exact ⟨fun key evicted => absurd rfl evicted.2, fun _ => rfl⟩

/-- What holds of the neighbour tables after every sequence of operations.  If
no table is registered twice, a table is told of the eviction of its items
exactly once. -/
theorem nbrTables_run (lladdr : Lladdr) (client : Client)
    (operations : List (Operation maxNeighbors Table Lladdr)) :
    let tables := (initial lladdr client :
      NbrTables maxNeighbors Table Lladdr Client).run modules operations
    (tables.nbrTableKeys.Nodup ∧
      ∀ first ∈ tables.nbrTableKeys, ∀ second ∈ tables.nbrTableKeys,
        tables.lladdr first = tables.lladdr second → first = second) ∧
    (∀ table item, tables.nbrGetBit tables.usedMap table (some item) →
      item ∈ tables.nbrTableKeys) ∧
    (∀ operation key, tables.lockedMap key ≠ 0 →
      ¬ Evicted tables (tables.step modules operation) key) ∧
    (∀ table lladdr item,
      (tables.nbrTableAddLladdr modules table lladdr).1 = some item →
      (tables.nbrTableAddLladdr modules table
        lladdr).2.nbrTableGetFromLladdr modules table lladdr = some item) ∧
    ((initial lladdr client :
        NbrTables maxNeighbors Table Lladdr Client).RegistersNewRun modules
          operations →
      ∀ operation, ∃ calls,
        (tables.step modules operation).calls = tables.calls ++ calls ∧
        calls.Nodup ∧ ∀ table item, (table, item) ∈ calls ↔
          Evicted tables (tables.step modules operation) item ∧
          (∃ place, tables.allTables place = some table) ∧
          tables.hasCallback table ∧
          tables.nbrGetBit tables.usedMap table (some item)) := by
  intro tables
  have keys : tables.KeysOk :=
    (keysOk_initial lladdr client).run modules operations
  refine ⟨⟨keys.nodup, keys.lladdr⟩, fun table item isSet => ?_,
    fun operation key locked evicted => ?_, fun table lladdr item => ?_,
    fun new operation => ?_⟩
  · exact keys.used item _ isSet
  · exact locked ((keys.step_evicts modules operation).1 key evicted).unlocked
  · exact keys.nbrTableGetFromLladdr modules
  · have registered : tables.RegisteredOnce :=
      RegisteredOnce.run modules (by simp [RegisteredOnce, initial]) new
    obtain ⟨ofEvicted, ofNone⟩ := keys.step_evicts modules operation
    by_cases some : ∃ key, Evicted tables (tables.step modules operation) key
    · obtain ⟨key, evicted⟩ := some
      obtain ⟨calls, isCalls, nodup, mem_iff⟩ :=
        (ofEvicted key evicted).calls registered
      refine ⟨calls, isCalls, nodup, fun table item => ⟨fun called => ?_,
        fun ⟨isEvicted, registeredAt, uses⟩ => ?_⟩⟩
      · obtain ⟨rfl, registeredAt, uses⟩ := (mem_iff table item).1 called
        exact ⟨evicted, registeredAt, uses⟩
      · obtain ⟨same, isSame, _, same_mem_iff⟩ :=
          (ofEvicted item isEvicted).calls registered
        rw [isSame, List.append_cancel_left_eq] at isCalls
        rw [← isCalls]
        exact (same_mem_iff table item).2 ⟨rfl, registeredAt, uses⟩
    · rw [not_exists] at some
      refine ⟨[], by rw [ofNone some, List.append_nil], List.nodup_nil,
        fun table item => ?_⟩
      simp [some item]

/-- Two tables that remove their item when they are told to. -/
def removingModules : Tables 1 Bool UInt8 Unit where
  linkaddrNull := 0
  clear := fun _ _ _ => ()
  callback := fun table item tables =>
    (tables.nbrTableRemove table (some item)).2
  own := fun table item tables =>
    ownItems_nbrTableRemove tables table (some item)

def bothUse : List (Operation 1 Bool UInt8) :=
  [.register false true, .register true true, .addLladdr false (some 1),
    .addLladdr true (some 1)]

theorem bothUse_told :
    ∃ calls, (((initial 0 () : NbrTables 1 Bool UInt8 Unit).run
        removingModules bothUse).step removingModules
          (.addLladdr false (some 2))).calls = [] ++ calls ∧ calls.Nodup ∧
      ∀ table, (table, 0) ∈ calls := by
  obtain ⟨_, _, _, _, told⟩ := nbrTables_run removingModules 0 () bothUse
  have new : (initial 0 () : NbrTables 1 Bool UInt8 Unit).RegistersNewRun
      removingModules bothUse := by
    refine ⟨fun place => ?_, fun place => ?_, trivial, trivial, trivial⟩ <;>
      revert place <;> decide +kernel
  obtain ⟨calls, isCalls, nodup, mem_iff⟩ := told new
    (.addLladdr false (some 2))
  refine ⟨calls, isCalls, nodup, fun table => (mem_iff table 0).2 ⟨?_, ?_⟩⟩
  · exact ⟨by decide +kernel, by decide +kernel⟩
  · revert table
    decide +kernel

/-- A table that keeps its item when it is told to remove it. -/
def keepingModules : Tables 1 Unit UInt8 Unit where
  linkaddrNull := 0
  clear := fun _ _ _ => ()
  callback := fun _ _ tables => tables
  own := fun table _ tables => OwnItems.refl table tables

/-- A table that is registered twice is told of an eviction twice. -/
theorem registeredTwice_toldTwice :
    ¬ ∀ (operations : List (Operation 1 Unit UInt8)) operation,
      let tables := (initial 0 () : NbrTables 1 Unit UInt8 Unit).run
        keepingModules operations
      ∃ calls, (tables.step keepingModules operation).calls =
          tables.calls ++ calls ∧ calls.Nodup ∧
        ∀ table item, (table, item) ∈ calls ↔
          Evicted tables (tables.step keepingModules operation) item ∧
          tables.hasCallback table ∧
          tables.nbrGetBit tables.usedMap table (some item) := by
  intro once
  obtain ⟨calls, isCalls, nodup, _⟩ := once
    [.register () true, .register () true, .addLladdr () (some 1)]
    (.addLladdr () (some 2))
  have twice : (((initial 0 () : NbrTables 1 Unit UInt8 Unit).run
      keepingModules [.register () true, .register () true,
        .addLladdr () (some 1)]).step keepingModules
          (.addLladdr () (some 2))).calls = [((), 0), ((), 0)] := by
    decide +kernel
  rw [twice] at isCalls
  change _ = [] ++ calls at isCalls
  rw [← isCalls.trans (List.nil_append calls)] at nodup
  revert nodup
  decide

end NbrTables

end Contiki.Net
