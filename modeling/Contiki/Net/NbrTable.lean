import Mathlib.Data.List.FinRange
import Mathlib.Data.List.Nodup
import Mathlib.Logic.Function.Basic

/-!
# Neighbour tables

All neighbour tables share one list of keys.  A map for each key says which
tables use it and another one which tables lock it.  When there is no room for
a key, one that no table locks and few tables use is evicted, and the tables
that use it are told so.
-/

namespace Contiki.Net

/-- `MAX_NUM_TABLES` -/
def maxNumTables : Nat := 8

/-- The static variables of the neighbour tables.  An item of a table has the
index of its key, and `client` is what the tables themselves hold. -/
structure NbrTables (maxNeighbors : Nat) (Table Lladdr Client : Type) where
  usedMap : Fin maxNeighbors → BitVec 8
  lockedMap : Fin maxNeighbors → BitVec 8
  allTables : Fin maxNumTables → Option Table
  numTables : Nat
  /-- `table->index` -/
  index : Table → Fin maxNumTables
  /-- `table->callback` is not `NULL`. -/
  hasCallback : Table → Bool
  /-- The keys that `neighbor_addr_mem` has given out. -/
  neighborAddrMem : Fin maxNeighbors → Bool
  nbrTableKeys : List (Fin maxNeighbors)
  lladdr : Fin maxNeighbors → Lladdr
  client : Client
  /-- The callbacks so far, with the removed items. -/
  calls : List (Table × Fin maxNeighbors)

namespace NbrTables

variable {maxNeighbors : Nat} {Table Lladdr Client : Type}

/-- `nbr_get_bit` -/
def nbrGetBit (tables : NbrTables maxNeighbors Table Lladdr Client)
    (bitmap : Fin maxNeighbors → BitVec 8) (table : Table)
    (item : Option (Fin maxNeighbors)) : Bool :=
  match item with
  | some item => (bitmap item).getLsbD (tables.index table)
  | none => false

/-- `nbr_set_bit` -/
def nbrSetBit (tables : NbrTables maxNeighbors Table Lladdr Client)
    (bitmap : Fin maxNeighbors → BitVec 8) (table : Table)
    (item : Option (Fin maxNeighbors)) (value : Bool) :
    Bool × (Fin maxNeighbors → BitVec 8) :=
  match item with
  | some item =>
      let bit := BitVec.twoPow 8 (tables.index table)
      (true, Function.update bitmap item
        (if value then bitmap item ||| bit else bitmap item &&& ~~~ bit))
  | none => (false, bitmap)

/-- `nbr_table_remove` -/
def nbrTableRemove (tables : NbrTables maxNeighbors Table Lladdr Client)
    (table : Table) (item : Option (Fin maxNeighbors)) :
    Bool × NbrTables maxNeighbors Table Lladdr Client :=
  let (ret, usedMap) := tables.nbrSetBit tables.usedMap table item false
  (ret, { tables with
    usedMap := usedMap
    lockedMap := (tables.nbrSetBit tables.lockedMap table item false).2 })

/-- `nbr_table_lock` -/
def nbrTableLock (tables : NbrTables maxNeighbors Table Lladdr Client)
    (table : Table) (item : Option (Fin maxNeighbors)) :
    Bool × NbrTables maxNeighbors Table Lladdr Client :=
  let (ret, lockedMap) := tables.nbrSetBit tables.lockedMap table item true
  (ret, { tables with lockedMap := lockedMap })

/-- `nbr_table_unlock` -/
def nbrTableUnlock (tables : NbrTables maxNeighbors Table Lladdr Client)
    (table : Table) (item : Option (Fin maxNeighbors)) :
    Bool × NbrTables maxNeighbors Table Lladdr Client :=
  let (ret, lockedMap) := tables.nbrSetBit tables.lockedMap table item false
  (ret, { tables with lockedMap := lockedMap })

/-- A table changes nothing but its own items: it may remove and unlock
them. -/
structure OwnItems (table : Table)
    (before after : NbrTables maxNeighbors Table Lladdr Client) : Prop where
  used : ∀ item bit, (after.usedMap item).getLsbD bit →
    (before.usedMap item).getLsbD bit
  locked : ∀ item bit, (after.lockedMap item).getLsbD bit →
    (before.lockedMap item).getLsbD bit
  usedOther : ∀ item bit, bit ≠ (before.index table).val →
    (after.usedMap item).getLsbD bit = (before.usedMap item).getLsbD bit
  allTables : after.allTables = before.allTables
  numTables : after.numTables = before.numTables
  index : after.index = before.index
  hasCallback : after.hasCallback = before.hasCallback
  neighborAddrMem : after.neighborAddrMem = before.neighborAddrMem
  nbrTableKeys : after.nbrTableKeys = before.nbrTableKeys
  lladdr : after.lladdr = before.lladdr
  calls : after.calls = before.calls

end NbrTables

/-- What the modules with a table do. -/
structure Tables (maxNeighbors : Nat) (Table Lladdr Client : Type) where
  /-- `linkaddr_null` -/
  linkaddrNull : Lladdr
  /-- `memset` of an item of a table. -/
  clear : Table → Fin maxNeighbors → Client → Client
  /-- The callback of a table, if it has one. -/
  callback : Table → Fin maxNeighbors →
    NbrTables maxNeighbors Table Lladdr Client →
    NbrTables maxNeighbors Table Lladdr Client
  own : ∀ table item tables,
    NbrTables.OwnItems table tables (callback table item tables)

namespace NbrTables

variable {maxNeighbors : Nat} {Table Lladdr Client : Type}
  (modules : Tables maxNeighbors Table Lladdr Client)

/-- The number of tables that use a key. -/
def usedCount (tables : NbrTables maxNeighbors Table Lladdr Client)
    (key : Fin maxNeighbors) : Nat :=
  (List.range 8).countP fun bit => (tables.usedMap key).getLsbD bit

/-- The loop of `nbr_table_allocate` over the keys. -/
def leastUsedKey (tables : NbrTables maxNeighbors Table Lladdr Client) :
    List (Fin maxNeighbors) → Option (Fin maxNeighbors) →
    Option (Fin maxNeighbors)
  | [], leastUsed => leastUsed
  | key :: rest, leastUsed =>
      -- never delete a locked item
      if tables.lockedMap key = 0 ∧ leastUsed.all fun leastUsed =>
          tables.usedCount key < tables.usedCount leastUsed then
        if tables.usedCount key = 0 then some key
        else tables.leastUsedKey rest (some key)
      else tables.leastUsedKey rest leastUsed

/-- The callback of one of all tables, if it uses the key. -/
def callBack (key : Fin maxNeighbors)
    (tables : NbrTables maxNeighbors Table Lladdr Client)
    (place : Fin maxNumTables) :
    NbrTables maxNeighbors Table Lladdr Client :=
  match tables.allTables place with
  | none => tables
  | some table =>
      if tables.hasCallback table ∧
          tables.nbrGetBit tables.usedMap table (some key) then
        modules.callback table key
          { tables with calls := tables.calls ++ [(table, key)] }
      else tables

/-- `nbr_table_allocate` -/
def nbrTableAllocate (tables : NbrTables maxNeighbors Table Lladdr Client) :
    Option (Fin maxNeighbors) × NbrTables maxNeighbors Table Lladdr Client :=
  match (List.finRange maxNeighbors).find? fun key =>
      ¬ tables.neighborAddrMem key with
  | some key =>
      (some key, { tables with
        neighborAddrMem := Function.update tables.neighborAddrMem key true })
  | none =>
      match tables.leastUsedKey tables.nbrTableKeys none with
      | none => (none, tables)
      | some key =>
          let tables :=
            (List.finRange maxNumTables).foldl (callBack modules key) tables
          (some key, { tables with
            usedMap := Function.update tables.usedMap key 0
            nbrTableKeys := tables.nbrTableKeys.erase key })

/-- The end of `nbr_table_add_lladdr`. -/
def useItem (tables : NbrTables maxNeighbors Table Lladdr Client)
    (table : Table) (item : Fin maxNeighbors) :
    NbrTables maxNeighbors Table Lladdr Client :=
  { tables with
    client := modules.clear table item tables.client
    usedMap := (tables.nbrSetBit tables.usedMap table (some item) true).2 }

def listKey (tables : NbrTables maxNeighbors Table Lladdr Client)
    (key : Fin maxNeighbors) (lladdr : Lladdr) :
    NbrTables maxNeighbors Table Lladdr Client :=
  { tables with
    nbrTableKeys := tables.nbrTableKeys.erase key ++ [key]
    lladdr := Function.update tables.lladdr key lladdr }

variable [DecidableEq Lladdr]

/-- `index_from_lladdr` for an address or `NULL`. -/
def indexFromLladdr (tables : NbrTables maxNeighbors Table Lladdr Client)
    (lladdr : Option Lladdr) : Option (Fin maxNeighbors) :=
  tables.nbrTableKeys.find? fun key =>
    lladdr.getD modules.linkaddrNull = tables.lladdr key

/-- `nbr_table_add_lladdr` -/
def nbrTableAddLladdr (tables : NbrTables maxNeighbors Table Lladdr Client)
    (table : Table) (lladdr : Option Lladdr) :
    Option (Fin maxNeighbors) × NbrTables maxNeighbors Table Lladdr Client :=
  match tables.indexFromLladdr modules lladdr with
  | some item => (some item, tables.useItem modules table item)
  | none =>
      match tables.nbrTableAllocate modules with
      | (none, tables) => (none, tables)
      | (some key, tables) =>
          (some key, (tables.listKey key
            (lladdr.getD modules.linkaddrNull)).useItem modules table key)

/-- `nbr_table_get_from_lladdr` -/
def nbrTableGetFromLladdr
    (tables : NbrTables maxNeighbors Table Lladdr Client) (table : Table)
    (lladdr : Option Lladdr) : Option (Fin maxNeighbors) :=
  let item := tables.indexFromLladdr modules lladdr
  if tables.nbrGetBit tables.usedMap table item then item else none

variable [DecidableEq Table]

/-- `nbr_table_register` -/
def nbrTableRegister (tables : NbrTables maxNeighbors Table Lladdr Client)
    (table : Table) (hasCallback : Bool) :
    Bool × NbrTables maxNeighbors Table Lladdr Client :=
  if room : tables.numTables < maxNumTables then
    let index : Fin maxNumTables := ⟨tables.numTables, room⟩
    (true, { tables with
      index := Function.update tables.index table index
      numTables := tables.numTables + 1
      hasCallback := Function.update tables.hasCallback table hasCallback
      allTables := Function.update tables.allTables index (some table) })
  else (false, tables)

/-- Nothing is in use and no table is registered. -/
def initial (lladdr : Lladdr) (client : Client) :
    NbrTables maxNeighbors Table Lladdr Client where
  usedMap := fun _ => 0
  lockedMap := fun _ => 0
  allTables := fun _ => none
  numTables := 0
  index := fun _ => ⟨0, by decide⟩
  hasCallback := fun _ => false
  neighborAddrMem := fun _ => false
  nbrTableKeys := []
  lladdr := fun _ => lladdr
  client := client
  calls := []

end NbrTables

end Contiki.Net
