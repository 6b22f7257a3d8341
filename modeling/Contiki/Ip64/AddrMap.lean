import Contiki.Lib.Pool

/-!
# The address map of ip64

`ip64-addrmap.c`.  A pointer to an entry is the index of its block, and the
entries are listed in the order in which they were created.
-/

namespace Contiki.Ip64

open Contiki.Lib

/-- `struct timer` -/
structure Timer (width : Nat) where
  start : BitVec width
  interval : BitVec width

/-- `timer_expired` -/
def Timer.expired {width : Nat} (timer : Timer width)
    (clockTime : BitVec width) : Bool :=
  timer.interval < clockTime - timer.start + 1

/-- `timer_remaining` -/
def Timer.remaining {width : Nat} (timer : Timer width)
    (clockTime : BitVec width) : BitVec width :=
  timer.start + timer.interval - clockTime

abbrev Ip6Addr := Vector UInt8 16

abbrev Ip4Addr := Vector UInt8 4

/-- `struct ip64_addrmap_entry`, with the flag `FLAGS_RECYCLABLE`. -/
structure Entry (width : Nat) where
  timer : Timer width
  ip6addr : Ip6Addr
  ip4addr : Ip4Addr
  mappedPort : UInt16
  ip6port : UInt16
  ip4port : UInt16
  protocol : UInt8
  recyclable : Bool

def firstMappedPort : UInt16 := 10000
def lastMappedPort : UInt16 := 20000

/-- The entries, of which `NUM_ENTRIES` can be in use, the next port, and the
clock. -/
structure AddrMap (numEntries width : Nat) where
  entries : Pool numEntries (Entry width)
  mappedPort : UInt16
  clockTime : BitVec width

variable {numEntries width : Nat}

namespace AddrMap

def entry (map : AddrMap numEntries width) (m : Fin numEntries) :
    Entry width :=
  map.entries.slots m

def expired (map : AddrMap numEntries width) (m : Fin numEntries) : Bool :=
  (map.entry m).timer.expired map.clockTime

/-- `list_remove` and `memb_free` -/
def remove (map : AddrMap numEntries width) (m : Fin numEntries) :
    AddrMap numEntries width :=
  { map with entries := map.entries.release m }

/-- The loop of `check_age`, for at most so many rounds. -/
def checkAgeFrom : Nat → AddrMap numEntries width →
    Option (Fin numEntries) → Option (AddrMap numEntries width)
  | 0, _, _ => none
  | _ + 1, map, none => some map
  | rounds + 1, map, some m =>
      if map.expired m then
        checkAgeFrom rounds (map.remove m) (map.remove m).entries.list.head?
      else checkAgeFrom rounds map (map.entries.next m)

/-- `check_age` -/
def checkAge (map : AddrMap numEntries width) :
    Option (AddrMap numEntries width) :=
  checkAgeFrom ((numEntries + 1) * (numEntries + 1)) map
    map.entries.list.head?

/-- The loop of `recycle` at one entry. -/
def older (map : AddrMap numEntries width)
    (oldest : Option (Fin numEntries)) (m : Fin numEntries) :
    Option (Fin numEntries) :=
  if (map.entry m).recyclable then
    match oldest with
    | none => some m
    | some other =>
        if (map.entry m).timer.remaining map.clockTime <
            (map.entry other).timer.remaining map.clockTime then some m
        else oldest
  else oldest

/-- `recycle` -/
def recycle (map : AddrMap numEntries width) :
    Bool × AddrMap numEntries width :=
  match map.entries.list.foldl map.older none with
  | some oldest => (true, map.remove oldest)
  | none => (false, map)

/-- `ip64_addrmap_lookup` -/
def ip64AddrmapLookup (map : AddrMap numEntries width) (ip6addr : Ip6Addr)
    (ip6port : UInt16) (ip4addr : Ip4Addr) (ip4port : UInt16)
    (protocol : UInt8) :
    Option (Option (Fin numEntries) × AddrMap numEntries width) :=
  match map.checkAge with
  | none => none
  | some map =>
      some (map.entries.list.find? fun m =>
        (map.entry m).protocol = protocol ∧
        (map.entry m).ip4port = ip4port ∧ (map.entry m).ip6port = ip6port ∧
        (map.entry m).ip4addr = ip4addr ∧ (map.entry m).ip6addr = ip6addr,
        map)

/-- `ip64_addrmap_lookup_port` -/
def ip64AddrmapLookupPort (map : AddrMap numEntries width)
    (mappedPort : UInt16) (protocol : UInt8) :
    Option (Option (Fin numEntries) × AddrMap numEntries width) :=
  match map.checkAge with
  | none => none
  | some map =>
      some (map.entries.list.find? fun m =>
        (map.entry m).mappedPort = mappedPort ∧
        (map.entry m).protocol = protocol, map)

/-- `increase_mapped_port` with a result of `random_rand`. -/
def increaseMappedPort (rand : UInt16) : UInt16 :=
  rand % (lastMappedPort - firstMappedPort) + firstMappedPort

/-- The loop of `ip64_addrmap_create` that picks a port, for at most so many
rounds, with the results of `random_rand`.  The next entry is looked up at
the new entry. -/
def pickPort (map : AddrMap numEntries width) (m : Fin numEntries) :
    Nat → Option (Fin numEntries) → List UInt16 → UInt16 →
      Option (List UInt16 × UInt16)
  | 0, _, _, _ => none
  | _ + 1, none, rands, port => some (rands, port)
  | rounds + 1, some n, rands, port =>
      if (map.entry n).mappedPort = port then
        match rands with
        | [] => none
        | rand :: rands =>
            pickPort map m rounds map.entries.list.head? rands
              (increaseMappedPort rand)
      else pickPort map m rounds (map.entries.next m) rands port

/-- `memb_alloc` in `ip64_addrmap_create`, which recycles an entry if there is
no free one. -/
def alloc (map : AddrMap numEntries width) :
    Option (Fin numEntries) × AddrMap numEntries width :=
  match map.entries.firstFree with
  | some m => (some m, map)
  | none =>
      if map.recycle.1 then
        (map.recycle.2.entries.firstFree, map.recycle.2)
      else (none, map.recycle.2)

/-- `ip64_addrmap_create` with the results of `random_rand` during the call,
or no result if these do not suffice. -/
def ip64AddrmapCreate (map : AddrMap numEntries width) (ip6addr : Ip6Addr)
    (ip6port : UInt16) (ip4addr : Ip4Addr) (ip4port : UInt16)
    (protocol : UInt8) (rands : List UInt16) :
    Option (Option (Fin numEntries) × AddrMap numEntries width) :=
  match map.checkAge with
  | none => none
  | some map =>
      match map.alloc with
      | (none, map) => some (none, map)
      | (some m, map) =>
          match map.pickPort m (rands.length + 2) map.entries.list.head?
              rands map.mappedPort with
          | some (rand :: _, port) =>
              some (some m,
                { map with
                  entries := (map.entries.set m
                    { ip4addr := ip4addr
                      ip4port := ip4port
                      ip6addr := ip6addr
                      ip6port := ip6port
                      protocol := protocol
                      recyclable := false
                      timer := { start := map.clockTime, interval := 0 }
                      mappedPort := port }).take m
                  mappedPort := increaseMappedPort rand })
          | _ => none

/-- `ip64_addrmap_set_lifetime` -/
def ip64AddrmapSetLifetime (map : AddrMap numEntries width) :
    Option (Fin numEntries) → BitVec width → AddrMap numEntries width
  | none, _ => map
  | some e, time =>
      { map with
        entries := map.entries.set e
          { map.entry e with
            timer := { start := map.clockTime, interval := time } } }

/-- `ip64_addrmap_set_recycleble` -/
def ip64AddrmapSetRecycleble (map : AddrMap numEntries width) :
    Option (Fin numEntries) → AddrMap numEntries width
  | none => map
  | some e =>
      { map with
        entries := map.entries.set e { map.entry e with recyclable := true } }

end AddrMap

end Contiki.Ip64
