import Contiki.Net.NbrTableRuns

/-!
# The routing table

Each route is on the list of all routes and on the list of the neighbour that
is its next hop.  The lists of the neighbours are items of a neighbour table,
so that the routes through a neighbour that is evicted are removed.
-/

namespace Contiki.Net

/-- `uip_ipaddr_t` -/
abbrev IpAddr := Vector UInt8 16

/-- The neighbour tables. -/
inductive TableName where
  | ds6Neighbors
  | nbrRoutes
  | other (number : Nat)
  deriving DecidableEq

/-- The static variables of the routing table, the fields of routes and of
entries in the lists of neighbours, and the addresses in `ds6_neighbors`. -/
structure Routes (maxNeighbors routeNb : Nat) where
  routelist : List (Fin routeNb)
  routememb : Fin routeNb → Bool
  /-- `route->neighbor_routes` -/
  neighborRoutes : Fin routeNb → Option (Fin maxNeighbors)
  ipaddr : Fin routeNb → IpAddr
  length : Fin routeNb → UInt8
  neighborroutememb : Fin routeNb → Bool
  /-- `neighbor_route->route` -/
  route : Fin routeNb → Option (Fin routeNb)
  /-- `routes->route_list`, or `NULL`. -/
  routeList : Fin maxNeighbors → Option (List (Fin routeNb))
  numRoutes : Int
  nbrIpaddr : Fin maxNeighbors → IpAddr

/-- The neighbour tables with the routing table. -/
abbrev RouteTables (maxNeighbors routeNb : Nat) (Lladdr : Type) :=
  NbrTables maxNeighbors TableName Lladdr (Routes maxNeighbors routeNb)

namespace RouteTables

variable {maxNeighbors routeNb : Nat} {Lladdr : Type}

def modify (tables : RouteTables maxNeighbors routeNb Lladdr)
    (change : Routes maxNeighbors routeNb → Routes maxNeighbors routeNb) :
    RouteTables maxNeighbors routeNb Lladdr :=
  { tables with client := change tables.client }

/-- The routes through a neighbour, by `list_head` and `list_item_next`. -/
def listOf (tables : RouteTables maxNeighbors routeNb Lladdr)
    (neighbor : Fin maxNeighbors) : List (Fin routeNb) :=
  (tables.client.routeList neighbor).getD []

/-- The entry of a route in the list of a neighbour. -/
def neighborRoute (tables : RouteTables maxNeighbors routeNb Lladdr)
    (neighbor : Fin maxNeighbors) (route : Fin routeNb) :
    Option (Fin routeNb) :=
  (tables.listOf neighbor).find? fun entry =>
    tables.client.route entry = some route

def unlinkRoute (tables : RouteTables maxNeighbors routeNb Lladdr)
    (neighbor : Fin maxNeighbors) (route : Fin routeNb) :
    RouteTables maxNeighbors routeNb Lladdr :=
  tables.modify fun routes =>
    { routes with
      routelist := routes.routelist.erase route
      routeList := Function.update routes.routeList neighbor
        (match tables.neighborRoute neighbor route with
        | none => routes.routeList neighbor
        | some entry =>
            (routes.routeList neighbor).map fun list => list.erase entry) }

/-- `uip_ds6_route_rm` -/
def uipDs6RouteRm (tables : RouteTables maxNeighbors routeNb Lladdr)
    (route : Option (Fin routeNb)) :
    RouteTables maxNeighbors routeNb Lladdr :=
  match route with
  | none => tables
  | some route =>
      match tables.client.neighborRoutes route with
      | none => tables
      | some neighbor =>
          let entry := tables.neighborRoute neighbor route
          let tables := tables.unlinkRoute neighbor route
          let tables :=
            -- this was the only route using this neighbor
            if tables.listOf neighbor = [] then
              (tables.nbrTableRemove .nbrRoutes (some neighbor)).2
            else tables
          RouteTables.modify tables fun routes =>
            { routes with
              routememb := Function.update routes.routememb route false
              neighborroutememb := match entry with
                | none => routes.neighborroutememb
                | some entry =>
                    Function.update routes.neighborroutememb entry false
              numRoutes := routes.numRoutes - 1 }

/-- The loop of `rm_routelist`, for at most so many rounds. -/
def rmRoutes (neighbor : Fin maxNeighbors) :
    Nat → RouteTables maxNeighbors routeNb Lladdr →
    RouteTables maxNeighbors routeNb Lladdr
  | 0, tables => tables
  | rounds + 1, tables =>
      match tables.listOf neighbor with
      | [] => tables
      | entry :: _ =>
          rmRoutes neighbor rounds
            (tables.uipDs6RouteRm (tables.client.route entry))

/-- `rm_routelist`; each round removes the first entry of the list. -/
def rmRoutelist (tables : RouteTables maxNeighbors routeNb Lladdr)
    (item : Option (Fin maxNeighbors)) :
    RouteTables maxNeighbors routeNb Lladdr :=
  match item with
  | none => tables
  | some neighbor =>
      if (tables.client.routeList neighbor).isSome then
        ((rmRoutes neighbor (tables.listOf neighbor).length
          tables).nbrTableRemove .nbrRoutes (some neighbor)).2
      else tables

open NbrTables

theorem ownItems_modify (tables : RouteTables maxNeighbors routeNb Lladdr)
    (change : Routes maxNeighbors routeNb → Routes maxNeighbors routeNb) :
    OwnItems .nbrRoutes tables (tables.modify change) :=
  ⟨fun _ _ => id, fun _ _ => id, fun _ _ _ => rfl, rfl, rfl, rfl, rfl, rfl,
    rfl, rfl, rfl⟩

theorem ownItems_uipDs6RouteRm
    (tables : RouteTables maxNeighbors routeNb Lladdr)
    (route : Option (Fin routeNb)) :
    OwnItems .nbrRoutes tables (tables.uipDs6RouteRm route) := by
  unfold uipDs6RouteRm
  split
  · exact OwnItems.refl _ tables
  · next route =>
      split
      · exact OwnItems.refl _ tables
      · next neighbor _ =>
          have unlinked : OwnItems .nbrRoutes tables
              (tables.unlinkRoute neighbor route) :=
            ownItems_modify tables _
          refine OwnItems.trans ?_ (ownItems_modify _ _)
          split
          · exact unlinked.trans (ownItems_nbrTableRemove _ _ _)
          · exact unlinked

theorem ownItems_rmRoutes (neighbor : Fin maxNeighbors) (rounds : Nat)
    (tables : RouteTables maxNeighbors routeNb Lladdr) :
    OwnItems .nbrRoutes tables (rmRoutes neighbor rounds tables) := by
  induction rounds generalizing tables with
  | zero =>
      exact OwnItems.refl _ tables
  | succ rounds inductionHypothesis =>
      unfold rmRoutes
      split
      · exact OwnItems.refl _ tables
      · exact (ownItems_uipDs6RouteRm tables _).trans (inductionHypothesis _)

theorem ownItems_rmRoutelist
    (tables : RouteTables maxNeighbors routeNb Lladdr)
    (item : Option (Fin maxNeighbors)) :
    OwnItems .nbrRoutes tables (tables.rmRoutelist item) := by
  unfold rmRoutelist
  split
  · exact OwnItems.refl _ tables
  · split
    · exact (ownItems_rmRoutes _ _ tables).trans
        (ownItems_nbrTableRemove _ _ _)
    · exact OwnItems.refl _ tables

end RouteTables

/-- What is outside of the routing table: the other neighbour tables and the
bytes at the address `NULL`. -/
structure Surroundings (maxNeighbors routeNb : Nat) (Lladdr : Type) where
  linkaddrNull : Lladdr
  ipaddrAtNull : IpAddr
  callback : Nat → Fin maxNeighbors →
    RouteTables maxNeighbors routeNb Lladdr →
    RouteTables maxNeighbors routeNb Lladdr
  own : ∀ number item tables,
    NbrTables.OwnItems (.other number) tables (callback number item tables)
  client : ∀ number item tables,
    (callback number item tables).client = tables.client

/-- The items and the callbacks of all neighbour tables. -/
def Surroundings.tables {maxNeighbors routeNb : Nat} {Lladdr : Type}
    (surroundings : Surroundings maxNeighbors routeNb Lladdr) :
    Tables maxNeighbors TableName Lladdr (Routes maxNeighbors routeNb) where
  linkaddrNull := surroundings.linkaddrNull
  clear := fun table item routes => match table with
    | .ds6Neighbors =>
        { routes with
          nbrIpaddr := Function.update routes.nbrIpaddr item
            (Vector.replicate 16 0) }
    | .nbrRoutes =>
        { routes with
          routeList := Function.update routes.routeList item none }
    | .other _ => routes
  callback := fun table item tables => match table with
    -- `uip_ds6_nbr_rm`
    | .ds6Neighbors => (tables.nbrTableRemove .ds6Neighbors (some item)).2
    -- `rm_routelist_callback`
    | .nbrRoutes => RouteTables.rmRoutelist tables (some item)
    | .other number => surroundings.callback number item tables
  own := fun table item tables => match table with
    | .ds6Neighbors => NbrTables.ownItems_nbrTableRemove tables _ _
    | .nbrRoutes => RouteTables.ownItems_rmRoutelist tables _
    | .other number => surroundings.own number item tables

namespace RouteTables

variable {maxNeighbors routeNb : Nat} {Lladdr : Type} [DecidableEq Lladdr]
  (surroundings : Surroundings maxNeighbors routeNb Lladdr)

/-- `uip_ipaddr_prefixcmp` -/
def uipIpaddrPrefixcmp (addr1 addr2 : IpAddr) (length : UInt8) : Bool :=
  addr1.toList.take (length.toNat / 8) = addr2.toList.take (length.toNat / 8)

/-- `uip_ds6_nbr_lookup` -/
def uipDs6NbrLookup (tables : RouteTables maxNeighbors routeNb Lladdr)
    (ipaddr : IpAddr) : Option (Fin maxNeighbors) :=
  tables.nbrTableKeys.find? fun key =>
    tables.nbrGetBit tables.usedMap .ds6Neighbors (some key) ∧
      tables.client.nbrIpaddr key = ipaddr

/-- `uip_ds6_nbr_lladdr_from_ipaddr` -/
def uipDs6NbrLladdrFromIpaddr
    (tables : RouteTables maxNeighbors routeNb Lladdr) (ipaddr : IpAddr) :
    Option Lladdr :=
  (tables.uipDs6NbrLookup ipaddr).map tables.lladdr

/-- `uip_ds6_nbr_ipaddr_from_lladdr` -/
def uipDs6NbrIpaddrFromLladdr
    (tables : RouteTables maxNeighbors routeNb Lladdr)
    (lladdr : Option Lladdr) : Option IpAddr :=
  (tables.nbrTableGetFromLladdr surroundings.tables .ds6Neighbors
    lladdr).map tables.client.nbrIpaddr

/-- `uip_ds6_route_nexthop` -/
def uipDs6RouteNexthop (tables : RouteTables maxNeighbors routeNb Lladdr)
    (route : Fin routeNb) : Option IpAddr :=
  tables.uipDs6NbrIpaddrFromLladdr surroundings
    ((tables.client.neighborRoutes route).map tables.lladdr)

/-- The loop of `uip_ds6_route_lookup`. -/
def longestMatch (routes : Routes maxNeighbors routeNb) (addr : IpAddr) :
    List (Fin routeNb) → UInt8 → Option (Fin routeNb) → Option (Fin routeNb)
  | [], _, foundRoute => foundRoute
  | r :: rest, longestmatch, foundRoute =>
      if routes.length r ≥ longestmatch ∧
          uipIpaddrPrefixcmp addr (routes.ipaddr r) (routes.length r) then
        -- check if total match
        if routes.length r = 128 then some r
        else longestMatch routes addr rest (routes.length r) (some r)
      else longestMatch routes addr rest longestmatch foundRoute

/-- `uip_ds6_route_lookup` -/
def uipDs6RouteLookup (tables : RouteTables maxNeighbors routeNb Lladdr)
    (addr : IpAddr) :
    Option (Fin routeNb) × RouteTables maxNeighbors routeNb Lladdr :=
  let routelist := tables.client.routelist
  match longestMatch tables.client addr routelist 0 none with
  | none => (none, tables)
  | some found =>
      if routelist.head? = some found then (some found, tables)
      else
        (some found, tables.modify fun routes =>
          { routes with routelist := found :: routelist.erase found })

/-- The first block that a pool has not given out. -/
def membAlloc (memb : Fin routeNb → Bool) : Option (Fin routeNb) :=
  (List.finRange routeNb).find? fun block => ¬ memb block

/-- The entry of the neighbour in `nbr_routes`, which is new if there is
none. -/
def neighborEntry (tables : RouteTables maxNeighbors routeNb Lladdr)
    (lladdr : Lladdr) :
    Option (Fin maxNeighbors) × RouteTables maxNeighbors routeNb Lladdr :=
  match tables.nbrTableGetFromLladdr surroundings.tables .nbrRoutes
      (some lladdr) with
  | some neighbor => (some neighbor, tables)
  | none =>
      match tables.nbrTableAddLladdr surroundings.tables .nbrRoutes
          (some lladdr) with
      | (none, tables) => (none, tables)
      | (some neighbor, tables) =>
          (some neighbor, RouteTables.modify tables fun routes =>
            { routes with
              routeList :=
                Function.update routes.routeList neighbor (some []) })

def linkRoute (tables : RouteTables maxNeighbors routeNb Lladdr)
    (neighbor : Fin maxNeighbors) (ipaddr : IpAddr) (length : UInt8) :
    Option (Fin routeNb) × RouteTables maxNeighbors routeNb Lladdr :=
  match membAlloc tables.client.routememb with
  | none => (none, tables)
  | some r =>
      let tables := tables.modify fun routes =>
        { routes with
          routememb := Function.update routes.routememb r true
          routelist := r :: routes.routelist.erase r }
      match membAlloc tables.client.neighborroutememb with
      | none =>
          (none, tables.modify fun routes =>
            { routes with
              routememb := Function.update routes.routememb r false })
      | some nbrr =>
          (some r, tables.modify fun routes =>
            { routes with
              neighborroutememb :=
                Function.update routes.neighborroutememb nbrr true
              route := Function.update routes.route nbrr (some r)
              routeList := Function.update routes.routeList neighbor
                ((routes.routeList neighbor).map fun list =>
                  list.erase nbrr ++ [nbrr])
              neighborRoutes :=
                Function.update routes.neighborRoutes r (some neighbor)
              numRoutes := routes.numRoutes + 1
              ipaddr := Function.update routes.ipaddr r ipaddr
              length := Function.update routes.length r length })

/-- The least recently used route makes room. -/
def makeRoom (tables : RouteTables maxNeighbors routeNb Lladdr) :
    RouteTables maxNeighbors routeNb Lladdr :=
  if tables.client.numRoutes = routeNb then
    tables.uipDs6RouteRm tables.client.routelist.getLast?
  else tables

/-- The end of `uip_ds6_route_add`: there is no route for the destination. -/
def addRoute (tables : RouteTables maxNeighbors routeNb Lladdr)
    (lladdr : Lladdr) (ipaddr : IpAddr) (length : UInt8) :
    Option (Fin routeNb) × RouteTables maxNeighbors routeNb Lladdr :=
  match tables.makeRoom.neighborEntry surroundings lladdr with
  | (none, tables) => (none, tables)
  | (some neighbor, tables) => tables.linkRoute neighbor ipaddr length

/-- `uip_ds6_route_add` -/
def uipDs6RouteAdd (tables : RouteTables maxNeighbors routeNb Lladdr)
    (ipaddr : IpAddr) (length : UInt8) (nexthop : IpAddr) :
    Option (Fin routeNb) × RouteTables maxNeighbors routeNb Lladdr :=
  match tables.uipDs6NbrLladdrFromIpaddr nexthop with
  | none => (none, tables)
  | some lladdr =>
      match tables.uipDs6RouteLookup ipaddr with
      | (none, tables) => tables.addRoute surroundings lladdr ipaddr length
      | (some r, tables) =>
          if nexthop = (tables.uipDs6RouteNexthop surroundings r).getD
              surroundings.ipaddrAtNull then
            -- no need to update route
            (some r, tables)
          else
            (tables.uipDs6RouteRm (some r)).addRoute surroundings lladdr
              ipaddr length

/-- `uip_ds6_route_rm_by_nexthop` -/
def uipDs6RouteRmByNexthop
    (tables : RouteTables maxNeighbors routeNb Lladdr) (nexthop : IpAddr) :
    RouteTables maxNeighbors routeNb Lladdr :=
  tables.rmRoutelist (tables.nbrTableGetFromLladdr surroundings.tables
    .nbrRoutes (tables.uipDs6NbrLladdrFromIpaddr nexthop))

/-- `uip_ds6_nbr_add` -/
def uipDs6NbrAdd (tables : RouteTables maxNeighbors routeNb Lladdr)
    (ipaddr : IpAddr) (lladdr : Option Lladdr) :
    RouteTables maxNeighbors routeNb Lladdr :=
  match tables.nbrTableAddLladdr surroundings.tables .ds6Neighbors lladdr with
  | (none, tables) => tables
  | (some nbr, tables) =>
      RouteTables.modify tables fun routes =>
        { routes with
          nbrIpaddr := Function.update routes.nbrIpaddr nbr ipaddr }

/-- `uip_ds6_route_init`, as far as it concerns routes. -/
def uipDs6RouteInit (tables : RouteTables maxNeighbors routeNb Lladdr) :
    RouteTables maxNeighbors routeNb Lladdr :=
  ((tables.modify fun routes =>
    { routes with
      routememb := fun _ => false
      neighborRoutes := fun _ => none
      ipaddr := fun _ => Vector.replicate 16 0
      length := fun _ => 0
      routelist := [] }).nbrTableRegister .nbrRoutes true).2

end RouteTables

end Contiki.Net
