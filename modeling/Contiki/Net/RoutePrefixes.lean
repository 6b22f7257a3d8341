import Contiki.Net.RouteRuns

/-!
# The prefixes of routes

Only a new route changes a prefix or a length in the routing table, so what
holds of the prefix of each route that is added holds of all of them.
-/

namespace Contiki.Net

namespace RouteTables

variable {maxNeighbors routeNb : Nat} {Lladdr : Type}

/-- The prefixes and the lengths of all routes stay. -/
def SamePrefixes (before after : RouteTables maxNeighbors routeNb Lladdr) :
    Prop :=
  after.client.ipaddr = before.client.ipaddr ∧
    after.client.length = before.client.length

variable {tables : RouteTables maxNeighbors routeNb Lladdr}

theorem SamePrefixes.refl
    (tables : RouteTables maxNeighbors routeNb Lladdr) :
    SamePrefixes tables tables :=
  ⟨rfl, rfl⟩

theorem SamePrefixes.trans
    {first second third : RouteTables maxNeighbors routeNb Lladdr}
    (left : SamePrefixes first second) (right : SamePrefixes second third) :
    SamePrefixes first third :=
  ⟨right.1.trans left.1, right.2.trans left.2⟩

theorem samePrefixes_uipDs6RouteRm
    (tables : RouteTables maxNeighbors routeNb Lladdr)
    (route : Option (Fin routeNb)) :
    SamePrefixes tables (tables.uipDs6RouteRm route) := by
  unfold uipDs6RouteRm
  split
  · exact SamePrefixes.refl tables
  split
  · exact SamePrefixes.refl tables
  · dsimp only
    split
    · exact ⟨rfl, rfl⟩
    · exact ⟨rfl, rfl⟩

theorem samePrefixes_rmRoutes (neighbor : Fin maxNeighbors) (rounds : Nat)
    (tables : RouteTables maxNeighbors routeNb Lladdr) :
    SamePrefixes tables (rmRoutes neighbor rounds tables) := by
  induction rounds generalizing tables with
  | zero =>
      exact SamePrefixes.refl tables
  | succ rounds inductionHypothesis =>
      unfold rmRoutes
      split
      · exact SamePrefixes.refl tables
      · exact (samePrefixes_uipDs6RouteRm tables _).trans
          (inductionHypothesis _)

theorem samePrefixes_rmRoutelist
    (tables : RouteTables maxNeighbors routeNb Lladdr)
    (item : Option (Fin maxNeighbors)) :
    SamePrefixes tables (tables.rmRoutelist item) := by
  unfold rmRoutelist
  split
  · exact SamePrefixes.refl tables
  next neighbor =>
  split
  · have removed := samePrefixes_rmRoutes neighbor
      (tables.listOf neighbor).length tables
    exact removed.trans ⟨rfl, rfl⟩
  · exact SamePrefixes.refl tables

theorem samePrefixes_uipDs6RouteLookup
    (tables : RouteTables maxNeighbors routeNb Lladdr) (addr : IpAddr) :
    SamePrefixes tables (tables.uipDs6RouteLookup addr).2 := by
  unfold uipDs6RouteLookup
  dsimp only
  split
  · exact SamePrefixes.refl tables
  split
  · exact SamePrefixes.refl tables
  · exact ⟨rfl, rfl⟩

/-! ## A property of all prefixes -/

/-- The prefixes of all routes have the property. -/
def HasPrefixes (P : UInt8 → IpAddr → Prop)
    (tables : RouteTables maxNeighbors routeNb Lladdr) : Prop :=
  ∀ route, P (tables.client.length route) (tables.client.ipaddr route)

variable {P : UInt8 → IpAddr → Prop}

theorem SamePrefixes.hasPrefixes
    {after : RouteTables maxNeighbors routeNb Lladdr}
    (same : SamePrefixes tables after) (has : HasPrefixes P tables) :
    HasPrefixes P after := by
  intro route
  rw [same.1, same.2]
  exact has route

theorem HasPrefixes.linkRoute (has : HasPrefixes P tables)
    (neighbor : Fin maxNeighbors) {ipaddr : IpAddr} {length : UInt8}
    (new : P length ipaddr) :
    HasPrefixes P (tables.linkRoute neighbor ipaddr length).2 := by
  unfold RouteTables.linkRoute
  split
  · exact has
  next added _ =>
  dsimp only
  split
  · exact has
  · intro route
    change P (Function.update tables.client.length added length route)
      (Function.update tables.client.ipaddr added ipaddr route)
    by_cases isAdded : route = added
    · rw [isAdded, Function.update_self, Function.update_self]
      exact new
    · rw [Function.update_of_ne isAdded, Function.update_of_ne isAdded]
      exact has route

/-! ## New routes -/

section Surroundings

variable (surroundings : Surroundings maxNeighbors routeNb Lladdr)

theorem samePrefixes_callBack (key : Fin maxNeighbors)
    (tables : RouteTables maxNeighbors routeNb Lladdr)
    (place : Fin maxNumTables) :
    SamePrefixes tables
      (NbrTables.callBack surroundings.tables key tables place) := by
  unfold NbrTables.callBack
  split
  · exact SamePrefixes.refl tables
  next table _ =>
  split
  · cases table with
    | ds6Neighbors =>
        exact ⟨rfl, rfl⟩
    | nbrRoutes =>
        have called : SamePrefixes tables { tables with
          calls := tables.calls ++ [(TableName.nbrRoutes, key)] } :=
          ⟨rfl, rfl⟩
        exact called.trans (samePrefixes_rmRoutelist _ _)
    | other number =>
        have client := surroundings.client number key { tables with
          calls := tables.calls ++ [(TableName.other number, key)] }
        exact ⟨congrArg Routes.ipaddr client, congrArg Routes.length client⟩
  · exact SamePrefixes.refl tables

theorem samePrefixes_nbrTableAllocate
    (tables : RouteTables maxNeighbors routeNb Lladdr) :
    SamePrefixes tables
      (NbrTables.nbrTableAllocate surroundings.tables tables).2 := by
  unfold NbrTables.nbrTableAllocate
  split
  · exact ⟨rfl, rfl⟩
  split
  · exact SamePrefixes.refl tables
  · next key _ =>
      have called : SamePrefixes tables ((List.finRange maxNumTables).foldl
          (NbrTables.callBack surroundings.tables key) tables) := by
        refine List.foldlRecOn (motive := SamePrefixes tables) _ _
          (SamePrefixes.refl tables) ?_
        intro later same place _
        exact same.trans (samePrefixes_callBack surroundings key later place)
      exact called.trans ⟨rfl, rfl⟩

theorem samePrefixes_useItem
    (tables : RouteTables maxNeighbors routeNb Lladdr) (table : TableName)
    (item : Fin maxNeighbors) :
    SamePrefixes tables
      (NbrTables.useItem surroundings.tables tables table item) := by
  cases table with
  | ds6Neighbors =>
      exact ⟨rfl, rfl⟩
  | nbrRoutes =>
      exact ⟨rfl, rfl⟩
  | other number =>
      exact ⟨rfl, rfl⟩

variable [DecidableEq Lladdr]

theorem samePrefixes_nbrTableAddLladdr
    (tables : RouteTables maxNeighbors routeNb Lladdr) (table : TableName)
    (lladdr : Option Lladdr) :
    SamePrefixes tables (NbrTables.nbrTableAddLladdr surroundings.tables
      tables table lladdr).2 := by
  unfold NbrTables.nbrTableAddLladdr
  split
  · exact samePrefixes_useItem surroundings tables table _
  have allocated := samePrefixes_nbrTableAllocate surroundings tables
  split
  · next later isLater =>
      rw [isLater] at allocated
      exact allocated
  · next key later isLater =>
      rw [isLater] at allocated
      have listed : SamePrefixes later (NbrTables.listKey later key
          (lladdr.getD surroundings.tables.linkaddrNull)) :=
        ⟨rfl, rfl⟩
      exact allocated.trans (listed.trans
        (samePrefixes_useItem surroundings _ table key))

theorem samePrefixes_neighborEntry
    (tables : RouteTables maxNeighbors routeNb Lladdr) (lladdr : Lladdr) :
    SamePrefixes tables (tables.neighborEntry surroundings lladdr).2 := by
  unfold neighborEntry
  split
  · exact SamePrefixes.refl tables
  have added := samePrefixes_nbrTableAddLladdr surroundings tables .nbrRoutes
    (some lladdr)
  split
  · next later isLater =>
      rw [isLater] at added
      exact added
  · next neighbor later isLater =>
      rw [isLater] at added
      exact added.trans ⟨rfl, rfl⟩

theorem samePrefixes_uipDs6NbrAdd
    (tables : RouteTables maxNeighbors routeNb Lladdr) (ipaddr : IpAddr)
    (lladdr : Option Lladdr) :
    SamePrefixes tables (tables.uipDs6NbrAdd surroundings ipaddr lladdr) := by
  have added := samePrefixes_nbrTableAddLladdr surroundings tables
    .ds6Neighbors lladdr
  unfold uipDs6NbrAdd
  split
  · next later isLater =>
      rw [isLater] at added
      exact added
  · next neighbor later isLater =>
      rw [isLater] at added
      exact added.trans ⟨rfl, rfl⟩

theorem HasPrefixes.addRoute (has : HasPrefixes P tables)
    (lladdr : Lladdr) {ipaddr : IpAddr} {length : UInt8}
    (new : P length ipaddr) :
    HasPrefixes P (tables.addRoute surroundings lladdr ipaddr length).2 := by
  have room : HasPrefixes P tables.makeRoom := by
    unfold makeRoom
    split
    · exact (samePrefixes_uipDs6RouteRm tables _).hasPrefixes has
    · exact has
  have entered := (samePrefixes_neighborEntry surroundings tables.makeRoom
    lladdr).hasPrefixes room
  unfold RouteTables.addRoute
  split
  · next later isLater =>
      rw [isLater] at entered
      exact entered
  · next neighbor later isLater =>
      rw [isLater] at entered
      exact entered.linkRoute neighbor new

theorem HasPrefixes.uipDs6RouteAdd (has : HasPrefixes P tables)
    {ipaddr : IpAddr} {length : UInt8} (nexthop : IpAddr)
    (new : P length ipaddr) :
    HasPrefixes P
      (tables.uipDs6RouteAdd surroundings ipaddr length nexthop).2 := by
  have looked := (samePrefixes_uipDs6RouteLookup tables ipaddr).hasPrefixes
    has
  unfold RouteTables.uipDs6RouteAdd
  split
  · exact has
  split
  · next later isLater =>
      rw [isLater] at looked
      exact looked.addRoute surroundings _ new
  · next route later isLater =>
      rw [isLater] at looked
      split
      · exact looked
      · exact HasPrefixes.addRoute surroundings
          ((samePrefixes_uipDs6RouteRm later _).hasPrefixes looked) _ new

/-- The operation adds no route, or one with a prefix that has the
property. -/
def AddsPrefix (P : UInt8 → IpAddr → Prop) :
    RouteOperation maxNeighbors routeNb Lladdr → Prop
  | .uipDs6RouteAdd ipaddr length _ => P length ipaddr
  | _ => True

theorem HasPrefixes.routeStep (has : HasPrefixes P tables)
    {operation : RouteOperation maxNeighbors routeNb Lladdr}
    (adds : AddsPrefix P operation) :
    HasPrefixes P (tables.routeStep surroundings operation) := by
  cases operation with
  | uipDs6RouteAdd ipaddr length nexthop =>
      exact has.uipDs6RouteAdd surroundings nexthop adds
  | uipDs6RouteRm route =>
      exact (samePrefixes_uipDs6RouteRm tables route).hasPrefixes has
  | uipDs6RouteRmByNexthop nexthop =>
      exact (samePrefixes_rmRoutelist tables _).hasPrefixes has
  | uipDs6RouteLookup addr =>
      exact (samePrefixes_uipDs6RouteLookup tables addr).hasPrefixes has
  | uipDs6NbrAdd ipaddr lladdr =>
      exact (samePrefixes_uipDs6NbrAdd surroundings tables ipaddr
        lladdr).hasPrefixes has
  | onTable operation =>
      refine SamePrefixes.hasPrefixes ?_ has
      cases operation with
      | register table hasCallback =>
          unfold RouteTables.routeStep NbrTables.step
            NbrTables.nbrTableRegister
          dsimp only
          split
          · exact ⟨rfl, rfl⟩
          · exact SamePrefixes.refl tables
      | addLladdr table lladdr =>
          exact samePrefixes_nbrTableAddLladdr surroundings tables table
            lladdr
      | remove table item =>
          exact ⟨rfl, rfl⟩
      | lock table item =>
          exact ⟨rfl, rfl⟩
      | unlock table item =>
          exact ⟨rfl, rfl⟩

end Surroundings

end RouteTables

end Contiki.Net
