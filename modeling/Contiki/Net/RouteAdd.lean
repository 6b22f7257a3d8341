import Contiki.Net.RouteRuns

/-!
# Adding a route

A route is added with its prefix, length and next hop, and the other routes
stay, when the longest match for the prefix is a route for the same
destination.
-/

namespace Contiki.Net

namespace RouteTables

open NbrTables

variable {maxNeighbors routeNb : Nat} {Lladdr : Type}

/-- The neighbours and their addresses are the same. -/
structure SameNeighbors
    (before after : RouteTables maxNeighbors routeNb Lladdr) : Prop where
  nbrTableKeys : after.nbrTableKeys = before.nbrTableKeys
  lladdr : after.lladdr = before.lladdr
  nbrIpaddr : after.client.nbrIpaddr = before.client.nbrIpaddr
  used : ∀ key,
    after.nbrGetBit after.usedMap .ds6Neighbors (some key) =
      before.nbrGetBit before.usedMap .ds6Neighbors (some key)

theorem SameNeighbors.trans
    {first second third : RouteTables maxNeighbors routeNb Lladdr}
    (left : SameNeighbors first second) (right : SameNeighbors second third) :
    SameNeighbors first third where
  nbrTableKeys := right.nbrTableKeys.trans left.nbrTableKeys
  lladdr := right.lladdr.trans left.lladdr
  nbrIpaddr := right.nbrIpaddr.trans left.nbrIpaddr
  used := fun key => (right.used key).trans (left.used key)

variable {before after : RouteTables maxNeighbors routeNb Lladdr}

theorem Sound.sameNeighbors
    (sound : before.Sound) (registered : before.Registered .ds6Neighbors)
    (own : OwnItems .nbrRoutes before after)
    (nbrIpaddr : after.client.nbrIpaddr = before.client.nbrIpaddr) :
    SameNeighbors before after where
  nbrTableKeys := own.nbrTableKeys
  lladdr := own.lladdr
  nbrIpaddr := nbrIpaddr
  used := by
    intro key
    unfold nbrGetBit
    dsimp only
    rw [own.index]
    exact own.usedOther key _ fun same =>
      sound.index_ne registered (by simp) (Fin.ext same)

theorem Sound.sameNeighbors_entersList
    (sound : before.Sound) (registered : before.Registered .ds6Neighbors)
    {neighbor : Fin maxNeighbors}
    (enters : EntersList before after neighbor) :
    SameNeighbors before after where
  nbrTableKeys := enters.nbrTableKeys
  lladdr := enters.lladdr
  nbrIpaddr := by
    rw [enters.client]
  used := by
    intro key
    unfold nbrGetBit
    dsimp only
    rw [enters.index]
    exact enters.usedOther key _ fun same =>
      sound.index_ne registered (by simp) (Fin.ext same)

theorem SameNeighbors.uipDs6NbrLookup
    (same : SameNeighbors before after) (ipaddr : IpAddr) :
    after.uipDs6NbrLookup ipaddr = before.uipDs6NbrLookup ipaddr := by
  unfold RouteTables.uipDs6NbrLookup
  rw [same.nbrTableKeys, same.nbrIpaddr]
  simp only [same.used]

/-- A new route is first, and the others are as before. -/
structure AddsTo (before after : RouteTables maxNeighbors routeNb Lladdr)
    (route : Fin routeNb) (neighbor : Fin maxNeighbors) (ipaddr : IpAddr)
    (length : UInt8) : Prop where
  newRoute : route ∉ before.client.routelist
  routelist : after.client.routelist = route :: before.client.routelist
  ipaddr : after.client.ipaddr =
    Function.update before.client.ipaddr route ipaddr
  length : after.client.length =
    Function.update before.client.length route length
  neighborRoutes : after.client.neighborRoutes =
    Function.update before.client.neighborRoutes route (some neighbor)
  neighbors : SameNeighbors before after

/-- A route is there as it was. -/
def StillPresent (before after : RouteTables maxNeighbors routeNb Lladdr)
    (route : Fin routeNb) : Prop :=
  route ∈ after.client.routelist ∧
  after.client.ipaddr route = before.client.ipaddr route ∧
  after.client.length route = before.client.length route ∧
  after.client.neighborRoutes route = before.client.neighborRoutes route

theorem AddsTo.stillPresent
    {route other : Fin routeNb} {neighbor : Fin maxNeighbors}
    {ipaddr : IpAddr} {length : UInt8}
    (adds : AddsTo before after route neighbor ipaddr length)
    (listed : other ∈ before.client.routelist) :
    StillPresent before after other := by
  have different : other ≠ route := by
    rintro rfl
    exact adds.newRoute listed
  refine ⟨?_, ?_, ?_, ?_⟩
  · rw [adds.routelist]
    exact List.mem_cons_of_mem route listed
  · rw [adds.ipaddr, Function.update_of_ne different]
  · rw [adds.length, Function.update_of_ne different]
  · rw [adds.neighborRoutes, Function.update_of_ne different]

theorem StillPresent.trans
    {first second third : RouteTables maxNeighbors routeNb Lladdr}
    {route : Fin routeNb} (left : StillPresent first second route)
    (right : StillPresent second third route) :
    StillPresent first third route := by
  obtain ⟨_, ipaddr, length, pointed⟩ := left
  obtain ⟨listed, laterIpaddr, laterLength, laterPointed⟩ := right
  exact ⟨listed, laterIpaddr.trans ipaddr, laterLength.trans length,
    laterPointed.trans pointed⟩

theorem Sound.uipDs6RouteRm_others
    {tables : RouteTables maxNeighbors routeNb Lladdr} (sound : tables.Sound)
    (registered : tables.Registered .ds6Neighbors) {route : Fin routeNb}
    (listed : route ∈ tables.client.routelist) :
    SameNeighbors tables (tables.uipDs6RouteRm (some route)) ∧
    (tables.uipDs6RouteRm (some route)).client.numRoutes =
      tables.client.numRoutes - 1 ∧
    (tables.uipDs6RouteRm (some route)).client.routelist =
      tables.client.routelist.erase route ∧
    ∀ other ∈ tables.client.routelist, other ≠ route →
      StillPresent tables (tables.uipDs6RouteRm (some route)) other := by
  obtain ⟨neighbor, entry, unlinks⟩ := sound.routes.uipDs6RouteRm listed
  refine ⟨sound.sameNeighbors registered (ownItems_uipDs6RouteRm tables _)
    unlinks.nbrIpaddr, unlinks.numRoutes, unlinks.routelist,
    fun other otherListed different => ⟨?_, ?_, ?_, ?_⟩⟩
  · rw [unlinks.routelist, sound.routes.nodup.mem_erase_iff]
    exact ⟨different, otherListed⟩
  · rw [unlinks.ipaddr]
  · rw [unlinks.length]
  · rw [unlinks.neighborRoutes]

theorem Sound.makeRoom_others
    {tables : RouteTables maxNeighbors routeNb Lladdr} (sound : tables.Sound)
    (registered : tables.Registered .ds6Neighbors) :
    SameNeighbors tables tables.makeRoom ∧
    ∀ route ∈ tables.client.routelist,
      StillPresent tables tables.makeRoom route ∨
      tables.client.numRoutes = routeNb ∧
        tables.client.routelist.getLast? = some route := by
  have unchanged : SameNeighbors tables tables ∧
      ∀ route ∈ tables.client.routelist, StillPresent tables tables route :=
    ⟨⟨rfl, rfl, rfl, fun _ => rfl⟩, fun route listed =>
      ⟨listed, rfl, rfl, rfl⟩⟩
  unfold RouteTables.makeRoom
  split
  · next full =>
      cases isLast : tables.client.routelist.getLast? with
      | none =>
          exact ⟨unchanged.1, fun route listed =>
            Or.inl (unchanged.2 route listed)⟩
      | some last =>
          obtain ⟨neighbors, _, _, others⟩ :=
            sound.uipDs6RouteRm_others registered
              (List.mem_of_getLast? isLast)
          refine ⟨neighbors, fun route listed => ?_⟩
          by_cases same : route = last
          · rw [same]
            exact Or.inr ⟨full, rfl⟩
          · exact Or.inl (others route listed same)
  · exact ⟨unchanged.1, fun route listed =>
      Or.inl (unchanged.2 route listed)⟩

variable [DecidableEq Lladdr]
  (surroundings : Surroundings maxNeighbors routeNb Lladdr)

/-- There is a route with this prefix, length and next hop. -/
def HasRoute (tables : RouteTables maxNeighbors routeNb Lladdr)
    (ipaddr : IpAddr) (length : UInt8) (nexthop : IpAddr) : Prop :=
  ∃ route ∈ tables.client.routelist,
    tables.client.ipaddr route = ipaddr ∧
    tables.client.length route = length ∧
    tables.uipDs6RouteNexthop surroundings route = some nexthop

/-- A route with this prefix, length and next hop is there if one could be
added, and the routes for other destinations stay, up to the least recently
used one when the table is full. -/
def AddsRoute (tables : RouteTables maxNeighbors routeNb Lladdr)
    (ipaddr : IpAddr) (length : UInt8) (nexthop : IpAddr) : Prop :=
  (tables.uipDs6RouteAdd surroundings ipaddr length nexthop).1 ≠ none →
    HasRoute surroundings
      (tables.uipDs6RouteAdd surroundings ipaddr length nexthop).2 ipaddr
        length nexthop ∧
    ∀ route ∈ tables.client.routelist,
      ¬ (tables.client.ipaddr route = ipaddr ∧
        tables.client.length route = length) →
      StillPresent tables
        (tables.uipDs6RouteAdd surroundings ipaddr length nexthop).2 route ∨
      tables.client.numRoutes = routeNb ∧
        tables.client.routelist.getLast? = some route

/-- The next hop is unknown, or there is no match for the prefix, or it has
the next hop and so has a route for the destination, or it is a route for the
destination or the one that is removed when the table is full. -/
def MatchesDestination (tables : RouteTables maxNeighbors routeNb Lladdr)
    (ipaddr : IpAddr) (length : UInt8) (nexthop : IpAddr) : Prop :=
  tables.uipDs6NbrLookup nexthop = none ∨
  ∀ r, longestMatch tables.client ipaddr tables.client.routelist 0 none =
      some r →
    if nexthop = (tables.uipDs6RouteNexthop surroundings r).getD
        surroundings.ipaddrAtNull then
      HasRoute surroundings tables ipaddr length nexthop
    else
      (tables.client.ipaddr r = ipaddr ∧ tables.client.length r = length) ∨
      tables.client.numRoutes = routeNb ∧
        tables.client.routelist.getLast? = some r

variable {tables : RouteTables maxNeighbors routeNb Lladdr}

theorem Sound.uipDs6RouteNexthop (sound : tables.Sound)
    {nexthop : IpAddr} {neighbor : Fin maxNeighbors}
    (found : tables.uipDs6NbrLookup nexthop = some neighbor)
    {route : Fin routeNb}
    (pointed : tables.client.neighborRoutes route = some neighbor) :
    tables.uipDs6RouteNexthop surroundings route = some nexthop := by
  have listed := List.mem_of_find?_eq_some found
  have isFound := List.find?_some found
  obtain ⟨used, isNexthop⟩ := of_decide_eq_true isFound
  unfold RouteTables.uipDs6RouteNexthop uipDs6NbrIpaddrFromLladdr
    NbrTables.nbrTableGetFromLladdr
  dsimp only
  rw [pointed, Option.map_some,
    sound.keys.indexFromLladdr surroundings.tables listed rfl, if_pos used,
    Option.map_some, isNexthop]

theorem SameNeighbors.uipDs6RouteNexthop
    {before after : RouteTables maxNeighbors routeNb Lladdr}
    (same : SameNeighbors before after) {route : Fin routeNb}
    (pointed : after.client.neighborRoutes route =
      before.client.neighborRoutes route) :
    after.uipDs6RouteNexthop surroundings route =
      before.uipDs6RouteNexthop surroundings route := by
  have index : ∀ lladdr, after.indexFromLladdr surroundings.tables lladdr =
      before.indexFromLladdr surroundings.tables lladdr := by
    intro lladdr
    unfold NbrTables.indexFromLladdr
    rw [same.nbrTableKeys, same.lladdr]
  unfold RouteTables.uipDs6RouteNexthop uipDs6NbrIpaddrFromLladdr
    NbrTables.nbrTableGetFromLladdr
  dsimp only
  rw [pointed, same.lladdr, same.nbrIpaddr, index]
  cases before.indexFromLladdr surroundings.tables
      ((before.client.neighborRoutes route).map before.lladdr) with
  | none =>
      rfl
  | some key =>
      rw [same.used]

theorem Sound.addRoute_adds (sound : tables.Sound)
    (registered : tables.Registered .ds6Neighbors)
    {neighbor : Fin maxNeighbors} (listed : neighbor ∈ tables.nbrTableKeys)
    (ipaddr : IpAddr) (length : UInt8) :
    (tables.addRoute surroundings (tables.lladdr neighbor) ipaddr length).1 =
        none ∧ routeNb = tables.makeRoom.client.routelist.length ∨
    ∃ route after,
      tables.addRoute surroundings (tables.lladdr neighbor) ipaddr length =
        (some route, after) ∧ after.Sound ∧
      AddsTo tables.makeRoom after route neighbor ipaddr length := by
  obtain ⟨entered, enters, enteredSound, ⟨added, full⟩ |
    ⟨route, entry, after, added, afterSound, links⟩⟩ :=
      sound.addRoute_cases surroundings listed ipaddr length
  · refine Or.inl ⟨by rw [added], full.trans ?_⟩
    rw [enters.client]
  · refine Or.inr ⟨route, after, added, afterSound, ?_⟩
    have own : OwnItems .nbrRoutes tables tables.makeRoom := by
      unfold RouteTables.makeRoom
      split
      · exact ownItems_uipDs6RouteRm tables _
      · exact OwnItems.refl _ tables
    have roomRegistered : tables.makeRoom.Registered .ds6Neighbors := by
      unfold Registered
      rw [own.index, own.allTables]
      exact registered
    have linked : SameNeighbors entered after := by
      rw [links.isAfter]
      exact ⟨rfl, rfl, rfl, fun _ => rfl⟩
    have neighbors := (sound.makeRoom.sameNeighbors_entersList roomRegistered
      enters).trans linked
    have newRoute := links.newRoute
    rw [enters.client] at newRoute
    refine ⟨newRoute, ?_, ?_, ?_, ?_, neighbors⟩ <;>
      rw [links.isAfter] <;> unfold RouteTables.modify <;> dsimp only <;>
      rw [enters.client]

/-- What `uip_ds6_route_add` does for a known next hop. -/
theorem uipDs6RouteAdd_cases {nexthop : IpAddr} {neighbor : Fin maxNeighbors}
    (found : tables.uipDs6NbrLookup nexthop = some neighbor)
    (ipaddr : IpAddr) (length : UInt8) :
    longestMatch tables.client ipaddr tables.client.routelist 0 none = none ∧
      tables.uipDs6RouteAdd surroundings ipaddr length nexthop =
        tables.addRoute surroundings (tables.lladdr neighbor) ipaddr length ∨
    ∃ r routelist,
      longestMatch tables.client ipaddr tables.client.routelist 0 none =
        some r ∧
      routelist.Perm tables.client.routelist ∧
      tables.uipDs6RouteAdd surroundings ipaddr length nexthop =
        if nexthop = (tables.uipDs6RouteNexthop surroundings r).getD
            surroundings.ipaddrAtNull then
          (some r, tables.modify fun routes =>
            { routes with routelist := routelist })
        else
          ((tables.modify fun routes =>
            { routes with routelist := routelist }).uipDs6RouteRm
              (some r)).addRoute surroundings (tables.lladdr neighbor) ipaddr
                length := by
  unfold RouteTables.uipDs6RouteAdd uipDs6NbrLladdrFromIpaddr
  rw [found, Option.map_some]
  dsimp only
  cases isMatch : longestMatch tables.client ipaddr tables.client.routelist 0
      none with
  | none =>
      have lookup : tables.uipDs6RouteLookup ipaddr = (none, tables) := by
        unfold RouteTables.uipDs6RouteLookup
        dsimp only
        rw [isMatch]
      rw [lookup]
      exact Or.inl ⟨rfl, rfl⟩
  | some r =>
      obtain ⟨isFound, routelist, perm, isLater⟩ :=
        uipDs6RouteLookup_spec tables ipaddr
      have lookup : tables.uipDs6RouteLookup ipaddr =
          (some r, tables.modify fun routes =>
            { routes with routelist := routelist }) :=
        Prod.ext (isFound.trans isMatch) isLater
      rw [lookup]
      exact Or.inr ⟨r, routelist, rfl, perm, rfl⟩

theorem Sound.hasRoute_of_adds
    {tables before after : RouteTables maxNeighbors routeNb Lladdr}
    (afterSound : after.Sound) (neighbors : SameNeighbors tables before)
    {nexthop : IpAddr} {neighbor : Fin maxNeighbors}
    (found : tables.uipDs6NbrLookup nexthop = some neighbor)
    {route : Fin routeNb} {ipaddr : IpAddr} {length : UInt8}
    (adds : AddsTo before after route neighbor ipaddr length) :
    HasRoute surroundings after ipaddr length nexthop := by
  refine ⟨route, ?_, ?_, ?_, ?_⟩
  · rw [adds.routelist]
    exact List.mem_cons_self
  · rw [adds.ipaddr, Function.update_self]
  · rw [adds.length, Function.update_self]
  · refine @Sound.uipDs6RouteNexthop _ _ _ _ surroundings _ afterSound _
      neighbor ?_ _ ?_
    · rw [adds.neighbors.uipDs6NbrLookup, neighbors.uipDs6NbrLookup]
      exact found
    · rw [adds.neighborRoutes, Function.update_self]

theorem Sound.addsRoute_of_unmatched (sound : tables.Sound)
    (registered : tables.Registered .ds6Neighbors) {nexthop : IpAddr}
    {neighbor : Fin maxNeighbors}
    (found : tables.uipDs6NbrLookup nexthop = some neighbor)
    {ipaddr : IpAddr} {length : UInt8}
    (added : tables.uipDs6RouteAdd surroundings ipaddr length nexthop =
      tables.addRoute surroundings (tables.lladdr neighbor) ipaddr length) :
    AddsRoute surroundings tables ipaddr length nexthop := by
  unfold AddsRoute
  rw [added]
  have listed := List.mem_of_find?_eq_some found
  obtain ⟨none, _⟩ | ⟨route, after, isAfter, afterSound, adds⟩ :=
    sound.addRoute_adds surroundings registered listed ipaddr length
  · exact fun some => absurd none some
  · intro _
    rw [isAfter]
    obtain ⟨neighbors, others⟩ := sound.makeRoom_others registered
    refine ⟨afterSound.hasRoute_of_adds surroundings neighbors found adds,
      fun other otherListed _ => ?_⟩
    obtain present | last := others other otherListed
    · exact Or.inl (present.trans (adds.stillPresent present.1))
    · exact Or.inr last

theorem addsRoute_of_sameNexthop {nexthop : IpAddr}
    {ipaddr : IpAddr} {length : UInt8} {r : Fin routeNb}
    {routelist : List (Fin routeNb)}
    (perm : routelist.Perm tables.client.routelist)
    (added : tables.uipDs6RouteAdd surroundings ipaddr length nexthop =
      (some r, tables.modify fun routes =>
        { routes with routelist := routelist })) :
    AddsRoute surroundings tables ipaddr length nexthop ↔
      HasRoute surroundings tables ipaddr length nexthop := by
  have neighbors : SameNeighbors tables (tables.modify fun routes =>
      { routes with routelist := routelist }) :=
    ⟨rfl, rfl, rfl, fun _ => rfl⟩
  have hasRoute : HasRoute surroundings (tables.modify fun routes =>
      { routes with routelist := routelist }) ipaddr length nexthop ↔
        HasRoute surroundings tables ipaddr length nexthop := by
    unfold HasRoute
    refine exists_congr fun route => and_congr perm.mem_iff ?_
    rw [@SameNeighbors.uipDs6RouteNexthop _ _ _ _ surroundings _ _ neighbors
      route rfl]
    rfl
  unfold AddsRoute
  rw [added, hasRoute]
  constructor
  · exact fun adds => (adds (by simp)).1
  · exact fun has _ => ⟨has, fun route listed _ =>
      Or.inl ⟨perm.mem_iff.2 listed, rfl, rfl, rfl⟩⟩

theorem Sound.addsRoute_of_otherNexthop (sound : tables.Sound)
    (registered : tables.Registered .ds6Neighbors) {nexthop : IpAddr}
    {neighbor : Fin maxNeighbors}
    (found : tables.uipDs6NbrLookup nexthop = some neighbor)
    {ipaddr : IpAddr} {length : UInt8} {r : Fin routeNb}
    (listed : r ∈ tables.client.routelist) {routelist : List (Fin routeNb)}
    (perm : routelist.Perm tables.client.routelist)
    (added : tables.uipDs6RouteAdd surroundings ipaddr length nexthop =
      ((tables.modify fun routes =>
        { routes with routelist := routelist }).uipDs6RouteRm
          (some r)).addRoute surroundings (tables.lladdr neighbor) ipaddr
            length) :
    AddsRoute surroundings tables ipaddr length nexthop ↔
      (tables.client.ipaddr r = ipaddr ∧ tables.client.length r = length) ∨
      tables.client.numRoutes = routeNb ∧
        tables.client.routelist.getLast? = some r := by
  have laterSound : (tables.modify fun routes =>
      { routes with routelist := routelist }).Sound :=
    sound.clearsBits (ownItems_modify tables _).clearsBits
      (sound.routes.reorder perm)
  have laterListed : r ∈ routelist := perm.mem_iff.2 listed
  obtain ⟨neighbors, numRoutes, erased, others⟩ :=
    laterSound.uipDs6RouteRm_others registered laterListed
  have removedSound := @Sound.uipDs6RouteRm _ _ _ _ laterSound (some r)
    fun other same => by
      rw [Option.some.injEq] at same
      subst same
      exact laterListed
  have own := ownItems_uipDs6RouteRm (tables.modify fun routes =>
    { routes with routelist := routelist }) (some r)
  have later : SameNeighbors tables (tables.modify fun routes =>
      { routes with routelist := routelist }) :=
    ⟨rfl, rfl, rfl, fun _ => rfl⟩
  generalize (tables.modify fun routes =>
    { routes with routelist := routelist }).uipDs6RouteRm (some r) =
      removed at *
  change removed.client.routelist = routelist.erase r at erased
  have notFull : removed.client.routelist.length < routeNb := by
    have short := sound.routes.length_le
    rw [erased, List.length_erase_of_mem laterListed, perm.length_eq]
    have positive := List.length_pos_of_mem listed
    omega
  -- there is room after the removal
  have room : removed.makeRoom = removed := by
    unfold RouteTables.makeRoom
    rw [if_neg]
    rw [removedSound.routes.numRoutes]
    omega
  have removedRegistered : removed.Registered .ds6Neighbors := by
    unfold Registered
    rw [own.index, own.allTables]
    exact registered
  have neighborListed : neighbor ∈ removed.nbrTableKeys := by
    rw [own.nbrTableKeys]
    exact List.mem_of_find?_eq_some found
  have result := removedSound.addRoute_adds surroundings removedRegistered
    neighborListed ipaddr length
  rw [room, own.lladdr] at result
  obtain ⟨_, full⟩ | ⟨route, after, isAfter, afterSound, adds⟩ := result
  · omega
  change removed.addRoute surroundings (tables.lladdr neighbor) ipaddr
    length = _ at isAfter
  unfold AddsRoute
  rw [added, isAfter]
  have hasRoute := afterSound.hasRoute_of_adds surroundings
    (later.trans neighbors) found adds
  have gone : ∀ {other}, other = r →
      ¬ (tables.client.ipaddr r = ipaddr ∧
        tables.client.length r = length) →
      ¬ StillPresent tables after other := by
    rintro other rfl different ⟨inList, ipaddrSame, lengthSame, _⟩
    rw [adds.routelist, List.mem_cons] at inList
    obtain rfl | inRemoved := inList
    · refine different ⟨?_, ?_⟩
      · rw [← ipaddrSame, adds.ipaddr, Function.update_self]
      · rw [← lengthSame, adds.length, Function.update_self]
    · rw [erased] at inRemoved
      exact (perm.nodup_iff.2 sound.routes.nodup).not_mem_erase inRemoved
  constructor
  · intro addsRoute
    by_cases exact : tables.client.ipaddr r = ipaddr ∧
        tables.client.length r = length
    · exact Or.inl exact
    · obtain present | last := (addsRoute (by simp)).2 r listed exact
      · exact absurd present (gone rfl exact)
      · exact Or.inr last
  · refine fun condition _ => ⟨hasRoute, fun other otherListed different =>
      ?_⟩
    by_cases same : other = r
    · subst same
      exact Or.inr (condition.resolve_left different)
    · have present := others other (perm.mem_iff.2 otherListed) same
      exact Or.inl (StillPresent.trans present
        (adds.stillPresent present.1))

/-- Exactly when a route is added as it should be. -/
theorem addsRoute_iff
    {tables : RouteTables maxNeighbors routeNb Lladdr} (sound : tables.Sound)
    (registered : tables.Registered .ds6Neighbors) (ipaddr : IpAddr)
    (length : UInt8) (nexthop : IpAddr) :
    AddsRoute surroundings tables ipaddr length nexthop ↔
      MatchesDestination surroundings tables ipaddr length nexthop := by
  unfold MatchesDestination
  cases found : tables.uipDs6NbrLookup nexthop with
  | none =>
      have unknown : tables.uipDs6RouteAdd surroundings ipaddr length nexthop =
          (none, tables) := by
        unfold RouteTables.uipDs6RouteAdd uipDs6NbrLladdrFromIpaddr
        rw [found]
        rfl
      unfold AddsRoute
      rw [unknown]
      simp
  | some neighbor =>
      obtain ⟨noMatch, added⟩ | ⟨r, routelist, isMatch, perm, added⟩ :=
        uipDs6RouteAdd_cases surroundings found ipaddr length
      · rw [noMatch]
        simpa using sound.addsRoute_of_unmatched surroundings registered found
          added
      · have listed := (longestMatch_mem isMatch).resolve_right (by simp)
        rw [isMatch]
        simp only [reduceCtorEq, false_or, Option.some.injEq,
          forall_eq']
        split at added
        · next sameNexthop =>
            rw [if_pos sameNexthop]
            exact addsRoute_of_sameNexthop surroundings perm added
        · next otherNexthop =>
            rw [if_neg otherNexthop]
            exact sound.addsRoute_of_otherNexthop surroundings registered
              found listed perm added

/-- Two neighbours and a route of 64 bits through the first one. -/
def shorterRoute : RouteTables 2 2 UInt8 :=
  (uipDs6RouteInit ((NbrTables.initial 0 initialRoutes).run
    (noSurroundings 2 2).tables [.register .ds6Neighbors true])).routeRun
      (noSurroundings 2 2)
      [.uipDs6NbrAdd (Vector.replicate 16 1) (some 1),
        .uipDs6NbrAdd (Vector.replicate 16 2) (some 2),
        .uipDs6RouteAdd (Vector.replicate 16 7) 64 (Vector.replicate 16 1)]

theorem shorterRoute_sound : shorterRoute.Sound := by
  have onOther : OnOtherTableRun (noSurroundings 2 2)
      (NbrTables.initial 0 initialRoutes : RouteTables 2 2 UInt8)
      [.register .ds6Neighbors true] :=
    ⟨⟨fun place => by revert place; decide +kernel, by decide⟩, trivial⟩
  refine (((beforeInit_initial 0).run (noSurroundings 2 2)
    onOther).uipDs6RouteInit (by decide +kernel)).routeRun
      (noSurroundings 2 2) ⟨?_, ?_, trivial, trivial⟩
  · change (_ : Option TableName) = _
    decide +kernel
  · change (_ : Option TableName) = _
    decide +kernel

theorem shorterRoute_registered : shorterRoute.Registered .ds6Neighbors := by
  change (_ : Option TableName) = _
  decide +kernel

/-- There is no match for another prefix. -/
theorem shorterRoute_adds :
    AddsRoute (noSurroundings 2 2) shorterRoute (Vector.replicate 16 8) 64
      (Vector.replicate 16 2) :=
  (addsRoute_iff (noSurroundings 2 2) shorterRoute_sound
    shorterRoute_registered _ 64 _).2 <| Or.inr fun r isMatch =>
      absurd isMatch (by revert r; decide +kernel)

/-- A longer route through the second neighbour removes the route. -/
theorem shorterRoute_removed :
    ¬ AddsRoute (noSurroundings 2 2) shorterRoute (Vector.replicate 16 7) 128
      (Vector.replicate 16 2) := by
  intro adds
  obtain present | last := (adds (by decide +kernel)).2 0 (by decide +kernel)
    (by decide +kernel)
  · exact absurd present.2.2.1 (by decide +kernel)
  · exact absurd last.1 (by decide +kernel)

end RouteTables

end Contiki.Net
