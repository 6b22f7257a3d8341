import Contiki.Net.RouteLists

/-!
# The routing table over runs

All operations on routes and neighbours keep the lists of routes in step.
-/

namespace Contiki.Net

namespace RouteTables

open NbrTables

variable {maxNeighbors routeNb : Nat} {Lladdr : Type}

/-! ## A new route -/

variable {before after : RouteTables maxNeighbors routeNb Lladdr}

theorem LinksRoute.client
    {neighbor : Fin maxNeighbors} {ipaddr : IpAddr} {length : UInt8}
    {route entry : Fin routeNb}
    (links : LinksRoute before after neighbor ipaddr length route entry) :
    (∀ other, other ∈ after.client.routelist ↔
      other = route ∨ other ∈ before.client.routelist) ∧
    (∀ other, after.listOf other =
      if other = neighbor then before.listOf neighbor ++ [entry]
      else before.listOf other) ∧
    (∀ other ∈ before.client.routelist,
      after.client.neighborRoutes other =
        before.client.neighborRoutes other) ∧
    (∀ other otherEntry, before.RoutesOk →
      otherEntry ∈ before.listOf other →
      otherEntry ≠ entry ∧
        after.client.route otherEntry = before.client.route otherEntry) := by
  obtain ⟨newRoute, newEntry, isAfter⟩ := links
  subst isAfter
  refine ⟨fun other => List.mem_cons, fun other => ?_,
    fun other listed => ?_, fun other otherEntry ok inList => ?_⟩
  · unfold RouteTables.modify listOf
    dsimp only
    rw [Function.update_apply]
    split <;> rfl
  · refine Function.update_of_ne ?_ _ _
    rintro rfl
    exact newRoute listed
  · have different : otherEntry ≠ entry := by
      rintro rfl
      have allocated := (ok.allocated otherEntry).2 ⟨other, inList⟩
      rw [newEntry] at allocated
      simp at allocated
    exact ⟨different, Function.update_of_ne different _ _⟩

theorem LinksRoute.routesOk
    {neighbor : Fin maxNeighbors} {ipaddr : IpAddr} {length : UInt8}
    {route entry : Fin routeNb}
    (links : LinksRoute before after neighbor ipaddr length route entry)
    (ok : before.RoutesOk) (used : before.usesRoutes neighbor) :
    after.RoutesOk := by
  obtain ⟨mem_routelist, list, pointed, oldEntry⟩ := links.client
  have newRoute := links.newRoute
  have isRoute : after.client.route entry = some route := by
    rw [links.isAfter]
    exact Function.update_self _ _ _
  have isNeighbor : after.client.neighborRoutes route = some neighbor := by
    rw [links.isAfter]
    exact Function.update_self _ _ _
  have sameUse : ∀ other, after.usesRoutes other = before.usesRoutes other :=
    fun other => by
      rw [links.isAfter]
      rfl
  have mem_listOf : ∀ other otherEntry, otherEntry ∈ after.listOf other ↔
      other = neighbor ∧ otherEntry = entry ∨
        otherEntry ∈ before.listOf other := by
    intro other otherEntry
    rw [list]
    split
    · next same =>
        rw [List.mem_append, List.mem_singleton, same]
        simp [or_comm]
    · next different =>
        simp [different]
  have oldRoute : ∀ other otherEntry, otherEntry ∈ before.listOf other →
      after.client.route otherEntry ≠ some route := by
    intro other otherEntry inList isNew
    rw [(oldEntry other otherEntry ok inList).2] at isNew
    obtain ⟨oldRoute, listed, isOld, _⟩ := ok.entry other otherEntry inList
    rw [isNew, Option.some.injEq] at isOld
    rw [← isOld] at listed
    exact newRoute listed
  constructor
  case nodup =>
    rw [links.isAfter]
    exact List.nodup_cons.2 ⟨newRoute, ok.nodup⟩
  case mem_iff =>
    intro other
    rw [mem_routelist, ok.mem_iff, links.isAfter]
    unfold RouteTables.modify
    dsimp only
    rw [Function.update_apply]
    split
    · next same =>
        simp [same]
    · next different =>
        simp [different]
  case numRoutes =>
    rw [links.isAfter]
    unfold RouteTables.modify
    dsimp only
    rw [ok.numRoutes, List.length_cons]
    omega
  case listNodup =>
    intro other
    rw [list]
    split
    · refine (ok.listNodup neighbor).append (List.nodup_singleton entry) ?_
      rw [List.disjoint_singleton]
      intro inList
      exact (oldEntry neighbor entry ok inList).1 rfl
    · exact ok.listNodup other
  case allocated =>
    intro otherEntry
    have isAllocated : after.client.neighborroutememb otherEntry ↔
        otherEntry = entry ∨ before.client.neighborroutememb otherEntry := by
      rw [links.isAfter]
      unfold RouteTables.modify
      dsimp only
      rw [Function.update_apply]
      split
      · next same =>
          simp [same]
      · next different =>
          simp [different]
    rw [isAllocated, ok.allocated]
    simp only [mem_listOf]
    constructor
    · rintro (rfl | ⟨other, inList⟩)
      · exact ⟨neighbor, Or.inl ⟨rfl, rfl⟩⟩
      · exact ⟨other, Or.inr inList⟩
    · rintro ⟨other, ⟨_, rfl⟩ | inList⟩
      · exact Or.inl rfl
      · exact Or.inr ⟨other, inList⟩
  case entry =>
    intro other otherEntry inList
    obtain ⟨rfl, rfl⟩ | inBefore := (mem_listOf other otherEntry).1 inList
    · exact ⟨route, (mem_routelist route).2 (Or.inl rfl), isRoute,
        isNeighbor⟩
    · obtain ⟨oldRoute, listed, isOld, isPointed⟩ :=
        ok.entry other otherEntry inBefore
      refine ⟨oldRoute, (mem_routelist oldRoute).2 (Or.inr listed), ?_, ?_⟩
      · rw [(oldEntry other otherEntry ok inBefore).2]
        exact isOld
      · rw [pointed oldRoute listed]
        exact isPointed
  case linked =>
    intro other isListed
    obtain rfl | listed := (mem_routelist other).1 isListed
    · exact ⟨neighbor, isNeighbor, entry,
        (mem_listOf neighbor entry).2 (Or.inl ⟨rfl, rfl⟩), isRoute⟩
    · obtain ⟨otherNeighbor, isPointed, otherEntry, inList, isOld⟩ :=
        ok.linked other listed
      refine ⟨otherNeighbor, (pointed other listed).trans isPointed,
        otherEntry, (mem_listOf otherNeighbor otherEntry).2 (Or.inr inList),
        ?_⟩
      rw [(oldEntry otherNeighbor otherEntry ok inList).2]
      exact isOld
  case single =>
    intro other first isFirst second isSecond same
    obtain ⟨rfl, rfl⟩ | firstOld := (mem_listOf other first).1 isFirst
    · obtain ⟨-, rfl⟩ | secondOld := (mem_listOf other second).1 isSecond
      · rfl
      · rw [isRoute] at same
        exact absurd same.symm (oldRoute other second secondOld)
    · obtain ⟨rfl, rfl⟩ | secondOld := (mem_listOf other second).1 isSecond
      · rw [isRoute] at same
        exact absurd same (oldRoute other first firstOld)
      · rw [(oldEntry other first ok firstOld).2,
          (oldEntry other second ok secondOld).2] at same
        exact ok.single other first firstOld second secondOld same
  case used =>
    intro other notEmpty
    rw [sameUse]
    by_cases same : other = neighbor
    · rw [same]
      exact used
    · rw [list, if_neg same] at notEmpty
      exact ok.used other notEmpty
  case initialized =>
    intro other isUsed
    rw [sameUse] at isUsed
    rw [links.isAfter]
    unfold RouteTables.modify
    dsimp only
    rw [Function.update_apply]
    split
    · rfl
    · exact ok.initialized other isUsed

theorem LinksRoute.sound
    {before after : RouteTables maxNeighbors routeNb Lladdr}
    {neighbor : Fin maxNeighbors} {ipaddr : IpAddr} {length : UInt8}
    {route entry : Fin routeNb}
    (links : LinksRoute before after neighbor ipaddr length route entry)
    (sound : before.Sound) (used : before.usesRoutes neighbor) :
    after.Sound := by
  refine sound.clearsBits ?_ (links.routesOk sound.routes used)
  rw [links.isAfter]
  exact (ownItems_modify before _).clearsBits

/-! ## The operations -/

variable {tables : RouteTables maxNeighbors routeNb Lladdr}

theorem Sound.uipDs6RouteRm (sound : tables.Sound)
    {route : Option (Fin routeNb)}
    (listed : ∀ r, route = some r → r ∈ tables.client.routelist) :
    (tables.uipDs6RouteRm route).Sound :=
  sound.clearsBits (ownItems_uipDs6RouteRm tables route).clearsBits
    (sound.routes.uipDs6RouteRm_ok listed)

theorem Sound.rmRoutelist (sound : tables.Sound)
    (item : Option (Fin maxNeighbors)) : (tables.rmRoutelist item).Sound :=
  sound.clearsBits (ownItems_rmRoutelist tables item).clearsBits
    (sound.routes.rmRoutelist item).1

theorem Sound.makeRoom (sound : tables.Sound) : tables.makeRoom.Sound := by
  unfold RouteTables.makeRoom
  split
  · exact sound.uipDs6RouteRm fun r isLast => List.mem_of_getLast? isLast
  · exact sound

theorem RoutesOk.reorder (ok : tables.RoutesOk)
    {routelist : List (Fin routeNb)}
    (perm : routelist.Perm tables.client.routelist) :
    (tables.modify fun routes =>
      { routes with routelist := routelist }).RoutesOk := by
  refine ⟨perm.nodup_iff.2 ok.nodup, fun route => ?_, ?_, ok.listNodup,
    ok.allocated, fun neighbor entry inList => ?_, fun route listed => ?_,
    ok.single, ok.used, ok.initialized⟩
  · exact perm.mem_iff.trans (ok.mem_iff route)
  · exact ok.numRoutes.trans (congrArg Nat.cast perm.length_eq.symm)
  · obtain ⟨route, listed, rest⟩ := ok.entry neighbor entry inList
    exact ⟨route, perm.mem_iff.2 listed, rest⟩
  · exact ok.linked route (perm.mem_iff.1 listed)

theorem longestMatch_mem {routes : Routes maxNeighbors routeNb}
    {addr : IpAddr} {list : List (Fin routeNb)} {longestmatch : UInt8}
    {foundRoute : Option (Fin routeNb)} {found : Fin routeNb}
    (isFound : longestMatch routes addr list longestmatch foundRoute =
      some found) : found ∈ list ∨ foundRoute = some found := by
  induction list generalizing longestmatch foundRoute with
  | nil =>
      exact Or.inr isFound
  | cons r rest inductionHypothesis =>
      unfold longestMatch at isFound
      split at isFound
      · split at isFound
        · rw [Option.some.injEq] at isFound
          exact Or.inl (List.mem_cons.2 (Or.inl isFound.symm))
        · obtain inRest | isSame := inductionHypothesis isFound
          · exact Or.inl (List.mem_cons_of_mem r inRest)
          · rw [Option.some.injEq] at isSame
            exact Or.inl (List.mem_cons.2 (Or.inl isSame.symm))
      · obtain inRest | isSame := inductionHypothesis isFound
        · exact Or.inl (List.mem_cons_of_mem r inRest)
        · exact Or.inr isSame

/-- A lookup only reorders the routes, and a route that it finds is first. -/
theorem uipDs6RouteLookup_spec
    (tables : RouteTables maxNeighbors routeNb Lladdr) (addr : IpAddr) :
    (tables.uipDs6RouteLookup addr).1 =
      longestMatch tables.client addr tables.client.routelist 0 none ∧
    ∃ routelist, routelist.Perm tables.client.routelist ∧
      (tables.uipDs6RouteLookup addr).2 = tables.modify fun routes =>
        { routes with routelist := routelist } := by
  unfold RouteTables.uipDs6RouteLookup
  dsimp only
  cases isFound : longestMatch tables.client addr tables.client.routelist 0
      none with
  | none =>
      exact ⟨rfl, _, List.Perm.refl _, rfl⟩
  | some found =>
      have listed := (longestMatch_mem isFound).resolve_right (by simp)
      dsimp only
      split
      · exact ⟨rfl, _, List.Perm.refl _, rfl⟩
      · exact ⟨rfl, _, (List.perm_cons_erase listed).symm, rfl⟩

theorem Sound.uipDs6RouteLookup (sound : tables.Sound)
    (addr : IpAddr) : Sound (tables.uipDs6RouteLookup addr).2 := by
  obtain ⟨_, routelist, perm, isLater⟩ := uipDs6RouteLookup_spec tables addr
  rw [isLater]
  exact sound.clearsBits (ownItems_modify tables _).clearsBits
    (sound.routes.reorder perm)

theorem uipDs6NbrLladdrFromIpaddr_spec {ipaddr : IpAddr} {lladdr : Lladdr}
    (found : tables.uipDs6NbrLladdrFromIpaddr ipaddr = some lladdr) :
    ∃ neighbor ∈ tables.nbrTableKeys,
      tables.uipDs6NbrLookup ipaddr = some neighbor ∧
      lladdr = tables.lladdr neighbor := by
  unfold RouteTables.uipDs6NbrLladdrFromIpaddr at found
  obtain ⟨neighbor, isNeighbor, rfl⟩ := Option.map_eq_some_iff.1 found
  exact ⟨neighbor, List.mem_of_find?_eq_some isNeighbor, isNeighbor, rfl⟩

theorem Sound.modifyNbrIpaddr (sound : tables.Sound)
    (nbrIpaddr : Fin maxNeighbors → IpAddr) :
    (tables.modify fun routes =>
      { routes with nbrIpaddr := nbrIpaddr }).Sound :=
  sound.clearsBits (ownItems_modify tables _).clearsBits
    (sound.routes.same ⟨⟨nbrIpaddr, rfl⟩, fun _ => rfl⟩)

/-! ## The initialization -/

/-- The static variables before `uip_ds6_route_init`. -/
def initialRoutes : Routes maxNeighbors routeNb where
  routelist := []
  routememb := fun _ => false
  neighborRoutes := fun _ => none
  ipaddr := fun _ => Vector.replicate 16 0
  length := fun _ => 0
  neighborroutememb := fun _ => false
  route := fun _ => none
  routeList := fun _ => none
  numRoutes := 0
  nbrIpaddr := fun _ => Vector.replicate 16 0

/-- There are no routes, and only registered tables are used. -/
structure BeforeInit (tables : RouteTables maxNeighbors routeNb Lladdr) :
    Prop where
  keys : tables.KeysOk
  registered : tables.RegisteredOnce
  noRoutes : ∀ place, tables.allTables place ≠ some .nbrRoutes
  used : ∀ key bit, (tables.usedMap key).getLsbD bit →
    bit < tables.numTables
  client : ∃ nbrIpaddr,
    tables.client = { initialRoutes with nbrIpaddr := nbrIpaddr }

theorem beforeInit_initial (lladdr : Lladdr) :
    BeforeInit (NbrTables.initial lladdr initialRoutes :
      RouteTables maxNeighbors routeNb Lladdr) where
  keys := keysOk_initial lladdr _
  registered := by simp [RegisteredOnce, NbrTables.initial]
  noRoutes := by simp [NbrTables.initial]
  used := by simp [NbrTables.initial]
  client := ⟨_, rfl⟩

theorem BeforeInit.clearsBits
    (init : before.BeforeInit) (clears : ClearsBits before after)
    (client : after.client = before.client) : after.BeforeInit where
  keys := init.keys.clearsBits clears
  registered := clears.registeredOnce init.registered
  noRoutes := by
    rw [clears.allTables]
    exact init.noRoutes
  used := by
    intro key bit isSet
    rw [clears.numTables]
    exact init.used key bit (clears.used key bit isSet)
  client := by
    rw [client]
    exact init.client

theorem routesOk_noRoutes (routelist : tables.client.routelist = [])
    (routememb : tables.client.routememb = fun _ => false)
    (neighborroutememb : tables.client.neighborroutememb = fun _ => false)
    (routeList : tables.client.routeList = fun _ => none)
    (numRoutes : tables.client.numRoutes = 0)
    (used : ∀ neighbor, tables.usesRoutes neighbor = false) :
    tables.RoutesOk := by
  have list : ∀ neighbor, tables.listOf neighbor = [] := by
    intro neighbor
    unfold listOf
    rw [routeList]
    rfl
  constructor <;>
    simp [list, routelist, routememb, neighborroutememb, numRoutes, used]

theorem BeforeInit.callBacks (init : tables.BeforeInit)
    (surroundings : Surroundings maxNeighbors routeNb Lladdr)
    (key : Fin maxNeighbors) (places : List (Fin maxNumTables)) :
    BeforeInit (places.foldl (NbrTables.callBack surroundings.tables key)
      tables) := by
  induction places generalizing tables with
  | nil =>
      exact init
  | cons place rest inductionHypothesis =>
      refine inductionHypothesis (init.clearsBits
        (clearsBits_callBack surroundings.tables key tables place) ?_)
      unfold NbrTables.callBack
      split
      · rfl
      · next table isTable =>
          split
          · cases table with
            | nbrRoutes =>
                exact absurd isTable (init.noRoutes place)
            | ds6Neighbors =>
                rfl
            | other number =>
                exact surroundings.client number key _
          · rfl

theorem BeforeInit.uipDs6RouteInit
    (init : tables.BeforeInit) (room : tables.numTables < maxNumTables) :
    tables.uipDs6RouteInit.Sound := by
  obtain ⟨nbrIpaddr, client⟩ := init.client
  unfold RouteTables.uipDs6RouteInit RouteTables.modify
    NbrTables.nbrTableRegister
  dsimp only
  rw [dif_pos room]
  refine ⟨⟨init.keys.nodup, init.keys.mem_iff, init.keys.lladdr,
    init.keys.used⟩, fun place table isTable => ?_, ?_, ?_, ?_⟩
  · dsimp only at isTable ⊢
    rw [Function.update_apply] at isTable
    split at isTable
    · next isPlace =>
        rw [Option.some.injEq] at isTable
        rw [← isTable, Function.update_self, isPlace]
        exact ⟨rfl, Nat.lt_succ_self _⟩
    · obtain ⟨index, bound⟩ := init.registered place table isTable
      rw [Function.update_of_ne]
      · exact ⟨index, Nat.lt_succ_of_lt bound⟩
      · rintro rfl
        exact init.noRoutes place isTable
  · dsimp only
    rw [Function.update_self, Function.update_self]
  · dsimp only
    rw [Function.update_self]
  · refine routesOk_noRoutes rfl rfl ?_ ?_ ?_ fun neighbor => ?_
    · dsimp only
      rw [client]
      rfl
    · dsimp only
      rw [client]
      rfl
    · dsimp only
      rw [client]
      rfl
    · unfold usesRoutes NbrTables.nbrGetBit
      dsimp only
      rw [Function.update_self]
      by_contra isSet
      rw [Bool.not_eq_false] at isSet
      exact Nat.lt_irrefl _ (init.used neighbor _ isSet)

theorem RoutesOk.count_routememb (ok : tables.RoutesOk) :
    (List.finRange routeNb).countP tables.client.routememb =
      tables.client.routelist.length := by
  have perm : ((List.finRange routeNb).filter tables.client.routememb).Perm
      tables.client.routelist := by
    rw [List.perm_ext_iff_of_nodup
      ((List.nodup_finRange routeNb).filter _) ok.nodup]
    intro route
    rw [List.mem_filter, ok.mem_iff]
    simp [List.mem_finRange]
  rw [List.countP_eq_length_filter, perm.length_eq]

/-! ## Adding routes and neighbours -/

variable [DecidableEq Lladdr]
  (surroundings : Surroundings maxNeighbors routeNb Lladdr)

theorem Sound.neighborEntry
    {tables : RouteTables maxNeighbors routeNb Lladdr} (sound : tables.Sound)
    {neighbor : Fin maxNeighbors} (listed : neighbor ∈ tables.nbrTableKeys) :
    ∃ after, tables.neighborEntry surroundings (tables.lladdr neighbor) =
        (some neighbor, after) ∧ EntersList tables after neighbor := by
  have index : tables.indexFromLladdr surroundings.tables
      (some (tables.lladdr neighbor)) = some neighbor :=
    sound.keys.indexFromLladdr surroundings.tables listed rfl
  have isUsed : tables.nbrTableGetFromLladdr surroundings.tables .nbrRoutes
      (some (tables.lladdr neighbor)) =
        if tables.usesRoutes neighbor then some neighbor else none := by
    unfold NbrTables.nbrTableGetFromLladdr
    dsimp only
    rw [index]
    rfl
  unfold RouteTables.neighborEntry
  rw [isUsed]
  by_cases used : tables.usesRoutes neighbor
  · rw [if_pos used]
    obtain ⟨list, isList⟩ :=
      Option.isSome_iff_exists.1 (sound.routes.initialized neighbor used)
    refine ⟨tables, rfl, ?_, fun other => ?_, fun _ _ _ => rfl, rfl, rfl, rfl,
      rfl, rfl, rfl, rfl, rfl⟩
    · have same : some (tables.listOf neighbor) =
          tables.client.routeList neighbor := by
        unfold listOf
        rw [isList]
        rfl
      rw [same, Function.update_eq_self]
    · split
      · next same =>
          rw [same]
          exact used
      · rfl
  · rw [if_neg used]
    dsimp only
    unfold NbrTables.nbrTableAddLladdr
    rw [index]
    dsimp only
    have empty : tables.listOf neighbor = [] := by
      by_contra notEmpty
      exact used (sound.routes.used neighbor notEmpty)
    refine ⟨_, rfl, ?_, fun other => ?_, fun item bit other => ?_, rfl, rfl,
      rfl, rfl, rfl, rfl, rfl, rfl⟩
    · rw [empty]
      unfold RouteTables.modify NbrTables.useItem Surroundings.tables
      dsimp only
      rw [Function.update_idem]
    · change ((tables.nbrSetBit tables.usedMap .nbrRoutes (some neighbor)
        true).2 other).getLsbD (tables.index .nbrRoutes) = _
      rw [getLsbD_nbrSetBit]
      simp only [and_true]
      rfl
    · change ((tables.nbrSetBit tables.usedMap .nbrRoutes (some neighbor)
        true).2 item).getLsbD bit = _
      rw [getLsbD_nbrSetBit, if_neg fun both => other both.2]

theorem Sound.addRoute_cases
    {tables : RouteTables maxNeighbors routeNb Lladdr} (sound : tables.Sound)
    {neighbor : Fin maxNeighbors} (listed : neighbor ∈ tables.nbrTableKeys)
    (ipaddr : IpAddr) (length : UInt8) :
    ∃ entered, EntersList tables.makeRoom entered neighbor ∧
      entered.Sound ∧
      (tables.addRoute surroundings (tables.lladdr neighbor) ipaddr length =
          (none, entered) ∧ routeNb = entered.client.routelist.length ∨
        ∃ route entry after,
          tables.addRoute surroundings (tables.lladdr neighbor) ipaddr
            length = (some route, after) ∧ after.Sound ∧
          LinksRoute entered after neighbor ipaddr length route entry) := by
  have roomSound := sound.makeRoom
  have own : OwnItems .nbrRoutes tables tables.makeRoom := by
    unfold RouteTables.makeRoom
    split
    · exact ownItems_uipDs6RouteRm tables _
    · exact OwnItems.refl _ tables
  have stillListed : neighbor ∈ tables.makeRoom.nbrTableKeys := by
    rw [own.nbrTableKeys]
    exact listed
  obtain ⟨entered, isEntered, enters⟩ :=
    roomSound.neighborEntry surroundings stillListed
  have enteredSound := enters.sound roomSound stillListed
  have used : entered.usesRoutes neighbor := by
    rw [enters.used, if_pos rfl]
  refine ⟨entered, enters, enteredSound, ?_⟩
  unfold RouteTables.addRoute
  rw [own.lladdr] at isEntered
  rw [isEntered]
  obtain full | ⟨route, entry, after, isAfter, links⟩ :=
    enteredSound.routes.linkRoute used ipaddr length
  · exact Or.inl full
  · exact Or.inr ⟨route, entry, after, isAfter,
      links.sound enteredSound used, links⟩

theorem Sound.addRoute
    {tables : RouteTables maxNeighbors routeNb Lladdr} (sound : tables.Sound)
    {neighbor : Fin maxNeighbors} (listed : neighbor ∈ tables.nbrTableKeys)
    (ipaddr : IpAddr) (length : UInt8) :
    Sound (tables.addRoute surroundings (tables.lladdr neighbor) ipaddr
      length).2 := by
  obtain ⟨entered, _, enteredSound, ⟨added, _⟩ | ⟨_, _, _, added,
    afterSound, _⟩⟩ := sound.addRoute_cases surroundings listed ipaddr length
  · rw [added]
    exact enteredSound
  · rw [added]
    exact afterSound

theorem Sound.uipDs6RouteAdd
    {tables : RouteTables maxNeighbors routeNb Lladdr} (sound : tables.Sound)
    (ipaddr : IpAddr) (length : UInt8) (nexthop : IpAddr) :
    Sound (tables.uipDs6RouteAdd surroundings ipaddr length nexthop).2 := by
  unfold RouteTables.uipDs6RouteAdd
  cases isLladdr : tables.uipDs6NbrLladdrFromIpaddr nexthop with
  | none =>
      exact sound
  | some lladdr =>
      obtain ⟨neighbor, listed, -, rfl⟩ :=
        uipDs6NbrLladdrFromIpaddr_spec isLladdr
      obtain ⟨isFound, routelist, perm, isLater⟩ :=
        uipDs6RouteLookup_spec tables ipaddr
      have laterSound := sound.uipDs6RouteLookup ipaddr
      rcases lookup : tables.uipDs6RouteLookup ipaddr with ⟨found, later⟩
      rw [lookup] at isFound isLater laterSound
      dsimp only at isFound isLater laterSound ⊢
      subst isLater
      cases found with
      | none =>
          exact laterSound.addRoute surroundings listed ipaddr length
      | some r =>
          dsimp only
          split
          · exact laterSound
          · have inList := perm.mem_iff.2
              ((longestMatch_mem isFound.symm).resolve_right (by simp))
            have removedSound := @Sound.uipDs6RouteRm _ _ _ _ laterSound
              (some r) fun other same => by
                rw [Option.some.injEq] at same
                subst same
                exact inList
            have own := ownItems_uipDs6RouteRm (tables.modify fun routes =>
              { routes with routelist := routelist }) (some r)
            have added := @Sound.addRoute _ _ _ _ surroundings _ removedSound
              neighbor (by rw [own.nbrTableKeys]; exact listed)
              ipaddr length
            rw [own.lladdr] at added
            exact added

theorem Sound.nbrTableAddLladdr
    {tables : RouteTables maxNeighbors routeNb Lladdr} (sound : tables.Sound)
    {table : TableName} (registered : tables.Registered table)
    (other : table ≠ .nbrRoutes) (lladdr : Option Lladdr) :
    Sound (tables.nbrTableAddLladdr surroundings.tables table lladdr).2 := by
  obtain ⟨key, found, finds, added⟩ | full :=
    nbrTableAddLladdr_cases surroundings.tables tables table lladdr
  · rw [added]
    obtain ⟨_, listed, _⟩ := finds.keysOk surroundings.tables sound.keys
    obtain ⟨foundSound, index, allTables⟩ := sound.findsKey surroundings finds
    refine foundSound.useItem surroundings ?_ other listed
    unfold Registered
    rw [index, allTables]
    exact registered
  · rw [full]
    exact sound

theorem Sound.uipDs6NbrAdd
    {tables : RouteTables maxNeighbors routeNb Lladdr} (sound : tables.Sound)
    (registered : tables.Registered .ds6Neighbors) (ipaddr : IpAddr)
    (lladdr : Option Lladdr) :
    (tables.uipDs6NbrAdd surroundings ipaddr lladdr).Sound := by
  have added := sound.nbrTableAddLladdr surroundings registered (by simp)
    lladdr
  unfold RouteTables.uipDs6NbrAdd
  split
  · next isAdded =>
      rw [isAdded] at added
      exact added
  · next isAdded =>
      rw [isAdded] at added
      exact added.modifyNbrIpaddr _

/-! ## Runs -/

/-- The tables are used by their owners only: a table is registered once, and
before it is used. -/
def OnOtherTable (tables : RouteTables maxNeighbors routeNb Lladdr) :
    NbrTables.Operation maxNeighbors TableName Lladdr → Prop
  | .register table _ =>
      (∀ place, tables.allTables place ≠ some table) ∧ table ≠ .nbrRoutes
  | .addLladdr table _ => tables.Registered table ∧ table ≠ .nbrRoutes
  | .remove table _ => tables.Registered table ∧ table ≠ .nbrRoutes
  | .lock _ _ => True
  | .unlock _ _ => True

/-- The operations on routes and neighbours. -/
inductive RouteOperation (maxNeighbors routeNb : Nat) (Lladdr : Type) where
  | uipDs6RouteAdd (ipaddr : IpAddr) (length : UInt8) (nexthop : IpAddr)
  | uipDs6RouteRm (route : Option (Fin routeNb))
  | uipDs6RouteRmByNexthop (nexthop : IpAddr)
  | uipDs6RouteLookup (addr : IpAddr)
  | uipDs6NbrAdd (ipaddr : IpAddr) (lladdr : Option Lladdr)
  | onTable (operation : NbrTables.Operation maxNeighbors TableName Lladdr)

def routeStep (tables : RouteTables maxNeighbors routeNb Lladdr) :
    RouteOperation maxNeighbors routeNb Lladdr →
    RouteTables maxNeighbors routeNb Lladdr
  | .uipDs6RouteAdd ipaddr length nexthop =>
      (tables.uipDs6RouteAdd surroundings ipaddr length nexthop).2
  | .uipDs6RouteRm route => tables.uipDs6RouteRm route
  | .uipDs6RouteRmByNexthop nexthop =>
      tables.uipDs6RouteRmByNexthop surroundings nexthop
  | .uipDs6RouteLookup addr => (tables.uipDs6RouteLookup addr).2
  | .uipDs6NbrAdd ipaddr lladdr =>
      tables.uipDs6NbrAdd surroundings ipaddr lladdr
  | .onTable operation => tables.step surroundings.tables operation

def routeRun (tables : RouteTables maxNeighbors routeNb Lladdr)
    (operations : List (RouteOperation maxNeighbors routeNb Lladdr)) :
    RouteTables maxNeighbors routeNb Lladdr :=
  operations.foldl (routeStep surroundings) tables

/-- A route that is removed is on the list, and the tables are used by their
owners only. -/
def Admissible (tables : RouteTables maxNeighbors routeNb Lladdr) :
    RouteOperation maxNeighbors routeNb Lladdr → Prop
  | .uipDs6RouteAdd _ _ _ => True
  | .uipDs6RouteRm route =>
      ∀ r, route = some r → r ∈ tables.client.routelist
  | .uipDs6RouteRmByNexthop _ => True
  | .uipDs6RouteLookup _ => True
  | .uipDs6NbrAdd _ _ => tables.Registered .ds6Neighbors
  | .onTable operation => tables.OnOtherTable operation

def AdmissibleRun (tables : RouteTables maxNeighbors routeNb Lladdr) :
    List (RouteOperation maxNeighbors routeNb Lladdr) → Prop
  | [] => True
  | operation :: rest =>
      tables.Admissible operation ∧
        (tables.routeStep surroundings operation).AdmissibleRun rest

theorem Sound.onTable
    {tables : RouteTables maxNeighbors routeNb Lladdr} (sound : tables.Sound)
    {operation : NbrTables.Operation maxNeighbors TableName Lladdr}
    (onOther : tables.OnOtherTable operation) :
    Sound (tables.step surroundings.tables operation) := by
  cases operation with
  | register table hasCallback =>
      obtain ⟨new, other⟩ := onOther
      have keys := sound.keys.step surroundings.tables
        (.register table hasCallback)
      have registered := sound.registered.step surroundings.tables
        (show NbrTables.RegistersNew _ (.register table hasCallback) from new)
      unfold NbrTables.step NbrTables.nbrTableRegister at *
      dsimp only at *
      split at keys
      · next room =>
          rw [dif_pos room] at registered ⊢
          have otherIndex : ∀ (value : Fin maxNumTables),
              Function.update tables.index table value .nbrRoutes =
                tables.index .nbrRoutes :=
            fun value => Function.update_of_ne other.symm _ _
          refine ⟨keys, registered, ?_, ?_, sound.routes.same
            ⟨⟨_, rfl⟩, fun neighbor => ?_⟩⟩
          · dsimp only
            rw [otherIndex, Function.update_of_ne]
            · exact sound.routesPlace
            · intro same
              obtain ⟨_, bound⟩ :=
                sound.registered _ _ sound.routesPlace
              rw [same] at bound
              exact Nat.lt_irrefl _ bound
          · dsimp only
            rw [Function.update_of_ne other.symm]
            exact sound.routesCallback
          · unfold usesRoutes NbrTables.nbrGetBit
            dsimp only
            rw [otherIndex]
      · next full =>
          rw [dif_neg full]
          exact sound
  | addLladdr table lladdr =>
      exact sound.nbrTableAddLladdr surroundings onOther.1 onOther.2 lladdr
  | remove table item =>
      have own := ownItems_nbrTableRemove tables table item
      exact sound.clearsBits own.clearsBits (sound.routes.same
        (sameRoutes_of_own own rfl (sound.index_ne onOther.1 onOther.2)))
  | lock table item =>
      exact ⟨sound.keys.step surroundings.tables (.lock table item),
        sound.registered, sound.routesPlace, sound.routesCallback,
        sound.routes.same ⟨⟨_, rfl⟩, fun _ => rfl⟩⟩
  | unlock table item =>
      exact ⟨sound.keys.step surroundings.tables (.unlock table item),
        sound.registered, sound.routesPlace, sound.routesCallback,
        sound.routes.same ⟨⟨_, rfl⟩, fun _ => rfl⟩⟩

theorem Sound.routeStep
    {tables : RouteTables maxNeighbors routeNb Lladdr} (sound : tables.Sound)
    {operation : RouteOperation maxNeighbors routeNb Lladdr}
    (admissible : tables.Admissible operation) :
    (tables.routeStep surroundings operation).Sound := by
  cases operation with
  | uipDs6RouteAdd ipaddr length nexthop =>
      exact sound.uipDs6RouteAdd surroundings ipaddr length nexthop
  | uipDs6RouteRm route =>
      exact sound.uipDs6RouteRm admissible
  | uipDs6RouteRmByNexthop nexthop =>
      exact sound.rmRoutelist _
  | uipDs6RouteLookup addr =>
      exact sound.uipDs6RouteLookup addr
  | uipDs6NbrAdd ipaddr lladdr =>
      exact sound.uipDs6NbrAdd surroundings admissible ipaddr lladdr
  | onTable operation =>
      exact sound.onTable surroundings admissible

theorem Sound.routeRun
    {tables : RouteTables maxNeighbors routeNb Lladdr} (sound : tables.Sound)
    {operations : List (RouteOperation maxNeighbors routeNb Lladdr)}
    (admissible : tables.AdmissibleRun surroundings operations) :
    (tables.routeRun surroundings operations).Sound := by
  induction operations generalizing tables with
  | nil =>
      exact sound
  | cons operation rest inductionHypothesis =>
      exact inductionHypothesis
        (sound.routeStep surroundings admissible.1) admissible.2

theorem BeforeInit.nbrTableAddLladdr
    {tables : RouteTables maxNeighbors routeNb Lladdr}
    (init : tables.BeforeInit) {table : TableName}
    (registered : tables.Registered table) (other : table ≠ .nbrRoutes)
    (lladdr : Option Lladdr) :
    BeforeInit
      (tables.nbrTableAddLladdr surroundings.tables table lladdr).2 := by
  have keys := init.keys.nbrTableAddLladdr surroundings.tables table lladdr
  have once := init.registered.nbrTableAddLladdr surroundings.tables table
    lladdr
  have inTables := (init.registered _ _ registered).2
  obtain ⟨key, found, finds, added⟩ | full :=
    nbrTableAddLladdr_cases surroundings.tables tables table lladdr
  · rw [added] at keys once ⊢
    have foundInit : found.index = tables.index ∧
        found.numTables = tables.numTables ∧
        found.allTables = tables.allTables ∧
        (∀ key bit, (found.usedMap key).getLsbD bit →
          bit < tables.numTables) ∧
        ∃ nbrIpaddr, found.client =
          { initialRoutes with nbrIpaddr := nbrIpaddr } := by
      cases finds with
      | listed _ _ =>
          exact ⟨rfl, rfl, rfl, init.used, init.client⟩
      | free _ _ =>
          exact ⟨rfl, rfl, rfl, init.used, init.client⟩
      | evicted _ _ _ told isTold =>
          have toldInit : BeforeInit told := by
            rw [isTold]
            exact init.callBacks surroundings key _
          have clears : ClearsBits tables told := by
            rw [isTold]
            exact clearsBits_callBacks surroundings.tables key tables _
          refine ⟨clears.index, clears.numTables, clears.allTables,
            fun item bit isSet => ?_, toldInit.client⟩
          rw [← clears.numTables]
          refine toldInit.used item bit ?_
          change (Function.update told.usedMap key 0 item).getLsbD bit = true
            at isSet
          rw [Function.update_apply] at isSet
          split at isSet
          · simp at isSet
          · exact isSet
    obtain ⟨index, numTables, allTables, used, nbrIpaddr, client⟩ := foundInit
    refine ⟨keys, once, ?_, fun item bit isSet => ?_, ?_⟩
    · change ∀ place, found.allTables place ≠ some .nbrRoutes
      rw [allTables]
      exact init.noRoutes
    · change bit < found.numTables
      rw [numTables]
      change ((found.nbrSetBit found.usedMap table (some key) true).2
        item).getLsbD bit = true at isSet
      rw [getLsbD_nbrSetBit] at isSet
      split at isSet
      · next isBit =>
          rw [isBit.2, index]
          exact inTables
      · exact used item bit isSet
    · unfold NbrTables.useItem Surroundings.tables
      cases table with
      | nbrRoutes =>
          exact absurd rfl other
      | ds6Neighbors =>
          exact ⟨_, by dsimp only; rw [client]⟩
      | other number =>
          exact ⟨_, client⟩
  · rw [full]
    exact init

theorem BeforeInit.step
    {tables : RouteTables maxNeighbors routeNb Lladdr}
    (init : tables.BeforeInit)
    {operation : NbrTables.Operation maxNeighbors TableName Lladdr}
    (onOther : tables.OnOtherTable operation) :
    BeforeInit (tables.step surroundings.tables operation) := by
  have keys := init.keys.step surroundings.tables operation
  cases operation with
  | register table hasCallback =>
      have once := init.registered.step surroundings.tables
        (show NbrTables.RegistersNew _ (.register table hasCallback) from
          onOther.1)
      unfold NbrTables.step NbrTables.nbrTableRegister at *
      dsimp only at *
      split at keys
      · next room =>
          rw [dif_pos room] at once ⊢
          refine ⟨keys, once, fun place => ?_, fun key bit isSet => ?_,
            init.client⟩
          · dsimp only
            rw [Function.update_apply]
            split
            · exact fun same => onOther.2 (Option.some.inj same)
            · exact init.noRoutes place
          · exact Nat.lt_succ_of_lt (init.used key bit isSet)
      · next full =>
          rw [dif_neg full]
          exact init
  | addLladdr table lladdr =>
      exact init.nbrTableAddLladdr surroundings onOther.1 onOther.2 lladdr
  | remove table item =>
      exact init.clearsBits
        (ownItems_nbrTableRemove tables table item).clearsBits rfl
  | lock table item =>
      exact ⟨keys, init.registered, init.noRoutes, init.used, init.client⟩
  | unlock table item =>
      exact ⟨keys, init.registered, init.noRoutes, init.used, init.client⟩

/-- The tables are used by their owners only over a run. -/
def OnOtherTableRun (tables : RouteTables maxNeighbors routeNb Lladdr) :
    List (NbrTables.Operation maxNeighbors TableName Lladdr) → Prop
  | [] => True
  | operation :: rest =>
      tables.OnOtherTable operation ∧
        OnOtherTableRun (tables.step surroundings.tables operation) rest

theorem BeforeInit.run
    {tables : RouteTables maxNeighbors routeNb Lladdr}
    (init : tables.BeforeInit)
    {operations : List (NbrTables.Operation maxNeighbors TableName Lladdr)}
    (onOther : tables.OnOtherTableRun surroundings operations) :
    BeforeInit (tables.run surroundings.tables operations) := by
  induction operations generalizing tables with
  | nil =>
      exact init
  | cons operation rest inductionHypothesis =>
      exact inductionHypothesis (init.step surroundings onOther.1) onOther.2

/-- What holds of the routing table in every state that can be reached. -/
theorem routeTables_run (lladdr : Lladdr)
    (before : List (NbrTables.Operation maxNeighbors TableName Lladdr))
    (operations : List (RouteOperation maxNeighbors routeNb Lladdr))
    (onOther : OnOtherTableRun surroundings
      (NbrTables.initial lladdr initialRoutes) before)
    (room : ((NbrTables.initial lladdr initialRoutes).run
      surroundings.tables before).numTables < maxNumTables)
    (admissible : AdmissibleRun surroundings (uipDs6RouteInit
      ((NbrTables.initial lladdr initialRoutes).run surroundings.tables
        before)) operations) :
    let tables := (uipDs6RouteInit ((NbrTables.initial lladdr
      initialRoutes).run surroundings.tables before)).routeRun surroundings
        operations
    (tables.client.numRoutes = tables.client.routelist.length ∧
      (List.finRange routeNb).countP tables.client.routememb =
        tables.client.routelist.length ∧
      tables.client.routelist.length ≤ routeNb) ∧
    (tables.client.routelist.Nodup ∧
      ∀ route ∈ tables.client.routelist, tables.client.routememb route ∧
        ∃ neighbor, tables.client.neighborRoutes route = some neighbor ∧
          (∃! entry, entry ∈ tables.listOf neighbor ∧
            tables.client.route entry = some route) ∧
          ∀ other, ∀ entry ∈ tables.listOf other,
            tables.client.route entry = some route → other = neighbor) ∧
    ∀ neighbor, (tables.listOf neighbor).Nodup ∧
      ∀ entry ∈ tables.listOf neighbor,
        tables.client.neighborroutememb entry ∧
        ∃ route ∈ tables.client.routelist,
          tables.client.route entry = some route ∧
          tables.client.routememb route := by
  intro tables
  have init := ((@beforeInit_initial _ routeNb _ lladdr).run
    surroundings onOther).uipDs6RouteInit room
  have ok := (init.routeRun surroundings admissible).routes
  refine ⟨⟨ok.numRoutes, ok.count_routememb, ok.length_le⟩,
    ⟨ok.nodup, fun route listed => ⟨(ok.mem_iff route).1 listed, ?_⟩⟩,
    fun neighbor => ⟨ok.listNodup neighbor, fun entry inList => ?_⟩⟩
  · obtain ⟨neighbor, pointed, entry, inList, isRoute⟩ :=
      ok.linked route listed
    refine ⟨neighbor, pointed, ⟨entry, ⟨inList, isRoute⟩, ?_⟩, ?_⟩
    · rintro other ⟨otherInList, isSame⟩
      exact ok.single neighbor other otherInList entry inList
        (isSame.trans isRoute.symm)
    · intro other otherEntry otherInList isSame
      obtain ⟨otherRoute, _, isOther, ofOther⟩ :=
        ok.entry other otherEntry otherInList
      rw [isSame, Option.some.injEq] at isOther
      rw [← isOther, pointed, Option.some.injEq] at ofOther
      exact ofOther.symm
  · obtain ⟨route, listed, isRoute, _⟩ := ok.entry neighbor entry inList
    exact ⟨(ok.allocated entry).2 ⟨neighbor, inList⟩, route, listed, isRoute,
      (ok.mem_iff route).1 listed⟩

/-- No tables but those of neighbours and routes. -/
def noSurroundings (maxNeighbors routeNb : Nat) :
    Surroundings maxNeighbors routeNb UInt8 where
  linkaddrNull := 0
  ipaddrAtNull := Vector.replicate 16 0
  callback := fun _ _ tables => tables
  own := fun _ _ tables => OwnItems.refl _ tables
  client := fun _ _ _ => rfl

/-- A second neighbour evicts the first one with its route. -/
def evictsNeighbor : List (RouteOperation 1 2 UInt8) :=
  [.uipDs6NbrAdd (Vector.replicate 16 1) (some 1),
    .uipDs6RouteAdd (Vector.replicate 16 7) 64 (Vector.replicate 16 1),
    .uipDs6NbrAdd (Vector.replicate 16 2) (some 2),
    .uipDs6RouteAdd (Vector.replicate 16 8) 64 (Vector.replicate 16 2)]

theorem evictsNeighbor_routes :
    (List.finRange 2).countP ((uipDs6RouteInit ((NbrTables.initial 0
      initialRoutes).run (noSurroundings 1 2).tables
        [.register .ds6Neighbors true])).routeRun (noSurroundings 1 2)
          evictsNeighbor).client.routememb = 1 := by
  have inStep := routeTables_run (noSurroundings 1 2) 0
    [.register .ds6Neighbors true] evictsNeighbor
    ⟨⟨fun place => by revert place; decide +kernel, by decide⟩, trivial⟩
    (by decide +kernel)
    ⟨by change (_ : Option TableName) = _; decide +kernel, trivial,
      by change (_ : Option TableName) = _; decide +kernel, trivial, trivial⟩
  rw [inStep.1.2.1]
  decide +kernel

end RouteTables

end Contiki.Net
