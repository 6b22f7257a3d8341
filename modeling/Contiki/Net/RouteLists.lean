import Mathlib.Data.List.Perm.Subperm
import Contiki.Net.Route

/-!
# The lists of routes

The list of all routes and the lists of the neighbours stay in step, also when
neighbours are evicted.
-/

namespace Contiki.Net

namespace RouteTables

open NbrTables

variable {maxNeighbors routeNb : Nat} {Lladdr : Type}

/-- `nbr_routes` has an item for a neighbour. -/
def usesRoutes (tables : RouteTables maxNeighbors routeNb Lladdr)
    (neighbor : Fin maxNeighbors) : Bool :=
  tables.nbrGetBit tables.usedMap .nbrRoutes (some neighbor)

/-- The lists and the pools are in step. -/
structure RoutesOk (tables : RouteTables maxNeighbors routeNb Lladdr) :
    Prop where
  nodup : tables.client.routelist.Nodup
  mem_iff : ∀ route, route ∈ tables.client.routelist ↔
    tables.client.routememb route
  numRoutes : tables.client.numRoutes = tables.client.routelist.length
  listNodup : ∀ neighbor, (tables.listOf neighbor).Nodup
  allocated : ∀ entry, tables.client.neighborroutememb entry ↔
    ∃ neighbor, entry ∈ tables.listOf neighbor
  entry : ∀ neighbor, ∀ entry ∈ tables.listOf neighbor,
    ∃ route ∈ tables.client.routelist,
      tables.client.route entry = some route ∧
      tables.client.neighborRoutes route = some neighbor
  linked : ∀ route ∈ tables.client.routelist, ∃ neighbor,
    tables.client.neighborRoutes route = some neighbor ∧
    ∃ entry ∈ tables.listOf neighbor, tables.client.route entry = some route
  single : ∀ neighbor, ∀ first ∈ tables.listOf neighbor,
    ∀ second ∈ tables.listOf neighbor,
      tables.client.route first = tables.client.route second →
        first = second
  used : ∀ neighbor, tables.listOf neighbor ≠ [] →
    tables.usesRoutes neighbor
  initialized : ∀ neighbor, tables.usesRoutes neighbor →
    (tables.client.routeList neighbor).isSome

/-- The routing table is the same up to the addresses of the neighbours, and
so are the items of `nbr_routes`. -/
structure SameRoutes
    (before after : RouteTables maxNeighbors routeNb Lladdr) : Prop where
  client : ∃ nbrIpaddr,
    after.client = { before.client with nbrIpaddr := nbrIpaddr }
  used : ∀ neighbor, after.usesRoutes neighbor = before.usesRoutes neighbor

theorem RoutesOk.same {before after : RouteTables maxNeighbors routeNb Lladdr}
    (ok : before.RoutesOk) (same : SameRoutes before after) :
    after.RoutesOk := by
  obtain ⟨nbrIpaddr, client⟩ := same.client
  have list : ∀ neighbor, after.listOf neighbor = before.listOf neighbor := by
    intro neighbor
    unfold listOf
    rw [client]
  constructor
  case used =>
    intro neighbor
    rw [list, same.used]
    exact ok.used neighbor
  case initialized =>
    intro neighbor
    rw [client, same.used]
    exact ok.initialized neighbor
  all_goals simp only [list, client]
  · exact ok.nodup
  · exact ok.mem_iff
  · exact ok.numRoutes
  · exact ok.listNodup
  · exact ok.allocated
  · exact ok.entry
  · exact ok.linked
  · exact ok.single

variable {before after : RouteTables maxNeighbors routeNb Lladdr}
  {tables : RouteTables maxNeighbors routeNb Lladdr}

theorem RoutesOk.neighbor_eq
    (ok : tables.RoutesOk) {first second : Fin maxNeighbors}
    {entry : Fin routeNb} (inFirst : entry ∈ tables.listOf first)
    (inSecond : entry ∈ tables.listOf second) : first = second := by
  obtain ⟨route, _, isRoute, ofFirst⟩ := ok.entry first entry inFirst
  obtain ⟨same, _, isSame, ofSecond⟩ := ok.entry second entry inSecond
  rw [isRoute, Option.some.injEq] at isSame
  rw [← isSame, ofFirst, Option.some.injEq] at ofSecond
  exact ofSecond

/-! ## Removing a route -/

/-- A route, its neighbour and its entry are unlinked. -/
structure Unlinks (before after : RouteTables maxNeighbors routeNb Lladdr)
    (route : Fin routeNb) (neighbor : Fin maxNeighbors)
    (entry : Fin routeNb) : Prop where
  pointed : before.client.neighborRoutes route = some neighbor
  member : entry ∈ before.listOf neighbor
  isRoute : before.client.route entry = some route
  routelist : after.client.routelist = before.client.routelist.erase route
  list : ∀ other, after.listOf other =
    if other = neighbor then (before.listOf neighbor).erase entry
    else before.listOf other
  isSome : ∀ other, (after.client.routeList other).isSome =
    (before.client.routeList other).isSome
  routememb : after.client.routememb =
    Function.update before.client.routememb route false
  neighborroutememb : after.client.neighborroutememb =
    Function.update before.client.neighborroutememb entry false
  numRoutes : after.client.numRoutes = before.client.numRoutes - 1
  neighborRoutes : after.client.neighborRoutes = before.client.neighborRoutes
  route : after.client.route = before.client.route
  ipaddr : after.client.ipaddr = before.client.ipaddr
  length : after.client.length = before.client.length
  nbrIpaddr : after.client.nbrIpaddr = before.client.nbrIpaddr
  used : ∀ other, after.usesRoutes other =
    if other = neighbor ∧ after.listOf neighbor = [] then false
    else before.usesRoutes other

theorem usesRoutes_nbrTableRemove
    (tables : RouteTables maxNeighbors routeNb Lladdr)
    (neighbor other : Fin maxNeighbors) :
    usesRoutes (tables.nbrTableRemove .nbrRoutes (some neighbor)).2 other =
      if other = neighbor then false else tables.usesRoutes other := by
  change ((tables.nbrSetBit tables.usedMap .nbrRoutes (some neighbor)
    false).2 other).getLsbD (tables.index .nbrRoutes) = _
  rw [getLsbD_nbrSetBit]
  simp only [and_true]
  rfl

theorem RoutesOk.uipDs6RouteRm (ok : tables.RoutesOk)
    {route : Fin routeNb} (member : route ∈ tables.client.routelist) :
    ∃ neighbor entry,
      Unlinks tables (tables.uipDs6RouteRm (some route)) route neighbor
        entry := by
  obtain ⟨neighbor, pointed, entry, inList, isRoute⟩ :=
    ok.linked route member
  have found : tables.neighborRoute neighbor route = some entry := by
    unfold neighborRoute
    cases isFound : (tables.listOf neighbor).find? fun entry =>
        tables.client.route entry = some route with
    | none =>
        exact absurd (decide_eq_true isRoute)
          (List.find?_eq_none.1 isFound entry inList)
    | some other =>
        have isOther := List.find?_some isFound
        rw [ok.single neighbor other (List.mem_of_find?_eq_some isFound) entry
          inList ((of_decide_eq_true isOther).trans isRoute.symm)]
  have list : ∀ other, (tables.unlinkRoute neighbor route).listOf other =
      if other = neighbor then (tables.listOf neighbor).erase entry
      else tables.listOf other := by
    intro other
    unfold unlinkRoute RouteTables.modify listOf
    dsimp only
    rw [found, Function.update_apply]
    split
    · next same =>
        cases tables.client.routeList neighbor <;> rfl
    · rfl
  have isSome : ∀ other,
      ((tables.unlinkRoute neighbor route).client.routeList other).isSome =
        (tables.client.routeList other).isSome := by
    intro other
    unfold unlinkRoute RouteTables.modify
    dsimp only
    rw [found, Function.update_apply]
    split
    · next same =>
        rw [same, Option.isSome_map]
    · rfl
  refine ⟨neighbor, entry, ?_⟩
  unfold RouteTables.uipDs6RouteRm
  dsimp only
  rw [pointed]
  dsimp only
  rw [found]
  split
  · next empty =>
      have emptied : (tables.listOf neighbor).erase entry = [] := by
        rw [← empty, list, if_pos rfl]
      refine ⟨pointed, inList, isRoute, rfl, list, isSome, rfl, rfl, rfl, rfl,
        rfl, rfl, rfl, rfl, fun other => ?_⟩
      refine (usesRoutes_nbrTableRemove _ neighbor other).trans ?_
      by_cases same : other = neighbor
      · rw [if_pos same, if_pos ⟨same, empty⟩]
      · rw [if_neg same, if_neg fun both => same both.1]
        rfl
  · next notEmpty =>
      refine ⟨pointed, inList, isRoute, rfl, list, isSome, rfl, rfl, rfl, rfl,
        rfl, rfl, rfl, rfl, fun other => ?_⟩
      rw [if_neg fun both => notEmpty both.2]
      rfl

theorem Unlinks.routesOk (ok : before.RoutesOk) {route : Fin routeNb}
    {neighbor : Fin maxNeighbors} {entry : Fin routeNb}
    (listed : route ∈ before.client.routelist)
    (unlinks : Unlinks before after route neighbor entry) :
    after.RoutesOk := by
  have mem_routelist : ∀ other, other ∈ after.client.routelist ↔
      other ≠ route ∧ other ∈ before.client.routelist := by
    intro other
    rw [unlinks.routelist, ok.nodup.mem_erase_iff]
  have mem_listOf : ∀ other otherEntry, otherEntry ∈ after.listOf other ↔
      otherEntry ≠ entry ∧ otherEntry ∈ before.listOf other := by
    intro other otherEntry
    rw [unlinks.list]
    split
    · next same =>
        rw [same, (ok.listNodup neighbor).mem_erase_iff]
    · next different =>
        constructor
        · intro inList
          refine ⟨?_, inList⟩
          rintro rfl
          exact different (ok.neighbor_eq inList unlinks.member)
        · exact And.right
  constructor
  case nodup =>
    rw [unlinks.routelist]
    exact ok.nodup.erase route
  case mem_iff =>
    intro other
    rw [mem_routelist, unlinks.routememb, Function.update_apply]
    by_cases same : other = route
    · simp [same]
    · simp [same, ok.mem_iff]
  case numRoutes =>
    rw [unlinks.numRoutes, unlinks.routelist, ok.numRoutes,
      List.length_erase_of_mem listed]
    have positive := List.length_pos_of_mem listed
    omega
  case listNodup =>
    intro other
    rw [unlinks.list]
    split
    · exact (ok.listNodup neighbor).erase entry
    · exact ok.listNodup other
  case allocated =>
    intro otherEntry
    rw [unlinks.neighborroutememb, Function.update_apply]
    simp only [mem_listOf]
    by_cases same : otherEntry = entry
    · simp [same]
    · simp [same, ok.allocated]
  case entry =>
    intro other otherEntry inList
    obtain ⟨notEntry, inBefore⟩ := (mem_listOf other otherEntry).1 inList
    obtain ⟨otherRoute, inRoutes, isRoute, pointed⟩ :=
      ok.entry other otherEntry inBefore
    refine ⟨otherRoute, (mem_routelist otherRoute).2 ⟨?_, inRoutes⟩, ?_, ?_⟩
    · rintro rfl
      rw [unlinks.pointed, Option.some.injEq] at pointed
      subst pointed
      exact notEntry (ok.single neighbor otherEntry inBefore entry
        unlinks.member (isRoute.trans unlinks.isRoute.symm))
    · rw [unlinks.route]
      exact isRoute
    · rw [unlinks.neighborRoutes]
      exact pointed
  case linked =>
    intro other isListed
    obtain ⟨notRoute, inRoutes⟩ := (mem_routelist other).1 isListed
    obtain ⟨otherNeighbor, pointed, otherEntry, inList, isRoute⟩ :=
      ok.linked other inRoutes
    refine ⟨otherNeighbor, ?_, otherEntry,
      (mem_listOf otherNeighbor otherEntry).2 ⟨?_, inList⟩, ?_⟩
    · rw [unlinks.neighborRoutes]
      exact pointed
    · rintro rfl
      rw [unlinks.isRoute, Option.some.injEq] at isRoute
      exact notRoute isRoute.symm
    · rw [unlinks.route]
      exact isRoute
  case single =>
    intro other first isFirst second isSecond same
    rw [unlinks.route] at same
    exact ok.single other first ((mem_listOf other first).1 isFirst).2 second
      ((mem_listOf other second).1 isSecond).2 same
  case used =>
    intro other notEmpty
    rw [unlinks.used]
    split
    · next isEmpty =>
        rw [isEmpty.1] at notEmpty
        exact absurd isEmpty.2 notEmpty
    · refine ok.used other fun empty => notEmpty ?_
      rw [unlinks.list]
      split
      · next same =>
          rw [same] at empty
          rw [empty]
          rfl
      · exact empty
  case initialized =>
    intro other isUsed
    rw [unlinks.isSome]
    rw [unlinks.used] at isUsed
    split at isUsed
    · simp at isUsed
    · exact ok.initialized other isUsed

theorem RoutesOk.uipDs6RouteRm_ok (ok : tables.RoutesOk)
    {route : Option (Fin routeNb)}
    (listed : ∀ r, route = some r → r ∈ tables.client.routelist) :
    (tables.uipDs6RouteRm route).RoutesOk := by
  cases route with
  | none =>
      exact ok
  | some route =>
      have member := listed route rfl
      obtain ⟨_, _, unlinks⟩ := ok.uipDs6RouteRm member
      exact unlinks.routesOk ok member

theorem rmRoutes_spec (neighbor : Fin maxNeighbors) (rounds : Nat)
    {tables : RouteTables maxNeighbors routeNb Lladdr} (ok : tables.RoutesOk)
    (length : (tables.listOf neighbor).length = rounds) :
    (rmRoutes neighbor rounds tables).RoutesOk ∧
      (rmRoutes neighbor rounds tables).listOf neighbor = [] := by
  induction rounds generalizing tables with
  | zero =>
      exact ⟨ok, List.length_eq_zero_iff.1 length⟩
  | succ rounds inductionHypothesis =>
      unfold rmRoutes
      cases isList : tables.listOf neighbor with
      | nil =>
          exact ⟨ok, isList⟩
      | cons first rest =>
          have inList : first ∈ tables.listOf neighbor := by
            rw [isList]
            exact List.mem_cons_self
          obtain ⟨route, listed, isRoute, pointed⟩ :=
            ok.entry neighbor first inList
          obtain ⟨found, entry, unlinks⟩ := ok.uipDs6RouteRm listed
          dsimp only
          rw [isRoute]
          -- the route is unlinked from this list, so it gets shorter
          have same : found = neighbor := by
            have pointedToo := unlinks.pointed
            rw [pointed, Option.some.injEq] at pointedToo
            exact pointedToo.symm
          subst same
          refine inductionHypothesis (unlinks.routesOk ok listed) ?_
          rw [unlinks.list, if_pos rfl,
            List.length_erase_of_mem unlinks.member, length]
          rfl

theorem RoutesOk.nbrTableRemove (ok : tables.RoutesOk)
    {neighbor : Fin maxNeighbors} (empty : tables.listOf neighbor = []) :
    RoutesOk (tables.nbrTableRemove .nbrRoutes (some neighbor)).2 := by
  refine ⟨ok.nodup, ok.mem_iff, ok.numRoutes, ok.listNodup, ok.allocated,
    ok.entry, ok.linked, ok.single, fun other notEmpty => ?_,
    fun other isUsed => ?_⟩
  · rw [usesRoutes_nbrTableRemove, if_neg]
    · exact ok.used other notEmpty
    · rintro rfl
      exact notEmpty empty
  · rw [usesRoutes_nbrTableRemove] at isUsed
    split at isUsed
    · simp at isUsed
    · exact ok.initialized other isUsed

theorem RoutesOk.rmRoutelist (ok : tables.RoutesOk)
    (item : Option (Fin maxNeighbors)) :
    (tables.rmRoutelist item).RoutesOk ∧
      ∀ neighbor, item = some neighbor →
        (tables.rmRoutelist item).listOf neighbor = [] := by
  unfold RouteTables.rmRoutelist
  cases item with
  | none =>
      exact ⟨ok, by simp⟩
  | some neighbor =>
      dsimp only
      split
      · obtain ⟨nowOk, empty⟩ := rmRoutes_spec neighbor _ ok rfl
        refine ⟨nowOk.nbrTableRemove empty, fun other same => ?_⟩
        rw [Option.some.injEq] at same
        subst same
        exact empty
      · next isNone =>
          refine ⟨ok, fun other same => ?_⟩
          rw [Option.some.injEq] at same
          subst same
          unfold listOf
          rw [Option.not_isSome_iff_eq_none.1 isNone]
          rfl

/-! ## Other operations on the neighbour tables -/

/-- The tables are registered, the keys are sound and so are the routes. -/
structure Sound (tables : RouteTables maxNeighbors routeNb Lladdr) :
    Prop where
  keys : tables.KeysOk
  registered : tables.RegisteredOnce
  routesPlace : tables.allTables (tables.index .nbrRoutes) = some .nbrRoutes
  routesCallback : tables.hasCallback .nbrRoutes
  routes : tables.RoutesOk

def Registered (tables : RouteTables maxNeighbors routeNb Lladdr)
    (table : TableName) : Prop :=
  tables.allTables (tables.index table) = some table

theorem Sound.index_ne (sound : tables.Sound) {table : TableName}
    (registered : tables.Registered table) (other : table ≠ .nbrRoutes) :
    tables.index table ≠ tables.index .nbrRoutes := by
  intro same
  have place := sound.routesPlace
  rw [← same, registered, Option.some.injEq] at place
  exact other place

theorem sameRoutes_of_own
    {table : TableName} (own : OwnItems table before after)
    (client : after.client = before.client)
    (different : before.index table ≠ before.index .nbrRoutes) :
    SameRoutes before after where
  client := ⟨before.client.nbrIpaddr, client⟩
  used := by
    intro neighbor
    unfold usesRoutes nbrGetBit
    dsimp only
    rw [own.index]
    exact own.usedOther neighbor _ fun same => different (Fin.ext same.symm)

theorem Sound.clearsBits
    (sound : before.Sound) (clears : ClearsBits before after)
    (routes : after.RoutesOk) : after.Sound where
  keys := sound.keys.clearsBits clears
  registered := clears.registeredOnce sound.registered
  routesPlace := by
    rw [clears.allTables, clears.index]
    exact sound.routesPlace
  routesCallback := by
    rw [clears.hasCallback]
    exact sound.routesCallback
  routes := routes

variable (surroundings : Surroundings maxNeighbors routeNb Lladdr)

/-- The callback of one table keeps the routes in step, and that of
`nbr_routes` removes the routes through the neighbour. -/
theorem Sound.callBack {tables : RouteTables maxNeighbors routeNb Lladdr}
    (sound : tables.Sound) (key : Fin maxNeighbors)
    (place : Fin maxNumTables) :
    Sound (NbrTables.callBack surroundings.tables key tables place) ∧
    (place = tables.index .nbrRoutes ∨ tables.listOf key = [] →
      listOf (NbrTables.callBack surroundings.tables key tables place) key =
        []) := by
  have clears := clearsBits_callBack surroundings.tables key tables place
  unfold NbrTables.callBack at *
  cases isTable : tables.allTables place with
  | none =>
      refine ⟨sound, fun emptied => ?_⟩
      obtain isPlace | empty := emptied
      · rw [isPlace, sound.routesPlace] at isTable
        simp at isTable
      · exact empty
  | some table =>
      rw [isTable] at clears
      dsimp only at clears ⊢
      have others : ∀ {table : TableName} {calls}
          {later : RouteTables maxNeighbors routeNb Lladdr},
          tables.allTables place = some table →
          OwnItems table { tables with calls := calls } later →
          later.client = tables.client →
          ClearsBits tables later → table ≠ .nbrRoutes → later.Sound ∧
          (place = tables.index .nbrRoutes ∨ tables.listOf key = [] →
            listOf later key = []) := by
        intro table calls later isTable own client clears other
        have isIndex := (sound.registered place table isTable).1
        have isRegistered : tables.Registered table := by
          unfold Registered
          rw [isIndex]
          exact isTable
        have different := sound.index_ne isRegistered other
        have same : SameRoutes { tables with calls := calls } later :=
          sameRoutes_of_own own client different
        refine ⟨sound.clearsBits clears
          (sound.routes.same ⟨⟨_, client⟩, same.used⟩), fun emptied => ?_⟩
        obtain isPlace | empty := emptied
        · exact absurd (isIndex.trans isPlace) different
        · unfold listOf
          rw [client]
          exact empty
      split
      · next uses =>
          rw [if_pos uses] at clears
          cases table with
          | nbrRoutes =>
              obtain ⟨ok, empty⟩ := @RoutesOk.rmRoutelist _ _ _
                { tables with
                  calls := tables.calls ++ [(.nbrRoutes, key)] }
                (sound.routes.same ⟨⟨_, rfl⟩, fun _ => rfl⟩) (some key)
              exact ⟨sound.clearsBits clears ok, fun _ => empty key rfl⟩
          | ds6Neighbors =>
              exact others isTable (surroundings.tables.own .ds6Neighbors key
                { tables with
                  calls := tables.calls ++ [(.ds6Neighbors, key)] }) rfl
                  clears (by simp)
          | other number =>
              exact others isTable (surroundings.tables.own
                (.other number) key { tables with
                  calls := tables.calls ++ [(.other number, key)] })
                  (surroundings.client number key _) clears (by simp)
      · next notUses =>
          refine ⟨sound, fun emptied => ?_⟩
          obtain isPlace | empty := emptied
          · rw [isPlace, sound.routesPlace, Option.some.injEq] at isTable
            subst isTable
            by_contra notEmpty
            exact notUses ⟨sound.routesCallback,
              sound.routes.used key notEmpty⟩
          · exact empty

theorem Sound.callBacks {tables : RouteTables maxNeighbors routeNb Lladdr}
    (sound : tables.Sound) (key : Fin maxNeighbors)
    (places : List (Fin maxNumTables)) :
    Sound (places.foldl (NbrTables.callBack surroundings.tables key)
      tables) ∧
    (tables.index .nbrRoutes ∈ places ∨ tables.listOf key = [] →
      listOf (places.foldl (NbrTables.callBack surroundings.tables key)
        tables) key = []) := by
  induction places generalizing tables with
  | nil =>
      exact ⟨sound, fun emptied => emptied.resolve_left (by simp)⟩
  | cons place rest inductionHypothesis =>
      obtain ⟨stepSound, stepEmpty⟩ := sound.callBack surroundings key place
      obtain ⟨restSound, restEmpty⟩ := inductionHypothesis stepSound
      have clears := clearsBits_callBack surroundings.tables key tables place
      refine ⟨restSound, fun emptied => restEmpty ?_⟩
      rw [clears.index]
      obtain member | empty := emptied
      · obtain isPlace | inRest := List.mem_cons.1 member
        · exact Or.inr (stepEmpty (Or.inl isPlace.symm))
        · exact Or.inl inRest
      · exact Or.inr (stepEmpty (Or.inr empty))

theorem Sound.findsKey
    {tables found : RouteTables maxNeighbors routeNb Lladdr}
    (sound : tables.Sound) {lladdr : Lladdr} {key : Fin maxNeighbors}
    (finds : FindsKey surroundings.tables tables lladdr key found) :
    Sound found ∧ found.index = tables.index ∧
      found.allTables = tables.allTables := by
  obtain ⟨keys, _, _⟩ := finds.keysOk surroundings.tables sound.keys
  cases finds with
  | listed _ _ =>
      exact ⟨sound, rfl, rfl⟩
  | free _ _ =>
      exact ⟨⟨keys, sound.registered, sound.routesPlace,
        sound.routesCallback,
        sound.routes.same ⟨⟨_, rfl⟩, fun _ => rfl⟩⟩, rfl, rfl⟩
  | evicted unknown member unlocked told isTold =>
      have clears : ClearsBits tables told := by
        rw [isTold]
        exact clearsBits_callBacks surroundings.tables key tables _
      obtain ⟨toldSound, toldEmpty⟩ := sound.callBacks surroundings key
        (List.finRange maxNumTables)
      rw [← isTold] at toldSound toldEmpty
      have empty : listOf told key = [] :=
        toldEmpty (Or.inl (List.mem_finRange _))
      refine ⟨⟨keys, toldSound.registered, toldSound.routesPlace,
        toldSound.routesCallback, ?_⟩, clears.index, clears.allTables⟩
      have ok := toldSound.routes
      have used : ∀ neighbor, neighbor ≠ key →
          usesRoutes ({ told with
            usedMap := Function.update told.usedMap key 0
            nbrTableKeys := told.nbrTableKeys.erase key }.listKey key
              lladdr) neighbor = usesRoutes told neighbor := by
        intro neighbor different
        change (Function.update told.usedMap key 0 neighbor).getLsbD _ = _
        rw [Function.update_of_ne different]
        rfl
      refine ⟨ok.nodup, ok.mem_iff, ok.numRoutes, ok.listNodup, ok.allocated,
        ok.entry, ok.linked, ok.single, fun neighbor notEmpty => ?_,
        fun neighbor isUsed => ?_⟩
      · have different : neighbor ≠ key := by
          rintro rfl
          exact notEmpty empty
        rw [used neighbor different]
        exact ok.used neighbor notEmpty
      · by_cases same : neighbor = key
        · subst same
          change (Function.update told.usedMap neighbor 0
            neighbor).getLsbD _ = true at isUsed
          rw [Function.update_self] at isUsed
          simp at isUsed
        · rw [used neighbor same] at isUsed
          exact ok.initialized neighbor isUsed

theorem Sound.useItem {tables : RouteTables maxNeighbors routeNb Lladdr}
    (sound : tables.Sound) {table : TableName}
    (registered : tables.Registered table) (other : table ≠ .nbrRoutes)
    {item : Fin maxNeighbors} (listed : item ∈ tables.nbrTableKeys) :
    Sound (NbrTables.useItem surroundings.tables tables table item) where
  keys := sound.keys.useItem surroundings.tables table listed
  registered := sound.registered
  routesPlace := sound.routesPlace
  routesCallback := sound.routesCallback
  routes := by
    refine sound.routes.same ⟨?_, fun neighbor => ?_⟩
    · cases table with
      | nbrRoutes =>
          exact absurd rfl other
      | ds6Neighbors =>
          exact ⟨_, rfl⟩
      | other number =>
          exact ⟨_, rfl⟩
    · change ((tables.nbrSetBit tables.usedMap table (some item) true).2
        neighbor).getLsbD (tables.index .nbrRoutes) = _
      rw [getLsbD_nbrSetBit, if_neg]
      · rfl
      · exact fun both =>
          sound.index_ne registered other (Fin.ext both.2.symm)

/-! ## Adding a route -/

/-- A neighbour has an item in `nbr_routes`, which has the routes that go
through it. -/
structure EntersList (before after : RouteTables maxNeighbors routeNb Lladdr)
    (neighbor : Fin maxNeighbors) : Prop where
  client : after.client = { before.client with
    routeList := Function.update before.client.routeList neighbor
      (some (before.listOf neighbor)) }
  used : ∀ other, after.usesRoutes other =
    if other = neighbor then true else before.usesRoutes other
  usedOther : ∀ item bit, bit ≠ (before.index .nbrRoutes).val →
    (after.usedMap item).getLsbD bit = (before.usedMap item).getLsbD bit
  lockedMap : after.lockedMap = before.lockedMap
  allTables : after.allTables = before.allTables
  numTables : after.numTables = before.numTables
  index : after.index = before.index
  hasCallback : after.hasCallback = before.hasCallback
  neighborAddrMem : after.neighborAddrMem = before.neighborAddrMem
  nbrTableKeys : after.nbrTableKeys = before.nbrTableKeys
  lladdr : after.lladdr = before.lladdr

theorem EntersList.listOf
    {before after : RouteTables maxNeighbors routeNb Lladdr}
    {neighbor : Fin maxNeighbors} (enters : EntersList before after neighbor)
    (other : Fin maxNeighbors) :
    after.listOf other = before.listOf other := by
  unfold RouteTables.listOf
  rw [enters.client]
  dsimp only
  rw [Function.update_apply]
  split
  · next same =>
      rw [same]
      rfl
  · rfl

theorem EntersList.routesOk
    {before after : RouteTables maxNeighbors routeNb Lladdr}
    {neighbor : Fin maxNeighbors} (enters : EntersList before after neighbor)
    (ok : before.RoutesOk) : after.RoutesOk := by
  have list := enters.listOf
  constructor
  case used =>
    intro other notEmpty
    rw [enters.used]
    split
    · rfl
    · rw [list] at notEmpty
      exact ok.used other notEmpty
  case initialized =>
    intro other isUsed
    rw [enters.client]
    dsimp only
    rw [Function.update_apply]
    split
    · rfl
    · next different =>
        rw [enters.used, if_neg different] at isUsed
        exact ok.initialized other isUsed
  all_goals simp only [list, enters.client]
  · exact ok.nodup
  · exact ok.mem_iff
  · exact ok.numRoutes
  · exact ok.listNodup
  · exact ok.allocated
  · exact ok.entry
  · exact ok.linked
  · exact ok.single

theorem EntersList.sound
    {before after : RouteTables maxNeighbors routeNb Lladdr}
    {neighbor : Fin maxNeighbors} (enters : EntersList before after neighbor)
    (sound : before.Sound) (listed : neighbor ∈ before.nbrTableKeys) :
    after.Sound where
  keys := by
    refine ⟨?_, ?_, ?_, fun key bit isSet => ?_⟩
    · rw [enters.nbrTableKeys]
      exact sound.keys.nodup
    · rw [enters.nbrTableKeys, enters.neighborAddrMem]
      exact sound.keys.mem_iff
    · rw [enters.nbrTableKeys, enters.lladdr]
      exact sound.keys.lladdr
    · rw [enters.nbrTableKeys]
      by_cases isBit : bit = (before.index .nbrRoutes).val
      · have used := enters.used key
        unfold usesRoutes nbrGetBit at used
        dsimp only at used
        rw [enters.index, ← isBit, isSet] at used
        split at used
        · next same =>
            rw [same]
            exact listed
        · exact sound.keys.used key bit used.symm
      · rw [enters.usedOther key bit isBit] at isSet
        exact sound.keys.used key bit isSet
  registered := by
    unfold RegisteredOnce
    rw [enters.allTables, enters.index, enters.numTables]
    exact sound.registered
  routesPlace := by
    rw [enters.allTables, enters.index]
    exact sound.routesPlace
  routesCallback := by
    rw [enters.hasCallback]
    exact sound.routesCallback
  routes := enters.routesOk sound.routes

theorem RoutesOk.length_le
    {tables : RouteTables maxNeighbors routeNb Lladdr}
    (ok : tables.RoutesOk) :
    tables.client.routelist.length ≤ routeNb := by
  have short := (List.subperm_of_subset ok.nodup
    fun route _ => List.mem_finRange route).length_le
  rwa [List.length_finRange] at short

theorem membAlloc_eq_none {memb : Fin routeNb → Bool}
    (none : membAlloc memb = none) (block : Fin routeNb) : memb block := by
  have used := List.find?_eq_none.1 none block (List.mem_finRange block)
  simpa using used

theorem membAlloc_eq_some {memb : Fin routeNb → Bool} {block : Fin routeNb}
    (found : membAlloc memb = some block) : memb block = false := by
  have free := List.find?_some found
  simpa using free

/-- There is a free block for a route unless the list is full. -/
theorem RoutesOk.membAlloc_routememb
    {tables : RouteTables maxNeighbors routeNb Lladdr} (ok : tables.RoutesOk)
    (none : membAlloc tables.client.routememb = none) :
    routeNb ≤ tables.client.routelist.length := by
  have long := (List.subperm_of_subset (List.nodup_finRange routeNb)
    fun route _ => (ok.mem_iff route).2
      (membAlloc_eq_none none route)).length_le
  rwa [List.length_finRange] at long

/-- There are as many entries in the lists of the neighbours as routes. -/
theorem RoutesOk.membAlloc_neighborroutememb
    {tables : RouteTables maxNeighbors routeNb Lladdr} (ok : tables.RoutesOk)
    (none : membAlloc tables.client.neighborroutememb = none) :
    routeNb ≤ tables.client.routelist.length := by
  have inList : ∀ entry, ∃ neighbor, entry ∈ tables.listOf neighbor :=
    fun entry => (ok.allocated entry).1 (membAlloc_eq_none none entry)
  have injective : Function.Injective tables.client.route := by
    intro first second same
    obtain ⟨firstNeighbor, inFirst⟩ := inList first
    obtain ⟨secondNeighbor, inSecond⟩ := inList second
    obtain ⟨route, _, isRoute, pointed⟩ := ok.entry _ first inFirst
    obtain ⟨other, _, isOther, pointedOther⟩ := ok.entry _ second inSecond
    rw [← same, isRoute, Option.some.injEq] at isOther
    subst isOther
    rw [pointed, Option.some.injEq] at pointedOther
    subst pointedOther
    exact ok.single firstNeighbor first inFirst second inSecond same
  have routes : ∀ route ∈ (List.finRange routeNb).map tables.client.route,
      route ∈ tables.client.routelist.map some := by
    intro route member
    obtain ⟨entry, _, rfl⟩ := List.mem_map.1 member
    obtain ⟨neighbor, member⟩ := inList entry
    obtain ⟨route, listed, isRoute, _⟩ := ok.entry neighbor entry member
    exact List.mem_map.2 ⟨route, listed, isRoute.symm⟩
  have long := (List.subperm_of_subset
    ((List.nodup_finRange routeNb).map injective) routes).length_le
  rwa [List.length_map, List.length_map, List.length_finRange] at long

/-- A new route through a neighbour is linked. -/
structure LinksRoute (before after : RouteTables maxNeighbors routeNb Lladdr)
    (neighbor : Fin maxNeighbors) (ipaddr : IpAddr) (length : UInt8)
    (route entry : Fin routeNb) : Prop where
  newRoute : route ∉ before.client.routelist
  newEntry : before.client.neighborroutememb entry = false
  isAfter : after = before.modify fun routes =>
    { routes with
      routememb := Function.update routes.routememb route true
      routelist := route :: routes.routelist
      neighborroutememb :=
        Function.update routes.neighborroutememb entry true
      route := Function.update routes.route entry (some route)
      routeList := Function.update routes.routeList neighbor
        (some (before.listOf neighbor ++ [entry]))
      neighborRoutes :=
        Function.update routes.neighborRoutes route (some neighbor)
      numRoutes := routes.numRoutes + 1
      ipaddr := Function.update routes.ipaddr route ipaddr
      length := Function.update routes.length route length }

theorem RoutesOk.linkRoute
    {tables : RouteTables maxNeighbors routeNb Lladdr} (ok : tables.RoutesOk)
    {neighbor : Fin maxNeighbors} (used : tables.usesRoutes neighbor)
    (ipaddr : IpAddr) (length : UInt8) :
    tables.linkRoute neighbor ipaddr length = (none, tables) ∧
      routeNb = tables.client.routelist.length ∨
    ∃ route entry after,
      tables.linkRoute neighbor ipaddr length = (some route, after) ∧
      LinksRoute tables after neighbor ipaddr length route entry := by
  unfold RouteTables.linkRoute
  cases isRoute : membAlloc tables.client.routememb with
  | none =>
      exact Or.inl ⟨rfl, Nat.le_antisymm (ok.membAlloc_routememb isRoute)
        ok.length_le⟩
  | some route =>
      have newRoute : route ∉ tables.client.routelist := by
        rw [ok.mem_iff, membAlloc_eq_some isRoute]
        simp
      dsimp only
      cases isEntry : membAlloc tables.client.neighborroutememb with
      | none =>
          -- every entry belongs to a route, so every route is on the list
          have full := ok.membAlloc_neighborroutememb isEntry
          have longer := (List.subperm_of_subset
            (List.nodup_cons.2 ⟨newRoute, ok.nodup⟩)
            fun route _ => List.mem_finRange route).length_le
          rw [List.length_finRange, List.length_cons] at longer
          omega
      | some entry =>
          have newEntry := membAlloc_eq_some isEntry
          have notInList : entry ∉ tables.listOf neighbor := by
            intro inList
            have allocated := (ok.allocated entry).2 ⟨neighbor, inList⟩
            rw [newEntry] at allocated
            simp at allocated
          obtain ⟨list, isList⟩ :=
            Option.isSome_iff_exists.1 (ok.initialized neighbor used)
          have listOf : tables.listOf neighbor = list := by
            unfold RouteTables.listOf
            rw [isList]
            rfl
          refine Or.inr ⟨route, entry, _, ?_, newRoute, newEntry, rfl⟩
          rw [listOf] at notInList ⊢
          unfold RouteTables.modify
          dsimp only
          rw [isEntry]
          dsimp only
          rw [List.erase_of_not_mem newRoute, isList, Option.map_some,
            List.erase_of_not_mem notInList]

end RouteTables

end Contiki.Net
