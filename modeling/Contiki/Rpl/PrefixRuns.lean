import Contiki.Net.RoutePrefixes
import Contiki.Rpl.DaoParse
import Contiki.Rpl.StoredPrefixes

/-!
# The prefixes at a node

`dio_input` and `dao_input` at a node with its DAGs and its routing table, and
what holds of the prefixes in both after any sequence of messages.
-/

namespace Contiki.Rpl

open Contiki.Lib Contiki.Net

variable {config : RplConfig} {maxNeighbors routeNb : Nat}
  {LinkAddr : Type}

/-- The DAGs and the routing table. -/
structure PrefixNode (config : RplConfig) (maxNeighbors routeNb : Nat)
    (LinkAddr : Type) where
  rpl : State config
  routes : RouteTables maxNeighbors routeNb LinkAddr

/-- `dao_input` goes on to the options: the node has the instance and the DAG,
and the sender is no parent that would make a loop. -/
def State.acceptsDao (state : State config) (source : IpAddr)
    (buffer : ByteMem) : Bool :=
  match state.rplGetInstance (buffer 0) with
  | none => false
  | some inst =>
      match state.currentDag inst with
      | none => false
      | some dag =>
          let entry := state.dagTable dag
          let otherDag : Bool := buffer 1 &&& daoDFlag ≠ 0 ∧
            getAddr buffer 4 ≠ entry.dagId
          let unicast : Bool := getElem source 0 first_lt ≠ 0xff
          let parent := if unicast then state.rplFindParent dag source
            else none
          let loops : Bool := match parent with
            | none => false
            | some parent =>
                state.parentRank parent / state.rootRank inst <
                    entry.rank / state.rootRank inst ∨
                  entry.preferredParent = some parent
          ¬ otherDag ∧ ¬ loops

/-- `instance->default_lifetime` of the instance of a DAO. -/
def State.daoLifetime (state : State config) (buffer : ByteMem) : UInt8 :=
  match state.rplGetInstance (buffer 0) with
  | none => 0
  | some inst => (state.instanceTable inst).defaultLifetime

namespace PrefixNode

variable [DecidableEq LinkAddr]
  (surroundings : Surroundings maxNeighbors routeNb LinkAddr)

/-- `dio_input`.  The neighbour that it adds for the sender is an input of its
own. -/
def dioInput (node : PrefixNode config maxNeighbors routeNb LinkAddr)
    (source : IpAddr) (message : RplMessage) :
    PrefixNode config maxNeighbors routeNb LinkAddr :=
  match Rpl.dioInput config message.buffer message.length.toUInt8 with
  | none => node
  | some dio => { node with rpl := node.rpl.rplProcessDio source dio }

/-- The sender of a DAO as a neighbour, which is added if it is unknown. -/
def daoNeighbor (routes : RouteTables maxNeighbors routeNb LinkAddr)
    (source : IpAddr) (lladdr : LinkAddr) :
    RouteTables maxNeighbors routeNb LinkAddr :=
  if (routes.uipDs6NbrLookup source).isSome then routes
  else routes.uipDs6NbrAdd surroundings source (some lladdr)

/-- The sender is in the neighbour cache, after it was added if there is room
for it. -/
def hasDaoNeighbor (routes : RouteTables maxNeighbors routeNb LinkAddr)
    (source : IpAddr) (lladdr : LinkAddr) : Bool :=
  ((daoNeighbor surroundings routes source lladdr).uipDs6NbrLookup
    source).isSome

/-- The end of `dao_input` for the routing table. -/
def addDaoRoute (routes : RouteTables maxNeighbors routeNb LinkAddr)
    (source : IpAddr) (lladdr : LinkAddr) (route : DaoRoute) :
    RouteTables maxNeighbors routeNb LinkAddr :=
  let routes := (routes.uipDs6RouteLookup route.prefixAddr).2
  if route.lifetime = 0 then routes
  else if hasDaoNeighbor surroundings routes source lladdr then
    ((daoNeighbor surroundings routes source lladdr).uipDs6RouteAdd
      surroundings route.prefixAddr route.prefixLen source).2
  else daoNeighbor surroundings routes source lladdr

/-- `dao_input`; `stale` is what the variable `prefix` holds before it is
written, and `lladdr` the link-layer address of the sender. -/
def daoInput (node : PrefixNode config maxNeighbors routeNb LinkAddr)
    (source : IpAddr) (lladdr : LinkAddr) (message : RplMessage)
    (stale : IpAddr) : PrefixNode config maxNeighbors routeNb LinkAddr :=
  let buffer := message.buffer
  let route := daoRoute message (node.rpl.daoLifetime buffer) stale
  let looked := (node.routes.uipDs6RouteLookup route.prefixAddr).2
  { rpl := node.rpl.daoInput
      { sender := source
        instanceId := buffer 0
        dagId :=
          if buffer 1 &&& daoDFlag ≠ 0 then some (getAddr buffer 4)
          else none
        addsRoute := route.lifetime ≠ 0 ∧
          hasDaoNeighbor surroundings looked source lladdr }
    routes :=
      if node.rpl.acceptsDao source buffer then
        addDaoRoute surroundings node.routes source lladdr route
      else node.routes }

end PrefixNode

def Input.isMessage : Input config → Bool
  | .dio _ _ => true
  | .dao _ => true
  | _ => false

/-- What can happen at a node, where only messages bring prefixes. -/
inductive PrefixInput (config : RplConfig) (maxNeighbors routeNb : Nat)
    (LinkAddr : Type) where
  | dio (source : IpAddr) (message : RplMessage)
  | dao (source : IpAddr) (lladdr : LinkAddr) (message : RplMessage)
      (stale : IpAddr)
  | rpl (input : Input config) (noMessage : input.isMessage = false)
  | routes (operation :
      RouteTables.RouteOperation maxNeighbors routeNb LinkAddr)
      (noRoute : ∀ ipaddr length nexthop,
        operation ≠ .uipDs6RouteAdd ipaddr length nexthop)

def PrefixInput.messages :
    PrefixInput config maxNeighbors routeNb LinkAddr → List RplMessage
  | .dio _ message => [message]
  | .dao _ _ message _ => [message]
  | .rpl _ _ => []
  | .routes _ _ => []

namespace PrefixNode

variable [DecidableEq LinkAddr]
  (surroundings : Surroundings maxNeighbors routeNb LinkAddr)

def step (node : PrefixNode config maxNeighbors routeNb LinkAddr) :
    PrefixInput config maxNeighbors routeNb LinkAddr →
    PrefixNode config maxNeighbors routeNb LinkAddr
  | .dio source message => node.dioInput source message
  | .dao source lladdr message stale =>
      node.daoInput surroundings source lladdr message stale
  | .rpl input _ => { node with rpl := node.rpl.step input }
  | .routes operation _ =>
      { node with
        routes := node.routes.routeStep surroundings operation }

def initial (lladdr : LinkAddr) :
    PrefixNode config maxNeighbors routeNb LinkAddr where
  rpl := State.initial
  routes := NbrTables.initial lladdr RouteTables.initialRoutes

end PrefixNode

/-! ## Messages that fit -/

/-- The positions that `dao_input` reads. -/
def daoReadsAt (state : State config) (source : IpAddr)
    (message : RplMessage) : List Nat :=
  let buffer := message.buffer
  match state.rplGetInstance (buffer 0) with
  | none => [0]
  | some _ => daoBaseReads buffer ++
      if state.acceptsDao source buffer then daoOptionsReads message else []

/-- `dao_input` reads inside of the message, writes only to `prefix`, and the
route that it adds has its prefix from the message. -/
def DaoHandledAt (state : State config) (source : IpAddr)
    (message : RplMessage) (stale : IpAddr) : Prop :=
  let route := daoRoute message (state.daoLifetime message.buffer) stale
  (∀ position ∈ daoReadsAt state source message,
      position < message.length.toNat) ∧
    (state.acceptsDao source message.buffer → route.overrun = false ∧
      (route.lifetime ≠ 0 →
        PrefixFrom message route.prefixLen route.prefixAddr))

/-- The base object ends in the message, and so do the options, unless the
message is dropped before. -/
def DaoFitsAt (state : State config) (source : IpAddr)
    (message : RplMessage) (stale : IpAddr) : Prop :=
  match state.rplGetInstance (message.buffer 0) with
  | none => 1 ≤ message.length.toNat
  | some _ => daoStart message.buffer ≤ message.length.toNat ∧
      (state.acceptsDao source message.buffer →
        DaoOptionsFit message (state.daoLifetime message.buffer) stale)

theorem daoHandledAt_iff (state : State config) (source : IpAddr)
    (message : RplMessage) (stale : IpAddr) :
    DaoHandledAt state source message stale ↔
      DaoFitsAt state source message stale := by
  unfold DaoHandledAt DaoFitsAt daoReadsAt
  dsimp only
  cases known : state.rplGetInstance (message.buffer 0) with
  | none =>
      have refused : state.acceptsDao source message.buffer = false := by
        unfold State.acceptsDao
        rw [known]
      rw [refused]
      simp only [List.mem_singleton, forall_eq, Bool.false_eq_true,
        false_implies, and_true]
      omega
  | some inst =>
      dsimp only
      rw [List.forall_mem_append, daoBaseReads_inside_iff, and_assoc]
      refine and_congr_right fun _ => ?_
      rw [← daoOptionsHandled_iff]
      unfold DaoOptionsHandled
      cases state.acceptsDao source message.buffer with
      | false =>
          simp
      | true =>
          simp

/-! ## Prefixes from messages -/

/-- The prefix is from one of the messages, or it was never written. -/
def FromMessages (messages : List RplMessage) (length : UInt8)
    (addr : IpAddr) : Prop :=
  (length = 0 ∧ addr = Vector.replicate 16 0) ∨
    ∃ message ∈ messages, PrefixFrom message length addr

theorem PrefixFrom.mask {message : RplMessage} {length : UInt8}
    {addr : IpAddr} (source : PrefixFrom message length addr) :
    maskPrefix length addr = addr := by
  obtain ⟨-, position, -, copied⟩ := source
  apply Vector.ext
  intro index bound
  have isByte := copied ⟨index, bound⟩
  unfold maskPrefix
  rw [Vector.getElem_ofFn]
  split
  · rfl
  · next behind =>
      exact (isByte.trans (if_neg behind)).symm

theorem prefixRule_fromMessages (messages : List RplMessage) :
    PrefixRule (FromMessages messages) where
  zero := Or.inl ⟨rfl, rfl⟩
  mask := by
    intro length addr isFrom
    cases isFrom with
    | inl zero =>
        obtain ⟨noLength, noAddr⟩ := zero
        refine Or.inl ⟨noLength, ?_⟩
        apply Vector.ext
        intro index bound
        unfold maskPrefix
        rw [noLength, noAddr, Vector.getElem_ofFn]
        simp
    | inr sent =>
        obtain ⟨message, received, source⟩ := sent
        rw [source.mask]
        exact Or.inr ⟨message, received, source⟩

theorem FromMessages.append {messages : List RplMessage} {length : UInt8}
    {addr : IpAddr} (isFrom : FromMessages messages length addr)
    (later : List RplMessage) :
    FromMessages (messages ++ later) length addr := by
  refine isFrom.imp_right ?_
  rintro ⟨message, received, source⟩
  exact ⟨message, List.mem_append_left later received, source⟩

namespace PrefixNode

/-- All prefixes of DAGs and routes are from the messages. -/
def PrefixesFrom (messages : List RplMessage)
    (node : PrefixNode config maxNeighbors routeNb LinkAddr) : Prop :=
  node.rpl.Stores (FromMessages messages) ∧
    node.routes.HasPrefixes (FromMessages messages)

variable {node : PrefixNode config maxNeighbors routeNb LinkAddr}

theorem PrefixesFrom.append {messages : List RplMessage}
    (isFrom : node.PrefixesFrom messages) (later : List RplMessage) :
    node.PrefixesFrom (messages ++ later) :=
  ⟨fun dag => (isFrom.1 dag).append later,
    fun route => (isFrom.2 route).append later⟩

theorem prefixesFrom_initial (lladdr : LinkAddr) :
    (initial lladdr : PrefixNode config maxNeighbors routeNb
      LinkAddr).PrefixesFrom [] :=
  ⟨State.stores_initial (prefixRule_fromMessages []),
    fun _ => Or.inl ⟨rfl, rfl⟩⟩

variable [DecidableEq LinkAddr]
  (surroundings : Surroundings maxNeighbors routeNb LinkAddr)

/-- The message of the input is read inside, and the prefix that it brings is
from there. -/
def Handles (node : PrefixNode config maxNeighbors routeNb LinkAddr) :
    PrefixInput config maxNeighbors routeNb LinkAddr → Prop
  | .dio _ message => DioHandled config message
  | .dao source _ message stale => DaoHandledAt node.rpl source message stale
  | .rpl _ _ => True
  | .routes _ _ => True

def Fits (node : PrefixNode config maxNeighbors routeNb LinkAddr) :
    PrefixInput config maxNeighbors routeNb LinkAddr → Prop
  | .dio _ message => DioFits message
  | .dao source _ message stale => DaoFitsAt node.rpl source message stale
  | .rpl _ _ => True
  | .routes _ _ => True

omit [DecidableEq LinkAddr] in
theorem handles_iff
    (node : PrefixNode config maxNeighbors routeNb LinkAddr)
    (input : PrefixInput config maxNeighbors routeNb LinkAddr) :
    node.Handles input ↔ node.Fits input := by
  cases input with
  | dio source message =>
      exact dioHandled_iff config message
  | dao source lladdr message stale =>
      exact daoHandledAt_iff node.rpl source message stale
  | rpl input noMessage =>
      exact Iff.rfl
  | routes operation noRoute =>
      exact Iff.rfl

variable {P : UInt8 → IpAddr → Prop}

theorem hasPrefixes_addDaoRoute
    {routes : RouteTables maxNeighbors routeNb LinkAddr}
    (has : routes.HasPrefixes P) (source : IpAddr) (lladdr : LinkAddr)
    {route : DaoRoute}
    (new : route.lifetime ≠ 0 → P route.prefixLen route.prefixAddr) :
    (addDaoRoute surroundings routes source lladdr route).HasPrefixes
      P := by
  have looked := (RouteTables.samePrefixes_uipDs6RouteLookup routes
    route.prefixAddr).hasPrefixes has
  unfold addDaoRoute
  extract_lets after
  split
  · exact looked
  next adds =>
  have entered : (daoNeighbor surroundings after source lladdr).HasPrefixes
      P := by
    unfold daoNeighbor
    split
    · exact looked
    · exact (RouteTables.samePrefixes_uipDs6NbrAdd surroundings after source
        (some lladdr)).hasPrefixes looked
  split
  · exact entered.uipDs6RouteAdd surroundings source (new adds)
  · exact entered

theorem PrefixesFrom.step {messages : List RplMessage}
    (isFrom : node.PrefixesFrom messages)
    {input : PrefixInput config maxNeighbors routeNb LinkAddr}
    (handles : node.Handles input) :
    (node.step surroundings input).PrefixesFrom
      (messages ++ input.messages) := by
  obtain ⟨stores, has⟩ := isFrom.append input.messages
  have rule := prefixRule_fromMessages (messages ++ input.messages)
  cases input with
  | dio source message =>
      change (node.dioInput source message).PrefixesFrom _
      unfold PrefixNode.dioInput
      split
      · exact ⟨stores, has⟩
      · next dio isDio =>
          have announces : State.Announces (FromMessages (messages ++
              (PrefixInput.dio source message :
                PrefixInput config maxNeighbors routeNb LinkAddr).messages))
              (Input.dio source dio : Input config) :=
            Or.inr ⟨message, by simp [PrefixInput.messages],
              handles.2 dio isDio⟩
          exact ⟨stores.step rule announces, has⟩
  | dao source lladdr message stale =>
      refine ⟨(State.storesRule _).daoInput node.rpl _ stores, ?_⟩
      change RouteTables.HasPrefixes _ (if _ then _ else _)
      split
      · next accepted =>
          refine hasPrefixes_addDaoRoute surroundings has source lladdr ?_
          intro adds
          exact Or.inr ⟨message, by simp [PrefixInput.messages],
            (handles.2 accepted).2 adds⟩
      · exact has
  | rpl input noMessage =>
      refine ⟨State.Stores.step rule stores ?_, has⟩
      cases input with
      | dio source dio =>
          cases noMessage
      | _ =>
          trivial
  | routes operation noRoute =>
      refine ⟨stores, RouteTables.HasPrefixes.routeStep surroundings has ?_⟩
      cases operation with
      | uipDs6RouteAdd ipaddr length nexthop =>
          exact absurd rfl (noRoute ipaddr length nexthop)
      | _ =>
          trivial

/-- Each message is handled, and in each state all prefixes are from the
messages so far. -/
def HandlesRun (node : PrefixNode config maxNeighbors routeNb LinkAddr)
    (messages : List RplMessage) :
    List (PrefixInput config maxNeighbors routeNb LinkAddr) → Prop
  | [] => True
  | input :: inputs =>
      let after := node.step surroundings input
      let received := messages ++ input.messages
      node.Handles input ∧ after.PrefixesFrom received ∧
        after.HandlesRun received inputs

def FitsRun (node : PrefixNode config maxNeighbors routeNb LinkAddr) :
    List (PrefixInput config maxNeighbors routeNb LinkAddr) → Prop
  | [] => True
  | input :: inputs =>
      node.Fits input ∧ (node.step surroundings input).FitsRun inputs

theorem PrefixesFrom.handlesRun_iff {messages : List RplMessage}
    (isFrom : node.PrefixesFrom messages)
    (inputs : List (PrefixInput config maxNeighbors routeNb LinkAddr)) :
    node.HandlesRun surroundings messages inputs ↔
      node.FitsRun surroundings inputs := by
  induction inputs generalizing node messages with
  | nil =>
      exact Iff.rfl
  | cons input inputs inductionHypothesis =>
      unfold HandlesRun FitsRun
      dsimp only
      rw [← handles_iff]
      refine and_congr_right fun handles => ?_
      have after := isFrom.step surroundings handles
      rw [← inductionHypothesis after]
      exact and_iff_right after

/-- From the start of a node. -/
theorem handlesRun_initial_iff (lladdr : LinkAddr)
    (inputs : List (PrefixInput config maxNeighbors routeNb LinkAddr)) :
    (initial lladdr).HandlesRun surroundings [] inputs ↔
      (initial lladdr).FitsRun surroundings inputs :=
  (prefixesFrom_initial lladdr).handlesRun_iff surroundings inputs

/-- A DIO of eight bytes, which has no DAG ID. -/
def shortDio : RplMessage where
  buffer := fun _ => 0
  length := 8

/-- The DAG ID is read behind the message. -/
theorem shortDio_not_handlesRun :
    ¬ ((initial 0 : PrefixNode RplConfig.rplConf 2 2 UInt8).HandlesRun
      (RouteTables.noSurroundings 2 2) []
      [.dio (Vector.replicate 16 1) shortDio]) := by
  intro handles
  have fits := ((dioHandled_iff RplConfig.rplConf shortDio).mp handles.1).1
  exact absurd fits (by decide)

end PrefixNode

end Contiki.Rpl
