import Mathlib.Algebra.Group.Nat.Defs
import Contiki.Ip64.AddrMap

/-!
# The address map of ip64 over runs

Which entries an age check and a creation leave, and the ports of the entries
in every run.
-/

namespace Contiki.Ip64

open Contiki.Lib

variable {numEntries width : Nat}

variable {map : AddrMap numEntries width}
  {before after : AddrMap numEntries width} {list : List (Fin numEntries)}
  {rands : List UInt16}

namespace AddrMap

/-! ## Age checks -/

/-- Only entries leave the list, and nothing else changes. -/
structure Leaves (before after : AddrMap numEntries width)
    (list : List (Fin numEntries)) : Prop where
  list : after.entries.list = list
  consistent : after.entries.Consistent
  slots : after.entries.slots = before.entries.slots
  mappedPort : after.mappedPort = before.mappedPort
  clockTime : after.clockTime = before.clockTime

theorem Leaves.entry (leaves : Leaves before after list)
    (m : Fin numEntries) : after.entry m = before.entry m := by
  unfold AddrMap.entry
  rw [leaves.slots]

theorem Leaves.expired (leaves : Leaves before after list) :
    after.expired = before.expired := by
  funext m
  unfold AddrMap.expired
  rw [leaves.entry, leaves.clockTime]

/-- The entries that are not too old. -/
def unexpired (map : AddrMap numEntries width) : List (Fin numEntries) :=
  map.entries.list.filter fun m => !map.expired m

theorem checkAgeFrom_spec {rounds : Nat} {map : AddrMap numEntries width}
    (consistent : map.entries.Consistent)
    {initial rest : List (Fin numEntries)}
    (isList : map.entries.list = initial ++ rest)
    (young : ∀ m ∈ initial, map.expired m = false)
    (enough : rest.countP map.expired * (numEntries + 1) + rest.length <
      rounds) :
    ∃ after, checkAgeFrom rounds map rest.head? = some after ∧
      Leaves map after map.unexpired := by
  induction rounds generalizing map initial rest with
  | zero =>
      exact absurd enough (Nat.not_lt_zero _)
  | succ rounds inductionHypothesis =>
      cases rest with
      | nil =>
          refine ⟨map, rfl, ?_, consistent, rfl, rfl, rfl⟩
          unfold unexpired
          rw [isList, List.append_nil, List.filter_eq_self.2]
          intro m member
          rw [young m member]
          rfl
      | cons m rest =>
          have nodup := consistent.nodup
          rw [isList] at nodup
          have notBefore : m ∉ initial := fun member =>
            (List.nodup_append.1 nodup).2.2 m member m
              List.mem_cons_self rfl
          rw [List.head?_cons]
          unfold checkAgeFrom
          cases old : map.expired m with
          | true =>
              rw [if_pos rfl]
              have short := consistent.length_le
              have removed : (map.remove m).entries.list =
                  initial ++ rest := by
                change map.entries.list.erase m = _
                rw [isList, List.erase_append_right _ notBefore,
                  List.erase_cons_head]
              have count : (initial ++ rest).countP map.expired =
                  rest.countP map.expired := by
                rw [List.countP_append, List.countP_eq_zero.2, Nat.zero_add]
                intro other member
                rw [young other member]
                simp
              rw [List.countP_cons_of_pos old, List.length_cons] at enough
              rw [isList, List.length_append, List.length_cons] at short
              obtain ⟨after, isAfter, leaves⟩ :=
                @inductionHypothesis (map.remove m)
                  (consistent.release m) [] (initial ++ rest) removed
                  (by simp) (by
                    change (initial ++ rest).countP map.expired * _ + _ < _
                    rw [count, List.length_append]
                    rw [Nat.succ_mul] at enough
                    omega)
              refine ⟨after, ?_, ?_, leaves.consistent, leaves.slots,
                leaves.mappedPort, leaves.clockTime⟩
              · rw [removed]
                exact isAfter
              · rw [leaves.list]
                unfold unexpired
                rw [removed, isList, List.filter_append, List.filter_append,
                  List.filter_cons_of_neg (by simp [old])]
                rfl
          | false =>
              rw [if_neg Bool.false_ne_true,
                map.entries.next_of_append isList notBefore]
              rw [List.countP_cons_of_neg (by simp [old]),
                List.length_cons] at enough
              refine @inductionHypothesis map consistent (initial ++ [m])
                rest (by rw [isList, List.append_assoc]; rfl) ?_ (by omega)
              intro other member
              rcases List.mem_append.1 member with before | here
              · exact young other before
              · rw [List.mem_singleton] at here
                rw [here, old]

/-- An age check removes the entries that are too old and no others. -/
theorem checkAge_spec (consistent : map.entries.Consistent) :
    ∃ after, map.checkAge = some after ∧
      Leaves map after map.unexpired := by
  have short := consistent.length_le
  have count := map.entries.list.countP_le_length (p := map.expired)
  refine checkAgeFrom_spec consistent (List.nil_append _).symm (by simp) ?_
  have most := Nat.mul_le_mul_right (numEntries + 1) (count.trans short)
  rw [Nat.succ_mul]
  omega

/-! ## Creations -/

theorem foldl_older
    (list : List (Fin numEntries)) {oldest : Option (Fin numEntries)}
    {o : Fin numEntries} (found : list.foldl map.older oldest = some o) :
    oldest = some o ∨ (o ∈ list ∧ (map.entry o).recyclable = true) := by
  induction list generalizing oldest with
  | nil =>
      exact Or.inl found
  | cons m list inductionHypothesis =>
      rcases inductionHypothesis found with same | ⟨member, recyclable⟩
      · unfold older at same
        split at same
        · next recyclable =>
            split at same
            · rw [Option.some.injEq] at same
              exact Or.inr ⟨by simp [same], same ▸ recyclable⟩
            · split at same
              · rw [Option.some.injEq] at same
                exact Or.inr ⟨by simp [same], same ▸ recyclable⟩
              · exact Or.inl same
        · exact Or.inl same
      · exact Or.inr ⟨List.mem_cons_of_mem m member, recyclable⟩

/-- The oldest entry that can be recycled. -/
def oldestRecyclable (map : AddrMap numEntries width) :
    Option (Fin numEntries) :=
  map.unexpired.foldl map.older none

/-- The entries that stay when an entry is created. -/
def kept (map : AddrMap numEntries width) : List (Fin numEntries) :=
  if map.unexpired.length < numEntries then map.unexpired
  else
    match map.oldestRecyclable with
    | some oldest => map.unexpired.erase oldest
    | none => map.unexpired

theorem firstFree_eq_none (consistent : map.entries.Consistent) :
    map.entries.firstFree = none ↔
      ¬ map.entries.list.length < numEntries := by
  unfold Pool.firstFree
  rw [List.find?_eq_none]
  constructor
  · intro allUsed short
    have subset : List.finRange numEntries ⊆ map.entries.list := by
      intro m member
      rw [consistent.mem_iff]
      simpa using allUsed m member
    have long := (List.subperm_of_subset (List.nodup_finRange numEntries)
      subset).length_le
    rw [List.length_finRange] at long
    omega
  · intro long m _
    have perm := List.Subperm.perm_of_length_le
      (List.subperm_of_subset consistent.nodup
        fun m _ => List.mem_finRange m)
      (by rw [List.length_finRange]; omega)
    have listed := perm.mem_iff.2 (List.mem_finRange m)
    rw [consistent.mem_iff] at listed
    simp [listed]

theorem alloc_spec (consistent : map.entries.Consistent)
    (young : map.unexpired = map.entries.list) :
    (∃ m after, map.alloc = (some m, after) ∧ m ∉ after.entries.list ∧
      Leaves map after map.kept ∧
      (after.entries.list = map.entries.list ∨
        ∃ oldest, after.entries.list = map.entries.list.erase oldest ∧
          (map.entry oldest).recyclable = true ∧
          ¬ map.entries.list.length < numEntries)) ∨
    (∃ after, map.alloc = (none, after) ∧
      Leaves map after map.entries.list) := by
  unfold alloc kept
  rw [young]
  cases free : map.entries.firstFree with
  | some m =>
      have short : map.entries.list.length < numEntries := by
        by_contra long
        rw [← firstFree_eq_none consistent, free] at long
        simp at long
      rw [if_pos short]
      exact Or.inl ⟨m, map, rfl, Pool.not_mem_of_firstFree consistent free,
        ⟨rfl, consistent, rfl, rfl, rfl⟩, Or.inl rfl⟩
  | none =>
      have long := (firstFree_eq_none consistent).1 free
      rw [if_neg long]
      unfold recycle oldestRecyclable
      rw [young]
      cases found : map.entries.list.foldl map.older none with
      | none =>
          exact Or.inr ⟨map, rfl, rfl, consistent, rfl, rfl, rfl⟩
      | some oldest =>
          rcases foldl_older _ found with impossible | ⟨listed, recyclable⟩
          · simp at impossible
          · have released := consistent.release oldest
            dsimp only
            rw [if_pos rfl]
            cases again : (map.remove oldest).entries.firstFree with
            | none =>
                have full := (@firstFree_eq_none _ _ (map.remove oldest)
                  released).1 again
                change ¬ (map.entries.list.erase oldest).length < _ at full
                rw [List.length_erase_of_mem listed] at full
                have positive := List.length_pos_of_mem listed
                have le := consistent.length_le
                omega
            | some m =>
                exact Or.inl ⟨m, map.remove oldest, rfl,
                  Pool.not_mem_of_firstFree released again,
                  ⟨rfl, released, rfl, rfl, rfl⟩,
                  Or.inr ⟨oldest, rfl, recyclable, long⟩⟩

/-- The port that is taken, the first one that is not the port of the first
entry. -/
def takenPort (map : AddrMap numEntries width)
    (list : List (Fin numEntries)) (rands : List UInt16) (port : UInt16) :
    Option UInt16 :=
  (port :: rands.map increaseMappedPort).find? fun port =>
    list.head?.all fun n => (map.entry n).mappedPort ≠ port

theorem pickPort_spec {m : Fin numEntries} (unlisted : m ∉ map.entries.list)
    {rounds : Nat} {rands : List UInt16}
    (enough : rands.length + 2 ≤ rounds) (port : UInt16) :
    (map.takenPort map.entries.list rands port = none ∧
      map.pickPort m rounds map.entries.list.head? rands port = none) ∨
    ∃ rest taken,
      map.takenPort map.entries.list rands port = some taken ∧
      map.pickPort m rounds map.entries.list.head? rands port =
        some (rest, taken) := by
  have nextNone := Pool.next_of_not_mem unlisted
  induction rands generalizing rounds port with
  | nil =>
      obtain ⟨rounds, rfl⟩ := Nat.exists_eq_add_of_le' enough
      unfold takenPort
      cases isList : map.entries.list with
      | nil =>
          exact Or.inr ⟨[], port, by simp, rfl⟩
      | cons n list =>
          rw [List.head?_cons]
          by_cases same : (map.entry n).mappedPort = port
          · refine Or.inl ⟨by simp [same], ?_⟩
            unfold pickPort
            rw [if_pos same]
          · refine Or.inr ⟨[], port, by simp [same], ?_⟩
            unfold pickPort
            rw [if_neg same, nextNone]
            rfl
  | cons rand rands inductionHypothesis =>
      obtain ⟨rounds, rfl⟩ := Nat.exists_eq_add_of_le' enough
      have later := @inductionHypothesis (rounds + rands.length + 2)
        (by omega) (increaseMappedPort rand)
      unfold takenPort at later ⊢
      cases isList : map.entries.list with
      | nil =>
          exact Or.inr ⟨rand :: rands, port, by simp, rfl⟩
      | cons n list =>
          rw [isList, List.head?_cons] at later
          rw [List.head?_cons]
          by_cases same : (map.entry n).mappedPort = port
          · rw [List.find?_cons_of_neg (by simp [same])]
            unfold pickPort
            rw [if_pos same, isList]
            exact later
          · refine Or.inr ⟨rand :: rands, port, by simp [same], ?_⟩
            unfold pickPort
            rw [if_neg same, nextNone]
            rfl

theorem Leaves.unexpired (leaves : Leaves before after before.unexpired) :
    after.unexpired = after.entries.list := by
  unfold AddrMap.unexpired
  rw [leaves.expired, leaves.list, AddrMap.unexpired, List.filter_filter]
  simp

theorem Leaves.older (leaves : Leaves before after list) :
    after.older = before.older := by
  funext oldest m
  unfold AddrMap.older
  rw [leaves.entry, leaves.clockTime]
  simp only [leaves.entry]

theorem Leaves.kept (leaves : Leaves before after before.unexpired) :
    after.kept = before.kept := by
  unfold AddrMap.kept oldestRecyclable
  rw [leaves.unexpired, leaves.list, leaves.older]

theorem Leaves.takenPort (leaves : Leaves before after list) :
    after.takenPort = before.takenPort := by
  funext list rands port
  unfold AddrMap.takenPort
  simp only [leaves.entry]

/-- A new entry, the entries that stay, and the ports. -/
structure Creates (before after : AddrMap numEntries width)
    (rands : List UInt16) (m : Fin numEntries) (port : UInt16) : Prop where
  taken : before.takenPort before.kept rands before.mappedPort = some port
  unlisted : m ∉ before.kept
  list : after.entries.list = before.kept ++ [m]
  consistent : after.entries.Consistent
  entry : ∀ n ∈ before.kept, after.entry n = before.entry n
  port : (after.entry m).mappedPort = port
  mappedPort : ∃ rand, after.mappedPort = increaseMappedPort rand
  clockTime : after.clockTime = before.clockTime
  young : ∀ n ∈ before.unexpired, n ∈ before.kept ∨
    (before.entry n).recyclable = true ∧
      ¬ before.unexpired.length < numEntries

theorem ip64AddrmapCreate_spec {map after : AddrMap numEntries width}
    (consistent : map.entries.Consistent) {ip6addr : Ip6Addr}
    {ip6port : UInt16} {ip4addr : Ip4Addr} {ip4port : UInt16}
    {protocol : UInt8} {rands : List UInt16}
    {created : Option (Fin numEntries)}
    (isCreated : map.ip64AddrmapCreate ip6addr ip6port ip4addr ip4port
      protocol rands = some (created, after)) :
    (created = none ∧ Leaves map after map.unexpired) ∨
    ∃ m port, created = some m ∧ Creates map after rands m port := by
  obtain ⟨aged, isAged, ages⟩ := checkAge_spec consistent
  unfold ip64AddrmapCreate at isCreated
  rw [isAged] at isCreated
  dsimp only at isCreated
  obtain ⟨m, later, isAlloc, unlisted, leaves, stays⟩ |
    ⟨later, isAlloc, leaves⟩ := alloc_spec ages.consistent ages.unexpired
  · rw [isAlloc] at isCreated
    dsimp only at isCreated
    have isKept : later.entries.list = map.kept :=
      leaves.list.trans ages.kept
    obtain ⟨_, fails⟩ | ⟨rest, port, isTaken, picks⟩ :=
      pickPort_spec unlisted (Nat.le_refl (rands.length + 2))
        later.mappedPort
    · rw [fails] at isCreated
      simp at isCreated
    · rw [picks] at isCreated
      cases rest with
      | nil =>
          simp at isCreated
      | cons rand rest =>
          simp only [Option.some.injEq, Prod.mk.injEq] at isCreated
          obtain ⟨rfl, rfl⟩ := isCreated
          rw [isKept, leaves.takenPort, ages.takenPort, leaves.mappedPort,
            ages.mappedPort] at isTaken
          rw [isKept] at unlisted
          refine Or.inr ⟨m, port, rfl, isTaken, unlisted, ?_, ?_,
            fun n member => ?_, ?_, ⟨rand, rfl⟩, ?_, fun n member => ?_⟩
          · change later.entries.list.erase m ++ [m] = _
            rw [isKept, List.erase_of_not_mem unlisted]
          · exact (leaves.consistent.set m _).take m
          · have different : n ≠ m := fun same => unlisted (same ▸ member)
            change Function.update later.entries.slots m _ n = _
            rw [Function.update_of_ne different]
            exact (leaves.entry n).trans (ages.entry n)
          · change (Function.update later.entries.slots m _ m).mappedPort = _
            rw [Function.update_self]
          · exact leaves.clockTime.trans ages.clockTime
          · rw [← ages.list] at member
            rcases stays with same | ⟨oldest, erased, recyclable, long⟩
            · rw [← isKept, same]
              exact Or.inl member
            · by_cases isOldest : n = oldest
              · rw [← ages.entry, isOldest, ← ages.list]
                exact Or.inr ⟨recyclable, long⟩
              · rw [← isKept, erased]
                exact Or.inl ((List.mem_erase_of_ne isOldest).2 member)
  · rw [isAlloc] at isCreated
    simp only [Option.some.injEq, Prod.mk.injEq] at isCreated
    obtain ⟨rfl, rfl⟩ := isCreated
    exact Or.inl ⟨rfl, leaves.list.trans ages.list, leaves.consistent,
      leaves.slots.trans ages.slots, leaves.mappedPort.trans ages.mappedPort,
      leaves.clockTime.trans ages.clockTime⟩

/-! ## Ports -/

/-- No two entries have the same port. -/
def PortsDiffer (map : AddrMap numEntries width) : Prop :=
  ∀ m ∈ map.entries.list, ∀ n ∈ map.entries.list,
    (map.entry m).mappedPort = (map.entry n).mappedPort → m = n

def InRange (port : UInt16) : Prop :=
  firstMappedPort ≤ port ∧ port < lastMappedPort

def PortsInRange (map : AddrMap numEntries width) : Prop :=
  InRange map.mappedPort ∧
    ∀ m ∈ map.entries.list, InRange (map.entry m).mappedPort

/-- The port that is taken is not the one of another entry that stays, but
for the first one, which is checked. -/
def PicksFree (map : AddrMap numEntries width) (rands : List UInt16) :
    Prop :=
  ∀ port, map.takenPort map.kept rands map.mappedPort = some port →
    ∀ n ∈ map.kept.tail, (map.entry n).mappedPort ≠ port

theorem inRange_increaseMappedPort (rand : UInt16) :
    InRange (increaseMappedPort rand) := by
  unfold InRange increaseMappedPort firstMappedPort lastMappedPort
  rw [UInt16.le_iff_toNat_le, UInt16.lt_iff_toNat_lt, UInt16.toNat_add,
    UInt16.toNat_mod]
  simp
  omega

theorem kept_subset (map : AddrMap numEntries width) :
    map.kept ⊆ map.entries.list := by
  have young : map.unexpired ⊆ map.entries.list :=
    List.filter_sublist.subset
  unfold kept
  split
  · exact young
  · split
    · exact List.Subset.trans List.erase_subset young
    · exact young

theorem inRange_takenPort {port taken : UInt16} (inRange : InRange port)
    (isTaken : map.takenPort list rands port = some taken) :
    InRange taken := by
  have member := List.mem_of_find?_eq_some isTaken
  rcases List.mem_cons.1 member with rfl | drawn
  · exact inRange
  · obtain ⟨rand, _, rfl⟩ := List.mem_map.1 drawn
    exact inRange_increaseMappedPort rand

theorem Creates.portsDiffer_iff {m : Fin numEntries} {port : UInt16}
    (creates : Creates before after rands m port)
    (differ : before.PortsDiffer) :
    after.PortsDiffer ↔ before.PicksFree rands := by
  have notFirst := List.find?_some creates.taken
  have stays : ∀ n ∈ before.kept,
      (after.entry n).mappedPort = (before.entry n).mappedPort :=
    fun n member => by rw [creates.entry n member]
  constructor
  · intro differAfter taken isTaken n inTail same
    rw [creates.taken, Option.some.injEq] at isTaken
    have member := List.mem_of_mem_tail inTail
    have isNew := differAfter n (by rw [creates.list]; simp [member]) m
      (by rw [creates.list]; simp)
      (by rw [stays n member, creates.port, same, isTaken])
    exact creates.unlisted (isNew ▸ member)
  · intro free
    have notTaken : ∀ n ∈ before.kept,
        (before.entry n).mappedPort ≠ port := by
      intro n member
      cases isKept : before.kept with
      | nil =>
          rw [isKept] at member
          simp at member
      | cons head tail =>
          have tailFree := free port creates.taken
          rw [isKept] at member notFirst tailFree
          rcases List.mem_cons.1 member with rfl | inTail
          · simpa using notFirst
          · exact tailFree n inTail
    intro a inA b inB same
    rw [creates.list, List.mem_append, List.mem_singleton] at inA inB
    rcases inA with inA | rfl <;> rcases inB with inB | rfl
    · rw [stays a inA, stays b inB] at same
      exact differ a (before.kept_subset inA) b (before.kept_subset inB) same
    · rw [stays a inA, creates.port] at same
      exact absurd same (notTaken a inA)
    · rw [stays b inB, creates.port] at same
      exact absurd same.symm (notTaken b inB)
    · rfl

end AddrMap

/-! ## Runs -/

/-- The calls of the address map, and the clock. -/
inductive AddrMapOperation (numEntries width : Nat) where
  | ip64AddrmapCreate (ip6addr : Ip6Addr) (ip6port : UInt16)
      (ip4addr : Ip4Addr) (ip4port : UInt16) (protocol : UInt8)
      (rands : List UInt16)
  | ip64AddrmapLookup (ip6addr : Ip6Addr) (ip6port : UInt16)
      (ip4addr : Ip4Addr) (ip4port : UInt16) (protocol : UInt8)
  | ip64AddrmapLookupPort (mappedPort : UInt16) (protocol : UInt8)
  | ip64AddrmapSetLifetime (e : Option (Fin numEntries))
      (time : BitVec width)
  | ip64AddrmapSetRecycleble (e : Option (Fin numEntries))
  | advance (ticks : BitVec width)

namespace AddrMap

/-- `ip64_addrmap_init`; the blocks are those of a static array. -/
def init (entry : Entry width) (clockTime : BitVec width) :
    AddrMap numEntries width where
  entries := { slots := fun _ => entry, used := fun _ => false, list := [] }
  mappedPort := firstMappedPort
  clockTime := clockTime

def step (map : AddrMap numEntries width) :
    AddrMapOperation numEntries width → Option (AddrMap numEntries width)
  | .ip64AddrmapCreate ip6addr ip6port ip4addr ip4port protocol rands =>
      (map.ip64AddrmapCreate ip6addr ip6port ip4addr ip4port protocol
        rands).map Prod.snd
  | .ip64AddrmapLookup ip6addr ip6port ip4addr ip4port protocol =>
      (map.ip64AddrmapLookup ip6addr ip6port ip4addr ip4port
        protocol).map Prod.snd
  | .ip64AddrmapLookupPort mappedPort protocol =>
      (map.ip64AddrmapLookupPort mappedPort protocol).map Prod.snd
  | .ip64AddrmapSetLifetime e time =>
      some (map.ip64AddrmapSetLifetime e time)
  | .ip64AddrmapSetRecycleble e => some (map.ip64AddrmapSetRecycleble e)
  | .advance ticks => some { map with clockTime := map.clockTime + ticks }

/-- What holds of the entries in all runs. -/
structure Ok (map : AddrMap numEntries width) : Prop where
  consistent : map.entries.Consistent
  inRange : map.PortsInRange

theorem Leaves.ok {before after : AddrMap numEntries width}
    (leaves : Leaves before after before.unexpired) (ok : before.Ok) :
    after.Ok := by
  refine ⟨leaves.consistent, ?_, fun m member => ?_⟩
  · rw [leaves.mappedPort]
    exact ok.inRange.1
  · rw [leaves.list] at member
    rw [leaves.entry]
    exact ok.inRange.2 m (List.mem_of_mem_filter member)

theorem Leaves.portsDiffer (leaves : Leaves before after before.unexpired)
    (differ : before.PortsDiffer) : after.PortsDiffer := by
  intro m inM n inN same
  rw [leaves.list] at inM inN
  rw [leaves.entry, leaves.entry] at same
  exact differ m (List.mem_of_mem_filter inM) n (List.mem_of_mem_filter inN)
    same

theorem Creates.ok {before after : AddrMap numEntries width}
    {rands : List UInt16} {m : Fin numEntries} {port : UInt16}
    (creates : Creates before after rands m port) (ok : before.Ok) :
    after.Ok := by
  refine ⟨creates.consistent, ?_, fun n member => ?_⟩
  · obtain ⟨rand, isNext⟩ := creates.mappedPort
    rw [isNext]
    exact inRange_increaseMappedPort rand
  · rw [creates.list, List.mem_append, List.mem_singleton] at member
    rcases member with inKept | rfl
    · rw [creates.entry n inKept]
      exact ok.inRange.2 n (before.kept_subset inKept)
    · rw [creates.port]
      exact inRange_takenPort ok.inRange.1 creates.taken

theorem Ok.set (ok : map.Ok) (e : Fin numEntries) {entry : Entry width}
    (samePort : entry.mappedPort = (map.entry e).mappedPort) :
    Ok { map with entries := map.entries.set e entry } ∧
      (map.PortsDiffer →
        PortsDiffer { map with entries := map.entries.set e entry }) := by
  have ports : ∀ m, (Function.update map.entries.slots e entry m).mappedPort =
      (map.entry m).mappedPort := by
    intro m
    rw [Function.update_apply]
    split
    · next same =>
        rw [samePort, same]
    · rfl
  refine ⟨⟨ok.consistent.set e entry, ok.inRange.1, fun m member => ?_⟩,
    fun differ m inM n inN same => ?_⟩
  · change InRange (Function.update map.entries.slots e entry m).mappedPort
    rw [ports]
    exact ok.inRange.2 m member
  · change (Function.update map.entries.slots e entry m).mappedPort =
      (Function.update map.entries.slots e entry n).mappedPort at same
    rw [ports, ports] at same
    exact differ m inM n inN same

/-- Only a creation can give a port twice. -/
def Meets (map : AddrMap numEntries width) :
    AddrMapOperation numEntries width → Prop
  | .ip64AddrmapCreate _ _ _ _ _ rands => map.PicksFree rands
  | _ => True

theorem Ok.step {map after : AddrMap numEntries width} (ok : map.Ok)
    {operation : AddrMapOperation numEntries width}
    (isStep : map.step operation = some after) :
    after.Ok ∧
      (map.PortsDiffer → map.Meets operation → after.PortsDiffer) := by
  obtain ⟨aged, isAged, ages⟩ := checkAge_spec ok.consistent
  cases operation with
  | ip64AddrmapCreate ip6addr ip6port ip4addr ip4port protocol rands =>
      obtain ⟨⟨created, later⟩, isCreated, rfl⟩ :=
        Option.map_eq_some_iff.1 isStep
      obtain ⟨_, leaves⟩ | ⟨m, port, _, creates⟩ :=
        ip64AddrmapCreate_spec ok.consistent isCreated
      · exact ⟨leaves.ok ok, fun differ _ => leaves.portsDiffer differ⟩
      · exact ⟨creates.ok ok, fun differ free =>
          (creates.portsDiffer_iff differ).2 free⟩
  | ip64AddrmapLookup ip6addr ip6port ip4addr ip4port protocol =>
      unfold AddrMap.step ip64AddrmapLookup at isStep
      rw [isAged] at isStep
      simp only [Option.map_some, Option.some.injEq] at isStep
      subst isStep
      exact ⟨ages.ok ok, fun differ _ => ages.portsDiffer differ⟩
  | ip64AddrmapLookupPort mappedPort protocol =>
      unfold AddrMap.step ip64AddrmapLookupPort at isStep
      rw [isAged] at isStep
      simp only [Option.map_some, Option.some.injEq] at isStep
      subst isStep
      exact ⟨ages.ok ok, fun differ _ => ages.portsDiffer differ⟩
  | ip64AddrmapSetLifetime e time =>
      simp only [AddrMap.step, Option.some.injEq] at isStep
      subst isStep
      cases e with
      | none =>
          exact ⟨ok, fun differ _ => differ⟩
      | some e =>
          obtain ⟨okSet, differSet⟩ := @Ok.set _ _ map ok e { map.entry e with
            timer := { start := map.clockTime, interval := time } } rfl
          exact ⟨okSet, fun differ _ => differSet differ⟩
  | ip64AddrmapSetRecycleble e =>
      simp only [AddrMap.step, Option.some.injEq] at isStep
      subst isStep
      cases e with
      | none =>
          exact ⟨ok, fun differ _ => differ⟩
      | some e =>
          obtain ⟨okSet, differSet⟩ := @Ok.set _ _ map ok e
            { map.entry e with recyclable := true } rfl
          exact ⟨okSet, fun differ _ => differSet differ⟩
  | advance ticks =>
      simp only [AddrMap.step, Option.some.injEq] at isStep
      subst isStep
      exact ⟨⟨ok.consistent, ok.inRange⟩, fun differ _ => differ⟩

/-- Operations after each other that meet a condition. -/
inductive Run (allowed : AddrMap numEntries width →
      AddrMapOperation numEntries width → Prop)
    (start : AddrMap numEntries width) : AddrMap numEntries width → Prop
  | start : Run allowed start start
  | step {map after : AddrMap numEntries width}
      {operation : AddrMapOperation numEntries width} :
      Run allowed start map → allowed map operation →
      map.step operation = some after → Run allowed start after

theorem ok_init (entry : Entry width) (clockTime : BitVec width) :
    Ok (init entry clockTime : AddrMap numEntries width) := by
  refine ⟨⟨List.nodup_nil, fun m => ?_⟩,
    ⟨show firstMappedPort ≤ firstMappedPort by decide,
      show firstMappedPort < lastMappedPort by decide⟩, ?_⟩
  · simp [init]
  · simp [init]

/-- In every run in which no creation takes the port of a later entry, the
listed entries are the blocks in use and have different mapped ports; an age
check removes the entries that are too old and no others; and a creation
replaces an entry that is not too old only if it can be recycled and no block
is free. -/
theorem addrMap_run {entry : Entry width} {clockTime : BitVec width}
    {map : AddrMap numEntries width}
    (run : Run Meets (init entry clockTime) map) :
    (map.entries.list.Nodup ∧
      ∀ m, m ∈ map.entries.list ↔ map.entries.used m = true) ∧
    map.PortsDiffer ∧ map.PortsInRange ∧
    (∃ aged, map.checkAge = some aged ∧
      aged.entries.slots = map.entries.slots ∧
      ∀ m, m ∈ aged.entries.list ↔
        m ∈ map.entries.list ∧ map.expired m = false) ∧
    ∀ ip6addr ip6port ip4addr ip4port protocol rands created after,
      map.ip64AddrmapCreate ip6addr ip6port ip4addr ip4port protocol rands =
        some (created, after) →
      ∀ m ∈ map.entries.list, map.expired m = false →
        (m ∈ after.entries.list ∧ after.entry m = map.entry m) ∨
        (map.entry m).recyclable = true ∧
          ∀ n, n ∈ map.entries.list ∧ map.expired n = false := by
  have all : map.Ok ∧ map.PortsDiffer := by
    induction run with
    | start =>
        exact ⟨ok_init entry clockTime, by simp [PortsDiffer, init]⟩
    | step _ meets isStep inductionHypothesis =>
        obtain ⟨ok, differ⟩ := inductionHypothesis
        obtain ⟨okAfter, differAfter⟩ := ok.step isStep
        exact ⟨okAfter, differAfter differ meets⟩
  obtain ⟨⟨consistent, inRange⟩, differ⟩ := all
  refine ⟨⟨consistent.nodup, consistent.mem_iff⟩, differ, inRange, ?_, ?_⟩
  · obtain ⟨aged, isAged, ages⟩ := checkAge_spec consistent
    refine ⟨aged, isAged, ages.slots, fun m => ?_⟩
    rw [ages.list, unexpired, List.mem_filter]
    simp
  · intro ip6addr ip6port ip4addr ip4port protocol rands created after
      isCreated m listed young
    have inYoung : m ∈ map.unexpired := by
      rw [unexpired, List.mem_filter]
      exact ⟨listed, by simp [young]⟩
    obtain ⟨_, leaves⟩ | ⟨new, port, _, creates⟩ :=
      ip64AddrmapCreate_spec consistent isCreated
    · exact Or.inl ⟨by rw [leaves.list]; exact inYoung, leaves.entry m⟩
    · rcases creates.young m inYoung with stays | ⟨recyclable, long⟩
      · refine Or.inl ⟨?_, creates.entry m stays⟩
        rw [creates.list]
        exact List.mem_append_left _ stays
      · refine Or.inr ⟨recyclable, fun n => ?_⟩
        have perm := List.Subperm.perm_of_length_le
          (List.subperm_of_subset (consistent.nodup.filter
            fun m => !map.expired m) fun m _ => List.mem_finRange m)
          (by rw [List.length_finRange]; exact Nat.not_lt.1 long)
        have member := perm.mem_iff.2 (List.mem_finRange n)
        rw [List.mem_filter] at member
        exact ⟨member.1, by simpa using member.2⟩

theorem Run.next {allowed : AddrMap numEntries width →
      AddrMapOperation numEntries width → Prop}
    {start map : AddrMap numEntries width} (run : Run allowed start map)
    (operation : AddrMapOperation numEntries width)
    (isAllowed : allowed map operation)
    (returns : (map.step operation).isSome = true) :
    Run allowed start ((map.step operation).getD map) := by
  obtain ⟨after, isStep⟩ := Option.isSome_iff_exists.1 returns
  rw [isStep]
  exact run.step isAllowed isStep

theorem picksFree_of {port : UInt16}
    (isTaken : map.takenPort map.kept rands map.mappedPort = some port)
    (free : ∀ n ∈ map.kept.tail, (map.entry n).mappedPort ≠ port) :
    map.PicksFree rands := by
  intro taken isTaken'
  rw [isTaken, Option.some.injEq] at isTaken'
  subst isTaken'
  exact free

instance (map : AddrMap numEntries width) : Decidable map.PortsDiffer :=
  inferInstanceAs (Decidable (∀ m ∈ map.entries.list,
    ∀ n ∈ map.entries.list, _ → m = n))

def newEntry : Entry 16 where
  timer := { start := 0, interval := 0 }
  ip6addr := Vector.replicate 16 0
  ip4addr := Vector.replicate 4 0
  mappedPort := 0
  ip6port := 0
  ip4port := 0
  protocol := 0
  recyclable := false

/-- A creation for TCP port 80 of one host. -/
def createTo80 (rands : List UInt16) : AddrMapOperation 3 16 :=
  .ip64AddrmapCreate (Vector.replicate 16 1) 5000
    (Vector.replicate 4 192) 80 6 rands

/-- Two entries with a lifetime get ports that differ. -/
theorem addrMap_run_two :
    ∃ map : AddrMap 3 16, map.entries.list = [0, 1] ∧ map.PortsDiffer := by
  have empty : Run Meets (init newEntry 0 : AddrMap 3 16) _ := Run.start
  have first := empty.next (createTo80 [5])
    (@picksFree_of _ _ _ _ 10000 (by decide +kernel) (by decide +kernel))
    (by decide +kernel)
  have kept := first.next (.ip64AddrmapSetLifetime (some 0) 100) trivial
    (by decide +kernel)
  have second := kept.next (createTo80 [5])
    (@picksFree_of _ _ _ _ 10005 (by decide +kernel) (by decide +kernel))
    (by decide +kernel)
  exact ⟨_, by decide +kernel, (addrMap_run second).2.1⟩

/-- A new entry gets the port of the second entry: the loop that looks for
the port goes on behind the new entry. -/
theorem createTwice_samePort :
    ∃ map : AddrMap 3 16,
      Run (fun _ _ => True) (init newEntry 0) map ∧ ¬ map.PortsDiffer := by
  have empty : Run (fun _ _ => True) (init newEntry 0 : AddrMap 3 16) _ :=
    Run.start
  have first := empty.next (createTo80 [5]) trivial (by decide +kernel)
  have keepsFirst := first.next (.ip64AddrmapSetLifetime (some 0) 100)
    trivial (by decide +kernel)
  have second := keepsFirst.next (createTo80 [5]) trivial
    (by decide +kernel)
  have keepsSecond := second.next (.ip64AddrmapSetLifetime (some 1) 100)
    trivial (by decide +kernel)
  have third := keepsSecond.next (createTo80 [7]) trivial (by decide +kernel)
  exact ⟨_, third, by decide +kernel⟩

end AddrMap

end Contiki.Ip64
