import Contiki.Coap.Transactions

/-!
# Observers

`er-coap-observe.c`.  A loop over the list of observers goes on from the
observer that it has removed, and `list_remove` clears the pointer there, so
each of the functions removes the first observer that it finds.
-/

namespace Contiki.Coap

open Contiki.Lib

/-- A token of at most `COAP_TOKEN_LEN` bytes. -/
structure ObserveToken where
  bytes : List UInt8
  short : bytes.length ≤ coapTokenLen
  deriving DecidableEq

/-- `coap_observer_t`, with the address of the URI. -/
structure CoapObserver where
  url : Address
  endpoint : Endpoint
  token : ObserveToken
  lastMid : UInt16
  deriving DecidableEq

/-- `observers_memb` and `observers_list`. -/
abbrev Observers (size : Nat) := Pool size CoapObserver

namespace Observers

variable {size : Nat}

/-! ## Removal -/

/-- `coap_remove_observer` -/
def coapRemoveObserver (observers : Observers size) (slot : Fin size) :
    Observers size :=
  Pool.release observers slot

/-- The loops of the `coap_remove_observer_by_` functions, from an observer
on, and what they return. -/
def removeFrom (matching : CoapObserver → Bool) :
    Nat → Option (Fin size) → Observers size → Nat × Observers size
  | 0, _, observers => (0, observers)
  | _ + 1, none, observers => (0, observers)
  | rounds + 1, some slot, observers =>
      if matching (observers.slots slot) then
        let observers := observers.coapRemoveObserver slot
        let rest := removeFrom matching rounds
          (Pool.next observers slot) observers
        (rest.1 + 1, rest.2)
      else
        removeFrom matching rounds (Pool.next observers slot) observers

/-- A loop over all observers, which visits none of them twice. -/
def removeMatching (observers : Observers size)
    (matching : CoapObserver → Bool) : Nat × Observers size :=
  removeFrom matching observers.list.length observers.list.head? observers

def byClient (endpoint : Endpoint) (observer : CoapObserver) : Bool :=
  observer.endpoint = endpoint

/-- `coap_remove_observer_by_client` -/
def coapRemoveObserverByClient (observers : Observers size)
    (endpoint : Endpoint) : Nat × Observers size :=
  observers.removeMatching (byClient endpoint)

def byToken (endpoint : Endpoint) (token : ObserveToken)
    (observer : CoapObserver) : Bool :=
  observer.endpoint = endpoint ∧ observer.token = token

/-- `coap_remove_observer_by_token` -/
def coapRemoveObserverByToken (observers : Observers size)
    (endpoint : Endpoint) (token : ObserveToken) : Nat × Observers size :=
  observers.removeMatching (byToken endpoint token)

/-- The condition in `coap_remove_observer_by_uri`, with the texts in memory:
`memcmp` compares as many bytes as the URI of the observer has. -/
def byUri (string : Address → List UInt8) (endpoint : Option Endpoint)
    (uri : Address) (observer : CoapObserver) : Bool :=
  (endpoint = none ∨ endpoint = some observer.endpoint) ∧
    (observer.url = uri ∨
      (string observer.url).isPrefixOf (string uri) = true)

/-- `coap_remove_observer_by_uri`; the address may be `NULL`. -/
def coapRemoveObserverByUri (string : Address → List UInt8)
    (observers : Observers size) (endpoint : Option Endpoint)
    (uri : Address) : Nat × Observers size :=
  observers.removeMatching (byUri string endpoint uri)

def byMid (endpoint : Endpoint) (mid : UInt16) (observer : CoapObserver) :
    Bool :=
  observer.endpoint = endpoint ∧ observer.lastMid = mid

/-- `coap_remove_observer_by_mid` -/
def coapRemoveObserverByMid (observers : Observers size)
    (endpoint : Endpoint) (mid : UInt16) : Nat × Observers size :=
  observers.removeMatching (byMid endpoint mid)

/-- `coap_add_observer` -/
def coapAddObserver (string : Address → List UInt8)
    (observers : Observers size) (endpoint : Endpoint)
    (token : ObserveToken) (uri : Address) :
    Option (Fin size) × Observers size :=
  -- remove existing observe relationship, if any
  let observers :=
    (observers.coapRemoveObserverByUri string (some endpoint) uri).2
  match Pool.firstFree observers with
  | none => (none, observers)
  | some slot =>
      (some slot, (Pool.set observers slot
        { url := uri, endpoint, token, lastMid := 0 }).take slot)

/-! ## The first observer that is found -/

variable {string : Address → List UInt8} {observers : Observers size}

theorem removeFrom_eq (consistent : Pool.Consistent observers)
    (matching : CoapObserver → Bool) (rest : List (Fin size)) :
    ∀ (rounds : Nat) (initial : List (Fin size)),
      observers.list = initial ++ rest → rest.length ≤ rounds →
      removeFrom matching rounds rest.head? observers =
        match rest.find? fun slot => matching (observers.slots slot) with
        | none => (0, observers)
        | some slot => (1, observers.coapRemoveObserver slot) := by
  induction rest with
  | nil =>
      intro rounds initial _ _
      cases rounds <;> rfl
  | cons slot rest inductionHypothesis =>
      intro rounds initial isList isLess
      obtain ⟨rounds, rfl⟩ : ∃ more, rounds = more + 1 :=
        Nat.exists_eq_succ_of_ne_zero (Nat.ne_of_gt
          (Nat.lt_of_lt_of_le (Nat.succ_pos _) isLess))
      rw [List.head?_cons, removeFrom]
      by_cases isMatch : matching (observers.slots slot) = true
      · have notIn : slot ∉ (observers.coapRemoveObserver slot).list :=
          fun isIn => ((Pool.mem_release consistent.nodup).mp isIn).1 rfl
        have isEnd : Pool.next (observers.coapRemoveObserver slot) slot =
            none := Pool.next_of_not_mem notIn
        have isFind : (slot :: rest).find?
            (fun slot => matching (observers.slots slot)) = some slot :=
          List.find?_cons_of_pos isMatch
        rw [if_pos isMatch, isFind]
        dsimp only
        rw [isEnd]
        cases rounds <;> rfl
      · have notBefore : slot ∉ initial := by
          have nodup := consistent.nodup
          rw [isList, List.nodup_append] at nodup
          exact fun isIn => nodup.2.2 slot isIn slot List.mem_cons_self rfl
        have isFind : (slot :: rest).find?
            (fun slot => matching (observers.slots slot)) =
              rest.find? fun slot => matching (observers.slots slot) :=
          List.find?_cons_of_neg isMatch
        rw [if_neg isMatch, isFind,
          Pool.next_of_append isList notBefore]
        apply inductionHypothesis rounds (initial ++ [slot])
        · rw [isList, List.append_assoc]
          rfl
        · exact Nat.le_of_succ_le_succ isLess

theorem removeMatching_eq (consistent : Pool.Consistent observers)
    (matching : CoapObserver → Bool) :
    observers.removeMatching matching =
      match observers.list.find? fun slot =>
        matching (observers.slots slot) with
      | none => (0, observers)
      | some slot => (1, observers.coapRemoveObserver slot) :=
  removeFrom_eq consistent matching observers.list observers.list.length []
    rfl (Nat.le_refl _)

theorem consistent_removeMatching (consistent : Pool.Consistent observers)
    (matching : CoapObserver → Bool) :
    Pool.Consistent (observers.removeMatching matching).2 := by
  rw [removeMatching_eq consistent]
  split
  · exact consistent
  · exact consistent.release _

theorem consistent_coapAddObserver (string : Address → List UInt8)
    {observers : Observers size} (consistent : Pool.Consistent observers)
    (endpoint : Endpoint) (token : ObserveToken) (uri : Address) :
    Pool.Consistent
      (observers.coapAddObserver string endpoint token uri).2 := by
  have removed : Pool.Consistent (observers.coapRemoveObserverByUri string
      (some endpoint) uri).2 := consistent_removeMatching consistent _
  unfold coapAddObserver
  dsimp only
  split
  · exact removed
  · exact (removed.set _ _).take _

/-! ## Which observers are removed -/

def those (observers : Observers size) (matching : CoapObserver → Bool) :
    List (Fin size) :=
  observers.list.filter fun slot => matching (observers.slots slot)

/-- Exactly the observers of a kind are removed, and they are counted. -/
structure RemovesExactly (matching : CoapObserver → Bool)
    (observers : Observers size) (result : Nat × Observers size) : Prop where
  list : result.2.list =
    observers.list.filter fun slot => !matching (observers.slots slot)
  slots : result.2.slots = observers.slots
  count : result.1 = (observers.those matching).length

/-- The first observer that is found is the only one that is wanted. -/
def FindsOnly (found wanted : CoapObserver → Bool)
    (observers : Observers size) : Prop :=
  observers.those wanted = (observers.those found).head?.toList

theorem head?_those (observers : Observers size)
    (matching : CoapObserver → Bool) :
    (observers.those matching).head? =
      observers.list.find? fun slot => matching (observers.slots slot) :=
  List.head?_filter

theorem mem_those {matching : CoapObserver → Bool} {slot : Fin size} :
    slot ∈ observers.those matching ↔
      slot ∈ observers.list ∧ matching (observers.slots slot) = true :=
  List.mem_filter

theorem those_eq_nil {found wanted : CoapObserver → Bool}
    (implies : ∀ observer, wanted observer = true → found observer = true)
    (isNone : (observers.those found).head? = none) :
    observers.those wanted = [] := by
  apply List.eq_nil_iff_forall_not_mem.mpr
  intro slot isWanted
  have wants := mem_those.mp isWanted
  have isFound : slot ∈ observers.those found :=
    mem_those.mpr ⟨wants.1, implies _ wants.2⟩
  rw [List.head?_eq_none_iff.mp isNone] at isFound
  exact List.not_mem_nil isFound

theorem erase_eq_filter (consistent : Pool.Consistent observers)
    {wanted : CoapObserver → Bool} {slot : Fin size}
    (isOnly : observers.those wanted = [slot]) :
    observers.list.erase slot =
      observers.list.filter fun slot => !wanted (observers.slots slot) := by
  rw [consistent.nodup.erase_eq_filter]
  apply List.filter_congr
  intro other isIn
  by_cases isWanted : wanted (observers.slots other) = true
  · have isThose : other ∈ observers.those wanted :=
      mem_those.mpr ⟨isIn, isWanted⟩
    rw [isOnly, List.mem_singleton] at isThose
    rw [isThose] at isWanted ⊢
    rw [isWanted]
    simp
  · have different : other ≠ slot := by
      rintro rfl
      have isThose : other ∈ observers.those wanted := by
        rw [isOnly]
        exact List.mem_singleton_self other
      exact isWanted (mem_those.mp isThose).2
    rw [Bool.eq_false_iff.mpr isWanted]
    simp [different]

/-- The functions remove exactly what is wanted if this is the first observer
that is found, or nothing. -/
theorem removesExactly_iff (consistent : Pool.Consistent observers)
    {found wanted : CoapObserver → Bool}
    (implies : ∀ observer, wanted observer = true → found observer = true) :
    RemovesExactly wanted observers (observers.removeMatching found) ↔
      observers.FindsOnly found wanted := by
  rw [removeMatching_eq consistent, ← head?_those]
  unfold FindsOnly
  cases isHead : (observers.those found).head? with
  | none =>
      have noneWanted := those_eq_nil implies isHead
      rw [Option.toList_none]
      refine ⟨fun _ => noneWanted, fun _ => ⟨?_, rfl, ?_⟩⟩
      · apply (List.filter_eq_self.mpr _).symm
        intro slot isIn
        by_contra isWanted
        rw [Bool.not_eq_true', Bool.not_eq_false] at isWanted
        have isThose : slot ∈ observers.those wanted :=
          mem_those.mpr ⟨isIn, isWanted⟩
        rw [noneWanted] at isThose
        exact List.not_mem_nil isThose
      · rw [noneWanted]
        rfl
  | some slot =>
      have inList : slot ∈ observers.list :=
        (mem_those.mp (List.mem_of_mem_head? isHead)).1
      rw [Option.toList_some]
      constructor
      · intro removes
        have isCount : 1 = (observers.those wanted).length := removes.count
        obtain ⟨only, isOnly⟩ := List.length_eq_one_iff.mp isCount.symm
        have notIn : slot ∉ observers.list.erase slot :=
          consistent.nodup.not_mem_erase
        have isErase : observers.list.erase slot = _ := removes.list
        rw [isErase, List.mem_filter, not_and, Bool.not_eq_true',
          Bool.not_eq_false] at notIn
        have isThose : slot ∈ observers.those wanted :=
          mem_those.mpr ⟨inList, notIn inList⟩
        rw [isOnly, List.mem_singleton] at isThose
        rw [isOnly, isThose]
      · intro isOnly
        refine ⟨erase_eq_filter consistent isOnly, rfl, ?_⟩
        rw [isOnly]
        rfl

/-- A list is its head exactly if it has at most one element. -/
theorem eq_head?_iff {α : Type} (list : List α) :
    list = list.head?.toList ↔ list.length ≤ 1 := by
  cases list with
  | nil => simp
  | cons first rest =>
      cases rest with
      | nil => simp
      | cons second rest => simp

/-- The functions that compare with `=` remove all observers that match if
there are not two of them. -/
theorem removesExactly_self_iff (consistent : Pool.Consistent observers)
    (matching : CoapObserver → Bool) :
    RemovesExactly matching observers (observers.removeMatching matching) ↔
      (observers.those matching).length ≤ 1 :=
  (removesExactly_iff consistent fun _ => id).trans (eq_head?_iff _)

/-! ## Additions -/

/-- An observer of the same resource for the same client, or for any. -/
def sameUri (string : Address → List UInt8) (endpoint : Option Endpoint)
    (uri : Address) (observer : CoapObserver) : Bool :=
  (endpoint = none ∨ endpoint = some observer.endpoint) ∧
    string observer.url = string uri

theorem byUri_of_sameUri {endpoint : Option Endpoint} {uri : Address} :
    ∀ observer, sameUri string endpoint uri observer = true →
      byUri string endpoint uri observer = true := by
  intro observer isSame
  unfold sameUri at isSame
  rw [decide_eq_true_iff] at isSame
  unfold byUri
  rw [decide_eq_true_iff]
  refine ⟨isSame.1, Or.inr ?_⟩
  rw [isSame.2]
  exact List.isPrefixOf_iff_prefix.mpr (List.prefix_refl _)

/-- There is exactly one observer for a client and a URI, and the others are
as they were. -/
structure AddsExactly (string : Address → List UInt8) (endpoint : Endpoint)
    (uri : Address) (before after : Observers size) : Prop where
  one : (after.those (sameUri string (some endpoint) uri)).length = 1
  others : ∀ slot ∈ before.list,
    sameUri string (some endpoint) uri (before.slots slot) = false →
      slot ∈ after.list ∧ after.slots slot = before.slots slot

theorem sameUri_new (string : Address → List UInt8) (endpoint : Endpoint)
    (token : ObserveToken) (uri : Address) :
    sameUri string (some endpoint) uri
      { url := uri, endpoint, token, lastMid := 0 } = true := by
  unfold sameUri
  rw [decide_eq_true_iff]
  exact ⟨Or.inr rfl, rfl⟩

/-- The observers of a kind after one of this kind is taken into use. -/
theorem those_take {slot : Fin size}
    {observer : CoapObserver} {matching : CoapObserver → Bool}
    (isFree : slot ∉ observers.list) (isMatch : matching observer = true) :
    those ((Pool.set observers slot observer).take slot) matching =
      observers.those matching ++ [slot] := by
  have isList : ((Pool.set observers slot observer).take slot).list =
      observers.list ++ [slot] :=
    congrArg (· ++ [slot]) (List.erase_of_not_mem isFree)
  have isNew : ((Pool.set observers slot observer).take slot).slots slot =
      observer := Function.update_self _ _ _
  unfold those
  rw [isList, List.filter_append]
  congr 1
  · apply List.filter_congr
    intro other isIn
    have different : other ≠ slot := by
      rintro rfl
      exact isFree isIn
    have isOld : ((Pool.set observers slot observer).take slot).slots other =
        observers.slots other := Function.update_of_ne different _ _
    rw [isOld]
  · apply List.filter_eq_self.mpr
    intro other isIn
    rw [List.mem_singleton.mp isIn, isNew, isMatch]

theorem length_of_full (consistent : Pool.Consistent observers)
    (isFull : Pool.firstFree observers = none) :
    observers.list.length = size := by
  apply Nat.le_antisymm consistent.length_le
  have subset : List.finRange size ⊆ observers.list := by
    intro slot isIn
    have isUsed := List.find?_eq_none.mp isFull slot isIn
    rw [Bool.not_eq_true', Bool.not_eq_false] at isUsed
    exact (consistent.mem_iff slot).mpr isUsed
  have short := (List.subperm_of_subset (List.nodup_finRange size)
    subset).length_le
  rwa [List.length_finRange] at short

theorem length_lt_of_free
    (consistent : Pool.Consistent observers) {slot : Fin size}
    (isFree : slot ∉ observers.list) : observers.list.length < size := by
  have short := (List.subperm_of_subset
    (List.nodup_cons.mpr ⟨isFree, consistent.nodup⟩)
    fun slot _ => List.mem_finRange slot).length_le
  rw [List.length_finRange] at short
  exact short

theorem adds_of_none (consistent : Pool.Consistent observers)
    {endpoint : Endpoint} {token : ObserveToken} {uri : Address}
    (isNone : (observers.those (byUri string (some endpoint) uri)).head? =
      none) :
    AddsExactly string endpoint uri observers
        (observers.coapAddObserver string endpoint token uri).2 ↔
      observers.list.length < size := by
  have isRemoved : (observers.coapRemoveObserverByUri string (some endpoint)
      uri).2 = observers := by
    unfold coapRemoveObserverByUri
    rw [removeMatching_eq consistent, ← head?_those, isNone]
  have noneSame := those_eq_nil byUri_of_sameUri isNone
  unfold coapAddObserver
  rw [isRemoved]
  dsimp only
  cases isFirst : Pool.firstFree observers with
  | none =>
      have isFull := length_of_full consistent isFirst
      constructor
      · intro adds
        have isOne := adds.one
        dsimp only at isOne
        rw [noneSame] at isOne
        exact absurd isOne Nat.zero_ne_one
      · intro isLess
        exact absurd isLess (Nat.not_lt_of_le (Nat.le_of_eq isFull.symm))
  | some slot =>
      have isFree := Pool.not_mem_of_firstFree consistent isFirst
      refine ⟨fun _ => length_lt_of_free consistent isFree, fun _ => ?_⟩
      constructor
      · rw [those_take isFree (sameUri_new string endpoint token uri),
          noneSame]
        rfl
      · intro other isIn _
        have different : other ≠ slot := by
          rintro rfl
          exact isFree isIn
        exact ⟨Pool.mem_take.mpr (Or.inr isIn),
          Function.update_of_ne different _ _⟩

theorem eq_singleton {α : Type} {list : List α} {element : α}
    (nodup : list.Nodup) (isIn : element ∈ list)
    (isOnly : ∀ other ∈ list, other = element) : list = [element] := by
  cases list with
  | nil => exact absurd isIn List.not_mem_nil
  | cons first rest =>
      have isFirst := isOnly first List.mem_cons_self
      rw [isFirst] at nodup ⊢
      cases rest with
      | nil => rfl
      | cons second rest =>
          have isSecond := isOnly second
            (List.mem_cons_of_mem _ List.mem_cons_self)
          rw [isSecond] at nodup
          exact absurd List.mem_cons_self (List.nodup_cons.mp nodup).1

theorem adds_of_some (consistent : Pool.Consistent observers)
    {endpoint : Endpoint} {token : ObserveToken} {uri : Address}
    {found : Fin size}
    (isFound : (observers.those (byUri string (some endpoint) uri)).head? =
      some found) :
    AddsExactly string endpoint uri observers
        (observers.coapAddObserver string endpoint token uri).2 ↔
      observers.those (sameUri string (some endpoint) uri) = [found] := by
  have inList : found ∈ observers.list :=
    (mem_those.mp (List.mem_of_mem_head? isFound)).1
  have isRemoved : (observers.coapRemoveObserverByUri string (some endpoint)
      uri).2 = observers.coapRemoveObserver found := by
    unfold coapRemoveObserverByUri
    rw [removeMatching_eq consistent, ← head?_those, isFound]
  have isConsistent : Pool.Consistent
      (observers.coapRemoveObserver found) := consistent.release found
  have notIn : found ∉ (observers.coapRemoveObserver found).list :=
    fun isIn => ((Pool.mem_release consistent.nodup).mp isIn).1 rfl
  unfold coapAddObserver
  rw [isRemoved]
  dsimp only
  cases isFirst : Pool.firstFree (observers.coapRemoveObserver found) with
  | none =>
      have isFull := length_of_full isConsistent isFirst
      exact absurd isFull
        (Nat.ne_of_lt (length_lt_of_free isConsistent notIn))
  | some slot =>
      have isFree := Pool.not_mem_of_firstFree isConsistent isFirst
      have isThose := those_take isFree
        (sameUri_new string endpoint token uri)
      constructor
      · intro adds
        have isOne := adds.one
        dsimp only at isOne
        rw [isThose, List.length_append, List.length_singleton] at isOne
        have isNone : those (observers.coapRemoveObserver found)
            (sameUri string (some endpoint) uri) = [] :=
          List.length_eq_zero_iff.mp (Nat.succ.inj isOne)
        apply eq_singleton (consistent.nodup.filter _)
        · apply mem_those.mpr ⟨inList, _⟩
          by_contra notSame
          have kept := adds.others found inList
            (Bool.eq_false_iff.mpr notSame)
          rcases Pool.mem_take.mp kept.1 with isSlot | isOld
          · have isNew : ((Pool.set (observers.coapRemoveObserver found) slot
                { url := uri, endpoint, token, lastMid := 0 }).take slot).slots
                  found = { url := uri, endpoint, token, lastMid := 0 } := by
              rw [isSlot]
              exact Function.update_self _ _ _
            rw [← kept.2, isNew] at notSame
            exact notSame (sameUri_new string endpoint token uri)
          · exact notIn isOld
        · intro other isSame
          by_contra different
          have isWanted := mem_those.mp isSame
          have isIn : other ∈ those (observers.coapRemoveObserver found)
              (sameUri string (some endpoint) uri) :=
            mem_those.mpr ⟨(Pool.mem_release consistent.nodup).mpr
              ⟨different, isWanted.1⟩, isWanted.2⟩
          rw [isNone] at isIn
          exact List.not_mem_nil isIn
      · intro isOnly
        have isNone : those (observers.coapRemoveObserver found)
            (sameUri string (some endpoint) uri) = [] := by
          apply List.eq_nil_iff_forall_not_mem.mpr
          intro other isIn
          have isWanted := mem_those.mp isIn
          have isOld := (Pool.mem_release consistent.nodup).mp isWanted.1
          have isSame : other ∈ observers.those
              (sameUri string (some endpoint) uri) :=
            mem_those.mpr ⟨isOld.2, isWanted.2⟩
          rw [isOnly, List.mem_singleton] at isSame
          exact isOld.1 isSame
        constructor
        · rw [isThose, isNone]
          rfl
        · intro other isIn notSame
          have different : other ≠ found := by
            rintro rfl
            have isSame : other ∈ observers.those
                (sameUri string (some endpoint) uri) := by
              rw [isOnly]
              exact List.mem_singleton_self other
            rw [(mem_those.mp isSame).2] at notSame
            exact Bool.false_ne_true notSame.symm
          have isOld : other ∈ (observers.coapRemoveObserver found).list :=
            (Pool.mem_release consistent.nodup).mpr ⟨different, isIn⟩
          have notSlot : other ≠ slot := by
            rintro rfl
            exact isFree isOld
          exact ⟨Pool.mem_take.mpr (Or.inr isOld),
            Function.update_of_ne notSlot _ _⟩

/-- The observer for a client and a URI is new and the others are as they
were if the first one that is found is the only one for this URI, and there is
room. -/
theorem addsExactly_iff (consistent : Pool.Consistent observers)
    {endpoint : Endpoint} {token : ObserveToken} {uri : Address} :
    AddsExactly string endpoint uri observers
        (observers.coapAddObserver string endpoint token uri).2 ↔
      observers.FindsOnly (byUri string (some endpoint) uri)
          (sameUri string (some endpoint) uri) ∧
        (observers.list.length < size ∨
          observers.those (byUri string (some endpoint) uri) ≠ []) := by
  unfold FindsOnly
  cases isHead :
      (observers.those (byUri string (some endpoint) uri)).head? with
  | none =>
      have noneSame := those_eq_nil byUri_of_sameUri isHead
      have noneFound := List.head?_eq_none_iff.mp isHead
      rw [adds_of_none consistent isHead, noneSame, noneFound]
      exact ⟨fun isLess => ⟨rfl, Or.inl isLess⟩,
        fun both => both.2.resolve_right fun some => some rfl⟩
  | some found =>
      have someFound :
          observers.those (byUri string (some endpoint) uri) ≠ [] := by
        intro isNone
        rw [isNone] at isHead
        exact nomatch isHead
      rw [adds_of_some consistent isHead, Option.toList_some]
      exact ⟨fun isOnly => ⟨isOnly, Or.inr someFound⟩, fun both => both.1⟩

/-! ## Observers that are removed and added -/

/-- The functions do what they are for exactly if not more than one observer
matches, and for a URI if no other observer is found before. -/
theorem coapObservers_exact (string : Address → List UInt8)
    (observers : Observers size) (consistent : Pool.Consistent observers) :
    (∀ endpoint, RemovesExactly (byClient endpoint) observers
        (observers.coapRemoveObserverByClient endpoint) ↔
      (observers.those (byClient endpoint)).length ≤ 1) ∧
    (∀ endpoint token, RemovesExactly (byToken endpoint token) observers
        (observers.coapRemoveObserverByToken endpoint token) ↔
      (observers.those (byToken endpoint token)).length ≤ 1) ∧
    (∀ endpoint mid, RemovesExactly (byMid endpoint mid) observers
        (observers.coapRemoveObserverByMid endpoint mid) ↔
      (observers.those (byMid endpoint mid)).length ≤ 1) ∧
    (∀ endpoint uri, RemovesExactly (sameUri string endpoint uri) observers
        (observers.coapRemoveObserverByUri string endpoint uri) ↔
      observers.FindsOnly (byUri string endpoint uri)
        (sameUri string endpoint uri)) ∧
    ∀ endpoint token uri, AddsExactly string endpoint uri observers
        (observers.coapAddObserver string endpoint token uri).2 ↔
      observers.FindsOnly (byUri string (some endpoint) uri)
          (sameUri string (some endpoint) uri) ∧
        (observers.list.length < size ∨
          observers.those (byUri string (some endpoint) uri) ≠ []) :=
  ⟨fun _ => removesExactly_self_iff consistent _,
    fun _ _ => removesExactly_self_iff consistent _,
    fun _ _ => removesExactly_self_iff consistent _,
    fun _ _ => removesExactly_iff consistent byUri_of_sameUri,
    fun _ _ _ => addsExactly_iff consistent⟩

def client : Endpoint where
  addr := Vector.replicate 16 1
  port := 5683

def emptyToken : ObserveToken := ⟨[], Nat.zero_le _⟩

/-- Observers of `a` and of `ab`. -/
def twoObservers : Observers 3 where
  slots := fun slot =>
    { url := slot.val, endpoint := client, token := emptyToken, lastMid := 0 }
  used := fun slot => slot.val < 2
  list :=
    [⟨0, Nat.zero_lt_succ _⟩, ⟨1, Nat.succ_lt_succ (Nat.zero_lt_succ _)⟩]

/-- `a`, `ab` and `abc`. -/
def texts (address : Address) : List UInt8 :=
  [97, 98, 99].take (address + 1)

/-- One of two observers is removed, and an observer of `a` is dropped for one
of `abc`. -/
theorem twoObservers_not_exact :
    ¬ RemovesExactly (byClient client) twoObservers
        (twoObservers.coapRemoveObserverByClient client) ∧
      ¬ AddsExactly texts client 2 twoObservers
        (twoObservers.coapAddObserver texts client emptyToken 2).2 :=
  ⟨fun removes => absurd removes.count (by decide +kernel),
    fun adds => absurd (adds.others ⟨0, by omega⟩ (by decide +kernel)
      (by decide +kernel)).2 (by decide +kernel)⟩

/-- Nobody observes anything, and the objects are zero. -/
def noObservers : Observers 3 where
  slots := fun _ =>
    { url := 0
      endpoint := { addr := Vector.replicate 16 0, port := 0 }
      token := emptyToken
      lastMid := 0 }
  used := fun _ => false
  list := []

theorem noObservers_consistent : Pool.Consistent noObservers where
  nodup := List.nodup_nil
  mem_iff := fun _ =>
    ⟨fun isIn => absurd isIn List.not_mem_nil,
      fun isUsed => absurd isUsed Bool.false_ne_true⟩

/-- The only observer is removed. -/
theorem oneObserver_exact :
    RemovesExactly (byClient client)
      (noObservers.coapAddObserver texts client emptyToken 0).2
      ((noObservers.coapAddObserver texts client emptyToken
        0).2.coapRemoveObserverByClient client) :=
  ((coapObservers_exact texts _ (consistent_coapAddObserver texts
    noObservers_consistent client emptyToken 0)).1 client).mpr
      (by decide +kernel)

end Observers

end Contiki.Coap
