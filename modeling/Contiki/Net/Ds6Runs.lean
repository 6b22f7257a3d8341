import Contiki.Net.Ds6
import Mathlib.Data.Finset.Card
import Mathlib.Data.Fintype.Basic
import Mathlib.Data.Fintype.Card

/-!
# Solicited-node membership over runs

Over every run the multicast addresses contain the solicited-node addresses of
the unicast addresses and no others exactly when no address is removed while
another one shares its solicited-node address.
-/

namespace Contiki.Net

/-! ## The list loop -/

section Loop

variable {size : Nat} (isused : Fin size → Bool) (ipaddr : Fin size → IpAddr)
  (addr : IpAddr)

/-- What `uip_ds6_list_loop` says about the elements of a list. -/
inductive LoopResult (out : Option (Fin size)) (elements : List (Fin size)) :
    ListLoop size → Prop where
  | found (element : Fin size) (used : isused element = true)
      (same : ipaddr element = addr) :
      LoopResult out elements (.found element)
  | freespace (element : Fin size)
      (free : isused element = false ∨ out = some element)
      (absent : ∀ other ∈ elements, isused other = true →
        ipaddr other ≠ addr) :
      LoopResult out elements (.freespace element)
  | nospace (none : out = none)
      (full : ∀ other ∈ elements, isused other = true)
      (absent : ∀ other ∈ elements, ipaddr other ≠ addr) :
      LoopResult out elements .nospace

theorem listLoopFrom_result (out : Option (Fin size))
    (elements : List (Fin size)) :
    LoopResult isused ipaddr addr out elements
      (listLoopFrom isused ipaddr addr out elements) := by
  induction elements generalizing out with
  | nil =>
      cases out with
      | none =>
          exact .nospace rfl (List.forall_mem_nil _) (List.forall_mem_nil _)
      | some element =>
          exact .freespace element (Or.inr rfl) (List.forall_mem_nil _)
  | cons element rest inductionHypothesis =>
      unfold listLoopFrom
      by_cases used : isused element = true
      · rw [if_pos used]
        by_cases same : ipaddr element = addr
        · rw [if_pos same]
          exact .found element used same
        · rw [if_neg same]
          have result := inductionHypothesis out
          generalize listLoopFrom isused ipaddr addr out rest = loop
            at result ⊢
          cases result with
          | found other otherUsed otherSame =>
              exact .found other otherUsed otherSame
          | freespace other free absent =>
              exact .freespace other free
                (List.forall_mem_cons.mpr ⟨fun _ => same, absent⟩)
          | nospace none full absent =>
              exact .nospace none (List.forall_mem_cons.mpr ⟨used, full⟩)
                (List.forall_mem_cons.mpr ⟨same, absent⟩)
      · rw [if_neg used]
        have unused : isused element = false := Bool.eq_false_iff.mpr used
        have result := inductionHypothesis (some element)
        generalize listLoopFrom isused ipaddr addr (some element) rest = loop
          at result ⊢
        cases result with
        | found other otherUsed otherSame =>
            exact .found other otherUsed otherSame
        | freespace other free absent =>
            refine .freespace other (Or.inl ?_)
              (List.forall_mem_cons.mpr
                ⟨fun isUsed => absurd isUsed used, absent⟩)
            rcases free with free | last
            · exact free
            · rw [← Option.some.inj last]
              exact unused
        | nospace isNone => exact nomatch isNone

/-- The three results of `uip_ds6_list_loop`. -/
theorem listLoop_cases :
    (∃ element, listLoop isused ipaddr addr = .found element ∧
      isused element = true ∧ ipaddr element = addr) ∨
    (∃ element, listLoop isused ipaddr addr = .freespace element ∧
      isused element = false ∧
      ∀ other, isused other = true → ipaddr other ≠ addr) ∨
    (listLoop isused ipaddr addr = .nospace ∧
      (∀ other, isused other = true) ∧ ∀ other, ipaddr other ≠ addr) := by
  have result : LoopResult isused ipaddr addr none (List.finRange size)
      (listLoop isused ipaddr addr) :=
    listLoopFrom_result isused ipaddr addr none (List.finRange size)
  generalize listLoop isused ipaddr addr = loop at result ⊢
  cases result with
  | found element used same => exact Or.inl ⟨element, rfl, used, same⟩
  | freespace element free absent =>
      have unused := free.resolve_right (fun isSome => nomatch isSome)
      exact Or.inr (Or.inl ⟨element, rfl, unused,
        fun other => absent other (List.mem_finRange other)⟩)
  | nospace _ full absent =>
      exact Or.inr (Or.inr ⟨rfl,
        fun other => full other (List.mem_finRange other),
        fun other => absent other (List.mem_finRange other)⟩)

end Loop

/-! ## Solicited-node addresses -/

/-- The address has the form of a solicited-node address. -/
def IsSolicited (addr : IpAddr) : Prop :=
  solicitedNode addr = addr

instance (addr : IpAddr) : Decidable (IsSolicited addr) :=
  inferInstanceAs (Decidable (_ = _))

theorem solicitedNode_isSolicited (addr : IpAddr) :
    IsSolicited (solicitedNode addr) := rfl

namespace Ds6Netif

variable {config : Ds6Config}

/-- The solicited-node address of a unicast address. -/
def group (netif : Ds6Netif config) (slot : Fin config.addrNb) : IpAddr :=
  solicitedNode (netif.addrList slot).ipaddr

/-- The multicast addresses contain the solicited-node addresses of the
unicast addresses, and no other solicited-node addresses. -/
structure Membership (netif : Ds6Netif config) : Prop where
  listens : ∀ slot, (netif.addrList slot).isused = true →
    ∃ maddr, (netif.maddrList maddr).isused = true ∧
      (netif.maddrList maddr).ipaddr =
        solicitedNode (netif.addrList slot).ipaddr
  owned : ∀ maddr, (netif.maddrList maddr).isused = true →
    IsSolicited (netif.maddrList maddr).ipaddr →
      ∃ slot, (netif.addrList slot).isused = true ∧
        solicitedNode (netif.addrList slot).ipaddr =
          (netif.maddrList maddr).ipaddr

/-- The multicast addresses that are no solicited-node addresses. -/
def others (netif : Ds6Netif config) : Finset (Fin config.maddrNb) :=
  Finset.univ.filter fun maddr => (netif.maddrList maddr).isused = true ∧
    ¬ IsSolicited (netif.maddrList maddr).ipaddr

/-- The multicast addresses that are solicited-node addresses. -/
def solicited (netif : Ds6Netif config) : Finset (Fin config.maddrNb) :=
  Finset.univ.filter fun maddr => (netif.maddrList maddr).isused = true ∧
    IsSolicited (netif.maddrList maddr).ipaddr

def unicast (netif : Ds6Netif config) : Finset (Fin config.addrNb) :=
  Finset.univ.filter fun slot => (netif.addrList slot).isused = true

/-- Also, the multicast addresses are different, and they leave room for a
solicited-node address for each unicast address. -/
structure Member (netif : Ds6Netif config) : Prop extends
    Membership netif where
  distinct : ∀ first second, (netif.maddrList first).isused = true →
    (netif.maddrList second).isused = true →
    (netif.maddrList first).ipaddr = (netif.maddrList second).ipaddr →
      first = second
  few : netif.others.card ≤ config.groups

/-! ## Room for another address -/

variable {netif : Ds6Netif config}

theorem Member.solicited_card (member : Member netif) :
    netif.solicited.card ≤ netif.unicast.card := by
  have injective : Set.InjOn (fun maddr => (netif.maddrList maddr).ipaddr)
      netif.solicited := by
    intro first isFirst second isSecond same
    have firstUsed := (Finset.mem_filter.mp isFirst).2.1
    have secondUsed := (Finset.mem_filter.mp isSecond).2.1
    exact member.distinct first second firstUsed secondUsed same
  rw [← Finset.card_image_of_injOn injective]
  have subset : netif.solicited.image
        (fun maddr => (netif.maddrList maddr).ipaddr) ⊆
      netif.unicast.image netif.group := by
    intro addr isImage
    rcases Finset.mem_image.mp isImage with ⟨maddr, isSolicited, rfl⟩
    rcases (Finset.mem_filter.mp isSolicited).2 with ⟨used, solicited⟩
    rcases member.owned maddr used solicited with ⟨slot, isUsed, same⟩
    exact Finset.mem_image.mpr ⟨slot,
      Finset.mem_filter.mpr ⟨Finset.mem_univ slot, isUsed⟩, same⟩
  exact (Finset.card_le_card subset).trans Finset.card_image_le

/-- There is room for a multicast address as long as there is room for a
unicast address. -/
theorem Member.room (member : Member netif) {slot : Fin config.addrNb}
    (free : (netif.addrList slot).isused = false) :
    ¬ ∀ maddr, (netif.maddrList maddr).isused = true := by
  intro full
  have addrs : netif.unicast.card < config.addrNb := by
    have proper : netif.unicast ⊂ Finset.univ := by
      refine Finset.filter_ssubset.mpr ⟨slot, Finset.mem_univ slot, ?_⟩
      rw [free]
      exact Bool.false_ne_true
    have card := Finset.card_lt_card proper
    rwa [Finset.card_univ, Fintype.card_fin] at card
  have covered : (Finset.univ : Finset (Fin config.maddrNb)) ⊆
      netif.others ∪ netif.solicited := by
    intro maddr _
    apply Finset.mem_union.mpr
    by_cases isSolicited : IsSolicited (netif.maddrList maddr).ipaddr
    · exact Or.inr (Finset.mem_filter.mpr
        ⟨Finset.mem_univ maddr, full maddr, isSolicited⟩)
    · exact Or.inl (Finset.mem_filter.mpr
        ⟨Finset.mem_univ maddr, full maddr, isSolicited⟩)
  have count := (Finset.card_le_card covered).trans
    (Finset.card_union_le _ _)
  rw [Finset.card_univ, Fintype.card_fin] at count
  have solicited := member.solicited_card
  have few := member.few
  have size : config.maddrNb =
      config.groups + config.addrNb + config.maddrNbu := rfl
  omega

/-! ## Adding an address -/

theorem maddrLoop_cases (netif : Ds6Netif config) (ipaddr : IpAddr) :
    (∃ maddr, netif.maddrLoop ipaddr = .found maddr ∧
      (netif.maddrList maddr).isused = true ∧
      (netif.maddrList maddr).ipaddr = ipaddr) ∨
    (∃ maddr, netif.maddrLoop ipaddr = .freespace maddr ∧
      (netif.maddrList maddr).isused = false ∧
      ∀ other, (netif.maddrList other).isused = true →
        (netif.maddrList other).ipaddr ≠ ipaddr) ∨
    (netif.maddrLoop ipaddr = .nospace ∧
      (∀ other, (netif.maddrList other).isused = true) ∧
      ∀ other, (netif.maddrList other).ipaddr ≠ ipaddr) :=
  listLoop_cases _ _ ipaddr

/-- A multicast address is added at a free slot, or the list stays. -/
theorem maddrAdd_cases (netif : Ds6Netif config) (ipaddr : IpAddr) :
    netif.maddrAdd ipaddr = netif ∨
    ∃ maddr, (netif.maddrList maddr).isused = false ∧
      (∀ other, (netif.maddrList other).isused = true →
        (netif.maddrList other).ipaddr ≠ ipaddr) ∧
      netif.maddrAdd ipaddr = { netif with
        maddrList := Function.update netif.maddrList maddr
          { isused := true, ipaddr } } := by
  unfold maddrAdd
  rcases maddrLoop_cases netif ipaddr with ⟨maddr, isFound, _⟩ |
    ⟨maddr, isFree, free, absent⟩ | ⟨isFull, _⟩
  · rw [isFound]
    exact Or.inl rfl
  · rw [isFree]
    exact Or.inr ⟨maddr, free, absent, rfl⟩
  · rw [isFull]
    exact Or.inl rfl

variable (ipaddr : IpAddr)

/-- After it has been added, the address is listed if there is room. -/
theorem maddrAdd_listens
    (room : ¬ ∀ maddr, (netif.maddrList maddr).isused = true) :
    ∃ maddr, ((netif.maddrAdd ipaddr).maddrList maddr).isused = true ∧
      ((netif.maddrAdd ipaddr).maddrList maddr).ipaddr = ipaddr := by
  unfold maddrAdd
  rcases maddrLoop_cases netif ipaddr with ⟨maddr, isFound, used, same⟩ |
    ⟨maddr, isFree, free, absent⟩ | ⟨_, full, _⟩
  · rw [isFound]
    exact ⟨maddr, used, same⟩
  · rw [isFree]
    refine ⟨maddr, ?_⟩
    dsimp only
    rw [Function.update_self]
    exact ⟨rfl, rfl⟩
  · exact absurd full room

theorem maddrAdd_addrList (netif : Ds6Netif config) (ipaddr : IpAddr) :
    (netif.maddrAdd ipaddr).addrList = netif.addrList := by
  rcases maddrAdd_cases netif ipaddr with same | ⟨maddr, _, _, same⟩ <;>
    rw [same]

theorem maddrAdd_keeps {maddr : Fin config.maddrNb}
    (used : (netif.maddrList maddr).isused = true) :
    (netif.maddrAdd ipaddr).maddrList maddr = netif.maddrList maddr := by
  rcases maddrAdd_cases netif ipaddr with same | ⟨other, free, _, same⟩
  · rw [same]
  · have different : maddr ≠ other := by
      intro isOther
      rw [isOther, free] at used
      exact Bool.false_ne_true used
    rw [same]
    exact Function.update_of_ne different _ _

/-- The addresses in the new list are those of the old one and the new
address. -/
theorem maddrAdd_used {maddr : Fin config.maddrNb}
    (used : ((netif.maddrAdd ipaddr).maddrList maddr).isused = true) :
    (netif.maddrList maddr).isused = true ∨
      ((netif.maddrAdd ipaddr).maddrList maddr).ipaddr = ipaddr ∧
        ∀ other, (netif.maddrList other).isused = true →
          (netif.maddrList other).ipaddr ≠ ipaddr := by
  rcases maddrAdd_cases netif ipaddr with same | ⟨other, free, absent, same⟩
  · rw [same] at used
    exact Or.inl used
  · by_cases isOther : maddr = other
    · refine Or.inr ⟨?_, absent⟩
      rw [same, isOther]
      dsimp only
      rw [Function.update_self]
    · rw [same] at used
      dsimp only at used
      rw [Function.update_of_ne isOther] at used
      exact Or.inl used

def Distinct (netif : Ds6Netif config) : Prop :=
  ∀ first second, (netif.maddrList first).isused = true →
    (netif.maddrList second).isused = true →
    (netif.maddrList first).ipaddr = (netif.maddrList second).ipaddr →
      first = second

theorem Distinct.maddrAdd (distinct : Distinct netif) (ipaddr : IpAddr) :
    Distinct (netif.maddrAdd ipaddr) := by
  intro first second firstUsed secondUsed same
  rcases maddrAdd_cases netif ipaddr with unchanged |
    ⟨maddr, free, absent, changed⟩
  · rw [unchanged] at firstUsed secondUsed same
    exact distinct first second firstUsed secondUsed same
  · rw [changed] at firstUsed secondUsed same
    dsimp only at firstUsed secondUsed same
    by_cases isFirst : first = maddr
    · by_cases isSecond : second = maddr
      · rw [isFirst, isSecond]
      · rw [Function.update_of_ne isSecond] at secondUsed same
        rw [isFirst, Function.update_self] at same
        exact absurd same.symm (absent second secondUsed)
    · rw [Function.update_of_ne isFirst] at firstUsed same
      by_cases isSecond : second = maddr
      · rw [isSecond, Function.update_self] at same
        exact absurd same (absent first firstUsed)
      · rw [Function.update_of_ne isSecond] at secondUsed same
        exact distinct first second firstUsed secondUsed same

theorem others_maddrAdd (netif : Ds6Netif config) (ipaddr : IpAddr) :
    (netif.maddrAdd ipaddr).others.card ≤ netif.others.card + 1 := by
  rcases maddrAdd_cases netif ipaddr with same | ⟨maddr, _, _, same⟩
  · rw [same]
    exact Nat.le_succ _
  · have subset : (netif.maddrAdd ipaddr).others ⊆
        insert maddr netif.others := by
      intro other isOther
      apply Finset.mem_insert.mpr
      by_cases isNew : other = maddr
      · exact Or.inl isNew
      · refine Or.inr (Finset.mem_filter.mpr ⟨Finset.mem_univ other, ?_⟩)
        have inNew := (Finset.mem_filter.mp isOther).2
        rw [same] at inNew
        dsimp only at inNew
        rwa [Function.update_of_ne isNew] at inNew
    exact (Finset.card_le_card subset).trans (Finset.card_insert_le _ _)

theorem others_maddrAdd_solicited (netif : Ds6Netif config)
    {ipaddr : IpAddr} (isSolicited : IsSolicited ipaddr) :
    (netif.maddrAdd ipaddr).others ⊆ netif.others := by
  intro maddr isOther
  rcases (Finset.mem_filter.mp isOther).2 with ⟨used, notSolicited⟩
  rcases maddrAdd_used ipaddr used with wasUsed | ⟨same, _⟩
  · rw [maddrAdd_keeps ipaddr wasUsed] at notSolicited
    exact Finset.mem_filter.mpr
      ⟨Finset.mem_univ maddr, wasUsed, notSolicited⟩
  · rw [same] at notSolicited
    exact absurd isSolicited notSolicited

theorem addrLoop_cases (netif : Ds6Netif config) (ipaddr : IpAddr) :
    (∃ slot, netif.addrLoop ipaddr = .found slot) ∨
    (∃ slot, netif.addrLoop ipaddr = .freespace slot ∧
      (netif.addrList slot).isused = false) ∨
    netif.addrLoop ipaddr = .nospace := by
  rcases listLoop_cases (fun slot => (netif.addrList slot).isused)
    (fun slot => (netif.addrList slot).ipaddr) ipaddr with
    ⟨slot, isFound, _⟩ | ⟨slot, isFree, free, _⟩ | ⟨isFull, _⟩
  · exact Or.inl ⟨slot, isFound⟩
  · exact Or.inr (Or.inl ⟨slot, isFree, free⟩)
  · exact Or.inr (Or.inr isFull)

theorem Member.addrAdd (member : Member netif)
    (ipaddr : IpAddr) (vlifetime type : Nat) :
    Member (netif.addrAdd ipaddr vlifetime type) := by
  unfold Ds6Netif.addrAdd
  rcases addrLoop_cases netif ipaddr with ⟨slot, isFound⟩ |
    ⟨slot, isFree, free⟩ | isFull
  · rw [isFound]
    exact member
  · rw [isFree]
    dsimp only
    generalize isLater : ({ netif with
      addrList := Function.update netif.addrList slot
        { isused := true
          ipaddr
          type
          isinfinite := vlifetime = 0
          vlifetime } } : Ds6Netif config) = later
    have maddrList : later.maddrList = netif.maddrList := by
      rw [← isLater]
    have atSlot : later.addrList slot = {
        isused := true
        ipaddr
        type
        isinfinite := vlifetime = 0
        vlifetime } := by
      rw [← isLater]
      exact Function.update_self _ _ _
    have elsewhere : ∀ other, other ≠ slot →
        later.addrList other = netif.addrList other := by
      intro other different
      rw [← isLater]
      exact Function.update_of_ne different _ _
    have room : ¬ ∀ maddr, (later.maddrList maddr).isused = true := by
      rw [maddrList]
      exact member.room free
    have distinct : Distinct later := by
      unfold Distinct
      rw [maddrList]
      exact member.distinct
    have others : later.others = netif.others := by
      unfold Ds6Netif.others
      rw [maddrList]
    refine { listens := ?_, owned := ?_,
             distinct := distinct.maddrAdd _, few := ?_ }
    · intro other used
      rw [maddrAdd_addrList] at used ⊢
      by_cases isSlot : other = slot
      · rw [isSlot, atSlot]
        exact maddrAdd_listens (solicitedNode ipaddr) room
      · rw [elsewhere other isSlot] at used ⊢
        rcases member.listens other used with ⟨maddr, isUsed, same⟩
        rw [← maddrList] at isUsed same
        refine ⟨maddr, ?_⟩
        rw [maddrAdd_keeps _ isUsed]
        exact ⟨isUsed, same⟩
    · intro maddr used isSolicited
      rw [maddrAdd_addrList]
      rcases maddrAdd_used _ used with wasUsed | ⟨same, _⟩
      · rw [maddrAdd_keeps _ wasUsed] at isSolicited ⊢
        rw [maddrList] at wasUsed isSolicited ⊢
        rcases member.owned maddr wasUsed isSolicited with
          ⟨owner, isUsed, same⟩
        refine ⟨owner, ?_⟩
        have different : owner ≠ slot := by
          intro isSlot
          rw [isSlot, free] at isUsed
          exact Bool.false_ne_true isUsed
        rw [elsewhere owner different]
        exact ⟨isUsed, same⟩
      · refine ⟨slot, ?_⟩
        rw [atSlot, same]
        exact ⟨rfl, rfl⟩
    · have subset := others_maddrAdd_solicited later
        (solicitedNode_isSolicited ipaddr)
      rw [others] at subset
      exact (Finset.card_le_card subset).trans member.few
  · rw [isFull]
    exact member

/-! ## Removing addresses -/

/-- The unicast addresses of some slots are removed, with their solicited-node
addresses. -/
structure Removed (slots : List (Fin config.addrNb))
    (before after : Ds6Netif config) : Prop where
  kept : ∀ slot, slot ∉ slots → after.addrList slot = before.addrList slot
  removed : ∀ slot ∈ slots, (after.addrList slot).isused = false
  ipaddr : ∀ maddr,
    (after.maddrList maddr).ipaddr = (before.maddrList maddr).ipaddr
  isused : ∀ maddr, (after.maddrList maddr).isused = true ↔
    (before.maddrList maddr).isused = true ∧ ∀ slot ∈ slots,
      solicitedNode (before.addrList slot).ipaddr ≠
        (before.maddrList maddr).ipaddr

/-- `uip_ds6_addr_rm` removes the multicast address, if it is listed. -/
theorem addrRm_removed (distinct : Distinct netif)
    (slot : Fin config.addrNb) :
    Removed [slot] netif (netif.addrRm slot) := by
  have maddrs : ∀ maddr,
      ((netif.addrRm slot).maddrList maddr).ipaddr =
        (netif.maddrList maddr).ipaddr ∧
      (((netif.addrRm slot).maddrList maddr).isused = true ↔
        (netif.maddrList maddr).isused = true ∧
          solicitedNode (netif.addrList slot).ipaddr ≠
            (netif.maddrList maddr).ipaddr) := by
    intro maddr
    unfold addrRm maddrLookup
    rcases maddrLoop_cases netif
      (solicitedNode (netif.addrList slot).ipaddr) with
      ⟨found, isFound, used, same⟩ | ⟨free, isFree, _, absent⟩ |
        ⟨isFull, _, absent⟩
    · rw [isFound]
      dsimp only [maddrRm]
      by_cases isMaddr : maddr = found
      · rw [isMaddr, Function.update_self]
        exact ⟨rfl, fun isUsed => absurd isUsed Bool.false_ne_true,
          fun kept => absurd same.symm kept.2⟩
      · rw [Function.update_of_ne isMaddr]
        refine ⟨rfl, fun isUsed => ⟨isUsed, fun shared => isMaddr ?_⟩,
          fun kept => kept.1⟩
        exact distinct maddr found isUsed used (shared.symm.trans same.symm)
    · rw [isFree]
      exact ⟨rfl, fun isUsed => ⟨isUsed, (absent maddr isUsed).symm⟩,
        fun kept => kept.1⟩
    · rw [isFull]
      exact ⟨rfl, fun isUsed => ⟨isUsed, (absent maddr).symm⟩,
        fun kept => kept.1⟩
  have addrs : (netif.addrRm slot).addrList = Function.update netif.addrList
      slot { netif.addrList slot with isused := false } := by
    unfold addrRm maddrRm
    dsimp only
    split <;> rfl
  refine ⟨?_, ?_, fun maddr => (maddrs maddr).1, fun maddr => ?_⟩
  · intro other different
    rw [addrs]
    exact Function.update_of_ne (List.ne_of_not_mem_cons different) _ _
  · intro other isSlot
    rw [addrs, List.mem_singleton.mp isSlot, Function.update_self]
  · rw [(maddrs maddr).2, List.forall_mem_singleton]

theorem Removed.nil (netif : Ds6Netif config) : Removed [] netif netif where
  kept := fun _ _ => rfl
  removed := List.forall_mem_nil _
  ipaddr := fun _ => rfl
  isused := fun _ =>
    ⟨fun used => ⟨used, List.forall_mem_nil _⟩, fun kept => kept.1⟩

theorem Removed.cons {first second third : Ds6Netif config}
    {slot : Fin config.addrNb} {slots : List (Fin config.addrNb)}
    (absent : slot ∉ slots) (one : Removed [slot] first second)
    (others : Removed slots second third) :
    Removed (slot :: slots) first third where
  kept := by
    intro other different
    have notOthers : other ∉ slots := fun isOther =>
      different (List.mem_cons_of_mem slot isOther)
    have notSlot : other ∉ [slot] := fun isSlot =>
      different (List.mem_singleton.mp isSlot ▸ List.mem_cons_self)
    rw [others.kept other notOthers, one.kept other notSlot]
  removed := by
    intro other isRemoved
    rcases List.mem_cons.mp isRemoved with isSlot | isOther
    · rw [isSlot, others.kept slot absent]
      exact one.removed slot (List.mem_singleton_self slot)
    · exact others.removed other isOther
  ipaddr := fun maddr => (others.ipaddr maddr).trans (one.ipaddr maddr)
  isused := by
    intro maddr
    rw [others.isused, one.isused, one.ipaddr, List.forall_mem_singleton,
      List.forall_mem_cons, and_assoc]
    have same : ∀ other ∈ slots,
        second.addrList other = first.addrList other := by
      intro other isOther
      apply one.kept
      intro isSlot
      exact absent (List.mem_singleton.mp isSlot ▸ isOther)
    constructor
    · rintro ⟨used, notSlot, notOthers⟩
      refine ⟨used, notSlot, fun other isOther => ?_⟩
      rw [← same other isOther]
      exact notOthers other isOther
    · rintro ⟨used, notSlot, notOthers⟩
      refine ⟨used, notSlot, fun other isOther => ?_⟩
      rw [same other isOther]
      exact notOthers other isOther

theorem Removed.distinct {slots : List (Fin config.addrNb)}
    {before after : Ds6Netif config} (removed : Removed slots before after)
    (distinct : Distinct before) : Distinct after := by
  intro first second firstUsed secondUsed same
  rw [removed.ipaddr, removed.ipaddr] at same
  exact distinct first second ((removed.isused first).mp firstUsed).1
    ((removed.isused second).mp secondUsed).1 same

theorem periodicFrom_removed
    (distinct : Distinct netif) (expired : Fin config.addrNb → Bool)
    {slots : List (Fin config.addrNb)} (nodup : slots.Nodup) :
    Removed (slots.filter (netif.expires expired)) netif
      (periodicFrom expired netif slots) := by
  induction slots generalizing netif with
  | nil => exact Removed.nil netif
  | cons slot rest inductionHypothesis =>
      rcases List.nodup_cons.mp nodup with ⟨absent, others⟩
      unfold periodicFrom
      by_cases isExpired : netif.expires expired slot = true
      · rw [if_pos isExpired, List.filter_cons_of_pos isExpired]
        have one := addrRm_removed distinct slot
        have later := inductionHypothesis (one.distinct distinct) others
        have same : rest.filter ((netif.addrRm slot).expires expired) =
            rest.filter (netif.expires expired) := by
          apply List.filter_congr
          intro other isOther
          have different : other ∉ [slot] := by
            intro isSlot
            exact absent (List.mem_singleton.mp isSlot ▸ isOther)
          unfold expires
          rw [one.kept other different]
        rw [same] at later
        exact one.cons
          (fun isOther => absent (List.mem_of_mem_filter isOther)) later
      · rw [if_neg isExpired, List.filter_cons_of_neg isExpired]
        exact inductionHypothesis distinct others

/-- No address that stays has the solicited-node address of one of these. -/
def Unshared (netif : Ds6Netif config) (slots : List (Fin config.addrNb)) :
    Prop :=
  ∀ slot ∈ slots, ∀ other ∉ slots, (netif.addrList other).isused = true →
    solicitedNode (netif.addrList other).ipaddr ≠
      solicitedNode (netif.addrList slot).ipaddr

/-- A removal keeps the membership exactly when no address that stays has the
solicited-node address of one that goes. -/
theorem Member.removed_iff {before after : Ds6Netif config}
    (member : Member before) {slots : List (Fin config.addrNb)}
    (removed : Removed slots before after) :
    Membership after ↔ Unshared before slots := by
  constructor
  · intro membership slot isSlot other stays used shared
    rw [← removed.kept other stays] at used shared
    rcases membership.listens other used with ⟨maddr, isUsed, same⟩
    have notSlot := ((removed.isused maddr).mp isUsed).2 slot isSlot
    rw [removed.ipaddr] at same
    exact notSlot (shared.symm.trans same.symm)
  · intro unshared
    constructor
    · intro slot used
      have stays : slot ∉ slots := by
        intro isSlot
        rw [removed.removed slot isSlot] at used
        exact Bool.false_ne_true used
      rw [removed.kept slot stays] at used ⊢
      rcases member.listens slot used with ⟨maddr, isUsed, same⟩
      refine ⟨maddr, (removed.isused maddr).mpr ⟨isUsed, ?_⟩, ?_⟩
      · intro other isOther shared
        exact unshared other isOther slot stays used
          (same.symm.trans shared.symm)
      · rw [removed.ipaddr]
        exact same
    · intro maddr used isSolicited
      rw [removed.ipaddr] at isSolicited ⊢
      rcases (removed.isused maddr).mp used with ⟨wasUsed, notSlots⟩
      rcases member.owned maddr wasUsed isSolicited with
        ⟨slot, isUsed, same⟩
      have stays : slot ∉ slots := fun isSlot => notSlots slot isSlot same
      refine ⟨slot, ?_⟩
      rw [removed.kept slot stays]
      exact ⟨isUsed, same⟩

theorem Member.removed {before after : Ds6Netif config}
    (member : Member before) {slots : List (Fin config.addrNb)}
    (removed : Removed slots before after)
    (membership : Membership after) : Member after where
  toMembership := membership
  distinct := removed.distinct member.distinct
  few := by
    have subset : after.others ⊆ before.others := by
      intro maddr isOther
      rcases (Finset.mem_filter.mp isOther).2 with ⟨used, notSolicited⟩
      rw [removed.ipaddr] at notSolicited
      exact Finset.mem_filter.mpr ⟨Finset.mem_univ maddr,
        ((removed.isused maddr).mp used).1, notSolicited⟩
    exact (Finset.card_le_card subset).trans member.few

/-! ## Initialisation -/

theorem Membership.maddrAdd (membership : Membership netif) {ipaddr : IpAddr}
    (notSolicited : ¬ IsSolicited ipaddr) :
    Membership (netif.maddrAdd ipaddr) where
  listens := by
    intro slot used
    rw [maddrAdd_addrList] at used ⊢
    rcases membership.listens slot used with ⟨maddr, isUsed, same⟩
    refine ⟨maddr, ?_⟩
    rw [maddrAdd_keeps ipaddr isUsed]
    exact ⟨isUsed, same⟩
  owned := by
    intro maddr used isSolicited
    rw [maddrAdd_addrList]
    rcases maddrAdd_used ipaddr used with wasUsed | ⟨same, _⟩
    · rw [maddrAdd_keeps ipaddr wasUsed] at isSolicited ⊢
      exact membership.owned maddr wasUsed isSolicited
    · rw [same] at isSolicited
      exact absurd isSolicited notSolicited

/-- The lists before any address is added. -/
def empty (config : Ds6Config) : Ds6Netif config where
  addrList := fun _ =>
    { isused := false
      ipaddr := unspecifiedAddr
      type := 0
      isinfinite := false
      vlifetime := 0 }
  maddrList := fun _ => { isused := false, ipaddr := unspecifiedAddr }

theorem empty_others (config : Ds6Config) : (empty config).others = ∅ := by
  apply Finset.filter_eq_empty_iff.mpr
  intro maddr _ isOther
  exact Bool.false_ne_true isOther.1

theorem empty_member (config : Ds6Config) : Member (empty config) where
  listens := fun _ used => absurd used Bool.false_ne_true
  owned := fun _ used => absurd used Bool.false_ne_true
  distinct := fun _ _ used => absurd used Bool.false_ne_true
  few := by
    rw [empty_others]
    exact Nat.zero_le _

theorem allnodesMcast_not_isSolicited : ¬ IsSolicited allnodesMcast := by
  decide

theorem allroutersMcast_not_isSolicited : ¬ IsSolicited allroutersMcast := by
  decide

theorem init_eq (config : Ds6Config) (linkLocal : IpAddr) :
    init config linkLocal =
      if config.router then
        (((empty config).addrAdd linkLocal 0 1).maddrAdd
          allnodesMcast).maddrAdd allroutersMcast
      else ((empty config).addrAdd linkLocal 0 1).maddrAdd allnodesMcast :=
  rfl

theorem empty_addrAdd_others (config : Ds6Config) (ipaddr : IpAddr)
    (vlifetime type : Nat) :
    ((empty config).addrAdd ipaddr vlifetime type).others = ∅ := by
  unfold addrAdd
  rcases addrLoop_cases (empty config) ipaddr with ⟨slot, isFound⟩ |
    ⟨slot, isFree, _⟩ | isFull
  · rw [isFound]
    exact empty_others config
  · rw [isFree]
    apply Finset.subset_empty.mp
    rw [← empty_others config]
    exact others_maddrAdd_solicited _ (solicitedNode_isSolicited ipaddr)
  · rw [isFull]
    exact empty_others config

theorem init_member (config : Ds6Config) (linkLocal : IpAddr) :
    Member (init config linkLocal) := by
  have first : Member ((empty config).addrAdd linkLocal 0 1) :=
    (empty_member config).addrAdd linkLocal 0 1
  have none := empty_addrAdd_others config linkLocal 0 1
  have nodes := others_maddrAdd ((empty config).addrAdd linkLocal 0 1)
    allnodesMcast
  have routers := others_maddrAdd (((empty config).addrAdd linkLocal 0
    1).maddrAdd allnodesMcast) allroutersMcast
  rw [none, Finset.card_empty] at nodes
  have second : Membership (((empty config).addrAdd linkLocal 0
      1).maddrAdd allnodesMcast) :=
    first.toMembership.maddrAdd allnodesMcast_not_isSolicited
  rw [init_eq]
  split
  · rename_i router
    refine {
      toMembership := second.maddrAdd allroutersMcast_not_isSolicited
      distinct := (Distinct.maddrAdd first.distinct _).maddrAdd _
      few := ?_ }
    have groups : config.groups = 2 := if_pos router
    omega
  · rename_i router
    refine {
      toMembership := second
      distinct := Distinct.maddrAdd first.distinct _
      few := ?_ }
    have groups : config.groups = 1 := if_neg router
    omega

/-! ## Runs -/

def freed (netif : Ds6Netif config) :
    Event config → List (Fin config.addrNb)
  | .addrAdd .. => []
  | .addrRm slot => [slot]
  | .periodic expired =>
      (List.finRange config.addrNb).filter (netif.expires expired)

/-- No address that stays has the solicited-node address of one that goes. -/
def Mild (netif : Ds6Netif config) (event : Event config) : Prop :=
  Unshared netif (netif.freed event)

theorem Member.step_iff (member : Member netif) (event : Event config) :
    Membership (netif.step event) ↔ Mild netif event := by
  cases event with
  | addrAdd ipaddr vlifetime type =>
      exact ⟨fun _ => List.forall_mem_nil _,
        fun _ => (member.addrAdd ipaddr vlifetime type).toMembership⟩
  | addrRm slot =>
      exact member.removed_iff (addrRm_removed member.distinct slot)
  | periodic expired =>
      exact member.removed_iff (periodicFrom_removed member.distinct expired
        (List.nodup_finRange _))

theorem Member.step (member : Member netif)
    (event : Event config) (membership : Membership (netif.step event)) :
    Member (netif.step event) := by
  cases event with
  | addrAdd ipaddr vlifetime type =>
      exact member.addrAdd ipaddr vlifetime type
  | addrRm slot =>
      exact member.removed (addrRm_removed member.distinct slot) membership
  | periodic expired =>
      exact member.removed (periodicFrom_removed member.distinct expired
        (List.nodup_finRange _)) membership

/-- The membership holds in every state of a run. -/
def MembershipRun (netif : Ds6Netif config) : List (Event config) → Prop
  | [] => Membership netif
  | event :: events =>
      Membership netif ∧ MembershipRun (netif.step event) events

/-- Every step of a run is mild. -/
def MildRun (netif : Ds6Netif config) : List (Event config) → Prop
  | [] => True
  | event :: events =>
      Mild netif event ∧ MildRun (netif.step event) events

theorem MembershipRun.first
    {events : List (Event config)} (run : MembershipRun netif events) :
    Membership netif := by
  cases events with
  | nil => exact run
  | cons event events => exact run.1

theorem Member.run_iff (member : Member netif)
    (events : List (Event config)) :
    MembershipRun netif events ↔ MildRun netif events := by
  induction events generalizing netif with
  | nil => exact ⟨fun _ => trivial, fun _ => member.toMembership⟩
  | cons event events inductionHypothesis =>
      constructor
      · intro run
        have later := member.step event run.2.first
        exact ⟨(member.step_iff event).mp run.2.first,
          (inductionHypothesis later).mp run.2⟩
      · intro mild
        have membership := (member.step_iff event).mpr mild.1
        exact ⟨member.toMembership,
          (inductionHypothesis (member.step event membership)).mpr mild.2⟩

/-- The solicited-node addresses are those of the unicast addresses over the
runs in which no address is removed while another one shares its
solicited-node address. -/
theorem ds6_membershipRun_iff (config : Ds6Config) (linkLocal : IpAddr)
    (events : List (Event config)) :
    MembershipRun (init config linkLocal) events ↔
      MildRun (init config linkLocal) events :=
  (init_member config linkLocal).run_iff events

/-- Room for a link-local address and one other. -/
def twoAddrs : Ds6Config where
  router := false
  addrNbu := 1
  maddrNbu := 0

def sharedLinkLocal : IpAddr :=
  #v[0xfe, 0x80, 0, 0, 0, 0, 0, 0, 2, 0, 0, 0, 0, 1, 2, 3]

def sharedGlobal : IpAddr :=
  #v[0xaa, 0xaa, 0, 0, 0, 0, 0, 0, 2, 0, 0, 0, 0, 1, 2, 3]

/-- An address with the interface identifier of the link-local address is
added for ten seconds, and expires. -/
def sharedRun : List (Event twoAddrs) :=
  [.addrAdd sharedGlobal 10 1, .periodic fun _ => true]

/-- When the address expires, the node stops listening to the solicited-node
address of its link-local address. -/
theorem sharedRun_not_membershipRun :
    ¬ ∀ (config : Ds6Config) (linkLocal : IpAddr)
        (events : List (Event config)),
      MembershipRun (init config linkLocal) events := by
  intro always
  have run := always twoAddrs sharedLinkLocal sharedRun
  have mild := ((init_member twoAddrs sharedLinkLocal).run_iff
    sharedRun).mp run
  have notUnshared : ¬ Unshared ((init twoAddrs sharedLinkLocal).addrAdd
      sharedGlobal 10 1) (freed ((init twoAddrs sharedLinkLocal).addrAdd
      sharedGlobal 10 1) (.periodic fun _ => true)) := by
    unfold Unshared
    decide +kernel
  exact notUnshared mild.2.1

end Ds6Netif

end Contiki.Net
