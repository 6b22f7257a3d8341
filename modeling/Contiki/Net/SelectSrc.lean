import Contiki.Lib.CommonPrefix
import Contiki.Net.Ds6

/-!
# Source addresses

`uip_ds6_select_src` takes the address of the node that has the longest prefix
in common with the destination.
-/

namespace Contiki.Net

open Contiki.Lib.CommonPrefix

/-- `ADDR_PREFERRED` -/
def addrPreferred : UInt8 := 1

/-- What the selection reads of `uip_ds6_addr_t`. -/
structure SrcAddr where
  isused : Bool
  state : UInt8
  ipaddr : IpAddr
  deriving DecidableEq

theorem first_lt_address : 0 < 16 := by decide

theorem second_lt_address : 1 < 16 := by decide

/-- `uip_is_addr_link_local` -/
def isAddrLinkLocal (addr : IpAddr) : Bool :=
  addr.get ⟨0, first_lt_address⟩ = 0xfe ∧
    addr.get ⟨1, second_lt_address⟩ = 0x80

/-- `uip_is_addr_mcast` -/
def isAddrMcast (addr : IpAddr) : Bool :=
  addr.get ⟨0, first_lt_address⟩ = 0xff

/-- `uip_is_addr_mcast_routable` -/
def isAddrMcastRoutable (addr : IpAddr) : Bool :=
  addr.get ⟨0, first_lt_address⟩ = 0xff ∧
    0x02 < addr.get ⟨1, second_lt_address⟩ &&& 0x0f

/-! ## The length of a match -/

/-- The loop of `get_match_length` over the bits of a byte, with `k` bits to
come. -/
def matchBits : Nat → UInt8 → UInt8 → UInt8
  | 0, _, len => len
  | k + 1, xOr, len =>
      if xOr &&& 0x80 = 0 then matchBits k (xOr <<< 1) (len + 1) else len

/-- The loop of `get_match_length` over the bytes. -/
def matchBytes : List (UInt8 × UInt8) → UInt8 → UInt8
  | [], len => len
  | (src, dst) :: rest, len =>
      if src = dst then matchBytes rest (len + 8)
      else matchBits 8 (src ^^^ dst) len

/-- `get_match_length` -/
def getMatchLength (src dst : IpAddr) : UInt8 :=
  matchBytes (src.toList.zip dst.toList) 0

/-- The bits of a byte, the most significant one first. -/
def byteBits (byte : UInt8) : List Bool :=
  (List.range 8).map fun bit => byte.toBitVec.getMsbD bit

def addrBits (addr : IpAddr) : List Bool :=
  addr.toList.flatMap byteBits

def commonPrefix (first second : IpAddr) : Nat :=
  commonLength (addrBits first) (addrBits second)

theorem length_byteBits (byte : UInt8) : (byteBits byte).length = 8 := by
  unfold byteBits
  rw [List.length_map, List.length_range]

variable (first second : UInt8)

theorem byteBits_xor :
    byteBits (first ^^^ second) =
      List.zipWith xor (byteBits first) (byteBits second) := by
  unfold byteBits
  rw [List.zipWith_map, List.zipWith_self]
  apply List.map_congr_left
  intro bit _
  rw [UInt8.toBitVec_xor, BitVec.getMsbD_xor]

theorem matchBits_add (k : Nat) (xOr len : UInt8) :
    matchBits k xOr len = len + matchBits k xOr 0 := by
  induction k generalizing xOr len with
  | zero =>
      exact (UInt8.add_zero len).symm
  | succ k inductionHypothesis =>
      unfold matchBits
      by_cases clear : xOr &&& 0x80 = 0
      · rw [if_pos clear, if_pos clear, inductionHypothesis,
          inductionHypothesis _ (0 + 1), UInt8.zero_add, UInt8.add_assoc]
      · rw [if_neg clear, if_neg clear, UInt8.add_zero]

theorem matchBits_zeros : ∀ byte : Fin 256,
    (matchBits 8 (UInt8.ofNat byte.val) 0).toNat =
      ((byteBits (UInt8.ofNat byte.val)).takeWhile (!·)).length := by
  decide +kernel

theorem toNat_matchBits :
    (matchBits 8 (first ^^^ second) 0).toNat =
      commonLength (byteBits first) (byteBits second) := by
  have zeros := matchBits_zeros ⟨(first ^^^ second).toNat,
    (first ^^^ second).toNat_lt⟩
  rw [UInt8.ofNat_toNat] at zeros
  rw [zeros, commonLength_bits, byteBits_xor]

theorem byteBits_injective {first second : UInt8}
    (different : first ≠ second) : byteBits first ≠ byteBits second := by
  intro same
  apply different
  apply UInt8.toBitVec_inj.mp
  apply BitVec.eq_of_getMsbD_eq
  intro bit inside
  have bits := congrArg (fun bits : List Bool => bits[bit]?) same
  simpa [byteBits, inside] using bits

theorem commonLength_le :
    commonLength (byteBits first) (byteBits second) ≤ 8 := by
  rw [commonLength_bits, ← byteBits_xor]
  exact (List.takeWhile_sublist _).length_le.trans
    (Nat.le_of_eq (length_byteBits _))

theorem toNat_matchBytes (pairs : List (UInt8 × UInt8)) (len : UInt8)
    (room : len.toNat + 8 * pairs.length < 256) :
    (matchBytes pairs len).toNat = len.toNat +
      commonLength (pairs.flatMap fun pair => byteBits pair.1)
        (pairs.flatMap fun pair => byteBits pair.2) := by
  induction pairs generalizing len with
  | nil =>
      rfl
  | cons pair rest inductionHypothesis =>
      obtain ⟨src, dst⟩ := pair
      rw [List.length_cons] at room
      rw [List.flatMap_cons, List.flatMap_cons]
      unfold matchBytes
      by_cases same : src = dst
      · have longer : (len + 8).toNat = len.toNat + 8 := by
          rw [UInt8.toNat_add]
          exact Nat.mod_eq_of_lt (by
            change len.toNat + 8 < 256
            omega)
        rw [if_pos same, same, commonLength_append_left, length_byteBits,
          inductionHypothesis _ (by omega), longer, Nat.add_assoc]
      · rw [if_neg same, commonLength_append_of_ne
            ((length_byteBits src).trans (length_byteBits dst).symm)
            (byteBits_injective same),
          matchBits_add, UInt8.toNat_add, toNat_matchBits]
        have small := commonLength_le src dst
        exact Nat.mod_eq_of_lt (by
          change _ < 256
          omega)

theorem getMatchLength_eq (src dst : IpAddr) :
    (getMatchLength src dst).toNat = commonPrefix src dst := by
  have counted := toNat_matchBytes (src.toList.zip dst.toList) 0
    (by simp)
  have sources : (src.toList.zip dst.toList).flatMap
      (fun pair => byteBits pair.1) = src.toList.flatMap byteBits := by
    rw [← List.flatMap_map Prod.fst byteBits, List.map_fst_zip (by simp)]
  have destinations : (src.toList.zip dst.toList).flatMap
      (fun pair => byteBits pair.2) = dst.toList.flatMap byteBits := by
    rw [← List.flatMap_map Prod.snd byteBits, List.map_snd_zip (by simp)]
  unfold getMatchLength commonPrefix addrBits
  rw [counted, sources, destinations]
  exact Nat.zero_add _

/-! ## The selection -/

/-- A preferred address that is not link-local. -/
def SrcAddr.isCandidate (addr : SrcAddr) : Bool :=
  addr.isused ∧ addr.state = addrPreferred ∧ ¬ isAddrLinkLocal addr.ipaddr

/-- The loop of `uip_ds6_select_src` over the addresses. -/
def longestMatch (dst : IpAddr) :
    List SrcAddr → UInt8 → Option SrcAddr → Option SrcAddr
  | [], _, matchaddr => matchaddr
  | locaddr :: rest, best, matchaddr =>
      if locaddr.isCandidate then
        let n := getMatchLength dst locaddr.ipaddr
        if best ≤ n then longestMatch dst rest n (some locaddr)
        else longestMatch dst rest best matchaddr
      else longestMatch dst rest best matchaddr

/-- `uip_ds6_get_global(ADDR_PREFERRED)` -/
def getGlobal (addrList : List SrcAddr) : Option SrcAddr :=
  addrList.find? SrcAddr.isCandidate

/-- `uip_ds6_get_link_local(ADDR_PREFERRED)` -/
def getLinkLocal (addrList : List SrcAddr) : Option SrcAddr :=
  addrList.find? fun locaddr =>
    locaddr.isused ∧ locaddr.state = addrPreferred ∧
      isAddrLinkLocal locaddr.ipaddr

/-- `matchaddr` of `uip_ds6_select_src`; `multicast` is
`UIP_IPV6_MULTICAST`. -/
def matchAddr (multicast : Bool) (addrList : List SrcAddr)
    (dst : IpAddr) : Option SrcAddr :=
  if ¬ isAddrLinkLocal dst ∧ ¬ isAddrMcast dst then
    longestMatch dst addrList 0 none
  else if multicast ∧ isAddrMcastRoutable dst then getGlobal addrList
  else getLinkLocal addrList

/-- `uip_ds6_select_src` -/
def selectSrc (multicast : Bool) (addrList : List SrcAddr)
    (dst : IpAddr) : IpAddr :=
  match matchAddr multicast addrList dst with
  | none => unspecifiedAddr
  | some matchaddr => matchaddr.ipaddr

/-! ## The best match -/

/-- What the loop finds: the match so far or a candidate, and nothing that
comes after has a longer match. -/
structure Best (dst : IpAddr) (addrList : List SrcAddr)
    (matchaddr : Option SrcAddr) (found : SrcAddr) : Prop where
  source : matchaddr = some found ∨
    found ∈ addrList ∧ found.isCandidate = true
  longest : ∀ other ∈ addrList, other.isCandidate = true →
    getMatchLength dst other.ipaddr ≤ getMatchLength dst found.ipaddr
  before : ∀ earlier, matchaddr = some earlier →
    getMatchLength dst earlier.ipaddr ≤ getMatchLength dst found.ipaddr

theorem Best.skip {dst : IpAddr} {locaddr : SrcAddr}
    {rest : List SrcAddr} {matchaddr : Option SrcAddr} {found : SrcAddr}
    (best : Best dst rest matchaddr found)
    (shorter : locaddr.isCandidate = true →
      getMatchLength dst locaddr.ipaddr ≤ getMatchLength dst found.ipaddr) :
    Best dst (locaddr :: rest) matchaddr found where
  source := best.source.imp_right fun later =>
    ⟨List.mem_cons_of_mem locaddr later.1, later.2⟩
  longest := fun other member candidate => by
    rcases List.mem_cons.mp member with rfl | later
    · exact shorter candidate
    · exact best.longest other later candidate
  before := best.before

theorem longestMatch_spec (dst : IpAddr) (addrList : List SrcAddr)
    (best : UInt8) (matchaddr : Option SrcAddr)
    (isBest : ∀ earlier, matchaddr = some earlier →
      best = getMatchLength dst earlier.ipaddr)
    (first : matchaddr = none → best = 0) :
    match longestMatch dst addrList best matchaddr with
    | none => matchaddr = none ∧
        ∀ locaddr ∈ addrList, locaddr.isCandidate = false
    | some found => Best dst addrList matchaddr found := by
  induction addrList generalizing best matchaddr with
  | nil =>
      unfold longestMatch
      cases matchaddr with
      | none =>
          exact ⟨rfl, fun _ member => absurd member List.not_mem_nil⟩
      | some earlier =>
          refine ⟨Or.inl rfl, fun _ member => absurd member List.not_mem_nil,
            fun other same => ?_⟩
          rw [Option.some.inj same]
          exact UInt8.le_refl _
  | cons locaddr rest inductionHypothesis =>
      unfold longestMatch
      by_cases candidate : locaddr.isCandidate = true
      · rw [if_pos candidate]
        dsimp only
        by_cases better : best ≤ getMatchLength dst locaddr.ipaddr
        · rw [if_pos better]
          have later := inductionHypothesis
            (getMatchLength dst locaddr.ipaddr) (some locaddr)
            (fun earlier same => by rw [Option.some.inj same])
            (fun isNone => nomatch isNone)
          cases found : longestMatch dst rest
              (getMatchLength dst locaddr.ipaddr) (some locaddr) with
          | none =>
              rw [found] at later
              exact nomatch later.1
          | some found' =>
              rw [found] at later
              have atLeast := later.before locaddr rfl
              refine ⟨Or.inr ?_, fun other member isCandidate => ?_,
                fun earlier same => ?_⟩
              · rcases later.source with same | inside
                · rw [← Option.some.inj same]
                  exact ⟨List.mem_cons_self, candidate⟩
                · exact ⟨List.mem_cons_of_mem locaddr inside.1, inside.2⟩
              · rcases List.mem_cons.mp member with rfl | inside
                · exact atLeast
                · exact later.longest other inside isCandidate
              · rw [← isBest earlier same]
                exact UInt8.le_trans better atLeast
        · rw [if_neg better]
          have later := inductionHypothesis best matchaddr isBest first
          cases found : longestMatch dst rest best matchaddr with
          | none =>
              rw [found] at later
              rw [first later.1] at better
              exact absurd UInt8.zero_le better
          | some found' =>
              rw [found] at later
              refine later.skip fun _ => ?_
              have shorter := UInt8.le_of_lt (UInt8.not_le.mp better)
              cases matchaddr with
              | none =>
                  rw [first rfl] at better
                  exact absurd UInt8.zero_le better
              | some earlier =>
                  rw [isBest earlier rfl] at shorter
                  exact UInt8.le_trans shorter (later.before earlier rfl)
      · rw [if_neg candidate]
        have later := inductionHypothesis best matchaddr isBest first
        cases found : longestMatch dst rest best matchaddr with
        | none =>
            rw [found] at later
            refine ⟨later.1, fun other member => ?_⟩
            rcases List.mem_cons.mp member with rfl | inside
            · exact Bool.eq_false_iff.mpr candidate
            · exact later.2 other inside
        | some found' =>
            rw [found] at later
            exact later.skip fun isCandidate => absurd isCandidate candidate

/-- The source is a candidate with a longest prefix in common with the
destination, if there is a candidate. -/
def SelectsLongest (addrList : List SrcAddr) (dst src : IpAddr) : Prop :=
  (∃ locaddr ∈ addrList, locaddr.isCandidate = true) →
    ∃ chosen ∈ addrList, chosen.isCandidate = true ∧ src = chosen.ipaddr ∧
      ∀ other ∈ addrList, other.isCandidate = true →
        commonPrefix dst other.ipaddr ≤ commonPrefix dst chosen.ipaddr

/-- The source is the unspecified address exactly when there is no
candidate. -/
def UnspecifiedForNone (addrList : List SrcAddr) (src : IpAddr) : Prop :=
  src = unspecifiedAddr ↔
    ∀ locaddr ∈ addrList, locaddr.isCandidate = false

/-- An address of a first byte and zeros. -/
def firstByteAddr (first : UInt8) : IpAddr :=
  #v[first, 0, 0, 0, 0, 0, 0, 0, 0, 0, 0, 0, 0, 0, 0, 0]

/-- For a node with a single preferred address, the unspecified one, the
source is unspecified although there is a candidate. -/
theorem unspecifiedCandidate_selected :
    ¬ UnspecifiedForNone [⟨true, addrPreferred, unspecifiedAddr⟩]
      (selectSrc false [⟨true, addrPreferred, unspecifiedAddr⟩]
        (firstByteAddr 0x20)) := by
  intro forNone
  have selected : selectSrc false
      [⟨true, addrPreferred, unspecifiedAddr⟩]
      (firstByteAddr 0x20) = unspecifiedAddr := by
    decide +kernel
  exact absurd (forNone.mp selected _ List.mem_cons_self) (by decide)

/-- The selection for a unicast destination that is not link-local. -/
theorem selectSrc_longest (multicast : Bool) (addrList : List SrcAddr)
    (dst : IpAddr) (global : isAddrLinkLocal dst = false)
    (unicast : isAddrMcast dst = false) :
    SelectsLongest addrList dst (selectSrc multicast addrList dst) ∧
      ((∀ locaddr ∈ addrList, locaddr.isCandidate = true →
          locaddr.ipaddr ≠ unspecifiedAddr) →
        UnspecifiedForNone addrList (selectSrc multicast addrList dst)) ∧
      ∀ first second : IpAddr,
        (getMatchLength first second).toNat = commonPrefix first second := by
  have searched : matchAddr multicast addrList dst =
      longestMatch dst addrList 0 none := by
    unfold matchAddr
    exact if_pos ⟨Bool.eq_false_iff.mp global, Bool.eq_false_iff.mp unicast⟩
  have spec := longestMatch_spec dst addrList 0 none
    (fun _ isSome => nomatch isSome) (fun _ => rfl)
  unfold SelectsLongest UnspecifiedForNone selectSrc
  rw [searched]
  refine ⟨?_, ?_, getMatchLength_eq⟩
  · rintro ⟨locaddr, member, candidate⟩
    cases found : longestMatch dst addrList 0 none with
    | none =>
        rw [found] at spec
        exact absurd candidate (Bool.eq_false_iff.mp (spec.2 locaddr member))
    | some chosen =>
        rw [found] at spec
        have inside := spec.source.resolve_left (fun isSome => nomatch isSome)
        refine ⟨chosen, inside.1, inside.2, rfl,
          fun other isMember isCandidate => ?_⟩
        rw [← getMatchLength_eq, ← getMatchLength_eq]
        exact spec.longest other isMember isCandidate
  · intro specified
    cases found : longestMatch dst addrList 0 none with
    | none =>
        rw [found] at spec
        exact iff_of_true rfl spec.2
    | some chosen =>
        rw [found] at spec
        have inside := spec.source.resolve_left (fun isSome => nomatch isSome)
        exact iff_of_false (specified chosen inside.1 inside.2)
          fun none => absurd inside.2
            (Bool.eq_false_iff.mp (none chosen inside.1))

/-- The longer one of two matches. -/
theorem selectSrc_longer :
    SelectsLongest
      [⟨true, addrPreferred, firstByteAddr 0x30⟩,
        ⟨true, addrPreferred, firstByteAddr 0x21⟩]
      (firstByteAddr 0x20)
      (selectSrc false
        [⟨true, addrPreferred, firstByteAddr 0x30⟩,
          ⟨true, addrPreferred, firstByteAddr 0x21⟩]
        (firstByteAddr 0x20)) :=
  (selectSrc_longest false _ _ (by decide) (by decide)).1

end Contiki.Net
