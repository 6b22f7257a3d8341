import Contiki.Net.RouteAdd

/-!
# The longest prefix that matches

`uip_ds6_route_lookup` compares whole bytes, so it may take a route whose
prefix differs from the address in the bits after the last whole byte.
-/

namespace Contiki.Net

/-! ## Bits of addresses -/

/-- A bit of an address, the first one on the wire being 0. -/
def ipaddrBit (addr : IpAddr) (index : Nat) : Bool :=
  (addr.toList.getD (index / 8) 0).toNat.testBit (7 - index % 8)

/-- Two addresses have the same first `length` bits. -/
def PrefixMatches (addr ipaddr : IpAddr) (length : Nat) : Prop :=
  ∀ index < length, ipaddrBit addr index = ipaddrBit ipaddr index

instance (addr ipaddr : IpAddr) (length : Nat) :
    Decidable (PrefixMatches addr ipaddr length) :=
  Nat.decidableBallLT length fun index _ =>
    ipaddrBit addr index = ipaddrBit ipaddr index

theorem byte_eq_of_bits {first second : UInt8}
    (same : ∀ bit < 8,
      first.toNat.testBit (7 - bit) = second.toNat.testBit (7 - bit)) :
    first = second := by
  apply UInt8.toNat_inj.mp
  apply Nat.eq_of_testBit_eq
  intro bit
  by_cases isLow : bit < 8
  · have isBit := same (7 - bit) (by omega)
    rwa [show 7 - (7 - bit) = bit by omega] at isBit
  · have isHigh : 2 ^ 8 ≤ 2 ^ bit :=
      Nat.pow_le_pow_right (by decide) (Nat.le_of_not_lt isLow)
    rw [Nat.testBit_lt_two_pow (Nat.lt_of_lt_of_le first.toNat_lt isHigh),
      Nat.testBit_lt_two_pow (Nat.lt_of_lt_of_le second.toNat_lt isHigh)]

theorem prefixcmp_iff (addr ipaddr : IpAddr) (length : UInt8) :
    RouteTables.uipIpaddrPrefixcmp addr ipaddr length = true ↔
      ∀ index < length.toNat / 8,
        addr.toList.getD index 0 = ipaddr.toList.getD index 0 := by
  have addrLength : addr.toList.length = 16 := Vector.length_toList
  have ipaddrLength : ipaddr.toList.length = 16 := Vector.length_toList
  unfold RouteTables.uipIpaddrPrefixcmp
  rw [decide_eq_true_iff]
  constructor
  · intro same index isLess
    have isByte := congrArg (fun list => list.getD index 0) same
    simpa [List.getD_eq_getElem?_getD, List.getElem?_take, isLess] using isByte
  · intro same
    apply List.ext_getElem?
    intro index
    rw [List.getElem?_take, List.getElem?_take]
    by_cases isLess : index < length.toNat / 8
    · rw [if_pos isLess, if_pos isLess]
      have isByte := same index isLess
      by_cases inAddr : index < 16
      · rw [List.getElem?_eq_getElem (by omega),
          List.getElem?_eq_getElem (by omega)]
        rw [List.getD_eq_getElem?_getD, List.getD_eq_getElem?_getD,
          List.getElem?_eq_getElem (by omega),
          List.getElem?_eq_getElem (by omega)] at isByte
        exact congrArg some isByte
      · rw [List.getElem?_eq_none (by omega), List.getElem?_eq_none (by omega)]
    · rw [if_neg isLess, if_neg isLess]

theorem PrefixMatches.prefixcmp {addr ipaddr : IpAddr} {length : UInt8}
    (isMatch : PrefixMatches addr ipaddr length.toNat) :
    RouteTables.uipIpaddrPrefixcmp addr ipaddr length = true := by
  rw [prefixcmp_iff]
  intro index isLess
  apply byte_eq_of_bits
  intro bit isBit
  have isSame := isMatch (index * 8 + bit) (by omega)
  unfold ipaddrBit at isSame
  rwa [show (index * 8 + bit) / 8 = index by omega,
    show (index * 8 + bit) % 8 = bit by omega] at isSame

theorem prefixMatches_of_prefixcmp {addr ipaddr : IpAddr} {length : UInt8}
    (whole : length.toNat % 8 = 0)
    (isSame : RouteTables.uipIpaddrPrefixcmp addr ipaddr length = true) :
    PrefixMatches addr ipaddr length.toNat := by
  rw [prefixcmp_iff] at isSame
  intro index isLess
  unfold ipaddrBit
  rw [isSame (index / 8) (by omega)]

namespace RouteTables

variable {maxNeighbors routeNb : Nat} {Lladdr : Type}

/-! ## The loop -/

section Loop

variable (routes : Routes maxNeighbors routeNb) (addr : IpAddr)

/-- The whole bytes of a route's prefix match. -/
def BytesMatch (r : Fin routeNb) : Prop :=
  uipIpaddrPrefixcmp addr (routes.ipaddr r) (routes.length r) = true

def Matches (r : Fin routeNb) : Prop :=
  PrefixMatches addr (routes.ipaddr r) (routes.length r).toNat

/-- A route whose bytes match, so that none of those whose bytes match is
longer, nor as long and later. -/
structure LastLongest (before : List (Fin routeNb)) (r : Fin routeNb)
    (after : List (Fin routeNb)) : Prop where
  bytes : BytesMatch routes addr r
  before : ∀ other ∈ before, BytesMatch routes addr other →
    (routes.length other).toNat ≤ (routes.length r).toNat
  after : ∀ other ∈ after, BytesMatch routes addr other →
    (routes.length other).toNat < (routes.length r).toNat

variable {routes addr} in
theorem LastLongest.cons {first later : Fin routeNb}
    {before after : List (Fin routeNb)}
    (longest : LastLongest routes addr before later after)
    (notLonger : BytesMatch routes addr first →
      (routes.length first).toNat ≤ (routes.length later).toNat) :
    LastLongest routes addr (first :: before) later after := by
  refine ⟨longest.bytes, fun other isIn => ?_, longest.after⟩
  rcases List.mem_cons.mp isIn with rfl | isLater
  · exact notLonger
  · exact longest.before other isLater

/-- What the loop finds: the last of the longest routes whose bytes match, or
the first one of 128 bits. -/
inductive Finds (longestmatch : UInt8) (foundRoute : Option (Fin routeNb))
    (list : List (Fin routeNb)) : Option (Fin routeNb) → Prop where
  | same
      (shorter : ∀ other ∈ list, BytesMatch routes addr other →
        (routes.length other).toNat < longestmatch.toNat) :
      Finds longestmatch foundRoute list foundRoute
  | total {r : Fin routeNb} (isIn : r ∈ list)
      (bytes : BytesMatch routes addr r) (isTotal : routes.length r = 128) :
      Finds longestmatch foundRoute list (some r)
  | last {before after : List (Fin routeNb)} {r : Fin routeNb}
      (isList : list = before ++ r :: after)
      (longest : LastLongest routes addr before r after)
      (longer : longestmatch.toNat ≤ (routes.length r).toNat) :
      Finds longestmatch foundRoute list (some r)

theorem longestMatch_finds (list : List (Fin routeNb)) :
    ∀ (longestmatch : UInt8) (foundRoute : Option (Fin routeNb)),
      Finds routes addr longestmatch foundRoute list
        (longestMatch routes addr list longestmatch foundRoute) := by
  induction list with
  | nil =>
      intro longestmatch foundRoute
      exact .same fun _ isIn => absurd isIn List.not_mem_nil
  | cons r rest inductionHypothesis =>
      intro longestmatch foundRoute
      rw [longestMatch]
      split
      · next taken =>
          have longer : longestmatch.toNat ≤ (routes.length r).toNat :=
            UInt8.le_iff_toNat_le.mp taken.1
          split
          · next isTotal =>
              exact .total List.mem_cons_self taken.2 isTotal
          · have finds := inductionHypothesis (routes.length r) (some r)
            generalize longestMatch routes addr rest (routes.length r)
              (some r) = result at finds ⊢
            cases finds with
            | same shorter =>
                have longest : LastLongest routes addr [] r rest :=
                  ⟨taken.2, fun _ isIn => absurd isIn List.not_mem_nil,
                    shorter⟩
                exact .last (List.nil_append _).symm longest longer
            | total isIn bytes isTotal =>
                exact .total (List.mem_cons_of_mem _ isIn) bytes isTotal
            | @last before after later isList longest notShorter =>
                exact .last (congrArg (r :: ·) isList)
                  (longest.cons fun _ => notShorter)
                  (longer.trans notShorter)
      · next notTaken =>
          have isShorter (bytes : BytesMatch routes addr r) :
              (routes.length r).toNat < longestmatch.toNat := by
            by_contra notShorter
            exact notTaken
              ⟨UInt8.le_iff_toNat_le.mpr (Nat.le_of_not_lt notShorter), bytes⟩
          have finds := inductionHypothesis longestmatch foundRoute
          generalize longestMatch routes addr rest longestmatch
            foundRoute = result at finds ⊢
          cases finds with
          | same shorter =>
              apply Finds.same
              intro other isIn bytes
              rcases List.mem_cons.mp isIn with isFirst | isLater
              · rw [isFirst] at bytes ⊢
                exact isShorter bytes
              · exact shorter other isLater bytes
          | total isIn bytes isTotal =>
              exact .total (List.mem_cons_of_mem _ isIn) bytes isTotal
          | @last before after later isList longest notShorter =>
              exact .last (congrArg (r :: ·) isList)
                (longest.cons fun bytes =>
                  (Nat.le_of_lt (isShorter bytes)).trans notShorter)
                notShorter

end Loop

/-! ## The lookup -/

/-- The lookup finds a longest route among those whose prefix matches, and only
reorders the routes. -/
structure LongestPrefix (tables : RouteTables maxNeighbors routeNb Lladdr)
    (addr : IpAddr)
    (result : Option (Fin routeNb) × RouteTables maxNeighbors routeNb Lladdr) :
    Prop where
  none_iff : result.1 = none ↔
    ∀ r ∈ tables.client.routelist, ¬ Matches tables.client addr r
  longest : ∀ r, result.1 = some r → r ∈ tables.client.routelist ∧
    Matches tables.client addr r ∧
      ∀ other ∈ tables.client.routelist, Matches tables.client addr other →
        (tables.client.length other).toNat ≤ (tables.client.length r).toNat
  reorders : ∃ routelist, routelist.Perm tables.client.routelist ∧
    result.2 = tables.modify fun routes => { routes with routelist }

/-- The last of the longest routes whose whole bytes match does match. -/
def LastMatches (tables : RouteTables maxNeighbors routeNb Lladdr)
    (addr : IpAddr) : Prop :=
  ∀ before r after, tables.client.routelist = before ++ r :: after →
    LastLongest tables.client addr before r after →
      Matches tables.client addr r

variable {routes : Routes maxNeighbors routeNb} {addr : IpAddr}

theorem Finds.of_none
    {list : List (Fin routeNb)} (finds : Finds routes addr 0 none list none)
    {r : Fin routeNb} (isIn : r ∈ list) : ¬ BytesMatch routes addr r := by
  cases finds with
  | same shorter =>
      exact fun bytes => Nat.not_lt_zero _ (shorter r isIn bytes)

theorem Finds.of_some {list : List (Fin routeNb)} {r : Fin routeNb}
    (finds : Finds routes addr 0 none list (some r))
    (bounds : ∀ r ∈ list, (routes.length r).toNat ≤ 128) :
    r ∈ list ∧ BytesMatch routes addr r ∧
      ∀ other ∈ list, BytesMatch routes addr other →
        (routes.length other).toNat ≤ (routes.length r).toNat := by
  cases finds with
  | total isIn bytes isTotal =>
      refine ⟨isIn, bytes, fun other isOther _ => ?_⟩
      rw [isTotal]
      exact bounds other isOther
  | @last before after _ isList longest _ =>
      have isIn : r ∈ list := by
        rw [isList]
        exact List.mem_append_right _ List.mem_cons_self
      refine ⟨isIn, longest.bytes, fun other isOther bytes => ?_⟩
      rw [isList] at isOther
      rcases List.mem_append.mp isOther with isBefore | isLater
      · exact longest.before other isBefore bytes
      rcases List.mem_cons.mp isLater with isSame | isAfter
      · rw [isSame]
      · exact Nat.le_of_lt (longest.after other isAfter bytes)

theorem matches_of_total {r : Fin routeNb} (bytes : BytesMatch routes addr r)
    (isTotal : (routes.length r).toNat = 128) : Matches routes addr r := by
  apply prefixMatches_of_prefixcmp _ bytes
  rw [isTotal]

theorem same_or_after {α : Type} {before later : List α} {first second : α}
    {after rest : List α}
    (same : before ++ first :: after = later ++ second :: rest) :
    first = second ∨ second ∈ after ∨ first ∈ rest := by
  induction before generalizing later with
  | nil =>
      cases later with
      | nil => exact Or.inl (List.cons.inj same).1
      | cons other later =>
          have isRest := (List.cons.inj same).2
          refine Or.inr (Or.inl ?_)
          rw [isRest]
          exact List.mem_append_right _ List.mem_cons_self
  | cons other before inductionHypothesis =>
      cases later with
      | nil =>
          have isRest := (List.cons.inj same).2
          refine Or.inr (Or.inr ?_)
          rw [← isRest]
          exact List.mem_append_right _ List.mem_cons_self
      | cons _ later => exact inductionHypothesis (List.cons.inj same).2

theorem uipDs6RouteLookup_iff
    (tables : RouteTables maxNeighbors routeNb Lladdr) (addr : IpAddr)
    (bounds : ∀ r ∈ tables.client.routelist,
      (tables.client.length r).toNat ≤ 128) :
    LongestPrefix tables addr (tables.uipDs6RouteLookup addr) ↔
      tables.LastMatches addr := by
  have isSpec := uipDs6RouteLookup_spec tables addr
  have finds := longestMatch_finds tables.client addr
    tables.client.routelist 0 none
  rw [← isSpec.1] at finds
  constructor
  · intro isLongest before r after isList longest
    have isIn : r ∈ tables.client.routelist := by
      rw [isList]
      exact List.mem_append_right _ List.mem_cons_self
    cases isFound : (tables.uipDs6RouteLookup addr).1 with
    | none =>
        rw [isFound] at finds
        exact absurd longest.bytes (finds.of_none isIn)
    | some found =>
        have isMatch := (isLongest.longest found isFound).2.1
        rw [isFound] at finds
        have isBest := finds.of_some bounds
        have notLonger := isBest.2.2 r isIn longest.bytes
        cases finds with
        | total _ bytes isTotal =>
            -- all routes of 128 bits whose bytes match have the same prefix
            by_cases isShort : (tables.client.length r).toNat = 128
            · exact matches_of_total longest.bytes isShort
            · have inList := isBest.1
              rw [isList] at inList
              rw [isTotal] at notLonger
              have isLess : (tables.client.length r).toNat < 128 :=
                Nat.lt_of_le_of_ne notLonger isShort
              have isLength : (tables.client.length found).toNat = 128 :=
                congrArg UInt8.toNat isTotal
              rcases List.mem_append.mp inList with isBefore | isLater
              · have notShorter := longest.before found isBefore bytes
                omega
              rcases List.mem_cons.mp isLater with isSame | isAfter
              · rw [← isSame]
                exact isMatch
              · have notShorter := longest.after found isAfter bytes
                omega
        | last isSplit isLast _ =>
            rcases same_or_after (isList.symm.trans isSplit) with
              isSame | isAfter | isAfter
            · rw [isSame]
              exact isMatch
            · have isLess := longest.after found isAfter isBest.2.1
              omega
            · have isLess := isLast.after r isAfter longest.bytes
              have notShorter : (tables.client.length found).toNat ≤
                  (tables.client.length r).toNat := by
                have inList := isBest.1
                rw [isList] at inList
                rcases List.mem_append.mp inList with isBefore | isLater
                · exact longest.before found isBefore isBest.2.1
                rcases List.mem_cons.mp isLater with isSame | isAfter
                · rw [isSame]
                · exact Nat.le_of_lt
                    (longest.after found isAfter isBest.2.1)
              omega
  · intro lastMatches
    cases isFound : (tables.uipDs6RouteLookup addr).1 with
    | none =>
        rw [isFound] at finds
        refine ⟨⟨fun _ r isIn isMatch =>
            finds.of_none isIn isMatch.prefixcmp, fun _ => isFound⟩, ?_,
          isSpec.2⟩
        intro r isSome
        rw [isFound] at isSome
        exact nomatch isSome
    | some found =>
        rw [isFound] at finds
        have isBest := finds.of_some bounds
        have isMatch : Matches tables.client addr found := by
          cases finds with
          | total _ bytes isTotal =>
              exact matches_of_total bytes (congrArg UInt8.toNat isTotal)
          | last isList longest _ => exact lastMatches _ _ _ isList longest
        refine ⟨⟨fun isNone => ?_, fun noMatch => ?_⟩, ?_, isSpec.2⟩
        · rw [isFound] at isNone
          exact nomatch isNone
        · exact absurd isMatch (noMatch found isBest.1)
        · intro r isSome
          rw [isFound] at isSome
          cases isSome
          exact ⟨isBest.1, isMatch, fun other isIn isOther =>
            isBest.2.2 other isIn isOther.prefixcmp⟩

/-- A neighbour and a route of 4 bits to 80::. -/
def halfByteRoute : RouteTables 2 2 UInt8 :=
  (uipDs6RouteInit ((NbrTables.initial 0 initialRoutes).run
    (noSurroundings 2 2).tables [.register .ds6Neighbors true])).routeRun
      (noSurroundings 2 2)
      [.uipDs6NbrAdd (Vector.replicate 16 1) (some 1),
        .uipDs6RouteAdd (Vector.replicate 16 0x80) 4 (Vector.replicate 16 1)]

/-- It is found for an address that starts with another bit. -/
theorem halfByteRoute_not_longestPrefix :
    (∀ r ∈ halfByteRoute.client.routelist,
      (halfByteRoute.client.length r).toNat ≤ 128) ∧
    ¬ LongestPrefix halfByteRoute (Vector.replicate 16 0)
      (halfByteRoute.uipDs6RouteLookup (Vector.replicate 16 0)) := by
  refine ⟨by decide +kernel, fun isLongest => ?_⟩
  have isMatch := (isLongest.longest 0 (by decide +kernel)).2.1
  unfold Matches at isMatch
  exact absurd isMatch (by decide +kernel)

/-- The route of 64 bits is found for an address with its prefix. -/
theorem shorterRoute_longestPrefix :
    LongestPrefix shorterRoute (Vector.replicate 16 7)
      (shorterRoute.uipDs6RouteLookup (Vector.replicate 16 7)) :=
  (uipDs6RouteLookup_iff shorterRoute (Vector.replicate 16 7)
    (by decide +kernel)).mpr (by
      intro before r after isList longest
      apply prefixMatches_of_prefixcmp _ longest.bytes
      have isWhole : ∀ r ∈ shorterRoute.client.routelist,
          (shorterRoute.client.length r).toNat % 8 = 0 := by
        decide +kernel
      apply isWhole
      rw [isList]
      exact List.mem_append_right _ List.mem_cons_self)

end RouteTables

end Contiki.Net
