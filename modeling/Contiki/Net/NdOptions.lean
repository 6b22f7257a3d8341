import Mathlib.Data.FinEnum
import Mathlib.Data.Fintype.Option
import Mathlib.Data.Fintype.Prod
import Contiki.Lib.Bits
import Contiki.Lib.Walk

/-!
# The options of neighbour discovery

The loops over the options in `ns_input`, `na_input`, `rs_input` and
`ra_input` of `uip-nd6.c`, with the positions of `uip_buf` that they read.
The message starts with the IPv6 header.
-/

namespace Contiki.Net.NdOptions

open Contiki.Lib

/-- The functions for the received messages. -/
inductive NdInput where
  | nsInput
  | naInput
  | rsInput
  | raInput
deriving DecidableEq

/-- `UIP_ND6_NS_LEN`, `UIP_ND6_NA_LEN`, `UIP_ND6_RS_LEN` and
`UIP_ND6_RA_LEN` -/
def NdInput.len : NdInput → UInt8
  | nsInput => 20
  | naInput => 20
  | rsInput => 4
  | raInput => 12

/-- `UIP_ND6_OPT_SLLAO` -/
def uipNd6OptSllao : UInt8 := 1
/-- `UIP_ND6_OPT_TLLAO` -/
def uipNd6OptTllao : UInt8 := 2
/-- `UIP_ND6_OPT_PREFIX_INFO` -/
def uipNd6OptPrefixInfo : UInt8 := 3
/-- `UIP_ND6_OPT_MTU` -/
def uipNd6OptMtu : UInt8 := 5

/-- The link-layer address option that a function looks for. -/
def NdInput.optLlao : NdInput → UInt8
  | naInput => uipNd6OptTllao
  | _ => uipNd6OptSllao

/-- A received packet: `uip_buf`, `uip_ext_len` and `uip_len`. -/
structure NdMessage where
  buf : ByteMem
  extLen : UInt8
  uipLen : UInt16

/-- What the other modules know. -/
structure NdEnv where
  /-- `UIP_LLADDR_LEN` -/
  lladdrLen : Nat
  notEmpty : lladdrLen ≠ 0
  /-- `uip_ds6_addr_lookup` finds the target. -/
  isMyAddr : Bool
  /-- `uip_ds6_nbr_lookup` finds the target. -/
  isNbr : Bool

namespace NdMessage

variable (m : NdMessage)

/-- `uip_l3_icmp_hdr_len` -/
def hdrLen : Nat := 40 + m.extLen.toNat + 4

/-- The byte with this offset in the option at `off`. -/
def optByte (off : UInt8) (offset : Nat) : UInt8 :=
  m.buf (m.hdrLen + off.toNat + offset)

/-- `UIP_ND6_OPT_HDR_BUF->type` -/
def optType (off : UInt8) : UInt8 := m.optByte off 0

/-- `UIP_ND6_OPT_HDR_BUF->len` -/
def optLen (off : UInt8) : UInt8 := m.optByte off 1

/-- A number of four bytes of the option in network byte order. -/
def optLong (off : UInt8) (offset : Nat) : Nat :=
  (((m.optByte off offset).toNat * 256 +
    (m.optByte off (offset + 1)).toNat) * 256 +
      (m.optByte off (offset + 2)).toNat) * 256 +
        (m.optByte off (offset + 3)).toNat

/-- `uip_is_addr_unspecified` of the source. -/
def srcUnspecified : Bool :=
  (List.range' 8 16).all fun address => m.buf address = 0

/-- The hop limit, the code and the addresses are refused before the options
are looked at. -/
def refused : NdInput → Bool
  | .nsInput => m.buf 7 ≠ 255 ∨ m.buf (m.hdrLen + (4 : Nat)) = 0xFF ∨
      m.buf (m.hdrLen - (3 : Nat)) ≠ 0
  | .naInput => m.buf 7 ≠ 255 ∨ m.buf (m.hdrLen - (3 : Nat)) ≠ 0 ∨
      m.buf (m.hdrLen + (4 : Nat)) = 0xFF ∨
      m.buf m.hdrLen &&& 0x40 ≠ 0 ∧ m.buf 24 = 0xFF
  | .rsInput => m.buf 7 ≠ 255 ∨ m.buf (m.hdrLen - (3 : Nat)) ≠ 0
  | .raInput => m.buf 7 ≠ 255 ∨ ¬ (m.buf 8 = 0xFE ∧ m.buf 9 = 0x80) ∨
      m.buf (m.hdrLen - (3 : Nat)) ≠ 0

end NdMessage

/-- `nd6_opt_offset`, a `uint8_t`, and `nd6_opt_llao` as the offset of its
option. -/
structure OptState where
  off : UInt8
  llao : Option UInt8
deriving DecidableEq

/-- The end of a loop: `discard`, or behind it with `nd6_opt_llao`. -/
inductive LoopEnd where
  | discard
  | done (llao : Option UInt8)

def inLoop (m : NdMessage) (off : UInt8) : Prop :=
  m.hdrLen + off.toNat < m.uipLen.toNat

instance (m : NdMessage) (off : UInt8) : Decidable (inLoop m off) :=
  inferInstanceAs (Decidable (_ < _))

/-- The link-layer address is not taken: it must not stand in a message for
duplicate address detection. -/
def llaoForbidden (input : NdInput) (m : NdMessage) : Prop :=
  input = .nsInput ∧ m.srcUnspecified

instance (input : NdInput) (m : NdMessage) :
    Decidable (llaoForbidden input m) :=
  inferInstanceAs (Decidable (_ ∧ _))

/-- A round of the loop over the options. -/
def optStep (input : NdInput) (m : NdMessage) (state : OptState) :
    LoopEnd ⊕ OptState :=
  if inLoop m state.off then
    if m.optLen state.off = 0 then .inl .discard
    else
      let later := state.off + (m.optLen state.off <<< 3)
      if m.optType state.off = input.optLlao then
        if llaoForbidden input m then .inl .discard
        else .inr ⟨later, some state.off⟩
      else .inr ⟨later, state.llao⟩
  else .inl (.done state.llao)

def NdInput.start (input : NdInput) : OptState := ⟨input.len, none⟩

/-- The loop over the options in at most `fuel` rounds. -/
def optLoop (input : NdInput) (fuel : Nat) (m : NdMessage) :
    Option LoopEnd :=
  if m.refused input then some .discard
  else Walk.walk (optStep input m) fuel input.start

/-! ## Reads -/

/-- `uip_is_addr_link_local` of the prefix -/
def prefixLinkLocal (m : NdMessage) (off : UInt8) : Prop :=
  m.optByte off 16 = 0xFE ∧ m.optByte off 17 = 0x80

instance (m : NdMessage) (off : UInt8) : Decidable (prefixLinkLocal m off) :=
  inferInstanceAs (Decidable (_ ∧ _))

/-- The number of bytes of the prefix that are read when it is on the link,
and is looked up by a comparison of `preflen >> 3` bytes, or when it is copied
for an address that is made of it.  An address that is taken counts as read as
a whole. -/
def prefixBytes (m : NdMessage) (off : UInt8) : Nat :=
  if m.optByte off 3 &&& 0x80 ≠ 0 then
    max 16 ((m.optByte off 2).toNat >>> 3)
  else if m.optByte off 3 &&& 0x40 ≠ 0 ∧ m.optLong off 4 ≠ 0 ∧
      m.optByte off 2 = 64 then 16
  else 0

/-- What `ra_input` reads of a prefix information behind its header. -/
def prefixInfoReads (m : NdMessage) (off : UInt8) : List Nat :=
  List.range' 4 8 ++
    if m.optLong off 4 < m.optLong off 8 then []
    else
      [16] ++ (if m.optByte off 16 = 0xFE then [17] else []) ++
        if prefixLinkLocal m off then []
        else [3, 2] ++ List.range' 16 (prefixBytes m off)

/-- What a round reads of the option at `off`. -/
def optReads (env : NdEnv) (input : NdInput) (m : NdMessage) (off : UInt8) :
    List Nat :=
  if m.optLen off = 0 then [1]
  else
    [1, 0] ++
      if m.optType off = input.optLlao then
        if llaoForbidden input m then []
        else
          match input with
          | .nsInput => List.range' 2 env.lladdrLen
          | .raInput => List.range' 2 env.lladdrLen
          | .naInput => []
          | .rsInput => []
      else if input = .raInput ∧ m.optType off = uipNd6OptMtu then
        List.range' 4 4
      else if input = .raInput ∧ m.optType off = uipNd6OptPrefixInfo then
        prefixInfoReads m off
      else []

/-- The link-layer address of `nd6_opt_llao` is read behind the loop. -/
def usesLlao (env : NdEnv) (input : NdInput) (m : NdMessage) : Prop :=
  match input with
  | .naInput => env.isMyAddr = false ∧ env.isNbr = true
  | .rsInput => m.srcUnspecified = false
  | .nsInput => False
  | .raInput => False

def Reaches (input : NdInput) (m : NdMessage) (state : OptState) : Prop :=
  Relation.ReflTransGen (Walk.GoesOn (optStep input m)) input.start state

/-- A position of an option is inside of the message. -/
def NdMessage.Inside (m : NdMessage) (off : UInt8) (offset : Nat) : Prop :=
  m.hdrLen + off.toNat + offset < m.uipLen.toNat

/-- The loop ends, and the bytes of options that are read are inside of the
message. -/
def OptionsHandled (env : NdEnv) (input : NdInput) (m : NdMessage) : Prop :=
  (∃ fuel last, optLoop input fuel m = some last) ∧
    (m.refused input = false →
      (∀ state, Reaches input m state → inLoop m state.off →
        ∀ offset ∈ optReads env input m state.off,
          m.Inside state.off offset) ∧
      ∀ state, Reaches input m state → ¬ inLoop m state.off →
        usesLlao env input m → ∀ llao, state.llao = some llao →
          ∀ offset ∈ List.range' 2 env.lladdrLen, m.Inside llao offset)

/-! ## The condition -/

/-- The number of bytes of a prefix information that are used. -/
def prefixInfoBytes (m : NdMessage) (off : UInt8) : Nat :=
  if m.optLong off 4 < m.optLong off 8 then 12
  else if ¬ prefixLinkLocal m off ∧ prefixBytes m off ≠ 0 then
    16 + prefixBytes m off
  else if m.optByte off 16 = 0xFE then 18
  else 17

/-- The number of bytes of an option that are used. -/
def optBytes (env : NdEnv) (input : NdInput) (m : NdMessage) (off : UInt8) :
    Nat :=
  if m.optLen off = 0 then 2
  else if m.optType off = input.optLlao then
    if input = .naInput ∨ input = .rsInput ∨ llaoForbidden input m then 2
    else 2 + env.lladdrLen
  else if input = .raInput ∧ m.optType off = uipNd6OptMtu then 8
  else if input = .raInput ∧ m.optType off = uipNd6OptPrefixInfo then
    prefixInfoBytes m off
  else 2

/-- That many bytes of the option are in the message. -/
def NdMessage.Holds (m : NdMessage) (off : UInt8) (count : Nat) : Prop :=
  m.hdrLen + off.toNat + count ≤ m.uipLen.toNat

/-- The loop does not come back to a state, and the message has what is used
of each option that it comes to, and of the link-layer address option that is
used behind the loop. -/
def OptionsFit (env : NdEnv) (input : NdInput) (m : NdMessage) : Prop :=
  m.refused input = false →
    Walk.Acyclic (optStep input m) input.start ∧
    (∀ state, Reaches input m state → inLoop m state.off →
      m.Holds state.off (optBytes env input m state.off)) ∧
    ∀ state, Reaches input m state → ¬ inLoop m state.off →
      usesLlao env input m → ∀ llao, state.llao = some llao →
        m.Holds llao (2 + env.lladdrLen)

/-! ## Extents -/

/-- The reads go up to this number of bytes. -/
def Extends (reads : List Nat) (count : Nat) : Prop :=
  (∀ offset ∈ reads, offset < count) ∧ ∃ last ∈ reads, last + 1 = count

variable {env : NdEnv} {input : NdInput} {m : NdMessage} {off : UInt8}

theorem Extends.inside_iff {reads : List Nat} {count : Nat}
    (reaches : Extends reads count) :
    (∀ offset ∈ reads, m.Inside off offset) ↔ m.Holds off count := by
  obtain ⟨below, last, member, isLast⟩ := reaches
  unfold NdMessage.Inside NdMessage.Holds
  constructor
  · intro inside
    have atLast := inside last member
    omega
  · intro holds offset isRead
    have isBelow := below offset isRead
    omega

theorem extends_header : Extends [1, 0] 2 := by
  refine ⟨?_, 1, by simp⟩
  simp

theorem extends_part (start length : Nat) (behind : 2 ≤ start)
    (notEmpty : length ≠ 0) :
    Extends ([1, 0] ++ List.range' start length) (start + length) := by
  constructor
  · intro offset isRead
    simp only [List.mem_append, List.mem_cons, List.not_mem_nil, or_false,
      List.mem_range'_1] at isRead
    omega
  · refine ⟨start + length - 1, ?_, by omega⟩
    simp only [List.mem_append, List.mem_range'_1]
    omega

theorem le_prefixBytes :
    prefixBytes m off ≠ 0 → 16 ≤ prefixBytes m off := by
  unfold prefixBytes
  split
  · exact fun _ => Nat.le_max_left 16 _
  · split
    · exact fun _ => Nat.le_refl 16
    · exact fun taken => absurd rfl taken

theorem extends_prefixInfo (m : NdMessage) (off : UInt8) :
    Extends ([1, 0] ++ prefixInfoReads m off) (prefixInfoBytes m off) := by
  unfold prefixInfoReads prefixInfoBytes
  by_cases shorter : m.optLong off 4 < m.optLong off 8
  · rw [if_pos shorter, if_pos shorter, List.append_nil]
    exact extends_part 4 8 (by decide) (by decide)
  rw [if_neg shorter, if_neg shorter]
  by_cases linkLocal : prefixLinkLocal m off
  · have notTaken : ¬ (¬ prefixLinkLocal m off ∧ prefixBytes m off ≠ 0) :=
      fun taken => taken.1 linkLocal
    rw [if_pos linkLocal, if_neg notTaken, if_pos linkLocal.1,
      if_pos linkLocal.1]
    constructor
    · simp [List.range']
    · exact ⟨17, by simp, rfl⟩
  rw [if_neg linkLocal]
  by_cases taken : prefixBytes m off ≠ 0
  · have isTaken : ¬ prefixLinkLocal m off ∧ prefixBytes m off ≠ 0 :=
      ⟨linkLocal, taken⟩
    have whole := le_prefixBytes taken
    rw [if_pos isTaken]
    constructor
    · intro offset isRead
      simp only [List.mem_append, List.mem_cons, List.not_mem_nil, or_false,
        List.mem_range'_1, List.mem_ite_nil_right] at isRead
      omega
    · refine ⟨16 + prefixBytes m off - 1, ?_, by omega⟩
      simp only [List.mem_append, List.mem_range'_1]
      omega
  · have notTaken : ¬ (¬ prefixLinkLocal m off ∧ prefixBytes m off ≠ 0) :=
      fun both => taken both.2
    rw [if_neg notTaken, not_not.1 taken]
    by_cases first : m.optByte off 16 = 0xFE
    · rw [if_pos first, if_pos first]
      constructor
      · simp [List.range']
      · exact ⟨17, by simp, rfl⟩
    · rw [if_neg first, if_neg first]
      constructor
      · simp [List.range']
      · exact ⟨16, by simp, rfl⟩

theorem extends_optReads (env : NdEnv) (input : NdInput) (m : NdMessage)
    (off : UInt8) :
    Extends (optReads env input m off) (optBytes env input m off) := by
  unfold optReads optBytes
  split
  · exact ⟨by simp, 1, by simp, rfl⟩
  split
  · by_cases forbidden : llaoForbidden input m
    · rw [if_pos forbidden, if_pos (Or.inr (Or.inr forbidden))]
      exact extends_header
    · rw [if_neg forbidden]
      cases input with
      | nsInput | raInput =>
          rw [if_neg (by simp [forbidden])]
          exact extends_part 2 env.lladdrLen (Nat.le_refl 2) env.notEmpty
      | naInput | rsInput =>
          rw [if_pos (by simp)]
          exact extends_header
  split
  · exact extends_part 4 4 (by decide) (by decide)
  split
  · exact extends_prefixInfo m off
  · exact extends_header

/-! ## The loops -/

theorem optLoop_ends_iff (accepted : m.refused input = false) :
    (∃ fuel last, optLoop input fuel m = some last) ↔
      Walk.Ends (optStep input m) input.start := by
  unfold optLoop Walk.Ends
  simp only [accepted, Bool.false_eq_true, if_false]

theorem optionsHandled_of_refused (refused : m.refused input = true) :
    OptionsHandled env input m ∧ OptionsFit env input m := by
  have notAccepted : ¬ m.refused input = false := by
    rw [refused]
    exact Bool.noConfusion
  refine ⟨⟨⟨0, .discard, ?_⟩, fun accepted => ?_⟩, fun accepted => ?_⟩
  · unfold optLoop
    rw [if_pos refused]
  · exact absurd accepted notAccepted
  · exact absurd accepted notAccepted

instance : Finite OptState :=
  Finite.of_injective (fun state => (state.off, state.llao)) (by
    rintro ⟨firstOff, firstLlao⟩ ⟨secondOff, secondLlao⟩ same
    cases same
    rfl)

/-- The loops end and read inside of the message if and only if the options
fit: the offset has 8 bits, and only the first byte of an option is known to
be inside. -/
theorem optionsHandled_iff (env : NdEnv) (input : NdInput) (m : NdMessage) :
    OptionsHandled env input m ↔ OptionsFit env input m := by
  cases isRefused : m.refused input with
  | true =>
      have both : OptionsHandled env input m ∧ OptionsFit env input m :=
        optionsHandled_of_refused isRefused
      exact iff_of_true both.1 both.2
  | false =>
      unfold OptionsHandled OptionsFit
      rw [optLoop_ends_iff isRefused, Walk.ends_iff_acyclic]
      simp only [isRefused, forall_const]
      have rounds : ∀ state : OptState,
          (∀ offset ∈ optReads env input m state.off,
            m.Inside state.off offset) ↔
            m.Holds state.off (optBytes env input m state.off) :=
        fun state => (extends_optReads env input m state.off).inside_iff
      have address : ∀ llao : UInt8,
          (∀ offset ∈ List.range' 2 env.lladdrLen, m.Inside llao offset) ↔
            m.Holds llao (2 + env.lladdrLen) := by
        intro llao
        refine Extends.inside_iff ⟨?_, 1 + env.lladdrLen, ?_, ?_⟩
        · intro offset isRead
          exact (List.mem_range'_1.1 isRead).2
        · have notEmpty := env.notEmpty
          rw [List.mem_range'_1]
          omega
        · omega
      simp only [rounds, address]

/-- The bytes of an option by its length. -/
def NdMessage.optSize (m : NdMessage) (off : UInt8) : Nat :=
  (m.optLen off).toNat * 8

theorem goesOn_optStep {state later : OptState}
    (goesOn : Walk.GoesOn (optStep input m) state later) :
    inLoop m state.off ∧ m.optLen state.off ≠ 0 ∧
      later.off = state.off + (m.optLen state.off <<< 3) ∧
      (later.llao = state.llao ∨ later.llao = some state.off ∧
        m.optType state.off = input.optLlao) := by
  unfold Walk.GoesOn optStep at goesOn
  split at goesOn
  next inside =>
    split at goesOn
    · cases goesOn
    next notZero =>
    dsimp only at goesOn
    split at goesOn
    · next isLlao =>
        split at goesOn
        · cases goesOn
        · obtain rfl := Sum.inr.inj goesOn
          exact ⟨inside, notZero, rfl, Or.inr ⟨rfl, isLlao⟩⟩
    · obtain rfl := Sum.inr.inj goesOn
      exact ⟨inside, notZero, rfl, Or.inl rfl⟩
  · cases goesOn

/-- Options that end inside of a message with at most 255 bytes behind its
header, and have as many bytes as are used of them, fit. -/
theorem optionsFit_of_short (small : m.uipLen.toNat ≤ m.hdrLen + 255)
    (short : ∀ state, Reaches input m state → inLoop m state.off →
      m.Holds state.off (m.optSize state.off) ∧
        optBytes env input m state.off ≤ m.optSize state.off ∧
        (m.optType state.off = input.optLlao →
          2 + env.lladdrLen ≤ m.optSize state.off)) :
    OptionsFit env input m := by
  refine fun _ => ⟨?_, fun state reaches inside => ?_,
    fun state reaches outside uses llao isLlao => ?_⟩
  · refine Walk.acyclic_of_grows (fun state => state.off.toNat)
      fun first second reaches goesOn => ?_
    obtain ⟨inside, notZero, later, -⟩ := goesOn_optStep goesOn
    have ends := (short first reaches inside).1
    unfold NdMessage.Holds NdMessage.optSize at ends
    have positive : (m.optLen first.off).toNat ≠ 0 := by
      intro isZero
      exact notZero (UInt8.toNat_inj.mp isZero)
    have shifted : m.optLen first.off <<< 3 =
        UInt8.ofNat ((m.optLen first.off).toNat * 8) := by
      rw [← UInt8.toNat_inj, UInt8.toNat_shiftLeft, UInt8.toNat_ofNat',
        Nat.shiftLeft_eq]
      rfl
    rw [later, toNat_add_of_le shifted (by omega)]
    omega
  · obtain ⟨ends, used, -⟩ := short state reaches inside
    unfold NdMessage.Holds at *
    omega
  · clear outside uses
    induction reaches with
    | refl =>
        cases isLlao
    | tail earlier goesOn inductionHypothesis =>
        obtain ⟨inside, -, -, same | ⟨here, isType⟩⟩ :=
          goesOn_optStep goesOn
        · exact inductionHypothesis (same.symm.trans isLlao)
        · obtain rfl := Option.some.inj (here.symm.trans isLlao)
          obtain ⟨ends, -, address⟩ := short _ earlier inside
          have room := address isType
          unfold NdMessage.Holds at *
          omega

/-- A neighbour solicitation of 72 bytes with an option of length 32. -/
def longOption : NdMessage where
  buf := ByteMem.ofList (List.replicate 7 0 ++ [255] ++
    List.replicate 56 0 ++ [14, 32, 0, 0, 0, 0, 0, 0])
  extLen := 0
  uipLen := 72

/-- The length in bytes is 0 in 8 bits, so the loop stays at the option. -/
theorem longOption_not_handled :
    ¬ ∀ env, OptionsHandled env .nsInput longOption := by
  intro handled
  obtain ⟨ends, -⟩ := handled ⟨8, by decide, false, false⟩
  rw [optLoop_ends_iff (by decide)] at ends
  have stays : Walk.GoesOn (optStep .nsInput longOption)
      NdInput.nsInput.start NdInput.nsInput.start := rfl
  exact ends.not_cycle (Relation.TransGen.single stays)

end Contiki.Net.NdOptions
