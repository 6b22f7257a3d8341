import Contiki.Rpl.PrefixParse

/-!
# The options of a DAO

`dao_input` up to the route that it adds.  It compares no option with the
length of the message.
-/

namespace Contiki.Rpl

open Contiki.Lib

/-- `RPL_DAO_D_FLAG` -/
def daoDFlag : UInt8 := 0x40

/-- What `dao_input` takes from the options: the variables `lifetime`,
`prefixlen` and `prefix`, and whether it has written behind `prefix`. -/
structure DaoRoute where
  lifetime : UInt8
  prefixLen : UInt8
  prefixAddr : IpAddr
  overrun : Bool

/-- The `switch` of `dao_input` for the option at `i`.  All bytes of the
prefix are copied, and those from the 17th on lie behind `prefix`. -/
def daoOption (buffer : ByteMem) (i : Nat) (route : DaoRoute) : DaoRoute :=
  if buffer i = optionTarget then
    let prefixLen := buffer (i + (3 : Nat))
    { route with
      prefixLen := prefixLen
      prefixAddr := Vector.ofFn fun index : Fin 16 =>
        if index.val < prefixBytes prefixLen then
          buffer (i + (4 : Nat) + index.val)
        else 0
      overrun := route.overrun || decide (16 < prefixBytes prefixLen) }
  else if buffer i = optionTransit then
    { route with lifetime := buffer (i + (5 : Nat)) }
  else route

/-- The loop of `dao_input` over the options. -/
def daoOptions (buffer : ByteMem) (bufferLength i : Nat) (route : DaoRoute) :
    DaoRoute :=
  if i < bufferLength then
    daoOptions buffer bufferLength (i + optionLen buffer i)
      (daoOption buffer i route)
  else route
termination_by bufferLength - i
decreasing_by
  have := optionLen_pos buffer i
  omega

def daoStart (buffer : ByteMem) : Nat :=
  if buffer 1 &&& daoDFlag ≠ 0 then 20 else 4

/-- The route of a DAO; `stale` is what `prefix` holds before it is
written. -/
def daoRoute (message : RplMessage) (defaultLifetime : UInt8)
    (stale : IpAddr) : DaoRoute :=
  daoOptions message.buffer message.bufferLength (daoStart message.buffer)
    { lifetime := defaultLifetime
      prefixLen := 0
      prefixAddr := stale
      overrun := false }

/-- The positions of the options that the loop comes to. -/
def daoVisited (buffer : ByteMem) (bufferLength i : Nat) : List Nat :=
  if i < bufferLength then
    i :: daoVisited buffer bufferLength (i + optionLen buffer i)
  else []
termination_by bufferLength - i
decreasing_by
  have := optionLen_pos buffer i
  omega

/-- The positions read for the option at `i`. -/
def daoOptionReads (buffer : ByteMem) (i : Nat) : List Nat :=
  headerReads buffer i ++
    if buffer i = optionTarget then
      (i + (3 : Nat)) :: List.range' (i + (4 : Nat))
        (prefixBytes (buffer (i + (3 : Nat))))
    else if buffer i = optionTransit then [i + (5 : Nat)]
    else []

/-- The positions that `dao_input` reads of the base object. -/
def daoBaseReads (buffer : ByteMem) : List Nat :=
  [0, 1, 3] ++
    if buffer 1 &&& daoDFlag ≠ 0 then List.range' 4 16 else []

/-- The positions of the options that the loop of `dao_input` comes to. -/
def daoOptionsOf (message : RplMessage) : List Nat :=
  daoVisited message.buffer message.bufferLength (daoStart message.buffer)

/-- The positions that `dao_input` reads of the options. -/
def daoOptionsReads (message : RplMessage) : List Nat :=
  (daoOptionsOf message).flatMap (daoOptionReads message.buffer)

variable {buffer : ByteMem} {bufferLength i : Nat}

/-- The option at `i` ends in the message as far as it is read. -/
def DaoOptionInside (buffer : ByteMem) (length i : Nat) : Prop :=
  (buffer i ≠ optionPad1 → i + (1 : Nat) < length) ∧
    (buffer i = optionTarget →
      i + (4 : Nat) + prefixBytes (buffer (i + (3 : Nat))) ≤ length) ∧
    (buffer i = optionTransit → i + (6 : Nat) ≤ length)

theorem lt_of_mem_daoVisited {option : Nat}
    (visited : option ∈ daoVisited buffer bufferLength i) :
    option < bufferLength := by
  fun_induction daoVisited buffer bufferLength i with
  | case1 i inside inductionHypothesis =>
      cases visited with
      | head =>
          exact inside
      | tail _ later =>
          exact inductionHypothesis later
  | case2 i outside =>
      cases visited

theorem daoOptionReads_inside_iff {length : Nat} (inside : i < length) :
    (∀ position ∈ daoOptionReads buffer i, position < length) ↔
      DaoOptionInside buffer length i := by
  have types : optionTarget ≠ optionTransit := by decide
  unfold daoOptionReads DaoOptionInside
  rw [List.forall_mem_append, headerReads_inside_iff inside]
  refine and_congr_right fun _ => ?_
  split
  · next isTarget =>
      rw [isTarget, List.forall_mem_cons]
      simp only [types, forall_const, false_implies, and_true]
      constructor
      · intro reads
        by_cases none : prefixBytes (buffer (i + 3)) = 0
        · omega
        · have last := reads.2
            (i + 4 + (prefixBytes (buffer (i + 3)) - 1))
            (List.mem_range'_1.mpr ⟨by omega, by omega⟩)
          omega
      · intro fits
        exact ⟨by omega, forall_mem_range' fits⟩
  next notTarget =>
  split
  · next isTransit =>
      simp only [isTransit, types.symm, false_implies, forall_const,
        List.mem_singleton, forall_eq, true_and]
      omega
  · next notTransit =>
      simp [notTarget, notTransit]

theorem daoBaseReads_inside_iff (buffer : ByteMem) (length : Nat) :
    (∀ position ∈ daoBaseReads buffer, position < length) ↔
      daoStart buffer ≤ length := by
  unfold daoBaseReads daoStart
  rw [List.forall_mem_append]
  split
  · constructor
    · intro reads
      have last := reads.2 19
        (List.mem_range'_1.mpr ⟨by decide, by decide⟩)
      omega
    · intro fits
      refine ⟨?_, forall_mem_range' fits⟩
      simp only [List.mem_cons, List.not_mem_nil, or_false]
      omega
  · simp only [List.mem_cons, List.not_mem_nil, or_false, false_implies,
      implies_true, and_true, forall_eq_or_imp, forall_eq]
    omega

variable (message : RplMessage)

theorem daoOptionsReads_inside_iff :
    (∀ position ∈ daoOptionsReads message,
        position < message.length.toNat) ↔
      ∀ i ∈ daoOptionsOf message,
        DaoOptionInside message.buffer message.length.toNat i := by
  have below := bufferLength_le message
  unfold daoOptionsReads
  rw [List.forall_mem_flatMap]
  refine forall₂_congr fun i visited => ?_
  have inside := lt_of_mem_daoVisited visited
  exact daoOptionReads_inside_iff (by omega)

/-! ## The route of a DAO -/

/-- The prefix of the target option at `i`. -/
def targetAt (buffer : ByteMem) (i : Nat) : UInt8 × IpAddr :=
  (buffer (i + (3 : Nat)), Vector.ofFn fun index : Fin 16 =>
    if index.val < prefixBytes (buffer (i + (3 : Nat))) then
      buffer (i + (4 : Nat) + index.val)
    else 0)

theorem daoOptions_spec (buffer : ByteMem) (bufferLength i : Nat)
    (route : DaoRoute) :
    let visited := daoVisited buffer bufferLength i
    let after := daoOptions buffer bufferLength i route
    after.lifetime = ((lastOption buffer optionTransit visited).map fun i =>
        buffer (i + 5)).getD route.lifetime ∧
      (after.prefixLen, after.prefixAddr) =
        ((lastOption buffer optionTarget visited).map
          (targetAt buffer)).getD (route.prefixLen, route.prefixAddr) := by
  have types : optionTarget ≠ optionTransit := by decide
  dsimp only
  fun_induction daoOptions buffer bufferLength i route with
  | case1 i route inside inductionHypothesis =>
      obtain ⟨lifetime, target⟩ := inductionHypothesis
      have isVisited : daoVisited buffer bufferLength i =
          i :: daoVisited buffer bufferLength (i + optionLen buffer i) := by
        rw [daoVisited, if_pos inside]
      rw [lifetime, target, isVisited, lastOption_cons, lastOption_cons]
      unfold daoOption
      by_cases isTarget : buffer i = optionTarget
      · rw [if_pos isTarget, if_pos isTarget, isTarget, if_neg types,
          Option.or_none]
        refine ⟨rfl, ?_⟩
        cases lastOption buffer optionTarget
            (daoVisited buffer bufferLength (i + optionLen buffer i)) with
        | none =>
            rfl
        | some last =>
            rfl
      · rw [if_neg isTarget, if_neg isTarget, Option.or_none]
        by_cases isTransit : buffer i = optionTransit
        · rw [if_pos isTransit, if_pos isTransit]
          refine ⟨?_, rfl⟩
          cases lastOption buffer optionTransit
              (daoVisited buffer bufferLength (i + optionLen buffer i)) with
          | none =>
              rfl
          | some last =>
              rfl
        · rw [if_neg isTransit, if_neg isTransit, Option.or_none]
          exact ⟨rfl, rfl⟩
  | case2 i route outside =>
      rw [daoVisited, if_neg outside]
      exact ⟨rfl, rfl⟩

/-- There is room in `prefix` for the option at `i`. -/
def TargetFits (buffer : ByteMem) (i : Nat) : Prop :=
  buffer i = optionTarget → (buffer (i + (3 : Nat))).toNat ≤ 128

theorem overrun_daoOption (buffer : ByteMem) (i : Nat) (route : DaoRoute) :
    (daoOption buffer i route).overrun = false ↔
      route.overrun = false ∧ TargetFits buffer i := by
  unfold daoOption TargetFits
  by_cases isTarget : buffer i = optionTarget
  · rw [if_pos isTarget]
    dsimp only
    rw [Bool.or_eq_false_iff, decide_eq_false_iff_not]
    refine and_congr_right fun _ => ?_
    unfold prefixBytes
    rw [forall_prop_of_true isTarget]
    omega
  · rw [if_neg isTarget]
    have vacuous : buffer i = optionTarget →
        (buffer (i + 3)).toNat ≤ 128 := fun target =>
      absurd target isTarget
    rw [and_iff_left vacuous]
    split
    · exact Iff.rfl
    · exact Iff.rfl

/-- Nothing is written behind `prefix` if and only if there is room for each
target that the loop comes to. -/
theorem overrun_daoOptions (buffer : ByteMem) (bufferLength i : Nat)
    (route : DaoRoute) :
    (daoOptions buffer bufferLength i route).overrun = false ↔
      route.overrun = false ∧
        ∀ option ∈ daoVisited buffer bufferLength i,
          TargetFits buffer option := by
  fun_induction daoOptions buffer bufferLength i route with
  | case1 i route inside inductionHypothesis =>
      have isVisited : daoVisited buffer bufferLength i =
          i :: daoVisited buffer bufferLength (i + optionLen buffer i) := by
        rw [daoVisited, if_pos inside]
      rw [isVisited, inductionHypothesis, overrun_daoOption,
        List.forall_mem_cons, and_assoc]
  | case2 i route outside =>
      have isVisited : daoVisited buffer bufferLength i = [] := by
        rw [daoVisited, if_neg outside]
      rw [isVisited]
      exact (and_iff_left (List.forall_mem_nil _)).symm

/-- The options of a DAO are read inside and leave the variables behind
`prefix` alone, and its route is removed, or it is a prefix from the
message. -/
def DaoOptionsHandled (message : RplMessage) (defaultLifetime : UInt8)
    (stale : IpAddr) : Prop :=
  let route := daoRoute message defaultLifetime stale
  (∀ position ∈ daoOptionsReads message,
      position < message.length.toNat) ∧
    route.overrun = false ∧
    (route.lifetime ≠ 0 →
      PrefixFrom message route.prefixLen route.prefixAddr)

/-- The options end in the message, each target has at most 128 bits, and the
lifetime is 0, or there is a target, or `prefix` was zero. -/
def DaoOptionsFit (message : RplMessage) (defaultLifetime : UInt8)
    (stale : IpAddr) : Prop :=
  (∀ i ∈ daoOptionsOf message,
      DaoOptionInside message.buffer message.length.toNat i) ∧
    (∀ i ∈ daoOptionsOf message, TargetFits message.buffer i) ∧
    (((lastOption message.buffer optionTransit
        (daoOptionsOf message)).map fun i =>
          message.buffer (i + (5 : Nat))).getD defaultLifetime = 0 ∨
      (lastOption message.buffer optionTarget
          (daoOptionsOf message) = none →
        stale = Vector.replicate 16 0))

theorem prefixFrom_targetAt {message : RplMessage}
    (ends : i + 4 + prefixBytes (message.buffer (i + 3)) ≤
      message.length.toNat)
    (room : (message.buffer (i + 3)).toNat ≤ 128) :
    PrefixFrom message (targetAt message.buffer i).1
      (targetAt message.buffer i).2 := by
  refine ⟨room, i + 4, ends, fun index => ?_⟩
  simp [targetAt, Vector.get]
  rfl

theorem prefixFrom_stale_iff (stale : IpAddr) :
    PrefixFrom message 0 stale ↔ stale = Vector.replicate 16 0 := by
  constructor
  · intro source
    obtain ⟨-, position, -, copied⟩ := source
    apply Vector.ext
    intro index bound
    have isByte := copied ⟨index, bound⟩
    simpa [prefixBytes, Vector.get] using isByte
  · intro zero
    rw [zero]
    exact prefixFrom_zero message

theorem daoOptionsHandled_iff (defaultLifetime : UInt8) (stale : IpAddr) :
    DaoOptionsHandled message defaultLifetime stale ↔
      DaoOptionsFit message defaultLifetime stale := by
  let start : DaoRoute :=
    { lifetime := defaultLifetime
      prefixLen := 0
      prefixAddr := stale
      overrun := false }
  obtain ⟨lifetime, target⟩ := daoOptions_spec message.buffer
    message.bufferLength (daoStart message.buffer) start
  have written : (daoRoute message defaultLifetime stale).overrun = false ↔
      ∀ i ∈ daoOptionsOf message, TargetFits message.buffer i :=
    (overrun_daoOptions message.buffer message.bufferLength
      (daoStart message.buffer) start).trans (and_iff_right rfl)
  unfold DaoOptionsHandled DaoOptionsFit
  dsimp only
  rw [daoOptionsReads_inside_iff, written]
  refine and_congr_right fun inside => and_congr_right fun fits => ?_
  have isLifetime : (daoRoute message defaultLifetime stale).lifetime = _ :=
    lifetime
  rw [isLifetime, ← or_iff_not_imp_left]
  refine or_congr_right ?_
  change (_, _) = ((lastOption message.buffer optionTarget
    (daoOptionsOf message)).map _).getD _ at target
  cases isLast : lastOption message.buffer optionTarget
      (daoOptionsOf message) with
  | none =>
      rw [isLast] at target
      have isLength : (daoRoute message defaultLifetime stale).prefixLen =
        0 := congrArg Prod.fst target
      have isAddr : (daoRoute message defaultLifetime stale).prefixAddr =
        stale := congrArg Prod.snd target
      rw [isLength, isAddr, forall_prop_of_true rfl]
      exact prefixFrom_stale_iff message stale
  | some i =>
      rw [isLast] at target
      have isLength : (daoRoute message defaultLifetime stale).prefixLen =
        (targetAt message.buffer i).1 := congrArg Prod.fst target
      have isAddr : (daoRoute message defaultLifetime stale).prefixAddr =
        (targetAt message.buffer i).2 := congrArg Prod.snd target
      rw [isLength, isAddr]
      obtain ⟨visited, isTarget⟩ := mem_of_lastOption isLast
      have copied := prefixFrom_targetAt ((inside i visited).2.1 isTarget)
        (fits i visited isTarget)
      exact iff_of_true copied fun missing => nomatch missing

end Contiki.Rpl
