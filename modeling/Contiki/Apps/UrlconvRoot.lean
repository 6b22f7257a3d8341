import Contiki.Apps.Urlconv
import Mathlib.Data.List.TakeWhile

/-!
# File names below the www root

The name that `urlconv_tofilename` writes for a request lies below the www
root exactly when the root ends with a slash or the buffer leaves no room for
`/..` behind it.
-/

namespace Contiki.Apps

open Contiki.Lib.PathNames

/-! ## The specification -/

/-- The bytes before the zero that ends the name. -/
def fileName (dest : List UInt8) : List UInt8 :=
  dest.takeWhile (· ≠ 0)

/-- `/` and the www root. -/
def WwwRoot.path (root : WwwRoot) : List UInt8 :=
  isoSlash :: root.bytes

/-- The conversion ends without an access outside the buffer or the request,
and the name is normal and starts with the www root. -/
def StaysBelow (root : WwwRoot) (maxlen : UInt8) (request : List UInt8) :
    Prop :=
  ∃ dest, urlconvTofilename root (request ++ [0]) maxlen = some dest ∧
    dest.length ≤ maxlen.toNat ∧ root.path <+: fileName dest ∧
    Normal isoSlash isoPeriod (fileName dest)

/-- The prefix keeps every request below it: it is a settled name that fits
together with its zero, and either it ends with a slash or at most two
characters fit behind it and it does not end with `/.` or `/..`. -/
structure Confining (root : WwwRoot) (maxlen : UInt8) : Prop where
  text : 0 ∉ root.bytes
  room : root.bytes.length + 2 ≤ maxlen.toNat
  settled : Settled isoSlash isoPeriod root.path
  ending : [isoSlash] <:+ root.path ∨
    maxlen.toNat ≤ root.bytes.length + 4 ∧
      ¬ [isoSlash, isoPeriod] <:+ root.path ∧
      ¬ [isoSlash, isoPeriod, isoPeriod] <:+ root.path

/-! ## The loop back -/

/-- A length that counts `dropped` bytes less, up to a wrap. -/
def Less (len before : UInt8) (dropped : Nat) : Prop :=
  (len.toNat + dropped) % 256 = before.toNat

theorem less_sub (len count : UInt8) : Less (len - count) len count.toNat := by
  have small := len.toNat_lt
  have smaller := count.toNat_lt
  rw [Less, UInt8.toNat_sub]
  omega

theorem Less.trans {first second third : UInt8} {dropped more : Nat}
    (less : Less second third dropped) (further : Less first second more) :
    Less first third (dropped + more) := by
  unfold Less at *
  omega

theorem walkBack_spec {bytes : List UInt8} {len : UInt8} {back : Conv}
    (found : walkBack bytes len = some back) :
    ∃ dropped front, isoSlash ∉ dropped ∧ bytes = dropped ++ back.written ∧
      back.written = isoSlash :: front ∧ Less back.len len dropped.length := by
  induction bytes generalizing len with
  | nil =>
      exact absurd found (by simp [walkBack])
  | cons last before inductionHypothesis =>
      rw [walkBack] at found
      split at found
      next slash =>
        cases found
        subst slash
        exact ⟨[], before, List.not_mem_nil, rfl, rfl,
          Nat.mod_eq_of_lt len.toNat_lt⟩
      next other =>
        obtain ⟨dropped, front, free, rfl, starts, less⟩ :=
          inductionHypothesis found
        refine ⟨last :: dropped, front, ?_, rfl, starts, ?_⟩
        · simp only [List.mem_cons, not_or]
          exact ⟨fun same => other same.symm, free⟩
        · rw [List.length_cons, Nat.add_comm]
          exact (less_sub len 1).trans less

theorem exists_walkBack {bytes : List UInt8} (len : UInt8)
    (slash : isoSlash ∈ bytes) :
    ∃ back, walkBack bytes len = some back := by
  induction bytes generalizing len with
  | nil =>
      exact absurd slash List.not_mem_nil
  | cons last before inductionHypothesis =>
      rw [walkBack]
      split
      next =>
        exact ⟨_, rfl⟩
      next other =>
        exact inductionHypothesis (len - 1)
          ((List.mem_cons.mp slash).resolve_left
            fun same => other same.symm)

/-! ## The end of a component -/

/-- The cases of `endComponent` on a name that starts with a slash. -/
theorem endComponent_cases {conv : Conv}
    (absolute : [isoSlash] <:+ conv.written) :
    [isoSlash] <+: conv.written ∧
        endComponent conv = some (true, conv) ∨
    (∃ front, conv.written = isoPeriod :: isoSlash :: front ∧
      endComponent conv =
        some (true, ⟨isoSlash :: front, conv.len - 1⟩)) ∨
    (∃ front, conv.written = isoPeriod :: isoPeriod :: isoSlash :: front ∧
      endComponent conv =
        if conv.len - 2 = 0 then
          some (true, ⟨isoSlash :: front, conv.len - 2⟩)
        else
          (walkBack front (conv.len - 3)).map fun back => (true, back)) ∨
    SlashReady isoSlash isoPeriod conv.written.reverse ∧
      endComponent conv = some (false, conv) := by
  obtain ⟨written, len⟩ := conv
  rw [slashReady_reverse]
  have apart : isoPeriod ≠ isoSlash := by
    decide
  cases written with
  | nil =>
      exact absurd (List.suffix_nil.mp absolute) (List.cons_ne_nil _ _)
  | cons last before =>
      by_cases slash : last = isoSlash
      · left
        simp [endComponent, slash]
      by_cases period : last = isoPeriod
      swap
      · right; right; right
        simp [endComponent, slash, period, Ne.symm slash, Ne.symm period]
      subst period
      cases before with
      | nil =>
          simp [List.suffix_cons_iff, Ne.symm slash] at absolute
      | cons second earlier =>
          by_cases second_slash : second = isoSlash
          · right; left
            subst second_slash
            exact ⟨earlier, rfl, by simp [endComponent, apart]⟩
          by_cases period : second = isoPeriod
          swap
          · right; right; right
            simp [endComponent, second_slash, period, apart, apart.symm,
              Ne.symm second_slash, Ne.symm period]
          subst period
          cases earlier with
          | nil =>
              simp [List.suffix_cons_iff, apart.symm] at absolute
          | cons third front =>
              by_cases third_slash : third = isoSlash
              · right; right; left
                subst third_slash
                exact ⟨front, rfl, by simp [endComponent, apart]⟩
              · right; right; right
                simp [endComponent, third_slash, apart, apart.symm,
                  Ne.symm third_slash]

/-! ## The invariant of the loop -/

/-- The prefix, stored from its end, that keeps the name below it. -/
def Held (base : List UInt8) (room : UInt8) : Prop :=
  [isoSlash] <+: base ∨
    room.toNat ≤ 2 ∧ ¬ [isoPeriod, isoSlash] <+: base ∧
      ¬ [isoPeriod, isoPeriod, isoSlash] <+: base

/-- The name is the prefix and `len` further bytes. -/
structure Below (base : List UInt8) (room : UInt8) (conv : Conv) :
    Prop where
  split : ∃ tail, conv.written = tail ++ base ∧
    conv.len.toNat = tail.length ∧ 0 ∉ tail
  fits : conv.len.toNat ≤ room.toNat
  settled : Settled isoSlash isoPeriod conv.written.reverse

variable {base : List UInt8} {room : UInt8} {conv : Conv}

theorem Below.shorten (below : Below base room conv)
    (dropped : List UInt8) {tail : List UInt8} {len : UInt8}
    (written : conv.written = dropped ++ (tail ++ base))
    (less : Less len conv.len dropped.length) :
    Below base room ⟨tail ++ base, len⟩ := by
  obtain ⟨all, same, count, nonzero⟩ := below.split
  have shape : all = dropped ++ tail := by
    have joined : all ++ base = dropped ++ tail ++ base := by
      rw [← same, written, List.append_assoc]
    exact List.append_cancel_right joined
  subst shape
  rw [List.length_append] at count
  have small := conv.len.toNat_lt
  have length : len.toNat = tail.length := by
    have smaller := len.toNat_lt
    unfold Less at less
    omega
  have fits := below.fits
  refine ⟨⟨tail, rfl, length, ?_⟩, ?_, ?_⟩
  · exact fun member => nonzero (List.mem_append_right _ member)
  · change len.toNat ≤ room.toNat
    omega
  · apply below.settled.of_infix
    rw [List.reverse_infix, written]
    exact (List.suffix_append _ _).isInfix

theorem Below.append (below : Below base room conv) {c : UInt8}
    (nonzero : c ≠ 0) (shorter : conv.len < room)
    (ready : c = isoSlash →
      SlashReady isoSlash isoPeriod conv.written.reverse) :
    Below base room ⟨c :: conv.written, conv.len + 1⟩ := by
  obtain ⟨tail, same, count, others⟩ := below.split
  have bound : conv.len.toNat < room.toNat := shorter
  have small := room.toNat_lt
  have length : (conv.len + 1).toNat = conv.len.toNat + 1 := by
    rw [UInt8.toNat_add, UInt8.toNat_one]
    exact Nat.mod_eq_of_lt (by omega)
  refine ⟨⟨c :: tail, ?_, ?_, ?_⟩, ?_, ?_⟩
  · rw [same]
    rfl
  · rw [length, count]
    rfl
  · simp only [List.mem_cons, not_or]
    exact ⟨nonzero.symm, others⟩
  · rw [length]
    exact bound
  · rw [List.reverse_cons]
    by_cases slash : c = isoSlash
    · subst slash
      exact below.settled.append_slash (ready rfl)
    · exact below.settled.append_other slash

theorem Held.periods_behind (held : Held base room) {tail front : List UInt8}
    (short : tail.length ≤ room.toNat)
    (shape : tail ++ base = isoPeriod :: isoPeriod :: isoSlash :: front) :
    ∃ rest, tail = isoPeriod :: isoPeriod :: rest ∧
      rest ++ base = isoSlash :: front ∧ [isoSlash] <+: base := by
  have apart : isoSlash ≠ isoPeriod := by
    decide
  match tail, shape with
  | [], shape =>
      rw [List.nil_append] at shape
      rcases held with slash | ⟨-, -, double⟩
      · rw [shape] at slash
        exact absurd (List.cons_prefix_cons.mp slash).1 apart
      · exact absurd ⟨front, shape.symm⟩ double
  | [first], shape =>
      have tails : base = isoPeriod :: isoSlash :: front :=
        (List.cons.inj shape).2
      rcases held with slash | ⟨-, single, -⟩
      · rw [tails] at slash
        exact absurd (List.cons_prefix_cons.mp slash).1 apart
      · exact absurd ⟨front, tails.symm⟩ single
  | first :: second :: rest, shape =>
      obtain ⟨rfl, others⟩ := List.cons.inj shape
      obtain ⟨rfl, behind⟩ := List.cons.inj others
      refine ⟨rest, rfl, behind, ?_⟩
      rcases held with slash | ⟨small, -, -⟩
      · exact slash
      · have empty : rest = [] := by
          apply List.eq_nil_of_length_eq_zero
          simp only [List.length_cons] at short
          omega
        subst empty
        change base = _ at behind
        rw [behind]
        exact ⟨front, rfl⟩

/-- A slash that stands behind bytes without one is in front of the
prefix. -/
theorem slash_behind {tail dropped front : List UInt8}
    (slash : [isoSlash] <+: base) (free : isoSlash ∉ dropped)
    (shape : tail ++ base = dropped ++ isoSlash :: front) :
    ∃ kept, isoSlash :: front = kept ++ base := by
  rcases List.append_eq_append_iff.mp shape with
    ⟨more, rfl, equal⟩ | ⟨kept, rfl, equal⟩
  · cases more with
    | nil =>
        exact ⟨[], equal.symm⟩
    | cons c more =>
        rw [equal] at slash
        have first := (List.cons_prefix_cons.mp slash).1
        subst first
        exact absurd (List.mem_append_right tail List.mem_cons_self) free
  · exact ⟨kept, equal⟩

theorem endComponent_below (held : Held base room)
    (absolute : [isoSlash] <:+ base) (below : Below base room conv) :
    ∃ again next, endComponent conv = some (again, next) ∧
      Below base room next ∧
      (again = true → [isoSlash] <+: next.written) ∧
      (again = false → next = conv ∧
        SlashReady isoSlash isoPeriod conv.written.reverse) := by
  obtain ⟨tail, same, count, nonzero⟩ := below.split
  have starts : [isoSlash] <:+ conv.written := by
    rw [same]
    exact absolute.trans (List.suffix_append _ _)
  have apart : isoSlash ≠ isoPeriod := by
    decide
  have fits := below.fits
  rcases endComponent_cases starts with
    ⟨slash, equal⟩ | ⟨front, shape, equal⟩ | ⟨front, shape, equal⟩ |
      ⟨ready, equal⟩
  · exact ⟨true, conv, equal, below, fun _ => slash, nofun⟩
  · refine ⟨true, _, equal, ?_, fun _ => ⟨front, rfl⟩, nofun⟩
    -- the period stands behind the prefix
    rw [same] at shape
    cases tail with
    | nil =>
        rw [List.nil_append] at shape
        rcases held with slash | ⟨-, single, -⟩
        · rw [shape] at slash
          exact absurd (List.cons_prefix_cons.mp slash).1 apart
        · exact absurd ⟨front, shape.symm⟩ single
    | cons c tail =>
        rw [List.cons_append] at shape
        obtain ⟨rfl, rest⟩ := List.cons.inj shape
        rw [← rest]
        exact below.shorten [isoPeriod] same (less_sub _ 1)
  · rw [same] at shape
    obtain ⟨rest, rfl, behind, slash⟩ :=
      held.periods_behind (count ▸ fits) shape
    have written : conv.written =
        [isoPeriod, isoPeriod] ++ (rest ++ base) := same
    by_cases atPrefix : conv.len - 2 = 0
    · rw [if_pos atPrefix, ← behind] at equal
      exact ⟨true, _, equal, below.shorten _ written (less_sub _ 2),
        fun _ => behind ▸ ⟨front, rfl⟩, nofun⟩
    rw [if_neg atPrefix] at equal
    -- the slash is behind the prefix, so that the loop ends there at last
    cases rest with
    | nil =>
        exfalso
        apply atPrefix
        rw [← UInt8.toNat_inj, UInt8.toNat_sub, count]
        rfl
    | cons c rest =>
        rw [List.cons_append] at behind
        obtain ⟨rfl, rfl⟩ := List.cons.inj behind
        obtain ⟨⟨back, len⟩, found⟩ := exists_walkBack (conv.len - 3)
          (List.mem_append_right rest (slash.subset List.mem_cons_self))
        obtain ⟨dropped, earlier, free, split, rfl, less⟩ :=
          walkBack_spec found
        obtain ⟨kept, keeps⟩ := slash_behind slash free split
        rw [found] at equal
        refine ⟨true, _, equal, ?_, fun _ => ⟨earlier, rfl⟩, nofun⟩
        rw [keeps]
        apply below.shorten
          ([isoPeriod, isoPeriod, isoSlash] ++ dropped)
        · rw [written, ← keeps, List.append_assoc _ dropped, ← split]
          rfl
        · have total := (less_sub conv.len 3).trans less
          rw [List.length_append]
          exact total
  · exact ⟨false, conv, equal, below, nofun, fun _ => ⟨rfl, ready⟩⟩

/-! ## The loop -/

/-- One character keeps the name below the prefix; at the end of the name no
last component is empty, `.` or `..`. -/
theorem convert_below (held : Held base room) (absolute : [isoSlash] <:+ base)
    (below : Below base room conv) {size : Nat}
    (enough : base.length + room.toNat < size) (raw : UInt8) :
    ∃ next, convert size (checked room raw conv.len) conv = some next ∧
      Below base room next ∧
      (checked room raw conv.len = 0 →
        Normal isoSlash isoPeriod next.written.reverse) := by
  have inside : conv.written.length < size := by
    obtain ⟨tail, same, count, -⟩ := below.split
    have fits := below.fits
    rw [same, List.length_append]
    omega
  have stored (c : UInt8) (nonzero : c ≠ 0) :
      put size c conv = some ⟨c :: conv.written, conv.len + 1⟩ := by
    rw [put, if_neg nonzero, if_pos inside]
  rcases checked_cases room raw conv.len with equal | ⟨equal, printable, short⟩
  · rw [equal, convert, if_pos (.inr rfl)]
    obtain ⟨again, next, found, kept, slash, ready⟩ :=
      endComponent_below held absolute below
    rw [found]
    cases again with
    | true =>
        refine ⟨next, rfl, kept, fun _ => ?_⟩
        obtain ⟨front, shape⟩ := slash rfl
        have settled := kept.settled
        rw [← shape, List.singleton_append, List.reverse_cons] at settled ⊢
        exact settled.normal_of_last (by decide)
    | false =>
        obtain ⟨rfl, ready⟩ := ready rfl
        exact ⟨next, rfl, kept, fun _ => kept.settled.normal_of_ready ready⟩
  · have nonzero : raw ≠ 0 := by
      rintro rfl
      exact printable (by decide)
    rw [equal]
    by_cases slash : raw = isoSlash
    · subst slash
      rw [convert, if_pos (.inl rfl)]
      obtain ⟨again, next, found, kept, -, ready⟩ :=
        endComponent_below held absolute below
      rw [found]
      cases again with
      | true =>
          exact ⟨next, rfl, kept, fun zero => absurd zero nonzero⟩
      | false =>
          obtain ⟨rfl, ready⟩ := ready rfl
          exact ⟨_, stored _ nonzero,
            below.append nonzero short fun _ => ready,
            fun zero => absurd zero nonzero⟩
    · rw [convert, if_neg (by simp [slash, nonzero])]
      exact ⟨_, stored raw nonzero,
        below.append nonzero short fun same => absurd same slash,
        fun zero => absurd zero nonzero⟩

theorem convertLoop_below (held : Held base room)
    (absolute : [isoSlash] <:+ base) {size : Nat}
    (enough : base.length + room.toNat < size)
    (fuel : Nat) {source : List UInt8} (terminated : Terminated source)
    (passes : source.length ≤ fuel) {conv : Conv}
    (below : Below base room conv) :
    ∃ next, convertLoop size room fuel source conv = some next ∧
      Below base room next ∧
      Normal isoSlash isoPeriod next.written.reverse := by
  induction fuel generalizing source conv with
  | zero =>
      obtain ⟨request, -, rfl⟩ := terminated
      rw [List.length_append] at passes
      exact absurd passes (Nat.not_succ_le_zero _)
  | succ fuel inductionHypothesis =>
      obtain ⟨raw, rest, found, shorter, ends⟩ := decode_terminated terminated
      obtain ⟨next, converted, kept, normal⟩ :=
        convert_below held absolute below enough raw
      simp only [convertLoop, found, converted]
      by_cases zero : checked room raw conv.len = 0
      · rw [if_pos zero]
        exact ⟨next, rfl, kept, normal zero⟩
      · rw [if_neg zero]
        have more : Terminated rest := by
          rcases ends with low | more
          · exact absurd (by simp [checked, low]) zero
          · exact more
        exact inductionHypothesis more (by omega) kept

/-! ## The name -/

theorem fileName_append {name : List UInt8} (text : 0 ∉ name) :
    fileName (name ++ [0]) = name := by
  rw [fileName, List.takeWhile_append_of_pos]
  · simp
  · intro c member
    simp only [ne_eq, decide_not, Bool.not_eq_true', decide_eq_false_iff_not]
    rintro rfl
    exact text member

theorem strncpy_eq {text : List UInt8} (nonzero : 0 ∉ text) :
    strncpy text = text := by
  have whole : text.takeWhile (· ≠ 0) = text := by
    rw [List.takeWhile_eq_self_iff]
    intro c member
    simp only [ne_eq, decide_not, Bool.not_eq_true', decide_eq_false_iff_not]
    rintro rfl
    exact nonzero member
  simp only [strncpy, whole, Nat.sub_self, List.replicate_zero,
    List.append_nil]

/-- The name with `index.htm` or without it stays below the prefix. -/
theorem finish_below (text : 0 ∉ base) (below : Below base room conv)
    (normal : Normal isoSlash isoPeriod conv.written.reverse) {size : Nat}
    (enough : base.length + room.toNat < size) :
    ∃ dest, finish size room conv = some dest ∧ dest.length ≤ size ∧
      base.reverse <+: fileName dest ∧
      Normal isoSlash isoPeriod (fileName dest) := by
  obtain ⟨tail, same, count, nonzero⟩ := below.split
  have fits := below.fits
  have length : conv.written.length = conv.len.toNat + base.length := by
    rw [same, List.length_append, count]
  have named : 0 ∉ conv.written.reverse := by
    rw [same]
    simp [nonzero, text]
  have starts : base.reverse <+: conv.written.reverse := by
    rw [List.reverse_prefix, same]
    exact List.suffix_append _ _
  by_cases index : conv.written.head? = some isoSlash ∧
      conv.len.toNat + httpIndexHtm.length - 3 < room.toNat
  · obtain ⟨slash, short⟩ := index
    obtain ⟨front, shape⟩ := List.head?_eq_some_iff.mp slash
    have more : conv.written.tail.reverse ++ httpIndexHtm =
        conv.written.reverse ++
          ([0x69, 0x6e, 0x64, 0x65, 0x78, 0x2e, 0x68, 0x74] ++ [0x6d]) ++
            [0] := by
      rw [shape, List.reverse_cons]
      simp [httpIndexHtm, isoSlash]
    have bound : (conv.written.tail.reverse ++ httpIndexHtm).length ≤ size := by
      have eleven : httpIndexHtm.length = 11 := rfl
      rw [eleven] at short
      rw [shape, List.length_cons] at length
      rw [shape, List.tail_cons, List.length_append, List.length_reverse,
        eleven]
      omega
    have named_index : finalName room conv =
        conv.written.tail.reverse ++ httpIndexHtm :=
      if_pos ⟨slash, short⟩
    have found : finish size room conv = some (finalName room conv) :=
      if_pos (named_index ▸ bound)
    refine ⟨_, found, named_index ▸ bound, ?_⟩
    have plain : 0 ∉ conv.written.reverse ++
        ([0x69, 0x6e, 0x64, 0x65, 0x78, 0x2e, 0x68, 0x74] ++ [0x6d]) := by
      rw [List.mem_append, not_or]
      exact ⟨named, by decide⟩
    rw [named_index, more, fileName_append plain]
    refine ⟨starts.trans (List.prefix_append _ _), ?_⟩
    rw [← List.append_assoc]
    apply Settled.normal_of_last _ (by decide)
    rw [List.append_assoc]
    exact normal.settled.append_others (by decide)
  · have bound : (conv.written.reverse ++ [0]).length ≤ size := by
      rw [List.length_append, List.length_reverse, List.length_singleton]
      omega
    have plain : finalName room conv = conv.written.reverse ++ [0] :=
      if_neg index
    have found : finish size room conv = some (finalName room conv) :=
      if_pos (plain ▸ bound)
    refine ⟨_, found, plain ▸ bound, ?_⟩
    rw [plain, fileName_append named]
    exact ⟨starts, normal⟩

/-! ## Prefixes that confine -/

variable {root : WwwRoot} {maxlen : UInt8}

theorem loopRoom_toNat (room : root.bytes.length + 2 ≤ maxlen.toNat) :
    (loopRoom root maxlen).toNat =
      maxlen.toNat - (root.bytes.length + 2) := by
  have fits := root.fits
  have length : root.wwwrootlen.toNat = root.bytes.length := by
    rw [WwwRoot.wwwrootlen, UInt8.toNat_ofNat']
    exact Nat.mod_eq_of_lt (by omega)
  have sum : (2 + root.wwwrootlen).toNat = root.bytes.length + 2 := by
    have two : (2 : UInt8).toNat = 2 := rfl
    rw [UInt8.toNat_add, length, two]
    omega
  rw [loopRoom, UInt8.toNat_sub_of_le, sum]
  rwa [UInt8.le_iff_toNat_le, sum]

theorem start_written (text : 0 ∉ root.bytes) :
    start root = ⟨root.path.reverse, 0⟩ := by
  rw [start, strncpy_eq text]
  rfl

theorem absolute_path (root : WwwRoot) :
    [isoSlash] <:+ root.path.reverse := by
  rw [WwwRoot.path, List.reverse_cons]
  exact List.suffix_append _ _

theorem Confining.held (confining : Confining root maxlen) :
    Held root.path.reverse (loopRoom root maxlen) := by
  have room := loopRoom_toNat confining.room
  rcases confining.ending with slash | ⟨small, single, double⟩
  · exact .inl (List.reverse_prefix.mpr slash)
  · refine .inr ⟨by omega, fun found => single ?_, fun found => double ?_⟩
    · exact List.reverse_prefix.mp found
    · exact List.reverse_prefix.mp found

theorem Confining.staysBelow
    (confining : Confining root maxlen) {request : List UInt8}
    (text : 0 ∉ request) : StaysBelow root maxlen request := by
  have room := loopRoom_toNat confining.room
  have fits := confining.room
  have length : root.path.reverse.length = root.bytes.length + 1 := by
    rw [List.length_reverse]
    rfl
  have enough : root.path.reverse.length + (loopRoom root maxlen).toNat <
      maxlen.toNat := by
    omega
  have below : Below root.path.reverse (loopRoom root maxlen)
      (start root) := by
    rw [start_written confining.text]
    refine ⟨⟨[], rfl, rfl, List.not_mem_nil⟩, Nat.zero_le _, ?_⟩
    rw [List.reverse_reverse]
    exact confining.settled
  have nonzero : 0 ∉ root.path.reverse := by
    rw [List.mem_reverse, WwwRoot.path, List.mem_cons, not_or]
    exact ⟨by decide, confining.text⟩
  obtain ⟨conv, looped, kept, normal⟩ :=
    convertLoop_below confining.held (absolute_path root) enough
      (request ++ [0]).length ⟨request, text, rfl⟩ (Nat.le_refl _) below
  obtain ⟨dest, found, bound, starts, named⟩ :=
    finish_below nonzero kept normal enough
  refine ⟨dest, ?_, bound, ?_, named⟩
  · have begins : (start root).written.length ≤ maxlen.toNat := by
      rw [start_written confining.text, length]
      omega
    rw [urlconvTofilename, if_pos begins, looped]
    exact found
  · rwa [List.reverse_reverse] at starts

/-! ## Prefixes that do not confine -/

theorem finalName_eq (room : UInt8) (conv : Conv) :
    ∃ name, finalName room conv = name ++ [0] := by
  rw [finalName]
  split
  next =>
    exact ⟨conv.written.tail.reverse ++
      [0x2f, 0x69, 0x6e, 0x64, 0x65, 0x78, 0x2e, 0x68, 0x74, 0x6d], by
        rw [List.append_assoc]
        rfl⟩
  next =>
    exact ⟨_, rfl⟩

theorem urlconvTofilename_some {source dest : List UInt8} {maxlen : UInt8}
    (found : urlconvTofilename root source maxlen = some dest) :
    ∃ conv, convertLoop maxlen.toNat (loopRoom root maxlen) source.length
        source (start root) = some conv ∧
      dest = finalName (loopRoom root maxlen) conv := by
  rw [urlconvTofilename] at found
  split at found
  next =>
    split at found
    next =>
      cases found
    next conv looped =>
      rw [finish] at found
      split at found
      next =>
        exact ⟨conv, looped, (Option.some.inj found).symm⟩
      next =>
        cases found
  next =>
    cases found

theorem length_fileName_le (name : List UInt8) :
    (fileName (name ++ [0])).length ≤ name.length := by
  induction name with
  | nil =>
      simp [fileName]
  | cons c name inductionHypothesis =>
      rw [fileName, List.cons_append, List.takeWhile_cons]
      split
      next =>
        exact Nat.succ_le_succ inductionHypothesis
      next =>
        exact Nat.zero_le _

/-- A name that is shorter than the prefix does not start with it. -/
theorem not_staysBelow {request : List UInt8}
    (short : ∀ conv, convertLoop maxlen.toNat (loopRoom root maxlen)
        (request ++ [0]).length (request ++ [0]) (start root) = some conv →
      conv.written.length ≤ root.bytes.length ∧
        (loopRoom root maxlen).toNat ≤ conv.len.toNat) :
    ¬ StaysBelow root maxlen request := by
  rintro ⟨dest, found, -, starts, -⟩
  obtain ⟨conv, looped, rfl⟩ := urlconvTofilename_some found
  obtain ⟨written, full⟩ := short conv looped
  have eleven : httpIndexHtm.length = 11 := rfl
  have plain : finalName (loopRoom root maxlen) conv =
      conv.written.reverse ++ [0] := by
    rw [finalName, if_neg]
    rintro ⟨-, index⟩
    rw [eleven] at index
    omega
  have length := starts.length_le
  rw [plain] at length
  have bound := length_fileName_le conv.written.reverse
  rw [List.length_reverse] at bound
  rw [WwwRoot.path, List.length_cons] at length
  omega

theorem convertLoop_end (size : Nat) (room : UInt8) (fuel : Nat)
    (conv : Conv) :
    convertLoop size room (fuel + 1) [0] conv =
      (endComponent conv).map Prod.snd := by
  have read : decode [0] = some (0, []) := by
    decide
  have zero : checked room 0 conv.len = 0 := by
    rw [checked, if_pos (.inl (by decide))]
  simp only [convertLoop, read, zero, convert]
  rw [if_pos (.inr trivial)]
  cases endComponent conv with
  | none =>
      rfl
  | some result =>
      obtain ⟨again, next⟩ := result
      cases again <;> rfl

theorem convertLoop_cons {size : Nat} {room : UInt8} {conv : Conv} {c : UInt8}
    (fuel : Nat) (rest : List UInt8)
    (plain : decode (c :: rest) = some (c, rest))
    (printable : ¬ (c < 0x20 ∨ 0x7e < c)) (short : conv.len < room)
    (inside : conv.written.length < size)
    (ready : c = isoSlash → endComponent conv = some (false, conv)) :
    convertLoop size room (fuel + 1) (c :: rest) conv =
      convertLoop size room fuel rest
        ⟨c :: conv.written, conv.len + 1⟩ := by
  have nonzero : c ≠ 0 := by
    rintro rfl
    exact printable (.inl (by decide))
  have same : checked room c conv.len = c := by
    rw [checked, if_neg printable, if_neg (UInt8.not_le.mpr short)]
  have stored : put size c conv = some ⟨c :: conv.written, conv.len + 1⟩ := by
    rw [put, if_neg nonzero, if_pos inside]
  have converted : convert size c conv =
      some ⟨c :: conv.written, conv.len + 1⟩ := by
    rw [convert]
    split
    next special =>
      rw [ready (special.resolve_right nonzero)]
      exact stored
    next =>
      exact stored
  simp only [convertLoop, plain, same, converted]
  rw [if_neg nonzero]

section Escapes

variable {root : WwwRoot} {maxlen : UInt8} (text : 0 ∉ root.bytes)
  (fits : root.bytes.length + 2 ≤ maxlen.toNat)
include text fits

/-- A period at the end of the prefix is taken for a component. -/
theorem not_staysBelow_period
    (single : [isoPeriod, isoSlash] <+: root.path.reverse) :
    ¬ StaysBelow root maxlen [] := by
  apply not_staysBelow
  intro conv looped
  have room := loopRoom_toNat fits
  have _ := maxlen.toNat_lt
  obtain ⟨front, shape⟩ := single
  rw [start_written text] at looped
  have ended : endComponent ⟨root.path.reverse, 0⟩ =
      some (true, ⟨isoSlash :: front, 255⟩) := by
    rw [← shape]
    simp [endComponent, isoSlash, isoPeriod]
    rfl
  rw [List.nil_append, List.length_singleton, convertLoop_end, ended]
    at looped
  cases looped
  have length := congrArg List.length shape
  rw [List.length_reverse, WwwRoot.path] at length
  simp only [List.length_append, List.length_cons, List.length_nil] at length ⊢
  refine ⟨by omega, ?_⟩
  change _ ≤ 255
  omega

/-- Two periods at the end of the prefix are taken for a component. -/
theorem not_staysBelow_periods
    (double : [isoPeriod, isoPeriod, isoSlash] <+: root.path.reverse) :
    ¬ StaysBelow root maxlen [] := by
  apply not_staysBelow
  intro conv looped
  have room := loopRoom_toNat fits
  have small := maxlen.toNat_lt
  have bound := root.fits
  obtain ⟨front, shape⟩ := double
  rw [start_written text] at looped
  have ended : endComponent ⟨root.path.reverse, 0⟩ =
      (walkBack front 253).map fun back => (true, back) := by
    rw [← shape]
    simp [endComponent, isoSlash, isoPeriod]
    rfl
  rw [List.nil_append, List.length_singleton, convertLoop_end, ended,
    Option.map_map, Option.map_eq_some_iff] at looped
  obtain ⟨back, found, rfl⟩ := looped
  obtain ⟨dropped, earlier, -, split, -, less⟩ := walkBack_spec found
  have length := congrArg List.length shape
  rw [List.length_reverse, WwwRoot.path, split] at length
  simp only [List.length_append, List.length_cons, List.length_nil] at length
  have start : (253 : UInt8).toNat = 253 := rfl
  change back.written.length ≤ _ ∧ _ ≤ back.len.toNat
  have below := back.len.toNat_lt
  unfold Less at less
  omega

/-- Behind a prefix without a slash at its end, `/..` leads above it. -/
theorem not_staysBelow_parent
    (other : ¬ [isoSlash] <+: root.path.reverse)
    (single : ¬ [isoPeriod, isoSlash] <+: root.path.reverse)
    (double : ¬ [isoPeriod, isoPeriod, isoSlash] <+: root.path.reverse)
    (space : 2 < (loopRoom root maxlen).toNat) :
    ¬ StaysBelow root maxlen [isoSlash, isoPeriod, isoPeriod] := by
  apply not_staysBelow
  intro conv looped
  have room := loopRoom_toNat fits
  have small := maxlen.toNat_lt
  have bound := root.fits
  have length : root.path.reverse.length = root.bytes.length + 1 := by
    rw [List.length_reverse]
    rfl
  have open_end : endComponent ⟨root.path.reverse, 0⟩ =
      some (false, ⟨root.path.reverse, 0⟩) := by
    have starts : [isoSlash] <:+ (Conv.mk root.path.reverse 0).written :=
      absolute_path root
    rcases endComponent_cases starts with
      ⟨slash, -⟩ | ⟨front, shape, -⟩ | ⟨front, shape, -⟩ | ⟨-, equal⟩
    · exact absurd slash other
    · exact absurd ⟨front, shape.symm⟩ single
    · exact absurd ⟨front, shape.symm⟩ double
    · exact equal
  have one : (0 + 1 : UInt8).toNat = 1 := rfl
  have two : (0 + 1 + 1 : UInt8).toNat = 2 := rfl
  rw [start_written text] at looped
  change convertLoop _ _ 4 [isoSlash, isoPeriod, isoPeriod, 0] _ = _ at looped
  rw [convertLoop_cons 3 _ (by decide) (by decide)
      (UInt8.lt_iff_toNat_lt.mpr (by change 0 < _; omega))
      (by change root.path.reverse.length < _; omega) (fun _ => open_end),
    convertLoop_cons 2 _ (by decide) (by decide)
      (UInt8.lt_iff_toNat_lt.mpr (by change 1 < _; omega))
      (by change root.path.reverse.length + 1 < _; omega)
      (fun same => absurd same (by decide)),
    convertLoop_cons 1 _ (by decide) (by decide)
      (UInt8.lt_iff_toNat_lt.mpr (by change 2 < _; omega))
      (by change root.path.reverse.length + 2 < _; omega)
      (fun same => absurd same (by decide)),
    convertLoop_end] at looped
  have ended : endComponent ⟨isoPeriod :: isoPeriod :: isoSlash ::
      root.path.reverse, 0 + 1 + 1 + 1⟩ =
      (walkBack root.path.reverse 0).map fun back => (true, back) := by
    simp [endComponent, isoSlash, isoPeriod]
  rw [ended, Option.map_map, Option.map_eq_some_iff] at looped
  obtain ⟨back, found, rfl⟩ := looped
  obtain ⟨dropped, earlier, -, split, starts, less⟩ := walkBack_spec found
  have some_dropped : dropped ≠ [] := by
    rintro rfl
    rw [List.nil_append, starts] at split
    exact other ⟨earlier, split.symm⟩
  have positive := List.length_pos_iff.mpr some_dropped
  rw [split, List.length_append] at length
  rw [starts, List.length_cons] at length
  have zero : (0 : UInt8).toNat = 0 := rfl
  change back.written.length ≤ _ ∧ _ ≤ back.len.toNat
  rw [starts, List.length_cons]
  have below := back.len.toNat_lt
  unfold Less at less
  omega

end Escapes

/-- Every request stays below the www root exactly when the prefix is
confining. -/
theorem staysBelow_iff_confining (root : WwwRoot) (maxlen : UInt8) :
    (∀ request, 0 ∉ request → StaysBelow root maxlen request) ↔
      Confining root maxlen := by
  constructor
  · intro all
    obtain ⟨dest, found, bound, starts, normal⟩ := all [] List.not_mem_nil
    have text : 0 ∉ root.bytes := by
      intro member
      have inside := starts.subset (List.mem_cons_of_mem isoSlash member)
      have nonzero := List.mem_takeWhile_imp inside
      exact absurd nonzero (by decide)
    have fits : root.bytes.length + 2 ≤ maxlen.toNat := by
      obtain ⟨conv, -, rfl⟩ := urlconvTofilename_some found
      obtain ⟨name, equal⟩ := finalName_eq (loopRoom root maxlen) conv
      have shorter := length_fileName_le name
      have length := starts.length_le
      rw [equal, List.length_append, List.length_singleton] at bound
      rw [WwwRoot.path, List.length_cons, equal] at length
      omega
    have room := loopRoom_toNat fits
    refine ⟨text, fits, normal.settled.of_infix starts.isInfix, ?_⟩
    by_contra escapes
    rw [not_or] at escapes
    obtain ⟨other, rest⟩ := escapes
    have reversed (component : List UInt8) :
        component <:+ root.path ↔
          component.reverse <+: root.path.reverse :=
      List.reverse_prefix.symm
    rw [reversed] at other
    by_cases single : [isoPeriod, isoSlash] <+: root.path.reverse
    · exact not_staysBelow_period text fits single (all [] List.not_mem_nil)
    by_cases double : [isoPeriod, isoPeriod, isoSlash] <+: root.path.reverse
    · exact not_staysBelow_periods text fits double (all [] List.not_mem_nil)
    apply not_staysBelow_parent text fits other single double
    · by_contra space
      apply rest
      refine ⟨by omega, ?_, ?_⟩
      · rwa [reversed]
      · rwa [reversed]
    · exact all _ (by decide)
  · intro confining request text
    exact confining.staysBelow text

/-- A www root without a slash at its end. -/
def bareRoot : WwwRoot := urlconvInit .empty (some [0x77, 0x77, 0x77])

theorem bareRoot_escaped :
    ¬ ∀ (root : WwwRoot) (maxlen : UInt8) (request : List UInt8),
      root.bytes.length < maxlen.toNat → 0 ∉ request →
        StaysBelow root maxlen request := by
  intro all
  have escapes : ¬ StaysBelow bareRoot 40 [isoSlash, isoPeriod, isoPeriod] :=
    not_staysBelow_parent (by decide) (by decide) (by decide) (by decide)
      (by decide) (by decide)
  exact escapes (all bareRoot 40 _ (by decide) (by decide))

end Contiki.Apps
