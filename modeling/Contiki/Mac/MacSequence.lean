import Contiki.Lib.Recency
import Mathlib.Data.List.Induction

/-!
# Duplicate frames

`core/net/mac/mac-sequence.c` keeps the last sequence number of the senders
that were heard most recently.
-/

namespace Contiki.Mac

open Contiki.Lib

/-- `struct seqno` -/
structure Seqno (Linkaddr : Type) where
  sender : Linkaddr
  seqno : UInt8

/-- The attributes of a frame in the packet buffer. -/
structure SeqFrame (Linkaddr : Type) where
  /-- `PACKETBUF_ADDR_SENDER` -/
  sender : Linkaddr
  /-- `PACKETBUF_ATTR_PACKET_ID` -/
  packetId : UInt16

namespace MacSequence

variable {Linkaddr : Type} [DecidableEq Linkaddr]

/-- `received_seqnos` before the first frame. -/
def init (linkaddrNull : Linkaddr) (maxSeqnos : Nat) :
    List (Seqno Linkaddr) :=
  List.replicate maxSeqnos { sender := linkaddrNull, seqno := 0 }

/-- `mac_sequence_is_duplicate` -/
def isDuplicate (frame : SeqFrame Linkaddr) : List (Seqno Linkaddr) → Bool
  | [] => false
  | entry :: rest =>
      if frame.sender = entry.sender then
        frame.packetId = entry.seqno.toUInt16
      else isDuplicate frame rest

/-- `i` behind the loop of `mac_sequence_register_seqno` that looks for the
sender. -/
def locate (sender : Linkaddr) : List (Seqno Linkaddr) → Nat
  | [] => 0
  | entry :: rest =>
      if sender = entry.sender then 1 else locate sender rest + 1

/-- The loop of `mac_sequence_register_seqno` that moves the entries, from
`j` on. -/
def shift (table : List (Seqno Linkaddr)) : Nat → List (Seqno Linkaddr)
  | 0 => table
  | j + 1 =>
      match table[j]? with
      | some entry => shift (table.set (j + 1) entry) j
      | none => shift table j

/-- `mac_sequence_register_seqno` -/
def registerSeqno (table : List (Seqno Linkaddr))
    (frame : SeqFrame Linkaddr) : List (Seqno Linkaddr) :=
  let i := locate frame.sender table
  (shift table (i - 1)).set 0
    { sender := frame.sender, seqno := frame.packetId.toUInt8 }

/-! ## Registering -/

omit [DecidableEq Linkaddr] in
theorem length_shift (table : List (Seqno Linkaddr)) (j : Nat) :
    (shift table j).length = table.length := by
  induction j generalizing table with
  | zero =>
      rfl
  | succ j inductionHypothesis =>
      unfold shift
      split
      · rw [inductionHypothesis, List.length_set]
      · rw [inductionHypothesis]

omit [DecidableEq Linkaddr] in
/-- The entries up to `j` move by one place. -/
theorem getElem?_shift (table : List (Seqno Linkaddr)) (j k : Nat)
    (inside : j < table.length) :
    (shift table j)[k + 1]? =
      if k < j then table[k]? else table[k + 1]? := by
  induction j generalizing table with
  | zero =>
      rw [if_neg (Nat.not_lt_zero k)]
      rfl
  | succ j inductionHypothesis =>
      have before : j < table.length := Nat.lt_of_succ_lt inside
      unfold shift
      rw [List.getElem?_eq_getElem before]
      dsimp only
      rw [inductionHypothesis _ (by rw [List.length_set]; exact before)]
      rcases Nat.lt_trichotomy k j with less | rfl | greater
      · rw [if_pos less, if_pos (Nat.lt_succ_of_lt less),
          List.getElem?_set_ne (by omega)]
      · rw [if_neg (Nat.lt_irrefl k), if_pos (Nat.lt_succ_self k),
          List.getElem?_set_self inside, List.getElem?_eq_getElem before]
      · rw [if_neg (Nat.lt_asymm greater), if_neg (by omega),
          List.getElem?_set_ne (by omega)]

theorem locate_eq (sender : Linkaddr) (table : List (Seqno Linkaddr)) :
    locate sender table =
      min (table.findIdx (fun entry => entry.sender = sender) + 1)
        table.length := by
  induction table with
  | nil =>
      rfl
  | cons entry rest inductionHypothesis =>
      unfold locate
      rw [List.findIdx_cons, inductionHypothesis, List.length_cons]
      by_cases same : sender = entry.sender
      · rw [if_pos same, decide_eq_true same.symm, cond_true]
        omega
      · rw [if_neg same, decide_eq_false (Ne.symm same), cond_false]
        omega

/-- The new entry replaces the one of its sender, or else the last one. -/
theorem registerSeqno_eq {table : List (Seqno Linkaddr)} {size : Nat}
    (full : table.length = size + 1) (frame : SeqFrame Linkaddr) :
    registerSeqno table frame =
      { sender := frame.sender, seqno := frame.packetId.toUInt8 } ::
        table.eraseIdx
          (min (table.findIdx fun entry => entry.sender = frame.sender)
            size) := by
  have place : locate frame.sender table - 1 =
      min (table.findIdx fun entry => entry.sender = frame.sender) size := by
    rw [locate_eq, full]
    omega
  have inside : locate frame.sender table - 1 < table.length := by
    rw [place, full]
    omega
  unfold registerSeqno
  apply List.ext_getElem?
  intro k
  cases k with
  | zero =>
      have nonempty : 0 < (shift table
          (locate frame.sender table - 1)).length := by
        rw [length_shift, full]
        exact Nat.succ_pos size
      simp [nonempty]
  | succ k =>
      rw [List.getElem?_set_ne (Nat.zero_ne_add_one k),
        getElem?_shift table _ k inside, List.getElem?_cons_succ,
        List.getElem?_eraseIdx, place]

/-! ## The table -/

def entryOf (frame : SeqFrame Linkaddr) : Seqno Linkaddr where
  sender := frame.sender
  seqno := frame.packetId.toUInt8

/-- The entries for a history of registered frames, the latest first. -/
def entries (history : List (SeqFrame Linkaddr)) : List (Seqno Linkaddr) :=
  Recency.latest Seqno.sender (history.map entryOf)

/-- The table has the entries of the senders that were registered last. -/
def Keeps (linkaddrNull : Linkaddr) (maxSeqnos : Nat)
    (history : List (SeqFrame Linkaddr)) (table : List (Seqno Linkaddr)) :
    Prop :=
  table =
    (entries history ++ init linkaddrNull maxSeqnos).take maxSeqnos

variable {linkaddrNull : Linkaddr} {maxSeqnos : Nat}
  {history : List (SeqFrame Linkaddr)} {table : List (Seqno Linkaddr)}
  {frame : SeqFrame Linkaddr}

theorem keeps_init (linkaddrNull : Linkaddr) (maxSeqnos : Nat) :
    Keeps linkaddrNull maxSeqnos [] (init linkaddrNull maxSeqnos) := by
  unfold Keeps init
  exact (List.take_of_length_le
    (Nat.le_of_eq List.length_replicate)).symm

theorem init_sender (own : frame.sender ≠ linkaddrNull) (maxSeqnos : Nat) :
    ∀ entry ∈ init linkaddrNull maxSeqnos,
      ¬ decide (entry.sender = frame.sender) = true := by
  intro entry member
  rw [List.eq_of_mem_replicate member, decide_eq_true_eq]
  exact own.symm

theorem Keeps.registerSeqno
    (keeps : Keeps linkaddrNull maxSeqnos history table)
    (own : frame.sender ≠ linkaddrNull) :
    Keeps linkaddrNull maxSeqnos (frame :: history)
      (registerSeqno table frame) := by
  cases maxSeqnos with
  | zero =>
      have empty : table = [] := keeps
      unfold Keeps
      rw [empty]
      rfl
  | succ size =>
      have full : table.length = size + 1 := by
        rw [keeps]
        simp [init]
      have unused : (init linkaddrNull (size + 1)).eraseP
          (fun entry => entry.sender = frame.sender) =
            init linkaddrNull (size + 1) :=
        List.eraseP_of_forall_not (init_sender own (size + 1))
      have erased : (entries history ++ init linkaddrNull (size + 1)).eraseP
          (fun entry => entry.sender = frame.sender) =
            (entries history).eraseP
              (fun entry => entry.sender = frame.sender) ++
                init linkaddrNull (size + 1) := by
        rw [List.eraseP_append, unused]
        split
        · rfl
        · next none =>
            rw [List.eraseP_of_forall_not]
            intro entry member isSender
            exact none (List.any_eq_true.mpr ⟨entry, member, isSender⟩)
      have latest : entries (frame :: history) = entryOf frame ::
          (entries history).eraseP
            fun entry => entry.sender = frame.sender := rfl
      unfold Keeps at keeps ⊢
      rw [registerSeqno_eq full, keeps, ← Recency.take_eraseP, erased,
        latest, List.cons_append, List.take_succ_cons]
      rfl

theorem keeps_run (linkaddrNull : Linkaddr) (maxSeqnos : Nat)
    (frames : List (SeqFrame Linkaddr))
    (own : ∀ frame ∈ frames, frame.sender ≠ linkaddrNull) :
    Keeps linkaddrNull maxSeqnos frames.reverse
      (frames.foldl registerSeqno (init linkaddrNull maxSeqnos)) := by
  induction frames using List.reverseRecOn with
  | nil =>
      exact keeps_init linkaddrNull maxSeqnos
  | append_singleton frames frame inductionHypothesis =>
      have before := inductionHypothesis fun other member =>
        own other (List.mem_append_left _ member)
      rw [List.foldl_concat, List.reverse_concat]
      exact before.registerSeqno
        (own frame (List.mem_append_right _ List.mem_cons_self))

/-! ## Duplicates -/

theorem isDuplicate_eq (frame : SeqFrame Linkaddr)
    (table : List (Seqno Linkaddr)) :
    isDuplicate frame table =
      (table.find? fun entry => entry.sender = frame.sender).any
        fun entry => frame.packetId = entry.seqno.toUInt16 := by
  induction table with
  | nil =>
      rfl
  | cons entry rest inductionHypothesis =>
      unfold isDuplicate
      rw [List.find?_cons, inductionHypothesis]
      by_cases same : frame.sender = entry.sender
      · rw [if_pos same, decide_eq_true same.symm]
        rfl
      · rw [if_neg same, decide_eq_false (Ne.symm same)]

omit [DecidableEq Linkaddr] in
theorem Keeps.find? [DecidableEq Linkaddr]
    (keeps : Keeps linkaddrNull maxSeqnos history table)
    (own : frame.sender ≠ linkaddrNull) :
    (table.find? fun entry => entry.sender = frame.sender) =
      ((entries history).take maxSeqnos).find?
        fun entry => entry.sender = frame.sender := by
  have unused := init_sender own maxSeqnos
  rw [keeps, List.take_append, List.find?_append,
    List.find?_eq_none.mpr fun entry member =>
      unused entry (List.mem_of_mem_take member), Option.or_none]

/-- What the 802.15.4 framer sets: a sender, and a sequence number of eight
bits. -/
structure Framed (linkaddrNull : Linkaddr) (frame : SeqFrame Linkaddr) :
    Prop where
  own : frame.sender ≠ linkaddrNull
  byte : frame.packetId < 256

omit [DecidableEq Linkaddr] in
theorem Framed.toUInt16_seqno (framed : Framed linkaddrNull frame) :
    (entryOf frame).seqno.toUInt16 = frame.packetId := by
  unfold entryOf
  apply UInt16.toNat.inj
  have byte := UInt16.lt_iff_toNat_lt.mp framed.byte
  simp only [UInt8.toNat_toUInt16, UInt16.toNat_toUInt8]
  exact Nat.mod_eq_of_lt byte

/-- The senders that were registered last, each of them once. -/
def recentSenders (maxSeqnos : Nat) (frames : List (SeqFrame Linkaddr)) :
    List Linkaddr :=
  (frames.map SeqFrame.sender).reverse.eraseDups.take maxSeqnos

/-- The sequence number that was last registered for a sender. -/
def lastRegistered (frames : List (SeqFrame Linkaddr))
    (sender : Linkaddr) : Option UInt16 :=
  (frames.reverse.find? fun registered => registered.sender = sender).map
    SeqFrame.packetId

theorem senders_entries (frames : List (SeqFrame Linkaddr)) :
    (entries frames.reverse).map Seqno.sender =
      (frames.map SeqFrame.sender).reverse.eraseDups := by
  unfold entries
  rw [Recency.map_latest, List.map_map, List.map_reverse]
  rfl

theorem find?_entries (frames : List (SeqFrame Linkaddr))
    (sender : Linkaddr) :
    ((entries frames.reverse).find? fun entry => entry.sender = sender) =
      (frames.reverse.find? fun registered =>
        registered.sender = sender).map entryOf := by
  unfold entries
  rw [Recency.find?_latest, List.find?_map]
  rfl

/-- A frame is a duplicate if and only if its sender is among those that were
registered last and its sequence number is the last one of this sender. -/
theorem isDuplicate_iff (linkaddrNull : Linkaddr) (maxSeqnos : Nat)
    (frames : List (SeqFrame Linkaddr)) (frame : SeqFrame Linkaddr)
    (allFramed : ∀ registered ∈ frames, Framed linkaddrNull registered)
    (framed : Framed linkaddrNull frame) :
    isDuplicate frame
        (frames.foldl registerSeqno (init linkaddrNull maxSeqnos)) = true ↔
      frame.sender ∈ recentSenders maxSeqnos frames ∧
        lastRegistered frames frame.sender = some frame.packetId := by
  have keeps := keeps_run linkaddrNull maxSeqnos frames
    fun registered member => (allFramed registered member).own
  rw [isDuplicate_eq, keeps.find? framed.own, Recency.find?_take,
    senders_entries, find?_entries]
  unfold recentSenders lastRegistered
  by_cases recent : frame.sender ∈
      (frames.map SeqFrame.sender).reverse.eraseDups.take maxSeqnos
  · rw [if_pos recent]
    cases found : frames.reverse.find? fun registered =>
        registered.sender = frame.sender with
    | none =>
        simp
    | some registered =>
        have member := List.mem_reverse.mp (List.mem_of_find?_eq_some found)
        rw [Option.map_some, Option.any_some, decide_eq_true_eq,
          (allFramed registered member).toUInt16_seqno, Option.map_some,
          Option.some.injEq, and_iff_right recent]
        exact eq_comm
  · rw [if_neg recent]
    exact iff_of_false Bool.false_ne_true fun both => recent both.1

/-- Two senders, and a repeated frame of the first one. -/
theorem isDuplicate_repeated :
    isDuplicate ⟨5, 200⟩
        ([⟨5, 200⟩, ⟨6, 7⟩].foldl registerSeqno
          (init (0 : UInt16) 16)) = true :=
  (isDuplicate_iff 0 16 [⟨5, 200⟩, ⟨6, 7⟩] ⟨5, 200⟩
    (by
      intro registered member
      rcases List.mem_cons.mp member with rfl | member
      · exact ⟨by decide, by decide⟩
      · rw [List.mem_singleton.mp member]
        exact ⟨by decide, by decide⟩)
    ⟨by decide, by decide⟩).mpr (by decide +kernel)

end MacSequence

end Contiki.Mac
