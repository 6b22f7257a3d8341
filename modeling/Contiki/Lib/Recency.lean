import Mathlib.Data.List.Basic

/-!
# Most recent items

A history has its latest item first.  Of all items with one key only the
latest one counts.
-/

namespace Contiki.Lib.Recency

/-! ## Distinct items -/

section Distinct

variable {α : Type} [DecidableEq α]

theorem filter_ne_filter {kept : α → Bool} {dropped : α}
    (isDropped : ¬ kept dropped) (items : List α) :
    (items.filter fun item => !item == dropped).filter kept =
      items.filter kept := by
  rw [List.filter_filter]
  apply List.filter_congr
  intro item _
  by_cases same : item = dropped
  · rw [same, Bool.eq_false_iff.mpr isDropped, Bool.false_and]
  · rw [beq_false_of_ne same, Bool.not_false, Bool.and_true]

theorem eraseDups_filter (kept : α → Bool) (items : List α) :
    (items.filter kept).eraseDups = items.eraseDups.filter kept := by
  induction isSize : items.length using Nat.strongRecOn
    generalizing items with
  | _ size inductionHypothesis =>
      cases items with
      | nil =>
          rfl
      | cons first rest =>
          have shorter : (rest.filter fun item => !item == first).length <
              size := by
            rw [← isSize]
            exact Nat.lt_succ_of_le (List.length_filter_le _ _)
          have filtered := inductionHypothesis _ shorter _ rfl
          rw [List.eraseDups_cons, List.filter_cons, List.filter_cons,
            ← filtered]
          by_cases isKept : kept first
          · rw [if_pos isKept, if_pos isKept, List.eraseDups_cons,
              List.filter_comm]
          · rw [if_neg isKept, if_neg isKept, filter_ne_filter isKept]

end Distinct

/-! ## Items with keys -/

variable {Item Key : Type} [DecidableEq Key] (key : Item → Key)

/-- The latest item for each key, the most recent one first. -/
def latest : List Item → List Item
  | [] => []
  | item :: older =>
      item :: (latest older).eraseP fun other => key other = key item

variable {key}

theorem latest_cons (item : Item) (older : List Item) :
    latest key (item :: older) =
      item :: (latest key older).eraseP fun other => key other = key item :=
  rfl

/-- No two of the latest items have one key, so only one can be erased. -/
theorem eraseP_eq_filter {items : List Item}
    (distinct : (items.map key).Nodup) (erased : Key) :
    (items.eraseP fun other => key other = erased) =
      items.filter fun other => !key other == erased := by
  induction items with
  | nil =>
      rfl
  | cons item rest inductionHypothesis =>
      rw [List.map_cons, List.nodup_cons] at distinct
      rw [List.filter_cons]
      by_cases same : key item = erased
      · have others : ∀ other ∈ rest, (!key other == erased) = true := by
          intro other isOther
          rw [Bool.not_eq_eq_eq_not, Bool.not_true, beq_eq_false_iff_ne]
          intro equal
          apply distinct.1
          rw [same, ← equal]
          exact List.mem_map_of_mem isOther
        rw [List.eraseP_cons_of_pos (by simp [same]), if_neg (by simp [same]),
          List.filter_eq_self.mpr others]
      · rw [List.eraseP_cons_of_neg (by simp [same]), if_pos (by simp [same]),
          inductionHypothesis distinct.2]

variable (history : List Item)

theorem nodup_latest : ((latest key history).map key).Nodup := by
  induction history with
  | nil =>
      exact List.nodup_nil
  | cons item older inductionHypothesis =>
      rw [latest_cons, List.map_cons, List.nodup_cons,
        eraseP_eq_filter inductionHypothesis]
      constructor
      · simp
      · exact inductionHypothesis.sublist
          (List.filter_sublist.map key)

theorem map_latest :
    (latest key history).map key = (history.map key).eraseDups := by
  induction history with
  | nil =>
      rfl
  | cons item older inductionHypothesis =>
      rw [List.map_cons, List.eraseDups_cons, eraseDups_filter,
        ← inductionHypothesis, List.filter_map, latest_cons, List.map_cons,
        eraseP_eq_filter (nodup_latest older)]
      rfl

/-- The latest item with a key is the first one of the history. -/
theorem find?_latest (wanted : Key) :
    ((latest key history).find? fun item => key item = wanted) =
      history.find? fun item => key item = wanted := by
  induction history with
  | nil =>
      rfl
  | cons item older inductionHypothesis =>
      rw [latest_cons, List.find?_cons, List.find?_cons]
      by_cases same : key item = wanted
      · simp only [same, decide_true]
      · simp only [same, decide_false]
        rw [← inductionHypothesis, eraseP_eq_filter (nodup_latest older),
          List.find?_filter]
        congr 1
        funext other
        by_cases isWanted : key other = wanted
        · simp [isWanted, Ne.symm same]
        · simp [isWanted]

/-! ## Shortened lists -/

/-- Erasing at the latest at the last place of a list that is cut is erasing
in the whole list. -/
theorem take_eraseP (erased : Item → Bool) (items : List Item) (count : Nat) :
    (items.eraseP erased).take count =
      (items.take (count + 1)).eraseIdx
        (min ((items.take (count + 1)).findIdx erased) count) := by
  induction items generalizing count with
  | nil =>
      simp
  | cons item rest inductionHypothesis =>
      rw [List.take_succ_cons, List.findIdx_cons]
      by_cases isErased : erased item
      · rw [List.eraseP_cons_of_pos isErased, isErased, cond_true,
          Nat.zero_min, List.eraseIdx_cons_zero]
      · rw [List.eraseP_cons_of_neg isErased, Bool.eq_false_iff.mpr isErased,
          cond_false]
        cases count with
        | zero =>
            simp
        | succ count =>
            rw [List.take_succ_cons, inductionHypothesis, Nat.succ_min_succ,
              List.eraseIdx_cons_succ]

/-- What is found in the beginning of a list is found first in the list. -/
theorem find?_take (items : List Item) (wanted : Key) (count : Nat) :
    ((items.take count).find? fun item => key item = wanted) =
      if wanted ∈ (items.map key).take count then
        items.find? fun item => key item = wanted
      else none := by
  induction items generalizing count with
  | nil =>
      simp
  | cons item rest inductionHypothesis =>
      cases count with
      | zero =>
          simp
      | succ count =>
          rw [List.take_succ_cons, List.map_cons, List.take_succ_cons,
            List.find?_cons, List.find?_cons]
          by_cases same : key item = wanted
          · simp [same]
          · simp [same, Ne.symm same, inductionHypothesis]

end Contiki.Lib.Recency
