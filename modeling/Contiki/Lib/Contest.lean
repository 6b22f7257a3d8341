import Mathlib.Data.List.Basic
import Mathlib.Data.List.Perm.Basic

/-!
# Contests with a favourite

The items of a list are compared one after the other with the best one so
far.  The lighter one wins, and the later one of equal weights, but one
favourite has rules of its own, so the order of the list matters.
-/

namespace Contiki.Lib

/-- The weights, and when the favourite loses: `losesLater` to an earlier
item, `losesFirst` to a later one. -/
structure Contest (Item : Type) where
  weight : Item → Nat
  favourite : Option Item
  losesLater : Item → Bool
  losesFirst : Item → Bool
  /-- A lighter item wins as well. -/
  losesLater_of_le : ∀ item lighter, losesLater item →
    weight lighter ≤ weight item → losesLater lighter

namespace Contest

variable {Item : Type} [DecidableEq Item] (contest : Contest Item)

/-- The better one of the best item so far and the next one. -/
def better (best next : Item) : Item :=
  if some best = contest.favourite then
    if contest.losesFirst next then next else best
  else if some next = contest.favourite then
    if contest.losesLater best then best else next
  else if contest.weight best < contest.weight next then best
  else next

/-- The winner among a first item and others. -/
def winner (best : Item) (items : List Item) : Item :=
  items.foldl contest.better best

/-- The winner, if there is an item. -/
def select : List Item → Option Item
  | [] => none
  | first :: items => some (contest.winner first items)

/-- The favourite loses to the item in both orders. -/
def Beats (item : Item) : Prop :=
  contest.losesLater item ∧ contest.losesFirst item

/-- The favourite does not win against the item in both orders. -/
def Threatens (item : Item) : Prop :=
  contest.losesLater item ∨ contest.losesFirst item

variable {contest} {best next item : Item} {items : List Item}

/-! ## Winners -/

theorem better_mem (contest : Contest Item) (best next : Item) :
    contest.better best next = best ∨ contest.better best next = next := by
  unfold better
  split_ifs <;> simp

theorem winner_cons (contest : Contest Item) (best next : Item)
    (items : List Item) :
    contest.winner best (next :: items) =
      contest.winner (contest.better best next) items := rfl

theorem winner_append (contest : Contest Item) (best : Item)
    (items others : List Item) :
    contest.winner best (items ++ others) =
      contest.winner (contest.winner best items) others :=
  List.foldl_append ..

theorem winner_mem (contest : Contest Item) (best : Item)
    (items : List Item) : contest.winner best items ∈ best :: items := by
  induction items generalizing best with
  | nil =>
      exact List.mem_cons_self
  | cons next items inductionHypothesis =>
      rw [winner_cons]
      have member := inductionHypothesis (contest.better best next)
      rw [List.mem_cons] at member ⊢
      rw [List.mem_cons]
      cases better_mem contest best next with
      | inl isBest =>
          rw [isBest] at member ⊢
          tauto
      | inr isNext =>
          rw [isNext] at member ⊢
          tauto

theorem winner_stays
    (stays : ∀ next ∈ items, contest.better best next = best) :
    contest.winner best items = best := by
  induction items with
  | nil =>
      rfl
  | cons next items inductionHypothesis =>
      rw [winner_cons, stays next List.mem_cons_self]
      exact inductionHypothesis fun other member =>
        stays other (List.mem_cons_of_mem next member)

theorem select_mem (contest : Contest Item)
    (isWinner : contest.select items = some best) : best ∈ items := by
  cases items with
  | nil =>
      cases isWinner
  | cons first items =>
      rw [← Option.some.inj isWinner]
      exact winner_mem contest first items

theorem select_append (isWinner : contest.select items = some best)
    (others : List Item) :
    contest.select (items ++ others) = some (contest.winner best others) := by
  cases items with
  | nil =>
      cases isWinner
  | cons first items =>
      rw [← Option.some.inj isWinner, ← winner_append]
      rfl

theorem exists_select (contest : Contest Item) (notEmpty : items ≠ []) :
    ∃ best, contest.select items = some best := by
  cases items with
  | nil =>
      exact absurd rfl notEmpty
  | cons first items =>
      exact ⟨_, rfl⟩

/-! ## The invariant of a contest -/

/-- What is known of the best of the items so far: as the favourite it is
beaten by none of them, else it is at most as heavy as all that beat the
favourite, and as all others if the favourite was not among them. -/
structure Leads (contest : Contest Item) (seen : List Item) (best : Item) :
    Prop where
  member : best ∈ seen
  favourite : some best = contest.favourite →
    ∀ item ∈ seen, some item ≠ contest.favourite → ¬ contest.Beats item
  other : some best ≠ contest.favourite →
    ∀ item ∈ seen, some item ≠ contest.favourite →
      (contest.Beats item ∨
        ∀ other ∈ seen, some other ≠ contest.favourite) →
      contest.weight best ≤ contest.weight item

omit [DecidableEq Item] in
theorem leads_single (contest : Contest Item) (best : Item) :
    contest.Leads [best] best where
  member := List.mem_singleton_self best
  favourite := fun isFavourite _ member other =>
    absurd ((List.mem_singleton.1 member) ▸ isFavourite) other
  other := fun _ _ member _ _ =>
    Nat.le_of_eq
      (congrArg contest.weight (List.mem_singleton.1 member).symm)

variable {seen : List Item}

theorem Leads.step_favourite (leads : contest.Leads seen best)
    (isFavourite : some best = contest.favourite) (next : Item) :
    contest.Leads (seen ++ [next]) (contest.better best next) := by
  have unbeaten := leads.favourite isFavourite
  have isBest : best ∈ seen ++ [next] :=
    List.mem_append_left [next] leads.member
  unfold better
  rw [if_pos isFavourite]
  split
  · next loses =>
      refine ⟨List.mem_append_right seen (List.mem_singleton_self next),
        fun nextFavourite item member other => ?_,
        fun nextOther item member other beats => ?_⟩
      · rw [List.mem_append, List.mem_singleton] at member
        obtain member | rfl := member
        · exact unbeaten item member other
        · exact absurd nextFavourite other
      · rw [List.mem_append, List.mem_singleton] at member
        obtain member | rfl := member
        · cases beats with
          | inl beats =>
              exact absurd beats (unbeaten item member other)
          | inr absent =>
              exact absurd isFavourite (absent best isBest)
        · exact Nat.le_refl _
  · next keeps =>
      refine ⟨isBest, fun _ item member other => ?_,
        fun notFavourite => absurd isFavourite notFavourite⟩
      rw [List.mem_append, List.mem_singleton] at member
      obtain member | rfl := member
      · exact unbeaten item member other
      · exact fun beats => keeps beats.2

theorem Leads.step_next (leads : contest.Leads seen best)
    (isOther : some best ≠ contest.favourite)
    (nextFavourite : some next = contest.favourite) :
    contest.Leads (seen ++ [next]) (contest.better best next) := by
  unfold better
  rw [if_neg isOther, if_pos nextFavourite]
  split
  · next loses =>
      refine ⟨List.mem_append_left [next] leads.member,
        fun isFavourite => absurd isFavourite isOther,
        fun _ item member other beats => ?_⟩
      have beats : contest.Beats item := by
        cases beats with
        | inl beats =>
            exact beats
        | inr absent =>
            exact absurd nextFavourite (absent next
              (List.mem_append_right seen (List.mem_singleton_self next)))
      rw [List.mem_append, List.mem_singleton] at member
      obtain member | rfl := member
      · exact leads.other isOther item member other (Or.inl beats)
      · exact absurd nextFavourite other
  · next keeps =>
      refine ⟨List.mem_append_right seen (List.mem_singleton_self next),
        fun _ item member other beats => ?_,
        fun notFavourite => absurd nextFavourite notFavourite⟩
      rw [List.mem_append, List.mem_singleton] at member
      obtain member | rfl := member
      · have lighter := leads.other isOther item member other (Or.inl beats)
        exact keeps (contest.losesLater_of_le item best beats.1 lighter)
      · exact other nextFavourite

theorem Leads.step_other (leads : contest.Leads seen best)
    (isOther : some best ≠ contest.favourite)
    (nextOther : some next ≠ contest.favourite) :
    contest.Leads (seen ++ [next]) (contest.better best next) := by
  have before : ∀ item ∈ seen, some item ≠ contest.favourite →
      (contest.Beats item ∨
        ∀ other ∈ seen ++ [next], some other ≠ contest.favourite) →
      contest.weight best ≤ contest.weight item := by
    intro item member other beats
    refine leads.other isOther item member other (beats.imp_right ?_)
    exact fun absent other seenOther =>
      absent other (List.mem_append_left [next] seenOther)
  unfold better
  rw [if_neg isOther, if_neg nextOther]
  split
  · next lighter =>
      refine ⟨List.mem_append_left [next] leads.member,
        fun isFavourite => absurd isFavourite isOther,
        fun _ item member other beats => ?_⟩
      rw [List.mem_append, List.mem_singleton] at member
      obtain member | rfl := member
      · exact before item member other beats
      · exact Nat.le_of_lt lighter
  · next heavier =>
      refine ⟨List.mem_append_right seen (List.mem_singleton_self next),
        fun isFavourite => absurd isFavourite nextOther,
        fun _ item member other beats => ?_⟩
      rw [List.mem_append, List.mem_singleton] at member
      obtain member | rfl := member
      · exact Nat.le_trans (Nat.le_of_not_lt heavier)
          (before item member other beats)
      · exact Nat.le_refl _

theorem Leads.winner (leads : contest.Leads seen best) (items : List Item) :
    contest.Leads (seen ++ items) (contest.winner best items) := by
  induction items generalizing seen best with
  | nil =>
      rw [List.append_nil]
      exact leads
  | cons next items inductionHypothesis =>
      have step : contest.Leads (seen ++ [next])
          (contest.better best next) := by
        by_cases isFavourite : some best = contest.favourite
        · exact leads.step_favourite isFavourite next
        · by_cases nextFavourite : some next = contest.favourite
          · exact leads.step_next isFavourite nextFavourite
          · exact leads.step_other isFavourite nextFavourite
      rw [List.append_cons]
      exact inductionHypothesis step

theorem select_leads (isWinner : contest.select items = some best) :
    contest.Leads items best := by
  cases items with
  | nil =>
      cases isWinner
  | cons first items =>
      rw [← Option.some.inj isWinner]
      exact (leads_single contest first).winner items

/-! ## The favourite -/

variable {favourite : Item}

theorem better_favourite (isFavourite : contest.favourite = some favourite)
    (keeps : best ≠ favourite → ¬ contest.losesLater best) :
    contest.better best favourite = favourite := by
  unfold better
  rw [isFavourite]
  split
  · next same =>
      rw [Option.some.inj same]
      exact ite_self favourite
  · next different =>
      rw [if_pos rfl, if_neg (keeps fun same => different (same ▸ rfl))]

theorem favourite_better (isFavourite : contest.favourite = some favourite)
    (keeps : next ≠ favourite → ¬ contest.losesFirst next) :
    contest.better favourite next = favourite := by
  unfold better
  rw [if_pos isFavourite.symm]
  split
  · next loses =>
      by_contra different
      exact keeps different loses
  · rfl

theorem select_favourite (isWinner : contest.select items = some best)
    (isFavourite : contest.favourite = some favourite)
    (member : favourite ∈ items)
    (safe : ∀ item ∈ items, item ≠ favourite → ¬ contest.Threatens item) :
    best = favourite := by
  obtain ⟨front, rest, rfl⟩ := List.append_of_mem member
  have keeps : contest.winner favourite rest = favourite :=
    winner_stays fun next isNext => favourite_better isFavourite
      fun different loses => safe next (List.mem_append_right front
        (List.mem_cons_of_mem favourite isNext)) different (Or.inr loses)
  cases front with
  | nil =>
      rw [← Option.some.inj isWinner]
      exact keeps
  | cons first front =>
      have isBest : contest.winner first (front ++ favourite :: rest) =
          best := Option.some.inj isWinner
      rw [winner_append, winner_cons, better_favourite isFavourite, keeps]
        at isBest
      · exact isBest.symm
      · intro different loses
        exact safe _ (List.mem_append_left _
          (winner_mem contest first front)) different (Or.inl loses)

/-! ## Orders of the items -/

def copies (item : Item) (items : List Item) : List Item :=
  items.filter fun other => other = item

def others (item : Item) (items : List Item) : List Item :=
  items.filter fun other => !decide (other = item)

theorem copies_perm (item : Item) (items : List Item) :
    (copies item items ++ others item items).Perm items :=
  List.filter_append_perm (fun other => decide (other = item)) items

theorem eq_of_mem_copies {other : Item} (member : other ∈ copies item items) :
    other = item := by
  have isCopy := (List.mem_filter.1 member).2
  exact of_decide_eq_true isCopy

theorem mem_others {other : Item} :
    other ∈ others item items ↔ other ∈ items ∧ other ≠ item := by
  unfold others
  rw [List.mem_filter, Bool.not_eq_true', decide_eq_false_iff_not]

theorem exists_copies (isItem : item ∈ items) :
    ∃ more, copies item items = item :: more := by
  have member : item ∈ copies item items :=
    List.mem_filter.2 ⟨isItem, decide_eq_true rfl⟩
  obtain ⟨first, more, split⟩ :=
    List.exists_cons_of_ne_nil (List.ne_nil_of_mem member)
  have isFirst : first ∈ copies item items := by
    rw [split]
    exact List.mem_cons_self
  rw [eq_of_mem_copies isFirst] at split
  exact ⟨more, split⟩

theorem winner_copies (isItem : item ∈ items)
    (wins : contest.better best item = item) :
    contest.winner best (copies item items) = item := by
  obtain ⟨more, split⟩ := exists_copies isItem
  have member := winner_mem contest item more
  rw [← split] at member
  rw [split, winner_cons, wins]
  exact eq_of_mem_copies member

theorem select_copies (isItem : item ∈ items) :
    contest.select (copies item items) = some item := by
  obtain ⟨more, split⟩ := exists_copies isItem
  have member := winner_mem contest item more
  rw [← split] at member
  rw [split]
  exact congrArg some (eq_of_mem_copies member)

theorem better_eq_next (bestOther : some best ≠ contest.favourite)
    (nextOther : some next ≠ contest.favourite)
    (light : contest.weight next ≤ contest.weight best) :
    contest.better best next = next := by
  unfold better
  rw [if_neg bestOther, if_neg nextOther, if_neg (Nat.not_lt.2 light)]

theorem exists_perm_select_ne
    (isFavourite : contest.favourite = some favourite)
    (isItem : item ∈ items) (different : item ≠ favourite)
    (threatens : contest.Threatens item) :
    ∃ order best, order.Perm items ∧ contest.select order = some best ∧
      best ≠ favourite := by
  have itemOther : some item ≠ contest.favourite := by
    rw [isFavourite]
    exact fun same => different (Option.some.inj same)
  have rest_ne : ∀ items : List Item,
      contest.winner item (others favourite items) ≠ favourite := by
    intro items isWinner
    have member := winner_mem contest item (others favourite items)
    rw [isWinner, List.mem_cons, mem_others] at member
    obtain same | ⟨-, absurd⟩ := member
    · exact different same.symm
    · exact absurd rfl
  have parts := copies_perm item items
  have restParts := copies_perm favourite (others item items)
  cases threatens with
  | inl losesLater =>
      have stays : contest.winner item
          (copies favourite (others item items)) = item := by
        refine winner_stays fun next isCopy => ?_
        rw [eq_of_mem_copies isCopy]
        unfold better
        rw [if_neg itemOther, if_pos isFavourite.symm, if_pos losesLater]
      refine ⟨copies item items ++ (copies favourite (others item items) ++
        others favourite (others item items)), _,
        (restParts.append_left _).trans parts,
        select_append (select_copies isItem) _, ?_⟩
      rw [winner_append, stays]
      exact rest_ne _
  | inr losesFirst =>
      by_cases member : favourite ∈ items
      · have isOther : item ∈ others favourite items :=
          mem_others.2 ⟨isItem, different⟩
        refine ⟨copies favourite items ++
          (copies item (others favourite items) ++
            others item (others favourite items)), _,
          ((copies_perm item _).append_left _).trans
            (copies_perm favourite items),
          select_append (select_copies member) _, ?_⟩
        have wins : contest.better favourite item = item := by
          unfold better
          rw [if_pos isFavourite.symm, if_pos losesFirst]
        rw [winner_append, winner_copies isOther wins]
        intro isWinner
        have inside := winner_mem contest item
          (others item (others favourite items))
        rw [isWinner, List.mem_cons, mem_others, mem_others] at inside
        obtain same | ⟨⟨-, absurd⟩, -⟩ := inside
        · exact different same.symm
        · exact absurd rfl
      · obtain ⟨best, isBest⟩ :=
          exists_select contest (List.ne_nil_of_mem isItem)
        refine ⟨items, best, List.Perm.refl items, isBest, ?_⟩
        rintro rfl
        exact member (select_mem contest isBest)

/-- The favourite wins in some order if it is beaten in both orders by no
item. -/
theorem exists_perm_select_favourite
    (isFavourite : contest.favourite = some favourite)
    (member : favourite ∈ items)
    (unbeaten : ∀ item ∈ items, item ≠ favourite → ¬ contest.Beats item) :
    ∃ order, order.Perm items ∧
      contest.select order = some favourite := by
  -- first the items that lose to a later favourite
  let weak := (others favourite items).filter fun item =>
    !contest.losesLater item
  let strong := (others favourite items).filter fun item =>
    !!contest.losesLater item
  have parts : (weak ++ strong).Perm (others favourite items) :=
    List.filter_append_perm (fun item => !contest.losesLater item) _
  refine ⟨weak ++ (copies favourite items ++ strong), ?_, ?_⟩
  · refine List.Perm.trans ?_ (copies_perm favourite items)
    refine List.Perm.trans ?_ (parts.append_left _)
    rw [← List.append_assoc, ← List.append_assoc]
    exact List.perm_append_comm.append_right strong
  have keeps : contest.winner favourite strong = favourite := by
    refine winner_stays fun next isNext => favourite_better isFavourite
      fun different loses => ?_
    obtain ⟨isOther, losesLater⟩ := List.mem_filter.1 isNext
    rw [Bool.not_not] at losesLater
    exact unbeaten next (mem_others.1 isOther).1 different
      ⟨losesLater, loses⟩
  by_cases isEmpty : weak = []
  · rw [isEmpty, List.nil_append, select_append (select_copies member),
      keeps]
  · obtain ⟨best, isBest⟩ := exists_select contest isEmpty
    have wins : contest.better best favourite = favourite := by
      refine better_favourite isFavourite fun _ loses => ?_
      have isWeak := (List.mem_filter.1 (select_mem contest isBest)).2
      rw [loses] at isWeak
      exact Bool.noConfusion isWeak
    rw [select_append isBest, winner_append, winner_copies member wins,
      keeps]

/-- An item wins in some order if it is at most as heavy as all that beat the
favourite in both orders, and there is one. -/
theorem exists_perm_select_of_beats
    (isFavourite : contest.favourite = some favourite)
    (member : favourite ∈ items)
    (isItem : item ∈ items) (different : item ≠ favourite)
    (beaten : ∃ other ∈ items, other ≠ favourite ∧ contest.Beats other)
    (light : ∀ other ∈ items, other ≠ favourite → contest.Beats other →
      contest.weight item ≤ contest.weight other) :
    ∃ order, order.Perm items ∧ contest.select order = some item := by
  -- the favourite wins against all but those that beat it
  let beats : Item → Bool := fun other => decide (other ≠ favourite) &&
    (contest.losesLater other && contest.losesFirst other)
  have beats_iff : ∀ other, beats other = true ↔
      other ≠ favourite ∧ contest.Beats other := by
    intro other
    simp [beats, Beats]
  let rest := (others item items).filter fun other => !beats other
  let rivals := (others item items).filter fun other => !!beats other
  have restParts : (rest ++ rivals).Perm (others item items) :=
    List.filter_append_perm (fun other => !beats other) _
  have inRest : favourite ∈ rest := by
    refine List.mem_filter.2 ⟨mem_others.2 ⟨member, different.symm⟩, ?_⟩
    rw [Bool.not_eq_true', ← Bool.not_eq_true, beats_iff]
    exact fun both => both.1 rfl
  obtain ⟨order, perm, wins⟩ := exists_perm_select_favourite isFavourite
    inRest (by
      intro other isOther notFavourite isBeaten
      have isRest := (List.mem_filter.1 isOther).2
      rw [(beats_iff other).2 ⟨notFavourite, isBeaten⟩] at isRest
      exact Bool.noConfusion isRest)
  have itemOther : some item ≠ contest.favourite := by
    rw [isFavourite]
    exact fun same => different (Option.some.inj same)
  refine ⟨(order ++ rivals) ++ copies item items, ?_, ?_⟩
  · refine List.Perm.trans ?_ (copies_perm item items)
    refine List.perm_append_comm.trans (List.Perm.append_left _ ?_)
    exact (perm.append_right rivals).trans restParts
  have last : contest.better (contest.winner favourite rivals) item =
      item := by
    cases isRivals : rivals with
    | nil =>
        obtain ⟨other, isOther, notFavourite, isBeaten⟩ := beaten
        have same : other = item := by
          by_contra notItem
          have inRivals : other ∈ rivals := List.mem_filter.2
            ⟨mem_others.2 ⟨isOther, notItem⟩, by
              rw [(beats_iff other).2 ⟨notFavourite, isBeaten⟩]
              rfl⟩
          rw [isRivals] at inRivals
          cases inRivals
        rw [same] at isBeaten
        change contest.better favourite item = item
        unfold better
        rw [if_pos isFavourite.symm, if_pos isBeaten.2]
    | cons rival more =>
        have isRival : ∀ other ∈ rival :: more,
            other ∈ items ∧ other ≠ favourite ∧ contest.Beats other := by
          intro other isOther
          rw [← isRivals] at isOther
          obtain ⟨inOthers, isBeaten⟩ := List.mem_filter.1 isOther
          rw [Bool.not_not, beats_iff] at isBeaten
          exact ⟨(mem_others.1 inOthers).1, isBeaten⟩
        have first : contest.better favourite rival = rival := by
          unfold better
          rw [if_pos isFavourite.symm,
            if_pos (isRival rival List.mem_cons_self).2.2.2]
        rw [winner_cons, first]
        obtain ⟨isWinner, notFavourite, isBeaten⟩ := isRival _
          (winner_mem contest rival more)
        refine better_eq_next ?_ itemOther (light _ isWinner notFavourite
          isBeaten)
        rw [isFavourite]
        exact fun same => notFavourite (Option.some.inj same)
  rw [select_append (select_append wins rivals),
    winner_copies isItem last]

/-- Without the favourite an item of the least weight wins in some order. -/
theorem exists_perm_select_of_light
    (absent : ∀ other ∈ items, some other ≠ contest.favourite)
    (isItem : item ∈ items)
    (light : ∀ other ∈ items, contest.weight item ≤ contest.weight other) :
    ∃ order, order.Perm items ∧ contest.select order = some item := by
  refine ⟨others item items ++ copies item items,
    List.perm_append_comm.trans (copies_perm item items), ?_⟩
  by_cases isEmpty : others item items = []
  · rw [isEmpty, List.nil_append, select_copies isItem]
  · obtain ⟨best, isBest⟩ := exists_select contest isEmpty
    have inItems := (mem_others.1 (select_mem contest isBest)).1
    rw [select_append isBest, winner_copies isItem]
    exact better_eq_next (absent best inItems) (absent item isItem)
      (light best inItems)

/-! ## What holds in every order -/

/-- The favourite wins in every order if and only if no item threatens it. -/
theorem forall_select_favourite_iff
    (isFavourite : contest.favourite = some favourite)
    (member : favourite ∈ items) :
    (∀ order, order.Perm items → contest.select order = some favourite) ↔
      ∀ item ∈ items, item ≠ favourite → ¬ contest.Threatens item := by
  constructor
  · intro wins item isItem different threatens
    obtain ⟨order, best, perm, isBest, notFavourite⟩ :=
      exists_perm_select_ne isFavourite isItem different threatens
    rw [wins order perm] at isBest
    exact notFavourite (Option.some.inj isBest).symm
  · intro safe order perm
    obtain ⟨best, isBest⟩ := exists_select contest
      (List.ne_nil_of_mem (perm.mem_iff.2 member))
    rw [isBest, select_favourite isBest isFavourite (perm.mem_iff.2 member)
      fun item isItem => safe item (perm.mem_iff.1 isItem)]

/-- If the favourite must not win, the winner is a good one in every order if
and only if some item beats the favourite in both orders and all items that
are at most as heavy as all such items are good. -/
theorem forall_select_good_iff {Good : Item → Prop}
    (isFavourite : contest.favourite = some favourite)
    (member : favourite ∈ items) (bad : ¬ Good favourite) :
    (∀ order best, order.Perm items → contest.select order = some best →
      Good best) ↔
      (∃ item ∈ items, item ≠ favourite ∧ contest.Beats item) ∧
        ∀ item ∈ items, item ≠ favourite →
          (∀ other ∈ items, other ≠ favourite → contest.Beats other →
            contest.weight item ≤ contest.weight other) → Good item := by
  have other_iff : ∀ item, some item ≠ contest.favourite ↔
      item ≠ favourite := by
    intro item
    rw [isFavourite, Ne, Option.some_inj]
  constructor
  · intro good
    have beaten : ∃ item ∈ items, item ≠ favourite ∧
        contest.Beats item := by
      by_contra none
      obtain ⟨order, perm, wins⟩ := exists_perm_select_favourite isFavourite
        member fun item isItem different beats =>
          none ⟨item, isItem, different, beats⟩
      exact bad (good order favourite perm wins)
    refine ⟨beaten, fun item isItem different light => ?_⟩
    obtain ⟨order, perm, wins⟩ := exists_perm_select_of_beats isFavourite
      member isItem different beaten light
    exact good order item perm wins
  · rintro ⟨⟨rival, isRival, notFavourite, beats⟩, good⟩ order best perm
      isBest
    have leads := select_leads isBest
    have bestOther : some best ≠ contest.favourite := fun same =>
      leads.favourite same rival (perm.mem_iff.2 isRival)
        ((other_iff rival).2 notFavourite) beats
    refine good best (perm.mem_iff.1 leads.member) ((other_iff best).1
      bestOther) fun other isOther different isBeaten => ?_
    exact leads.other bestOther other (perm.mem_iff.2 isOther)
      ((other_iff other).2 different) (Or.inl isBeaten)

/-- Without the favourite the winner is a good one in every order if and only
if all items of the least weight are good. -/
theorem forall_select_light_iff {Good : Item → Prop}
    (absent : ∀ item ∈ items, some item ≠ contest.favourite) :
    (∀ order best, order.Perm items → contest.select order = some best →
      Good best) ↔
      ∀ item ∈ items, (∀ other ∈ items,
        contest.weight item ≤ contest.weight other) → Good item := by
  constructor
  · intro good item isItem light
    obtain ⟨order, perm, wins⟩ :=
      exists_perm_select_of_light absent isItem light
    exact good order item perm wins
  · intro good order best perm isBest
    have leads := select_leads isBest
    have inItems := perm.mem_iff.1 leads.member
    refine good best inItems fun other isOther => ?_
    exact leads.other (absent best inItems) other (perm.mem_iff.2 isOther)
      (absent other isOther)
      (Or.inr fun other seen => absent other (perm.mem_iff.1 seen))

end Contest

end Contiki.Lib
