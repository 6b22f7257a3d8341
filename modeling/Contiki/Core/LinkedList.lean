import Contiki.Lib.Linked
import Contiki.Lib.Walk

/-!
# The list library

`lib/list.c`: the items of a list carry the pointer to the next item
themselves.  The loops run for at most `fuel` rounds.
-/

namespace Contiki.Core.LinkedList

open Contiki.Lib

variable {Item : Type} [DecidableEq Item]

/-- The pointers of the items and `*list`. -/
structure ListMem (Item : Type) where
  next : Item → Option Item
  list : Option Item

namespace ListMem

/-- One round of the loop of `list_tail`. -/
def tailStep (mem : ListMem Item) (l : Item) : Item ⊕ Item :=
  match mem.next l with
  | none => .inl l
  | some later => .inr later

/-- `list_tail` -/
def listTail (fuel : Nat) (mem : ListMem Item) : Option (Option Item) :=
  match mem.list with
  | none => some none
  | some l => (Walk.walk mem.tailStep fuel l).map some

/-- `l` is taken out of the list behind `r`. -/
def unlink (mem : ListMem Item) (l : Item) (r : Option Item) :
    ListMem Item :=
  let mem := match r with
    | none => { mem with list := mem.next l }
    | some r => { mem with
        next := Function.update mem.next r (mem.next l) }
  { mem with next := Function.update mem.next l none }

/-- One round of the loop of `list_remove` for `l` and `r`. -/
def removeStep (mem : ListMem Item) (item : Item) :
    Option Item × Option Item →
    ListMem Item ⊕ (Option Item × Option Item)
  | (none, _) => .inl mem
  | (some l, r) =>
      if l = item then .inl (mem.unlink l r) else .inr (mem.next l, some l)

/-- `list_remove` -/
def listRemove (fuel : Nat) (mem : ListMem Item) (item : Item) :
    Option (ListMem Item) :=
  match mem.list with
  | none => some mem
  | some l => Walk.walk (mem.removeStep item) fuel (some l, none)

/-- `list_add` -/
def listAdd (fuel : Nat) (mem : ListMem Item) (item : Item) :
    Option (ListMem Item) :=
  match mem.listRemove fuel item with
  | none => none
  | some mem =>
      let mem := { mem with next := Function.update mem.next item none }
      match mem.listTail fuel with
      | none => none
      | some none => some { mem with list := some item }
      | some (some l) => some { mem with
          next := Function.update mem.next l (some item) }

/-- `list_push` -/
def listPush (fuel : Nat) (mem : ListMem Item) (item : Item) :
    Option (ListMem Item) :=
  match mem.listRemove fuel item with
  | none => none
  | some mem => some
      { next := Function.update mem.next item mem.list
        list := some item }

/-- One round of the loop of `list_chop`; `l->next` is never `NULL`. -/
def chopStep (mem : ListMem Item) (l : Item) : Item ⊕ Item :=
  match mem.next l with
  | none => .inl l
  | some later =>
      match mem.next later with
      | none => .inl l
      | some _ => .inr later

/-- `list_chop`, with its result. -/
def listChop (fuel : Nat) (mem : ListMem Item) :
    Option (ListMem Item × Option Item) :=
  match mem.list with
  | none => some (mem, none)
  | some head =>
      if mem.next head = none then
        some ({ mem with list := none }, some head)
      else
        (Walk.walk mem.chopStep fuel head).map fun l =>
          ({ mem with next := Function.update mem.next l none }, mem.next l)

/-- `list_pop`, with its result. -/
def listPop (mem : ListMem Item) : ListMem Item × Option Item :=
  match mem.list with
  | none => (mem, none)
  | some l => ({ mem with list := mem.next l }, some l)

/-- `list_insert` -/
def listInsert (fuel : Nat) (mem : ListMem Item) (previtem : Option Item)
    (newitem : Item) : Option (ListMem Item) :=
  match previtem with
  | none => mem.listPush fuel newitem
  | some previtem =>
      let mem := { mem with
        next := Function.update mem.next newitem (mem.next previtem) }
      some { mem with
        next := Function.update mem.next previtem (some newitem) }

def Lists (mem : ListMem Item) (items : List Item) : Prop :=
  Linked mem.next mem.list items

variable {mem : ListMem Item} {items : List Item} {fuel : Nat}

omit [DecidableEq Item] in
theorem walk_tailStep {item last : Item} {initial : List Item}
    (linked : Linked mem.next (some item) (initial ++ [last]))
    (enough : initial.length < fuel) :
    Walk.walk mem.tailStep fuel item = some last := by
  induction fuel generalizing item initial with
  | zero =>
      omega
  | succ fuel inductionHypothesis =>
      cases initial with
      | nil =>
          obtain rfl := Option.some.inj linked.head_eq
          have ends : mem.next item = none := linked.tail.head_eq_none
          apply Walk.walk_of_result
          unfold tailStep
          rw [ends]
      | cons first initial =>
          obtain rfl := Option.some.inj linked.head_eq
          have rest := linked.tail
          cases isNext : mem.next item with
          | none =>
              rw [isNext] at rest
              cases initial <;> cases rest
          | some later =>
              rw [isNext] at rest
              have goesOn : Walk.GoesOn mem.tailStep item later := by
                unfold Walk.GoesOn tailStep
                rw [isNext]
              rw [Walk.walk_of_goesOn goesOn]
              exact inductionHypothesis rest (Nat.lt_of_succ_lt_succ enough)

omit [DecidableEq Item] in
theorem listTail_eq (lists : mem.Lists items) (enough : items.length ≤ fuel) :
    mem.listTail fuel = some items.getLast? := by
  unfold listTail
  induction items using List.reverseRecOn with
  | nil =>
      rw [Linked.head_eq_none lists]
      rfl
  | append_singleton initial last _ =>
      cases isHead : mem.list with
      | none =>
          unfold Lists at lists
          rw [isHead] at lists
          cases initial <;> cases lists
      | some head =>
          unfold Lists at lists
          rw [isHead] at lists
          rw [List.length_append, List.length_singleton] at enough
          rw [List.getLast?_concat]
          dsimp only
          rw [walk_tailStep lists enough]
          rfl

/-! ## Removing -/

/-- An item is taken out behind `initial`. -/
theorem lists_unlink {initial rest : List Item} {item : Item}
    (lists : mem.Lists (initial ++ item :: rest)) :
    (mem.unlink item initial.getLast?).Lists (initial ++ rest) := by
  have outside : item ∉ initial ++ rest := by
    have distinct := Linked.nodup lists
    rw [List.nodup_middle, List.nodup_cons] at distinct
    exact distinct.1
  induction initial using List.reverseRecOn with
  | nil =>
      have tail : Linked mem.next (mem.next item) rest :=
        Linked.tail lists
      exact tail.update outside
  | append_singleton front before _ =>
      rw [List.getLast?_concat]
      rw [List.append_assoc, List.singleton_append] at lists outside ⊢
      exact (Linked.unlink lists).update outside

theorem goesOn_removeStep {item head : Item} (other : head ≠ item)
    (r : Option Item) :
    Walk.GoesOn (mem.removeStep item) (some head, r)
      (mem.next head, some head) :=
  if_neg other

theorem walk_removeStep_mem {item : Item} {l : Option Item}
    {initial front rest : List Item}
    (linked : Linked mem.next l (front ++ item :: rest))
    (outside : item ∉ front) (enough : front.length < fuel) :
    Walk.walk (mem.removeStep item) fuel (l, initial.getLast?) =
      some (mem.unlink item (initial ++ front).getLast?) := by
  induction front generalizing fuel l initial with
  | nil =>
      obtain ⟨fuel, rfl⟩ := Nat.exists_eq_succ_of_ne_zero
        (Nat.ne_of_gt enough)
      rw [linked.head_eq, List.append_nil]
      have found : mem.removeStep item (some item, initial.getLast?) =
          .inl (mem.unlink item initial.getLast?) := if_pos rfl
      exact Walk.walk_of_result found fuel
  | cons head front inductionHypothesis =>
      rw [List.length_cons] at enough
      obtain ⟨fuel, rfl⟩ := Nat.exists_eq_succ_of_ne_zero
        (Nat.ne_zero_of_lt enough)
      rw [List.mem_cons, not_or] at outside
      have isLast : some head = (initial ++ [head]).getLast? := by simp
      rw [linked.head_eq,
        Walk.walk_of_goesOn (goesOn_removeStep (Ne.symm outside.1) _),
        isLast, List.append_cons initial head front]
      exact inductionHypothesis linked.tail outside.2
        (Nat.lt_of_succ_lt_succ enough)

theorem walk_removeStep_not_mem {item : Item} {l r : Option Item}
    {rest : List Item} (linked : Linked mem.next l rest)
    (outside : item ∉ rest) (enough : rest.length < fuel) :
    Walk.walk (mem.removeStep item) fuel (l, r) = some mem := by
  induction rest generalizing fuel l r with
  | nil =>
      obtain ⟨fuel, rfl⟩ := Nat.exists_eq_succ_of_ne_zero
        (Nat.ne_of_gt enough)
      rw [linked.head_eq_none]
      exact Walk.walk_of_result rfl fuel
  | cons head rest inductionHypothesis =>
      rw [List.length_cons] at enough
      obtain ⟨fuel, rfl⟩ := Nat.exists_eq_succ_of_ne_zero
        (Nat.ne_zero_of_lt enough)
      rw [List.mem_cons, not_or] at outside
      rw [linked.head_eq,
        Walk.walk_of_goesOn (goesOn_removeStep (Ne.symm outside.1) r)]
      exact inductionHypothesis linked.tail outside.2
        (Nat.lt_of_succ_lt_succ enough)

omit [DecidableEq Item] in
theorem lists_empty (lists : mem.Lists items) (isNull : mem.list = none) :
    items = [] := by
  cases items with
  | nil =>
      rfl
  | cons head rest =>
      cases isNull.symm.trans (Linked.head_eq lists)

theorem listRemove_spec (lists : mem.Lists items) (item : Item)
    (enough : items.length < fuel) :
    ∃ after, mem.listRemove fuel item = some after ∧
      after.Lists (items.erase item) := by
  unfold listRemove
  cases isHead : mem.list with
  | none =>
      have isEmpty := lists_empty lists isHead
      refine ⟨mem, rfl, ?_⟩
      rw [isEmpty] at lists ⊢
      exact lists
  | some head =>
  dsimp only
  rw [← isHead]
  by_cases member : item ∈ items
  · obtain ⟨front, rest, rfl, outside⟩ := List.eq_append_cons_of_mem member
    have short : front.length < fuel := by
      rw [List.length_append] at enough
      omega
    have walked := @walk_removeStep_mem _ _ mem fuel item mem.list [] front
      rest lists outside short
    refine ⟨_, walked, ?_⟩
    rw [List.erase_append_right _ outside, List.erase_cons_head]
    exact lists_unlink lists
  · refine ⟨mem, walk_removeStep_not_mem lists member enough, ?_⟩
    rw [List.erase_of_not_mem member]
    exact lists

omit [DecidableEq Item] in
theorem listPop_spec (lists : mem.Lists items) :
    mem.listPop.1.Lists items.tail ∧ mem.listPop.2 = items.head? := by
  cases items with
  | nil =>
      have isNull : mem.list = none := Linked.head_eq_none lists
      unfold listPop
      rw [isNull]
      exact ⟨lists, rfl⟩
  | cons head rest =>
      have isHead : mem.list = some head := Linked.head_eq lists
      unfold listPop
      rw [isHead]
      exact ⟨Linked.tail lists, rfl⟩

omit [DecidableEq Item] in
/-- The loop of `list_chop` ends at the last item but one. -/
theorem walk_chopStep {item before last : Item} {initial : List Item}
    (linked : Linked mem.next (some item) (initial ++ [before, last]))
    (enough : initial.length < fuel) :
    Walk.walk mem.chopStep fuel item = some before := by
  induction fuel generalizing item initial with
  | zero =>
      omega
  | succ fuel inductionHypothesis =>
      cases initial with
      | nil =>
          obtain rfl := Option.some.inj linked.head_eq
          have isNext : mem.next item = some last := linked.tail.head_eq
          have ends : mem.next last = none := linked.tail.tail.head_eq_none
          apply Walk.walk_of_result
          unfold chopStep
          rw [isNext]
          dsimp only
          rw [ends]
      | cons first initial =>
          obtain rfl := Option.some.inj linked.head_eq
          have rest : Linked mem.next (mem.next item)
              (initial ++ [before, last]) := linked.tail
          obtain ⟨later, others, isRest⟩ :
              ∃ later others, initial ++ [before, last] = later :: others :=
            List.exists_cons_of_ne_nil (by simp)
          have isNext : mem.next item = some later := by
            rw [isRest] at rest
            exact rest.head_eq
          have goesOn : Walk.GoesOn mem.chopStep item later := by
            cases isLast : mem.next later with
            | none =>
                rw [isRest] at rest
                have onlyFirst : Linked mem.next none others :=
                  isLast ▸ rest.tail
                have isEmpty : others = [] := by
                  cases others with
                  | nil =>
                      rfl
                  | cons second others =>
                      cases onlyFirst.head_eq
                rw [isEmpty] at isRest
                have lengths := congrArg List.length isRest
                simp at lengths
            | some second =>
                unfold Walk.GoesOn chopStep
                rw [isNext]
                dsimp only
                rw [isLast]
          rw [Walk.walk_of_goesOn goesOn]
          rw [isNext] at rest
          exact inductionHypothesis rest (Nat.lt_of_succ_lt_succ enough)

theorem listChop_spec (lists : mem.Lists items)
    (enough : items.length < fuel) :
    ∃ after, mem.listChop fuel = some (after, items.getLast?) ∧
      after.Lists items.dropLast := by
  unfold listChop
  cases isHead : mem.list with
  | none =>
      have isEmpty := lists_empty lists isHead
      rw [isEmpty] at lists ⊢
      exact ⟨mem, rfl, lists⟩
  | some head =>
      induction items using List.reverseRecOn with
      | nil =>
          cases isHead.symm.trans (Linked.head_eq_none lists)
      | append_singleton initial last _ =>
          rw [List.getLast?_concat, List.dropLast_concat]
          unfold Lists at lists
          rw [isHead] at lists
          induction initial using List.reverseRecOn with
          | nil =>
              obtain rfl := Option.some.inj lists.head_eq
              have ends : mem.next head = none := lists.tail.head_eq_none
              dsimp only
              rw [if_pos ends]
              exact ⟨_, rfl, Linked.nil⟩
          | append_singleton initial before _ =>
              rw [List.append_assoc, List.singleton_append] at lists
              rw [List.append_assoc, List.length_append] at enough
              have isNext : mem.next before = some last :=
                lists.of_append.tail.head_eq
              have ends : mem.next last = none :=
                lists.of_append.tail.tail.head_eq_none
              have notLast : mem.next head ≠ none := by
                cases initial with
                | nil =>
                    obtain rfl := Option.some.inj lists.head_eq
                    rw [isNext]
                    exact Option.some_ne_none last
                | cons first initial =>
                    obtain rfl := Option.some.inj lists.head_eq
                    intro isNull
                    have rest := lists.tail
                    rw [isNull] at rest
                    cases initial <;> cases rest
              have short : initial.length < fuel := by omega
              dsimp only
              rw [if_neg notLast, walk_chopStep lists short]
              refine ⟨_, by rw [← isNext]; rfl, ?_⟩
              have cut := Linked.unlink lists
              rw [ends] at cut
              exact cut

/-! ## Adding -/

theorem not_mem_erase (lists : mem.Lists items) (item : Item) :
    item ∉ items.erase item := by
  rw [(Linked.nodup lists).mem_erase_iff]
  exact fun member => member.1 rfl

theorem listAdd_spec (lists : mem.Lists items) (item : Item)
    (enough : items.length < fuel) :
    ∃ after, mem.listAdd fuel item = some after ∧
      after.Lists (items.erase item ++ [item]) := by
  obtain ⟨removed, isRemoved, without⟩ := listRemove_spec lists item enough
  have outside := not_mem_erase lists item
  have ended : ({ removed with
      next := Function.update removed.next item none } : ListMem Item).Lists
        (items.erase item) :=
    Linked.update without outside
  have short : (items.erase item).length ≤ fuel :=
    Nat.le_of_lt (Nat.lt_of_le_of_lt List.length_erase_le enough)
  unfold listAdd
  rw [isRemoved]
  dsimp only
  rw [listTail_eq ended short]
  generalize items.erase item = others at outside ended
  induction others using List.reverseRecOn with
  | nil =>
      exact ⟨_, rfl, Linked.push Linked.nil outside⟩
  | append_singleton initial last _ =>
      rw [List.getLast?_concat]
      refine ⟨_, rfl, ?_⟩
      have distinct := Linked.nodup ended
      rw [List.nodup_append] at distinct
      rw [List.mem_append, List.mem_singleton, not_or] at outside
      rw [List.append_assoc]
      refine Linked.relink ended (fun other member => ?_) ?_
      · refine Function.update_of_ne ?_ _ _
        exact distinct.2.2 other member last (List.mem_singleton_self last)
      · have isNext : Function.update
            (Function.update removed.next item none) last (some item) item =
              none := by
          rw [Function.update_of_ne outside.2, Function.update_self]
        dsimp only
        rw [Function.update_self]
        refine Linked.cons ?_
        rw [isNext]
        exact Linked.nil

theorem listPush_spec (lists : mem.Lists items) (item : Item)
    (enough : items.length < fuel) :
    ∃ after, mem.listPush fuel item = some after ∧
      after.Lists (item :: items.erase item) := by
  obtain ⟨removed, isRemoved, without⟩ := listRemove_spec lists item enough
  unfold listPush
  rw [isRemoved]
  exact ⟨_, rfl, Linked.push without (not_mem_erase lists item)⟩

/-! ## Inserting -/

/-- The pointers after an insertion behind `previtem`. -/
def insertedNext (mem : ListMem Item) (previtem newitem : Item) :
    Item → Option Item :=
  Function.update (Function.update mem.next newitem (mem.next previtem))
    previtem (some newitem)

theorem insertedNext_other {previtem newitem other : Item}
    (notPrevious : other ≠ previtem) (notNew : other ≠ newitem) :
    mem.insertedNext previtem newitem other = mem.next other := by
  unfold insertedNext
  rw [Function.update_of_ne notPrevious, Function.update_of_ne notNew]

variable {previtem newitem : Item}

theorem insertedNext_previtem :
    mem.insertedNext previtem newitem previtem = some newitem :=
  Function.update_self ..

theorem insertedNext_newitem (different : newitem ≠ previtem) :
    mem.insertedNext previtem newitem newitem = mem.next previtem := by
  unfold insertedNext
  rw [Function.update_of_ne different, Function.update_self]

/-- An item that is not on the list comes behind `previtem`. -/
theorem insertedNext_lists {front rest : List Item}
    (lists : mem.Lists (front ++ previtem :: rest))
    (outside : newitem ∉ front ++ previtem :: rest) :
    Linked (mem.insertedNext previtem newitem) mem.list
      (front ++ previtem :: newitem :: rest) := by
  have distinct := Linked.nodup lists
  rw [List.nodup_middle, List.nodup_cons, List.mem_append,
    not_or] at distinct
  rw [List.mem_append, List.mem_cons, not_or, not_or] at outside
  obtain ⟨⟨previousInFront, previousInRest⟩, -⟩ := distinct
  obtain ⟨newInFront, different, newInRest⟩ := outside
  refine Linked.relink lists (fun other member => ?_) ?_
  · exact insertedNext_other (ne_of_mem_of_not_mem member previousInFront)
      (ne_of_mem_of_not_mem member newInFront)
  · rw [insertedNext_previtem]
    refine Linked.cons ?_
    rw [insertedNext_newitem different]
    refine Linked.congr (Linked.of_append lists).tail fun other member => ?_
    exact insertedNext_other (ne_of_mem_of_not_mem member previousInRest)
      (ne_of_mem_of_not_mem member newInRest)

/-- Where `previtem` stays on a list without a cycle, the new item was on no
place of the list. -/
theorem not_mem_of_insertedNext {later : List Item} (lists : mem.Lists items)
    (linked : Linked (mem.insertedNext previtem newitem) mem.list later)
    (member : previtem ∈ later) : newitem ∉ items := by
  obtain ⟨front, rest, rfl⟩ := List.append_of_mem member
  have distinct := linked.nodup
  have behind := linked.of_append.tail
  rw [insertedNext_previtem] at behind
  cases behind with
  | @cons _ rest behind =>
      rw [List.nodup_middle, List.nodup_cons, List.nodup_middle,
        List.nodup_cons] at distinct
      obtain ⟨previousOutside, newOutside, -⟩ := distinct
      simp only [List.mem_append, List.mem_cons, not_or] at previousOutside
      rw [List.mem_append, not_or] at newOutside
      obtain ⟨previousInFront, different, previousInRest⟩ := previousOutside
      have isNew : newitem ≠ previtem := fun same => different same.symm
      rw [insertedNext_newitem isNew] at behind
      have restBefore : Linked mem.next (mem.next previtem) rest := by
        refine behind.congr fun other inRest => (insertedNext_other
          (ne_of_mem_of_not_mem inRest previousInRest)
          (ne_of_mem_of_not_mem inRest newOutside.2)).symm
      have before : Linked mem.next mem.list (front ++ previtem :: rest) :=
        Linked.relink linked (fun other inFront => (insertedNext_other
          (ne_of_mem_of_not_mem inFront previousInFront)
          (ne_of_mem_of_not_mem inFront newOutside.1)).symm) restBefore
      rw [Linked.unique lists before]
      simp only [List.mem_append, List.mem_cons, not_or]
      exact ⟨newOutside.1, isNew, newOutside.2⟩

end ListMem

/-! ## The operations -/

/-- The calls that change a list. -/
inductive Operation (Item : Type) where
  | listAdd (item : Item)
  | listPush (item : Item)
  | listInsert (previtem : Option Item) (newitem : Item)
  | listRemove (item : Item)
  | listPop
  | listChop

namespace Operation

open ListMem

/-- The memory after a call and the returned item. -/
def call (fuel : Nat) (mem : ListMem Item) :
    Operation Item → Option (ListMem Item × Option Item)
  | listAdd item => (mem.listAdd fuel item).map fun after => (after, none)
  | listPush item => (mem.listPush fuel item).map fun after => (after, none)
  | listInsert previtem newitem =>
      (mem.listInsert fuel previtem newitem).map fun after => (after, none)
  | listRemove item =>
      (mem.listRemove fuel item).map fun after => (after, none)
  | listPop => some mem.listPop
  | listChop => mem.listChop fuel

/-- `newitem` stands right behind `previtem`; an item stays where it is
behind itself. -/
def movedBehind (previtem newitem : Item) (items : List Item) : List Item :=
  if newitem = previtem then items
  else (items.erase newitem).flatMap fun item =>
    if item = previtem then [item, newitem] else [item]

/-- What an operation is for: the items after it and the returned one. -/
def documented (items : List Item) :
    Operation Item → List Item × Option Item
  | listAdd item => (items.erase item ++ [item], none)
  | listPush item => (item :: items.erase item, none)
  | listInsert none newitem => (newitem :: items.erase newitem, none)
  | listInsert (some previtem) newitem =>
      (movedBehind previtem newitem items, none)
  | listRemove item => (items.erase item, none)
  | listPop => (items.tail, items.head?)
  | listChop => (items.dropLast, items.getLast?)

/-- An insertion is made behind an item of the list. -/
def Behind (items : List Item) : Operation Item → Prop
  | listInsert (some previtem) _ => previtem ∈ items
  | _ => True

/-- Only items that are not on the list are inserted behind another one. -/
def Fresh (items : List Item) : Operation Item → Prop
  | listInsert (some _) newitem => newitem ∉ items
  | _ => True

/-- The call returns, with the documented list and result. -/
def Meets (fuel : Nat) (mem : ListMem Item) (items : List Item)
    (operation : Operation Item) : Prop :=
  ∃ after, operation.call fuel mem =
      some (after, (operation.documented items).2) ∧
    after.Lists (operation.documented items).1

variable {mem : ListMem Item} {items : List Item} {fuel : Nat}

variable {previtem newitem : Item}

/-- The list around `previtem`. -/
theorem movedBehind_fresh {front rest : List Item}
    (distinct : (front ++ previtem :: rest).Nodup)
    (outside : newitem ∉ front ++ previtem :: rest) :
    movedBehind previtem newitem (front ++ previtem :: rest) =
      front ++ previtem :: newitem :: rest := by
  have different : newitem ≠ previtem := by
    rintro rfl
    exact outside (List.mem_append_right front List.mem_cons_self)
  have others : ∀ part : List Item, previtem ∉ part →
      (part.flatMap fun item =>
        if item = previtem then [item, newitem] else [item]) = part := by
    intro part notIn
    induction part with
    | nil =>
        rfl
    | cons head part inductionHypothesis =>
        rw [List.mem_cons, not_or] at notIn
        rw [List.flatMap_cons, if_neg (Ne.symm notIn.1),
          inductionHypothesis notIn.2]
        rfl
  rw [List.nodup_middle, List.nodup_cons, List.mem_append,
    not_or] at distinct
  unfold movedBehind
  rw [if_neg different, List.erase_of_not_mem outside, List.flatMap_append,
    List.flatMap_cons, if_pos rfl, others front distinct.1.1,
    others rest distinct.1.2]
  rfl

theorem mem_movedBehind (member : previtem ∈ items) :
    previtem ∈ movedBehind previtem newitem items := by
  unfold movedBehind
  split
  · exact member
  · rename_i different
    refine List.mem_flatMap.2 ⟨previtem, ?_, ?_⟩
    · exact (List.mem_erase_of_ne (Ne.symm different)).2 member
    · rw [if_pos rfl]
      exact List.mem_cons_self

/-- Behind an item of the list only a new item can be inserted. -/
theorem meets_listInsert_iff
    (lists : mem.Lists items) (behind : previtem ∈ items) :
    Meets fuel mem items (listInsert (some previtem) newitem) ↔
      newitem ∉ items := by
  constructor
  · rintro ⟨after, isAfter, listsAfter⟩
    have written : (⟨mem.insertedNext previtem newitem, mem.list⟩ :
        ListMem Item) = after :=
      congrArg Prod.fst (Option.some.inj isAfter)
    rw [← written] at listsAfter
    exact not_mem_of_insertedNext lists listsAfter
      (mem_movedBehind behind)
  · intro outside
    obtain ⟨front, rest, rfl⟩ := List.append_of_mem behind
    refine ⟨⟨mem.insertedNext previtem newitem, mem.list⟩, rfl, ?_⟩
    have moved := movedBehind_fresh (Linked.nodup lists) outside
    change Linked _ _ (movedBehind previtem newitem _)
    rw [moved]
    exact insertedNext_lists lists outside

/-- Every operation leaves the documented list, but an insertion behind
another item only where the new item was not on the list: `list_insert` does
not remove it first. -/
theorem meets_iff (operation : Operation Item) (lists : mem.Lists items)
    (behind : operation.Behind items) (enough : items.length < fuel) :
    operation.Meets fuel mem items ↔ operation.Fresh items := by
  cases operation with
  | listAdd item =>
      refine iff_of_true ?_ trivial
      obtain ⟨after, isAfter, listsAfter⟩ := listAdd_spec lists item enough
      exact ⟨after, congrArg (Option.map _) isAfter, listsAfter⟩
  | listPush item =>
      refine iff_of_true ?_ trivial
      obtain ⟨after, isAfter, listsAfter⟩ := listPush_spec lists item enough
      exact ⟨after, congrArg (Option.map _) isAfter, listsAfter⟩
  | listInsert previtem newitem =>
      cases previtem with
      | none =>
          refine iff_of_true ?_ trivial
          obtain ⟨after, isAfter, listsAfter⟩ :=
            listPush_spec lists newitem enough
          exact ⟨after, congrArg (Option.map _) isAfter, listsAfter⟩
      | some previtem =>
          exact meets_listInsert_iff lists behind
  | listRemove item =>
      refine iff_of_true ?_ trivial
      obtain ⟨after, isAfter, listsAfter⟩ :=
        listRemove_spec lists item enough
      exact ⟨after, congrArg (Option.map _) isAfter, listsAfter⟩
  | listPop =>
      refine iff_of_true ?_ trivial
      obtain ⟨listsAfter, isResult⟩ := listPop_spec lists
      refine ⟨mem.listPop.1, ?_, listsAfter⟩
      exact congrArg (fun result => some (mem.listPop.1, result)) isResult
  | listChop =>
      exact iff_of_true (listChop_spec lists enough) trivial

/-- Two items, the second one behind the first. -/
def twoItems : ListMem Bool :=
  { next := fun item => if item then none else some true
    list := some false }

theorem twoItems_lists : twoItems.Lists [false, true] :=
  Linked.cons (Linked.cons Linked.nil)

theorem twoItems_meets :
    Meets 3 twoItems [false, true] (listAdd false) ↔ True :=
  meets_iff (listAdd false) twoItems_lists trivial (Nat.lt_succ_self 2)

/-- Inserting the second item behind the first one, where it is already,
makes it its own successor. -/
theorem twoItems_not_meets :
    ¬ Meets 3 twoItems [false, true] (listInsert (some false) true) :=
  fun meets => (meets_listInsert_iff twoItems_lists
    List.mem_cons_self).1 meets (List.mem_cons_of_mem false
      List.mem_cons_self)

end Operation

end Contiki.Core.LinkedList
