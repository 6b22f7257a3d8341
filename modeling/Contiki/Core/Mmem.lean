import Contiki.Lib.ByteMem
import Contiki.Lib.Ranges

/-!
# The managed memory allocator

`mmem_alloc` and `mmem_free` keep the allocated blocks in one piece at the
start of the arena: a block that is freed is closed up by moving all later
blocks downwards.
-/

namespace Contiki.Core

open Contiki.Lib

/-- The static variables of the allocator and the fields of the handles.  A
pointer is an index into `memory`. -/
structure Mmem (intBits : Nat) (Handle : Type) where
  mmemlist : List Handle
  availMemory : BitVec intBits
  memory : ByteMem
  size : Handle → BitVec intBits
  ptr : Handle → Nat

namespace Mmem

variable {intBits : Nat} {Handle : Type}

/-- `mmem_init`; the arena and the handles hold anything. -/
def mmemInit (mmemSize : BitVec intBits) (memory : ByteMem)
    (size : Handle → BitVec intBits) (ptr : Handle → Nat) :
    Mmem intBits Handle where
  mmemlist := []
  availMemory := mmemSize
  memory := memory
  size := size
  ptr := ptr

/-- `&memory[MMEM_SIZE - avail_memory]` -/
def firstAvailable (mmem : Mmem intBits Handle)
    (mmemSize : BitVec intBits) : Nat :=
  (mmemSize - mmem.availMemory).toNat

/-- The place of a block in the arena. -/
def block (mmem : Mmem intBits Handle) (handle : Handle) : Range where
  start := mmem.ptr handle
  count := (mmem.size handle).toNat

def contents (mmem : Mmem intBits Handle) (handle : Handle) : List UInt8 :=
  mmem.memory.read (mmem.block handle).start (mmem.block handle).count

/-- The bytes that some handles have together. -/
def total (mmem : Mmem intBits Handle) (handles : List Handle) : Nat :=
  (handles.map fun handle => (mmem.size handle).toNat).sum

/-- Blocks lie one behind the other in the order of the list. -/
def Contiguous (mmem : Mmem intBits Handle) : Nat → List Handle → Prop
  | _, [] => True
  | start, handle :: rest =>
      mmem.ptr handle = start ∧
        mmem.Contiguous (start + (mmem.size handle).toNat) rest

/-- The blocks of the list fill the arena up to what is available. -/
structure Compact (mmem : Mmem intBits Handle)
    (mmemSize : BitVec intBits) : Prop where
  nodup : mmem.mmemlist.Nodup
  contiguous : mmem.Contiguous 0 mmem.mmemlist
  available : mmem.availMemory.toNat + mmem.total mmem.mmemlist =
    mmemSize.toNat

/-! ## Blocks one behind the other -/

theorem total_append (mmem : Mmem intBits Handle)
    (first second : List Handle) :
    mmem.total (first ++ second) = mmem.total first + mmem.total second := by
  simp [total]

theorem total_cons (mmem : Mmem intBits Handle) (handle : Handle)
    (rest : List Handle) :
    mmem.total (handle :: rest) =
      (mmem.size handle).toNat + mmem.total rest := by
  simp [total]

variable {before after : Mmem intBits Handle} {mmem : Mmem intBits Handle}
  {handles : List Handle}

theorem total_congr
    (same : ∀ handle ∈ handles, after.size handle = before.size handle) :
    after.total handles = before.total handles := by
  unfold total
  congr 1
  exact List.map_congr_left fun handle member => by rw [same handle member]

theorem contiguous_append {first second : List Handle} {start : Nat} :
    mmem.Contiguous start (first ++ second) ↔
      mmem.Contiguous start first ∧
        mmem.Contiguous (start + mmem.total first) second := by
  induction first generalizing start with
  | nil =>
      simp [Contiguous, total]
  | cons handle rest inductionHypothesis =>
      rw [List.cons_append, Contiguous, Contiguous, inductionHypothesis,
        total_cons, and_assoc, Nat.add_assoc]

variable {start : Nat}

theorem Contiguous.moved (distance : Nat)
    (contiguous : before.Contiguous (start + distance) handles)
    (size : ∀ handle ∈ handles, after.size handle = before.size handle)
    (ptr : ∀ handle ∈ handles,
      after.ptr handle = before.ptr handle - distance) :
    after.Contiguous start handles := by
  induction handles generalizing start with
  | nil =>
      trivial
  | cons handle rest inductionHypothesis =>
      obtain ⟨first, others⟩ := contiguous
      refine ⟨?_, inductionHypothesis ?_
        (fun other member => size other (List.mem_cons_of_mem _ member))
        fun other member => ptr other (List.mem_cons_of_mem _ member)⟩
      · rw [ptr handle List.mem_cons_self, first]
        omega
      · rw [size handle List.mem_cons_self, Nat.add_right_comm]
        exact others

theorem Contiguous.congr (contiguous : before.Contiguous start handles)
    (size : ∀ handle ∈ handles, after.size handle = before.size handle)
    (ptr : ∀ handle ∈ handles, after.ptr handle = before.ptr handle) :
    after.Contiguous start handles :=
  Contiguous.moved 0 contiguous size ptr

theorem Contiguous.bounds
    (contiguous : mmem.Contiguous start handles) {handle : Handle}
    (member : handle ∈ handles) :
    start ≤ mmem.ptr handle ∧
      mmem.ptr handle + (mmem.size handle).toNat ≤
        start + mmem.total handles := by
  obtain ⟨before, after, rfl⟩ := List.append_of_mem member
  obtain ⟨_, here, _⟩ := contiguous_append.1 contiguous
  rw [total_append, total_cons]
  omega

theorem Contiguous.apart
    (contiguous : mmem.Contiguous start handles) {first second : Handle}
    (firstMember : first ∈ handles) (secondMember : second ∈ handles)
    (different : first ≠ second) :
    (mmem.block first).Apart (mmem.block second) := by
  -- one of the two comes before the other
  obtain ⟨before, after, rfl⟩ := List.append_of_mem firstMember
  obtain ⟨left, here, right⟩ := contiguous_append.1 contiguous
  rw [Range.apart_iff]
  simp only [block]
  rw [List.mem_append, List.mem_cons] at secondMember
  obtain inBefore | same | inAfter := secondMember
  · have bounds := left.bounds inBefore
    omega
  · exact absurd same.symm different
  · have bounds := right.bounds inAfter
    omega

theorem Compact.firstAvailable
    {mmemSize : BitVec intBits} (compact : mmem.Compact mmemSize) :
    mmem.firstAvailable mmemSize = mmem.total mmem.mmemlist := by
  have available := compact.available
  unfold Mmem.firstAvailable
  rw [BitVec.toNat_sub_of_le (by rw [BitVec.le_def]; omega)]
  omega

theorem compact_mmemInit (mmemSize : BitVec intBits) (memory : ByteMem)
    (size : Handle → BitVec intBits) (ptr : Handle → Nat) :
    (mmemInit mmemSize memory size ptr).Compact mmemSize where
  nodup := List.nodup_nil
  contiguous := trivial
  available := rfl

/-! ## One operation -/

variable [DecidableEq Handle]

/-- `mmem_alloc` -/
def mmemAlloc (mmem : Mmem intBits Handle) (mmemSize : BitVec intBits)
    (handle : Handle) (size : BitVec intBits) :
    Bool × Mmem intBits Handle :=
  if mmem.availMemory < size then (false, mmem)
  else
    (true, { mmem with
      mmemlist := mmem.mmemlist.erase handle ++ [handle]
      ptr := Function.update mmem.ptr handle (mmem.firstAvailable mmemSize)
      size := Function.update mmem.size handle size
      availMemory := mmem.availMemory - size })

/-- The handles behind a handle in the list, by their `next` pointers. -/
def behind (mmem : Mmem intBits Handle) (handle : Handle) : List Handle :=
  (mmem.mmemlist.dropWhile (· ≠ handle)).tail

/-- The memory behind an allocation is moved downwards. -/
def compact (mmem : Mmem intBits Handle) (mmemSize : BitVec intBits)
    (handle : Handle) : Mmem intBits Handle :=
  match mmem.behind handle with
  | [] => mmem
  | next :: rest =>
      { mmem with
        -- `memmove`
        memory := mmem.memory.write (mmem.ptr handle)
          (mmem.memory.read (mmem.ptr next)
            (mmem.firstAvailable mmemSize - mmem.ptr next))
        ptr := (next :: rest).foldl (fun ptr moved =>
          Function.update ptr moved
            (ptr moved - (mmem.size handle).toNat)) mmem.ptr }

/-- `mmem_free` -/
def mmemFree (mmem : Mmem intBits Handle) (mmemSize : BitVec intBits)
    (handle : Handle) : Mmem intBits Handle :=
  let mmem := mmem.compact mmemSize handle
  { mmem with
    availMemory := mmem.availMemory + mmem.size handle
    mmemlist := mmem.mmemlist.erase handle }

/-- What `mmem_alloc` does when there is enough memory. -/
theorem Compact.mmemAlloc {mmem : Mmem intBits Handle}
    {mmemSize : BitVec intBits} (compact : mmem.Compact mmemSize)
    {handle : Handle} (new : handle ∉ mmem.mmemlist)
    (size : BitVec intBits) :
    (mmem.mmemAlloc mmemSize handle size).2.Compact mmemSize ∧
      ∀ other ∈ mmem.mmemlist,
        other ∈ (mmem.mmemAlloc mmemSize handle size).2.mmemlist ∧
        (mmem.mmemAlloc mmemSize handle size).2.contents other =
          mmem.contents other := by
  unfold Mmem.mmemAlloc
  split
  · exact ⟨compact, fun other member => ⟨member, rfl⟩⟩
  · next enough =>
      rw [BitVec.lt_def, Nat.not_lt] at enough
      have available := compact.available
      have notHandle : ∀ other ∈ mmem.mmemlist, other ≠ handle := by
        rintro other member rfl
        exact new member
      rw [List.erase_of_not_mem new]
      refine ⟨⟨?_, ?_, ?_⟩, fun other member => ⟨?_, ?_⟩⟩
      · exact compact.nodup.append (List.nodup_singleton handle)
          (List.disjoint_singleton.2 new)
      · refine contiguous_append.2 ⟨compact.contiguous.congr
          (fun other member => ?_) fun other member => ?_, ?_, trivial⟩
        · exact Function.update_of_ne (notHandle other member) _ _
        · exact Function.update_of_ne (notHandle other member) _ _
        · dsimp only
          rw [Function.update_self, compact.firstAvailable, Nat.zero_add]
          refine (total_congr fun other member => ?_).symm
          exact Function.update_of_ne (notHandle other member) _ _
      · rw [total_append, total_cons, total_congr fun other member =>
          Function.update_of_ne (notHandle other member) _ _]
        dsimp only
        rw [Function.update_self, BitVec.toNat_sub_of_le
          (BitVec.le_def.2 enough)]
        change _ + (_ + (_ + 0)) = _
        omega
      · exact List.mem_append_left _ member
      · unfold contents block
        dsimp only
        rw [Function.update_of_ne (notHandle other member),
          Function.update_of_ne (notHandle other member)]

theorem foldl_moved (moved : List Handle) (nodup : moved.Nodup)
    (distance : Nat) (ptr : Handle → Nat) (handle : Handle) :
    moved.foldl (fun ptr handle =>
        Function.update ptr handle (ptr handle - distance)) ptr handle =
      if handle ∈ moved then ptr handle - distance else ptr handle := by
  induction moved generalizing ptr with
  | nil =>
      simp
  | cons first rest inductionHypothesis =>
      obtain ⟨notMember, restNodup⟩ := List.nodup_cons.1 nodup
      rw [List.foldl_cons, inductionHypothesis restNodup]
      by_cases same : handle = first
      · subst same
        simp [notMember]
      · simp [same]

theorem behind_eq {mmem : Mmem intBits Handle}
    {before after : List Handle} {handle : Handle}
    (list : mmem.mmemlist = before ++ handle :: after)
    (notBefore : handle ∉ before) : mmem.behind handle = after := by
  unfold behind
  rw [list, List.dropWhile_append_of_pos, List.dropWhile_cons_of_neg]
  · rfl
  · simp
  · intro other member
    have different : other ≠ handle := by
      rintro rfl
      exact notBefore member
    simpa using different

/-- What `mmem_free` does to the pointers and to the memory. -/
theorem compact_spec {mmem : Mmem intBits Handle}
    {mmemSize : BitVec intBits} (isCompact : mmem.Compact mmemSize)
    {before after : List Handle} {handle : Handle}
    (list : mmem.mmemlist = before ++ handle :: after)
    (notBefore : handle ∉ before) :
    (∀ other, (mmem.compact mmemSize handle).ptr other =
      if other ∈ after then mmem.ptr other - (mmem.size handle).toNat
      else mmem.ptr other) ∧
    (∀ address, address < mmem.ptr handle →
      (mmem.compact mmemSize handle).memory address =
        mmem.memory address) ∧
    (∀ address, mmem.ptr handle ≤ address →
      address < mmem.ptr handle + mmem.total after →
      (mmem.compact mmemSize handle).memory address =
        mmem.memory (address + (mmem.size handle).toNat)) ∧
    (mmem.compact mmemSize handle).mmemlist = mmem.mmemlist ∧
    (mmem.compact mmemSize handle).availMemory = mmem.availMemory ∧
    (mmem.compact mmemSize handle).size = mmem.size := by
  have contiguous := isCompact.contiguous
  have available := isCompact.firstAvailable
  have nodup := isCompact.nodup
  rw [list] at contiguous available nodup
  obtain ⟨_, here, there⟩ := contiguous_append.1 contiguous
  rw [total_append, total_cons] at available
  unfold Mmem.compact
  rw [behind_eq list notBefore]
  cases after with
  | nil =>
      refine ⟨by simp, fun _ _ => rfl, fun address lower upper => ?_,
        rfl, rfl, rfl⟩
      simp only [total, List.map_nil, List.sum_nil] at upper
      omega
  | cons next rest =>
      obtain ⟨nextPtr, _⟩ := there
      have nextNodup : (next :: rest).Nodup :=
        (List.nodup_cons.1 (List.Nodup.of_append_right nodup)).2
      have count : mmem.firstAvailable mmemSize - mmem.ptr next =
          mmem.total (next :: rest) := by
        omega
      refine ⟨fun other => foldl_moved _ nextNodup _ _ other,
        fun address lower => ByteMem.write_of_lt lower,
        fun address lower upper => ?_, rfl, rfl, rfl⟩
      obtain ⟨index, rfl⟩ := Nat.exists_eq_add_of_le lower
      dsimp only
      rw [count, ByteMem.write_inside index (by
        rw [ByteMem.length_read]
        omega), ByteMem.getElem_read]
      congr 1
      omega

/-- What `mmem_free` does. -/
theorem Compact.mmemFree {mmem : Mmem intBits Handle}
    {mmemSize : BitVec intBits} (isCompact : mmem.Compact mmemSize)
    {handle : Handle} (allocated : handle ∈ mmem.mmemlist) :
    (mmem.mmemFree mmemSize handle).Compact mmemSize ∧
      ∀ other ∈ mmem.mmemlist, other ≠ handle →
        other ∈ (mmem.mmemFree mmemSize handle).mmemlist ∧
        (mmem.mmemFree mmemSize handle).contents other =
          mmem.contents other := by
  have contiguous := isCompact.contiguous
  have available := isCompact.available
  have nodup := isCompact.nodup
  obtain ⟨before, after, list⟩ := List.append_of_mem allocated
  rw [list] at contiguous available nodup
  obtain ⟨left, here, right⟩ := contiguous_append.1 contiguous
  have notBefore : handle ∉ before := fun member =>
    List.disjoint_of_nodup_append nodup member List.mem_cons_self
  have notAfter : ∀ other ∈ before, other ∉ after := fun other member inAfter =>
    List.disjoint_of_nodup_append nodup member
      (List.mem_cons_of_mem _ inAfter)
  obtain ⟨ptr, low, high, sameList, sameAvailable, sameSize⟩ :=
    compact_spec isCompact list notBefore
  have newList : (mmem.mmemFree mmemSize handle).mmemlist =
      before ++ after := by
    unfold Mmem.mmemFree
    dsimp only
    rw [sameList, list, List.erase_append_right _ notBefore,
      List.erase_cons_head]
  have newSize : ∀ other, (mmem.mmemFree mmemSize handle).size other =
      mmem.size other := fun other => congrFun sameSize other
  have newPtr : ∀ other, (mmem.mmemFree mmemSize handle).ptr other =
      if other ∈ after then mmem.ptr other - (mmem.size handle).toNat
      else mmem.ptr other := ptr
  refine ⟨⟨?_, ?_, ?_⟩, fun other member different => ⟨?_, ?_⟩⟩
  · rw [newList]
    exact nodup.sublist
      (List.Sublist.append_left (List.sublist_cons_self _ _) _)
  · rw [newList]
    refine contiguous_append.2 ⟨left.congr (fun other _ => newSize other)
      fun other member => ?_, ?_⟩
    · rw [newPtr, if_neg (notAfter other member)]
    · refine Contiguous.moved (mmem.size handle).toNat ?_
        (fun other _ => newSize other) fun other member => ?_
      · rw [total_congr fun other _ => newSize other]
        exact right
      · rw [newPtr, if_pos member]
  · rw [newList, total_congr fun other _ => newSize other]
    unfold Mmem.mmemFree
    dsimp only
    rw [sameAvailable, sameSize]
    have size := mmemSize.isLt
    rw [total_append, total_cons] at available
    rw [BitVec.toNat_add, Nat.mod_eq_of_lt (by omega), total_append]
    omega
  · rw [newList, List.mem_append]
    rw [list, List.mem_append, List.mem_cons] at member
    obtain inBefore | same | inAfter := member
    · exact Or.inl inBefore
    · exact absurd same different
    · exact Or.inr inAfter
  · rw [list, List.mem_append, List.mem_cons] at member
    have sameMemory : ∀ address,
        (mmem.mmemFree mmemSize handle).memory address =
          (mmem.compact mmemSize handle).memory address := fun _ => rfl
    unfold contents block
    dsimp only
    rw [newSize]
    apply List.ext_getElem (by simp)
    intro index bound _
    rw [ByteMem.length_read] at bound
    rw [ByteMem.getElem_read, ByteMem.getElem_read, sameMemory, newPtr]
    obtain inBefore | same | inAfter := member
    · have bounds := left.bounds inBefore
      rw [if_neg (notAfter other inBefore), low _ (by omega)]
    · exact absurd same different
    · have bounds := right.bounds inAfter
      rw [if_pos inAfter, high _ (by omega) (by omega)]
      congr 1
      omega

/-! ## Sequences of operations -/

/-- The operations of the clients; `store` writes into a block by its
`MMEM_PTR`. -/
inductive Operation (intBits : Nat) (Handle : Type) where
  | alloc (handle : Handle) (size : BitVec intBits)
  | free (handle : Handle)
  | store (handle : Handle) (offset : Nat) (bytes : List UInt8)

/-- The handle that an operation is about. -/
def Operation.handle : Operation intBits Handle → Handle
  | .alloc handle _ => handle
  | .free handle => handle
  | .store handle _ _ => handle

def step (mmemSize : BitVec intBits) (mmem : Mmem intBits Handle) :
    Operation intBits Handle → Mmem intBits Handle
  | .alloc handle size => (mmem.mmemAlloc mmemSize handle size).2
  | .free handle => mmem.mmemFree mmemSize handle
  | .store handle offset bytes =>
      { mmem with
        memory := mmem.memory.write (mmem.ptr handle + offset) bytes }

def run (mmemSize : BitVec intBits) (mmem : Mmem intBits Handle)
    (operations : List (Operation intBits Handle)) : Mmem intBits Handle :=
  operations.foldl (step mmemSize) mmem

/-- A handle is allocated when it is not, it is freed when it is allocated,
and clients write into their own blocks. -/
def Admits (mmem : Mmem intBits Handle) : Operation intBits Handle → Prop
  | .alloc handle _ => handle ∉ mmem.mmemlist
  | .free handle => handle ∈ mmem.mmemlist
  | .store handle offset bytes =>
      handle ∈ mmem.mmemlist ∧
        offset + bytes.length ≤ (mmem.size handle).toNat

instance (mmem : Mmem intBits Handle) :
    (operation : Operation intBits Handle) → Decidable (mmem.Admits operation)
  | .alloc handle _ => inferInstanceAs (Decidable (handle ∉ mmem.mmemlist))
  | .free handle => inferInstanceAs (Decidable (handle ∈ mmem.mmemlist))
  | .store _ _ _ => inferInstanceAs (Decidable (_ ∧ _))

def AdmitsAll (mmemSize : BitVec intBits) (mmem : Mmem intBits Handle) :
    List (Operation intBits Handle) → Prop
  | [] => True
  | operation :: rest =>
      mmem.Admits operation ∧
        AdmitsAll mmemSize (mmem.step mmemSize operation) rest

instance decidableAdmitsAll (mmemSize : BitVec intBits) :
    (mmem : Mmem intBits Handle) →
    (operations : List (Operation intBits Handle)) →
    Decidable (AdmitsAll mmemSize mmem operations)
  | _, [] => .isTrue trivial
  | mmem, operation :: rest =>
      have := decidableAdmitsAll mmemSize (mmem.step mmemSize operation) rest
      inferInstanceAs (Decidable (_ ∧ _))

theorem Compact.step {mmem : Mmem intBits Handle}
    {mmemSize : BitVec intBits} (isCompact : mmem.Compact mmemSize)
    {operation : Operation intBits Handle}
    (admitted : mmem.Admits operation) :
    (mmem.step mmemSize operation).Compact mmemSize ∧
      ∀ other ∈ mmem.mmemlist, other ≠ operation.handle →
        other ∈ (mmem.step mmemSize operation).mmemlist ∧
        (mmem.step mmemSize operation).contents other =
          mmem.contents other := by
  cases operation with
  | alloc handle size =>
      obtain ⟨nowCompact, others⟩ := isCompact.mmemAlloc admitted size
      exact ⟨nowCompact, fun other member _ => others other member⟩
  | free handle =>
      exact isCompact.mmemFree admitted
  | store handle offset bytes =>
      obtain ⟨allocated, fits⟩ := admitted
      refine ⟨⟨isCompact.nodup, isCompact.contiguous.congr
        (fun _ _ => rfl) fun _ _ => rfl, isCompact.available⟩,
        fun other member different => ⟨member, ?_⟩⟩
      have apart := Range.apart_iff.1
        (isCompact.contiguous.apart allocated member (Ne.symm different))
      simp only [block] at apart
      refine ByteMem.read_congr fun address lower upper => ?_
      refine ByteMem.write_outside ?_
      change mmem.ptr other ≤ address at lower
      change address < mmem.ptr other + (mmem.size other).toNat at upper
      omega

/-- An allocation that fits what is available puts the handle at the end of
the list, with the size asked for, and one that does not fit changes nothing;
a handle that is freed leaves the list. -/
def Performs (mmem : Mmem intBits Handle) (mmemSize : BitVec intBits) :
    Operation intBits Handle → Prop
  | .alloc handle size =>
      let result := mmem.mmemAlloc mmemSize handle size
      if size ≤ mmem.availMemory then
        result.1 ∧ result.2.mmemlist = mmem.mmemlist ++ [handle] ∧
          result.2.size handle = size
      else result = (false, mmem)
  | .free handle =>
      (mmem.mmemFree mmemSize handle).mmemlist = mmem.mmemlist.erase handle
  | .store _ _ _ => True

theorem performs_of_admits {mmem : Mmem intBits Handle}
    (mmemSize : BitVec intBits) {operation : Operation intBits Handle}
    (admitted : mmem.Admits operation) :
    mmem.Performs mmemSize operation := by
  cases operation with
  | alloc handle size =>
      unfold Performs mmemAlloc
      dsimp only
      split
      · next fits =>
          rw [if_neg (BitVec.not_lt.2 fits)]
          refine ⟨rfl, ?_, Function.update_self _ _ _⟩
          rw [List.erase_of_not_mem admitted]
      · next large =>
          rw [if_pos (BitVec.not_le.1 large)]
  | free handle =>
      change (mmem.mmemFree mmemSize handle).mmemlist = _
      unfold mmemFree Mmem.compact
      cases mmem.behind handle <;> rfl
  | store handle offset bytes =>
      trivial

theorem Compact.run {mmem : Mmem intBits Handle}
    {mmemSize : BitVec intBits} (isCompact : mmem.Compact mmemSize)
    {operations : List (Operation intBits Handle)}
    (admitted : AdmitsAll mmemSize mmem operations) :
    (mmem.run mmemSize operations).Compact mmemSize := by
  induction operations generalizing mmem with
  | nil =>
      exact isCompact
  | cons operation rest inductionHypothesis =>
      exact inductionHypothesis (isCompact.step admitted.1).1 admitted.2

/-- In every state behind operations that the allocator admits, the allocated
blocks are disjoint and lie one behind the other from the start of the arena,
the rest is available, and one more operation does its work and keeps the
contents of each other block. -/
theorem mmem_run {mmemSize : BitVec intBits} {memory : ByteMem}
    {size : Handle → BitVec intBits} {ptr : Handle → Nat}
    {operations : List (Operation intBits Handle)}
    (admitted : AdmitsAll mmemSize (mmemInit mmemSize memory size ptr)
      operations) :
    let mmem := (mmemInit mmemSize memory size ptr).run mmemSize operations
    (∀ first ∈ mmem.mmemlist, ∀ second ∈ mmem.mmemlist, first ≠ second →
      (mmem.block first).Apart (mmem.block second)) ∧
    mmem.Contiguous 0 mmem.mmemlist ∧
    mmem.availMemory.toNat + mmem.total mmem.mmemlist = mmemSize.toNat ∧
    ∀ operation, mmem.Admits operation →
      mmem.Performs mmemSize operation ∧
      ∀ other ∈ mmem.mmemlist, other ≠ operation.handle →
        other ∈ (mmem.step mmemSize operation).mmemlist ∧
        (mmem.step mmemSize operation).contents other =
          mmem.contents other := by
  intro mmem
  have isCompact : mmem.Compact mmemSize :=
    (compact_mmemInit mmemSize memory size ptr).run admitted
  refine ⟨?_, isCompact.contiguous, isCompact.available, ?_⟩
  · intro first firstMember second secondMember different
    exact isCompact.contiguous.apart firstMember secondMember different
  · intro operation isAdmitted
    exact ⟨performs_of_admits mmemSize isAdmitted,
      (isCompact.step isAdmitted).2⟩

/-- A block is freed below another one. -/
def freeBelow : List (Operation 16 (Fin 2)) :=
  let first : Fin 2 := ⟨0, Nat.two_pos⟩
  let second : Fin 2 := ⟨1, Nat.one_lt_two⟩
  [.alloc first 4, .store first 0 [1, 2, 3, 4], .alloc second 3,
    .store second 1 [5, 6], .free first]

theorem freeBelow_compact :
    let mmem := (mmemInit 16 (fun _ => 0) (fun _ => 0) (fun _ => 0)).run 16
      freeBelow
    mmem.mmemlist = [1] ∧ mmem.contents 1 = [0, 5, 6] ∧
      mmem.Contiguous 0 mmem.mmemlist ∧
      mmem.availMemory.toNat + mmem.total mmem.mmemlist = 16 := by
  have admitted : AdmitsAll 16
      (mmemInit 16 (fun _ => 0) (fun _ => 0) (fun _ => 0)) freeBelow := by
    decide +kernel
  obtain ⟨_, contiguous, available, _⟩ := mmem_run admitted
  exact ⟨by decide +kernel, by decide +kernel, contiguous, available⟩

end Mmem

end Contiki.Core
