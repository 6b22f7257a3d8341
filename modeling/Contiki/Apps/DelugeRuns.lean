import Contiki.Apps.Deluge
import Mathlib.Data.List.Basic

/-!
# Deluge over runs

Every page that is written consists of packets that were received for it, and
no message leads outside of an array, as long as no packet and no profile
disturbs the page that is being received.
-/

namespace Contiki.Apps.Deluge

open Contiki.Lib

/-- A node, the packets that it has received, and the pages that it has
written. -/
structure System where
  node : Node
  received : List Packet
  written : List Written

/-- A message is received at a time; for a profile there is memory for the
pages, or not. -/
structure Event where
  message : Message
  now : Nat
  memory : Bool

namespace Message

def packets : Message → List Packet
  | .packet content => [content]
  | _ => []

end Message

namespace System

def init (wideInt : Bool) (size : UInt16) (version : UInt8) :
    System where
  node := Node.initObject wideInt size version
  received := []
  written := []

/-- The next state, if the message leads nowhere outside of an array. -/
def step (clockSecond : Nat) (system : System) (event : Event) :
    Option System :=
  (system.node.commandDispatcher clockSecond event.now event.memory
      event.message).map fun (node, written) =>
    { node
      received := system.received ++ event.message.packets
      written := system.written ++ written }

end System

/-- The packet is one of a page, and its payload has the checksum. -/
structure Supplies (packet : Packet) (pagenum : Nat) (version : UInt8)
    (slot : Nat) (payload : List UInt8) : Prop where
  pagenum : packet.pagenum.toNat = pagenum
  version : packet.version = version
  packetnum : packet.packetnum.toNat = slot
  crc : packet.crcMatches = true
  payload : packet.payload.toList = payload

instance (packet : Packet) (pagenum : Nat) (version : UInt8) (slot : Nat)
    (payload : List UInt8) :
    Decidable (Supplies packet pagenum version slot payload) :=
  decidable_of_iff (packet.pagenum.toNat = pagenum ∧
      packet.version = version ∧ packet.packetnum.toNat = slot ∧
      packet.crcMatches = true ∧ packet.payload.toList = payload)
    ⟨fun all => ⟨all.1, all.2.1, all.2.2.1, all.2.2.2.1, all.2.2.2.2⟩,
      fun supplies => ⟨supplies.pagenum, supplies.version,
        supplies.packetnum, supplies.crc, supplies.payload⟩⟩

/-- Each slot of each page that was written is the payload of a packet that
was received for it. -/
def Intact (system : System) : Prop :=
  ∀ page ∈ system.written, ∀ slot < nPkt, ∃ packet ∈ system.received,
    Supplies packet page.pagenum.toNat page.version slot
      ((page.data.drop (sPkt * slot)).take sPkt)

instance (system : System) : Decidable (Intact system) :=
  inferInstanceAs (Decidable (∀ page ∈ system.written, _))

/-- A run in which no message leads outside of an array, and in which the
pages are intact in every state. -/
def IntactRun (clockSecond : Nat) (system : System) : List Event → Prop
  | [] => Intact system
  | event :: events =>
      Intact system ∧ ∃ next, system.step clockSecond event = some next ∧
        IntactRun clockSecond next events

/-! ## Conditions on the messages -/

namespace Page

/-- Some packets of the page have been received, but not all of them. -/
def isPartial (page : Page) : Bool :=
  !page.complete &&
    (List.range nPkt).any fun slot => page.packetSet.testBit slot

end Page

namespace Node

/-- A packet for a page that is being received is one of the page, and its
payload has the checksum, or it is for a slot that is empty. -/
def mildPacket (node : Node) (packet : Packet) : Bool :=
  packet.pagenum ≠ node.currentRxPage ||
    match node.pages[packet.pagenum.toNat]? with
    | some page =>
        packet.version ≠ page.version || page.complete ||
          (packet.packetnum.toNat < nPkt &&
            (packet.crcMatches ||
              !page.packetSet.testBit packet.packetnum.toNat))
    | none => false

/-- The page is complete, and its version in the vector is not newer. -/
def settled (node : Node) (versionVector : List UInt8) (i : Nat) : Bool :=
  match node.pages[i]?, versionVector[i]? with
  | some page, some version => page.complete && !(page.version < version)
  | _, _ => false

/-- If some packets of the page that is being received are kept, then all the
pages before it stay complete. -/
def keepsReception (node : Node) (versionVector : List UInt8) : Bool :=
  match node.pages[node.currentRxPage.toNat]?,
      versionVector[node.currentRxPage.toNat]? with
  | some page, some version =>
      node.pageCount ≤ node.currentRxPage.toNat || !page.isPartial ||
        page.version < version ||
        (List.range node.currentRxPage.toNat).all
          (node.settled versionVector)
  | _, _ => true

/-- A profile has a vector, and if it is newer then the number of pages does
not get smaller, the vector has a version for each of the old pages, and the
reception is kept; if there is no memory then the number of pages does not get
larger. -/
def mildProfile (memory : Bool) (node : Node) (version npages : UInt8)
    (versionVector : List UInt8) : Bool :=
  match versionVector.head? with
  | none => false
  | some first =>
      versionVector.length < npages.toNat * first.toNat ||
        version ≤ node.updateVersion ||
        if memory then
          node.pageCount ≤ npages.toNat &&
            node.pageCount ≤ versionVector.length &&
            node.keepsReception versionVector
        else npages.toNat ≤ node.pages.length

def mild (memory : Bool) (node : Node) : Message → Bool
  | .summary _ _ => true
  | .request _ _ _ => true
  | .packet packet => node.mildPacket packet
  | .profile version npages versionVector =>
      node.mildProfile memory version npages versionVector

end Node

def MildRun (clockSecond : Nat) (system : System) : List Event → Prop
  | [] => True
  | event :: events =>
      system.node.mild event.memory event.message = true ∧
        match system.step clockSecond event with
        | some next => MildRun clockSecond next events
        | none => True

instance (clockSecond : Nat) (system : System) (events : List Event) :
    Decidable (MildRun clockSecond system events) :=
  decidableMildRun system events
where
  decidableMildRun (system : System) :
      (events : List Event) → Decidable (MildRun clockSecond system events)
    | [] => inferInstanceAs (Decidable True)
    | event :: events =>
        have : Decidable (match system.step clockSecond event with
            | some next => MildRun clockSecond next events
            | none => True) :=
          match system.step clockSecond event with
          | some next => decidableMildRun next events
          | none => inferInstanceAs (Decidable True)
        inferInstanceAs (Decidable (_ ∧ _))

/-! ## The pages of a node -/

/-- The packets of a page that is not complete are in memory, if there are
any. -/
structure Sound (system : System) : Prop where
  few : system.node.pageCount ≤ system.node.pages.length
  kept : ∀ (i : Nat) (page : Page), system.node.pages[i]? = some page →
    page.complete = false → ∀ slot < nPkt,
      page.packetSet.testBit slot = true →
        i = system.node.currentRxPage.toNat ∧
          ∃ packet ∈ system.received, Supplies packet i page.version slot
            (system.node.currentPage.read (sPkt * slot) sPkt)
  intact : Intact system

variable {system : System} {node : Node}

namespace Node

/-- What `highest_available_page` finds. -/
theorem highestFrom_eq {i left : Nat} (few : i + left ≤ node.pages.length) :
    ∃ highest, node.highestFrom i left = some highest ∧ i ≤ highest ∧
      highest ≤ i + left ∧
      (∀ j, i ≤ j → j < highest → ∀ page, node.pages[j]? = some page →
        page.complete = true) ∧
      (highest < i + left → ∃ page, node.pages[highest]? = some page ∧
        page.complete = false) := by
  induction left generalizing i with
  | zero =>
      refine ⟨i, rfl, Nat.le_refl i, Nat.le_refl i, ?_, ?_⟩
      · intro j isAfter isBefore
        exact absurd isBefore (Nat.not_lt.mpr isAfter)
      · intro isBefore
        exact absurd isBefore (Nat.lt_irrefl i)
  | succ left inductionHypothesis =>
      have inside : i < node.pages.length := by omega
      have isPage : node.pages[i]? = some node.pages[i] :=
        List.getElem?_eq_getElem inside
      unfold highestFrom
      rw [isPage]
      dsimp only [Option.bind_eq_bind, Option.bind_some]
      by_cases isComplete : node.pages[i].complete = true
      · rw [if_pos isComplete]
        rcases inductionHypothesis (i := i + 1) (by omega) with
          ⟨highest, found, lower, upper, complete, first⟩
        refine ⟨highest, found, by omega, by omega, ?_, ?_⟩
        · intro j isAfter isBefore page atJ
          by_cases isFirst : j = i
          · rw [isFirst, isPage] at atJ
            rw [← Option.some.inj atJ]
            exact isComplete
          · exact complete j (by omega) isBefore page atJ
        · intro isBefore
          exact first (by omega)
      · rw [if_neg isComplete]
        refine ⟨i, rfl, Nat.le_refl i, Nat.le_add_right _ _, ?_, ?_⟩
        · intro j isAfter isBefore
          exact absurd isBefore (Nat.not_lt.mpr isAfter)
        · exact fun _ => ⟨_, isPage, Bool.eq_false_iff.mpr isComplete⟩

theorem highestAvailablePage_eq (few : node.pageCount ≤ node.pages.length) :
    ∃ highest, node.highestAvailablePage = some highest := by
  have enough : 0 + node.pageCount ≤ node.pages.length := by omega
  rcases highestFrom_eq enough with ⟨highest, found, _⟩
  exact ⟨highest, found⟩

theorem oldestFrom_eq {i left : Nat}
    (few : i + left ≤ node.pages.length) (oldestRequest oldestData : Nat) :
    ∃ oldest, node.oldestFrom i oldestRequest oldestData left =
      some oldest := by
  induction left generalizing i oldestRequest oldestData with
  | zero => exact ⟨_, rfl⟩
  | succ left inductionHypothesis =>
      have inside : i < node.pages.length := by omega
      unfold oldestFrom
      rw [List.getElem?_eq_getElem inside]
      exact inductionHypothesis (by omega) _ _

/-- What matters of a node: a request changes the times of a page only. -/
structure SameReception (before after : Node) : Prop where
  pageCount : after.pageCount = before.pageCount
  currentRxPage : after.currentRxPage = before.currentRxPage
  currentPage : after.currentPage = before.currentPage
  length : after.pages.length = before.pages.length
  pages : ∀ (i : Nat) (page : Page), after.pages[i]? = some page →
    ∃ old : Page, before.pages[i]? = some old ∧ page.complete = old.complete ∧
      page.packetSet = old.packetSet ∧ page.version = old.version

theorem SameReception.of_pages {before after : Node}
    (pageCount : after.pageCount = before.pageCount)
    (currentRxPage : after.currentRxPage = before.currentRxPage)
    (currentPage : after.currentPage = before.currentPage)
    (pages : after.pages = before.pages) :
    SameReception before after where
  pageCount := pageCount
  currentRxPage := currentRxPage
  currentPage := currentPage
  length := congrArg List.length pages
  pages := by
    intro i page isPage
    rw [pages] at isPage
    exact ⟨page, isPage, rfl, rfl, rfl⟩

theorem SameReception.trans {first second third : Node}
    (earlier : SameReception first second)
    (later : SameReception second third) : SameReception first third where
  pageCount := later.pageCount.trans earlier.pageCount
  currentRxPage := later.currentRxPage.trans earlier.currentRxPage
  currentPage := later.currentPage.trans earlier.currentPage
  length := later.length.trans earlier.length
  pages := by
    intro i page isPage
    rcases later.pages i page isPage with
      ⟨middle, isMiddle, complete, packetSet, version⟩
    rcases earlier.pages i middle isMiddle with
      ⟨old, isOld, wasComplete, oldSet, oldVersion⟩
    exact ⟨old, isOld, complete.trans wasComplete,
      packetSet.trans oldSet, version.trans oldVersion⟩

theorem SameReception.few {before after : Node}
    (same : SameReception before after)
    (few : before.pageCount ≤ before.pages.length) :
    after.pageCount ≤ after.pages.length := by
  rw [same.pageCount, same.length]
  exact few

theorem noteSummary_same (node : Node) (highest : Nat)
    (version highestAvailable : UInt8) :
    SameReception node (node.noteSummary highest version
      highestAvailable) := by
  unfold noteSummary
  dsimp only
  split <;> split <;> exact .of_pages rfl rfl rfl rfl

theorem noteVersion_same (node : Node) (version : UInt8) :
    SameReception node (node.noteVersion version) := by
  unfold noteVersion
  split <;> exact .of_pages rfl rfl rfl rfl

/-- A summary leads nowhere outside of the pages and changes none of them. -/
theorem handleSummary_eq
    (few : node.pageCount ≤ node.pages.length) (clockSecond now : Nat)
    (version highestAvailable : UInt8) :
    ∃ after, node.handleSummary clockSecond now version highestAvailable =
      some after ∧ SameReception node after := by
  rcases highestAvailablePage_eq few with ⟨highest, found⟩
  have same := noteSummary_same node highest version highestAvailable
  have noted := same.few few
  unfold handleSummary
  rw [found]
  dsimp only [Option.bind_eq_bind, Option.bind_some]
  generalize node.noteSummary highest version highestAvailable = later
    at same noted ⊢
  by_cases isNewer : version = later.updateVersion ∧
      highest < highestAvailable.toNat
  · rw [if_pos isNewer]
    by_cases isAbove : later.pageCount < highestAvailable.toNat
    · rw [if_pos isAbove]
      exact ⟨later, rfl, same⟩
    · rw [if_neg isAbove]
      have inside : 0 + highestAvailable.toNat ≤ later.pages.length := by
        omega
      rcases oldestFrom_eq inside now now with ⟨oldest, isOldest⟩
      rw [isOldest]
      dsimp only [Option.bind_some]
      split
      · exact ⟨later, rfl, same⟩
      · exact ⟨_, rfl, same.trans (.of_pages rfl rfl rfl rfl)⟩
  · rw [if_neg isNewer]
    exact ⟨later, rfl, same⟩

/-- A request leads nowhere outside of the pages and changes only a time. -/
theorem handleRequest_eq
    (few : node.pageCount ≤ node.pages.length) (now : Nat)
    (version pagenum requestSet : UInt8) :
    ∃ after, node.handleRequest now version pagenum requestSet =
      some after ∧ SameReception node after := by
  unfold handleRequest
  by_cases isAbove : node.pageCount ≤ pagenum.toNat
  · rw [if_pos isAbove]
    exact ⟨node, rfl, .of_pages rfl rfl rfl rfl⟩
  · rw [if_neg isAbove]
    have same := noteVersion_same node version
    have noted := same.few few
    rcases highestAvailablePage_eq noted with ⟨highest, found⟩
    dsimp only
    rw [found]
    dsimp only [Option.bind_eq_bind, Option.bind_some]
    split
    · have inside : pagenum.toNat <
          (node.noteVersion version).pages.length := by
        rw [same.length]
        omega
      rw [List.getElem?_eq_getElem inside]
      refine ⟨_, rfl, same.trans ?_⟩
      refine ⟨rfl, rfl, rfl, List.length_set, ?_⟩
      intro i page isPage
      dsimp only at isPage
      rw [List.getElem?_set] at isPage
      by_cases isSame : pagenum.toNat = i
      · rw [if_pos isSame, if_pos inside] at isPage
        rw [← isSame, ← Option.some.inj isPage]
        exact ⟨_, List.getElem?_eq_getElem inside, rfl, rfl, rfl⟩
      · rw [if_neg isSame] at isPage
        exact ⟨page, isPage, rfl, rfl, rfl⟩
    · exact ⟨_, rfl, same⟩

end Node

theorem Sound.same {system : System} (sound : Sound system) {after : Node}
    (same : Node.SameReception system.node after) (packets : List Packet) :
    Sound { node := after, received := system.received ++ packets,
            written := system.written ++ [] } where
  few := same.few sound.few
  kept := by
    intro i page isPage notComplete slot isSlot isSet
    rcases same.pages i page isPage with
      ⟨old, isOld, complete, packetSet, version⟩
    rw [complete] at notComplete
    rw [packetSet] at isSet
    rcases sound.kept i old isOld notComplete slot isSlot isSet with
      ⟨isCurrent, packet, isReceived, supplies⟩
    dsimp only
    rw [same.currentRxPage, same.currentPage, version]
    exact ⟨isCurrent, packet, List.mem_append_left _ isReceived, supplies⟩
  intact := by
    intro page isWritten slot isSlot
    rw [List.append_nil] at isWritten
    rcases sound.intact page isWritten slot isSlot with
      ⟨packet, isReceived, supplies⟩
    exact ⟨packet, List.mem_append_left _ isReceived, supplies⟩

/-! ## Packets -/

/-- The slots in a set hold the payloads of packets that were received for
them. -/
def Filled (received : List Packet) (pagenum : Nat) (version : UInt8)
    (packetSet : Nat) (memory : ByteMem) : Prop :=
  ∀ slot < nPkt, packetSet.testBit slot = true → ∃ packet ∈ received,
    Supplies packet pagenum version slot (memory.read (sPkt * slot) sPkt)

theorem take_drop_read (memory : ByteMem) {slot : Nat} (isSlot : slot < nPkt) :
    ((memory.read 0 sPage).drop (sPkt * slot)).take sPkt =
      memory.read (sPkt * slot) sPkt := by
  have enough : sPage - sPkt * slot = sPkt + (sPage - sPkt * slot - sPkt) := by
    unfold sPage sPkt nPkt at *
    omega
  rw [ByteMem.drop_read, Nat.zero_add, enough, ByteMem.read_add]
  exact List.take_left' (ByteMem.length_read _ _ _)

theorem read_write_slot (memory : ByteMem) {slot other : Nat}
    (different : other ≠ slot) {payload : List UInt8}
    (length : payload.length = sPkt) :
    (memory.write (sPkt * slot) payload).read (sPkt * other) sPkt =
      memory.read (sPkt * other) sPkt := by
  apply ByteMem.read_write_disjoint
  rw [length]
  unfold sPkt
  omega

theorem testBit_insert (packetSet packetnum slot : Nat) :
    (packetSet ||| (1 <<< packetnum : Nat)).testBit slot =
      (packetSet.testBit slot || decide (packetnum = slot)) := by
  rw [Nat.testBit_or, Nat.one_shiftLeft, Nat.testBit_two_pow]

theorem Packet.length_payload (packet : Packet) :
    packet.payload.toList.length = sPkt :=
  Vector.length_toList

theorem Filled.insert {received : List Packet} {pagenum : Nat}
    {version : UInt8} {packetSet : Nat} {memory : ByteMem}
    (filled : Filled received pagenum version packetSet memory)
    {packet : Packet} (isPagenum : packet.pagenum.toNat = pagenum)
    (isVersion : packet.version = version)
    (matching : packet.crcMatches = true) :
    Filled (received ++ [packet]) pagenum version
      (packetSet ||| (1 <<< packet.packetnum.toNat : Nat))
      (memory.write (sPkt * packet.packetnum.toNat)
        packet.payload.toList) := by
  intro slot isSlot isSet
  by_cases isPacket : slot = packet.packetnum.toNat
  · refine ⟨packet, List.mem_append_right _ (List.mem_singleton_self _),
      isPagenum, isVersion, isPacket.symm, matching, ?_⟩
    rw [isPacket, ByteMem.read_write_of_length packet.length_payload]
  · rw [testBit_insert, decide_eq_false (Ne.symm isPacket),
      Bool.or_false] at isSet
    rcases filled slot isSlot isSet with ⟨other, isReceived, supplies⟩
    refine ⟨other, List.mem_append_left _ isReceived, ?_⟩
    rw [read_write_slot memory isPacket packet.length_payload]
    exact supplies

theorem Filled.spoil {received : List Packet} {pagenum : Nat}
    {version : UInt8} {packetSet : Nat} {memory : ByteMem}
    (filled : Filled received pagenum version packetSet memory)
    (packet : Packet)
    (isEmpty : packetSet.testBit packet.packetnum.toNat = false) :
    Filled (received ++ [packet]) pagenum version packetSet
      (memory.write (sPkt * packet.packetnum.toNat)
        packet.payload.toList) := by
  intro slot isSlot isSet
  have different : slot ≠ packet.packetnum.toNat := by
    intro isPacket
    rw [isPacket, isEmpty] at isSet
    exact Bool.false_ne_true isSet
  rcases filled slot isSlot isSet with ⟨other, isReceived, supplies⟩
  refine ⟨other, List.mem_append_left _ isReceived, ?_⟩
  rw [read_write_slot memory different packet.length_payload]
  exact supplies

theorem Sound.filled (sound : Sound system) {page : Page}
    (isPage : system.node.pages[system.node.currentRxPage.toNat]? =
      some page) (notComplete : page.complete = false) :
    Filled system.received system.node.currentRxPage.toNat page.version
      page.packetSet system.node.currentPage := by
  intro slot isSlot isSet
  exact (sound.kept _ page isPage notComplete slot isSlot isSet).2

theorem Intact.append (intact : Intact system)
    (node : Node) (packets : List Packet) {written : List Written}
    (new : ∀ page ∈ written, ∀ slot < nPkt,
      ∃ packet ∈ system.received ++ packets,
        Supplies packet page.pagenum.toNat page.version slot
          ((page.data.drop (sPkt * slot)).take sPkt)) :
    Intact { node, received := system.received ++ packets,
             written := system.written ++ written } := by
  intro page isWritten slot isSlot
  rcases List.mem_append.mp isWritten with isOld | isNew
  · rcases intact page isOld slot isSlot with ⟨packet, isReceived, supplies⟩
    exact ⟨packet, List.mem_append_left _ isReceived, supplies⟩
  · exact new page isNew slot isSlot

theorem Sound.update (sound : Sound system)
    {after : Node} {packet : Packet} {page : Page}
    (count : after.pageCount = system.node.pageCount)
    (pages : after.pages =
      system.node.pages.set system.node.currentRxPage.toNat page)
    (filled : page.complete = false →
      after.currentRxPage = system.node.currentRxPage ∧
        Filled (system.received ++ [packet])
          system.node.currentRxPage.toNat page.version page.packetSet
          after.currentPage)
    {written : List Written}
    (new : ∀ page ∈ written, ∀ slot < nPkt,
      ∃ other ∈ system.received ++ [packet],
        Supplies other page.pagenum.toNat page.version slot
          ((page.data.drop (sPkt * slot)).take sPkt)) :
    Sound { node := after, received := system.received ++ [packet],
            written := system.written ++ written } where
  few := by
    have few := sound.few
    dsimp only
    rw [pages, count, List.length_set]
    exact few
  kept := by
    intro i other isOther notComplete slot isSlot isSet
    dsimp only at isOther ⊢
    rw [pages, List.getElem?_set] at isOther
    by_cases isCurrent : system.node.currentRxPage.toNat = i
    · rw [if_pos isCurrent] at isOther
      by_cases inside : i < system.node.pages.length
      · rw [if_pos (isCurrent ▸ inside)] at isOther
        rw [← Option.some.inj isOther] at notComplete isSet ⊢
        rcases filled notComplete with ⟨same, isFilled⟩
        rw [same]
        rw [isCurrent] at isFilled ⊢
        exact ⟨rfl, isFilled slot isSlot isSet⟩
      · rw [if_neg (isCurrent ▸ inside)] at isOther
        exact nomatch isOther
    · rw [if_neg isCurrent] at isOther
      have kept := sound.kept i other isOther notComplete slot isSlot isSet
      exact absurd kept.1.symm isCurrent
  intact := sound.intact.append after [packet] new

namespace Node

@[simp]
theorem noteVersion_pages (node : Node) (version : UInt8) :
    (node.noteVersion version).pages = node.pages := by
  unfold noteVersion
  split <;> rfl

@[simp]
theorem noteVersion_pageCount (node : Node) (version : UInt8) :
    (node.noteVersion version).pageCount = node.pageCount := by
  unfold noteVersion
  split <;> rfl

@[simp]
theorem noteVersion_currentRxPage (node : Node) (version : UInt8) :
    (node.noteVersion version).currentRxPage = node.currentRxPage := by
  unfold noteVersion
  split <;> rfl

@[simp]
theorem noteVersion_currentPage (node : Node) (version : UInt8) :
    (node.noteVersion version).currentPage = node.currentPage := by
  unfold noteVersion
  split <;> rfl

/-- A packet for another page, or for one that does not need it. -/
theorem handlePacket_ignored {now : Nat} {packet : Packet}
    (other : packet.pagenum = node.currentRxPage → ∃ page,
      node.pages[packet.pagenum.toNat]? = some page ∧
        ¬ (packet.version = page.version ∧ page.complete = false)) :
    ∃ after, node.handlePacket now packet = some (after, []) ∧
      SameReception node after := by
  unfold handlePacket
  by_cases isCurrent : packet.pagenum = node.currentRxPage
  · rw [if_neg (not_not_intro isCurrent)]
    rcases other isCurrent with ⟨page, isPage, unneeded⟩
    dsimp only
    rw [noteVersion_pages, isPage]
    dsimp only [Option.bind_eq_bind, Option.bind_some]
    rw [if_neg unneeded]
    exact ⟨_, rfl, noteVersion_same node packet.version⟩
  · rw [if_pos isCurrent]
    exact ⟨node, rfl, .of_pages rfl rfl rfl rfl⟩

theorem handlePacket_stored {now : Nat} {packet : Packet}
    (isCurrent : packet.pagenum = node.currentRxPage) {page : Page}
    (isPage : node.pages[packet.pagenum.toNat]? = some page)
    (needed : packet.version = page.version ∧ page.complete = false)
    (inside : packet.packetnum.toNat < nPkt) :
    ∃ after written, node.handlePacket now packet = some (after, written) ∧
      after.pageCount = node.pageCount ∧
      (packet.crcMatches = false ∧ written = [] ∧
          after.pages = node.pages ∧
          after.currentRxPage = node.currentRxPage ∧
          after.currentPage = node.currentPage.write
            (sPkt * packet.packetnum.toNat) packet.payload.toList ∨
        packet.crcMatches = true ∧ ∃ later,
          after.pages = node.pages.set packet.pagenum.toNat later ∧
          later.version = page.version ∧
          later.packetSet =
            (page.packetSet ||| (1 <<< packet.packetnum.toNat : Nat)) ∧
          after.currentPage = node.currentPage.write
            (sPkt * packet.packetnum.toNat) packet.payload.toList ∧
          (later.complete = false ∧ written = [] ∧
              after.currentRxPage = node.currentRxPage ∨
            later.complete = true ∧ later.packetSet = allPackets ∧
              written =
                [{ pagenum := packet.pagenum
                   version := packet.version
                   data := after.currentPage.read 0 sPage }])) := by
  unfold handlePacket
  rw [if_neg (not_not_intro isCurrent)]
  dsimp only
  rw [noteVersion_pages, isPage]
  dsimp only [Option.bind_eq_bind, Option.bind_some]
  rw [if_pos needed, if_neg (Nat.not_le.mpr inside)]
  by_cases matching : packet.crcMatches = false
  · rw [if_pos matching]
    refine ⟨_, [], rfl, noteVersion_pageCount _ _,
      Or.inl ⟨matching, rfl, rfl, ?_, ?_⟩⟩
    · exact noteVersion_currentRxPage _ _
    · rw [← noteVersion_currentPage node packet.version]
  · rw [if_neg matching]
    have isMatching := (Bool.not_eq_false _).mp matching
    by_cases isLast : (page.packetSet |||
        (1 <<< packet.packetnum.toNat : Nat)) = allPackets
    · rw [if_pos isLast]
      refine ⟨_, _, rfl, noteVersion_pageCount _ _,
        Or.inr ⟨isMatching, _, rfl, needed.1, rfl, ?_,
          Or.inr ⟨rfl, isLast, rfl⟩⟩⟩
      rw [← noteVersion_currentPage node packet.version]
    · rw [if_neg isLast]
      refine ⟨_, [], rfl, noteVersion_pageCount _ _,
        Or.inr ⟨isMatching, _, rfl, rfl, rfl, ?_,
          Or.inl ⟨needed.2, rfl, ?_⟩⟩⟩
      · rw [← noteVersion_currentPage node packet.version]
      · exact noteVersion_currentRxPage _ _

end Node

/-- A mild packet leads nowhere outside of an array, and a page that it
completes is intact. -/
theorem Sound.packet {system : System} (sound : Sound system) (now : Nat)
    {packet : Packet} (mild : system.node.mildPacket packet = true) :
    ∃ after written,
      system.node.handlePacket now packet = some (after, written) ∧
        Sound { node := after, received := system.received ++ [packet],
                written := system.written ++ written } := by
  by_cases isCurrent : packet.pagenum = system.node.currentRxPage
  · unfold Node.mildPacket at mild
    rw [decide_eq_false (not_not_intro isCurrent), Bool.false_or] at mild
    cases isPage : system.node.pages[packet.pagenum.toNat]? with
    | none =>
        rw [isPage] at mild
        exact absurd mild Bool.false_ne_true
    | some page =>
        rw [isPage] at mild
        dsimp only at mild
        by_cases needed :
            packet.version = page.version ∧ page.complete = false
        · rw [decide_eq_false (not_not_intro needed.1), needed.2,
            Bool.false_or, Bool.false_or, Bool.and_eq_true,
            decide_eq_true_iff, Bool.or_eq_true,
            Bool.not_eq_true'] at mild
          have current := isPage
          rw [isCurrent] at current
          have filled := sound.filled current needed.2
          rcases Node.handlePacket_stored isCurrent isPage needed mild.1 with
            ⟨after, written, isAfter, count, result⟩
          refine ⟨after, written, isAfter, ?_⟩
          rw [isCurrent] at result
          rcases result with
            ⟨mismatch, none, pages, rxPage, memory⟩ |
            ⟨matching, later, pages, version, packetSet, memory, result⟩
          · have unset : system.node.pages =
                system.node.pages.set system.node.currentRxPage.toNat
                  page := by
              rcases List.getElem?_eq_some_iff.mp current with
                ⟨bound, same⟩
              rw [← same, List.set_getElem_self]
            refine sound.update count (pages.trans unset) ?_ ?_
            · intro _
              refine ⟨rxPage, ?_⟩
              rw [memory]
              have isEmpty := mild.2.resolve_left (by
                rw [mismatch]
                exact Bool.false_ne_true)
              exact filled.spoil packet isEmpty
            · rw [none]
              exact List.forall_mem_nil _
          · have isFilled : Filled (system.received ++ [packet])
                system.node.currentRxPage.toNat later.version
                later.packetSet after.currentPage := by
              rw [version, packetSet, memory]
              exact filled.insert (congrArg UInt8.toNat isCurrent)
                needed.1 matching
            rcases result with ⟨notComplete, none, rxPage⟩ |
              ⟨isComplete, isAll, isWritten⟩
            · refine sound.update count pages
                (fun _ => ⟨rxPage, isFilled⟩) ?_
              rw [none]
              exact List.forall_mem_nil _
            · refine sound.update count pages ?_ ?_
              · intro notComplete
                rw [isComplete] at notComplete
                exact absurd notComplete.symm Bool.false_ne_true
              · rw [isWritten]
                intro completed isOnly slot isSlot
                rw [List.mem_singleton.mp isOnly]
                have isSet : later.packetSet.testBit slot = true := by
                  rw [isAll]
                  revert slot
                  decide
                rw [take_drop_read after.currentPage isSlot]
                dsimp only
                rw [needed.1, ← version]
                exact isFilled slot isSlot isSet
        · have ignored : packet.pagenum = system.node.currentRxPage →
              ∃ page, system.node.pages[packet.pagenum.toNat]? =
                  some page ∧
                ¬ (packet.version = page.version ∧
                  page.complete = false) :=
            fun _ => ⟨page, isPage, needed⟩
          rcases Node.handlePacket_ignored ignored with
            ⟨after, isAfter, same⟩
          exact ⟨after, [], isAfter, sound.same same [packet]⟩
  · rcases Node.handlePacket_ignored
      (fun same => absurd same isCurrent) with ⟨after, isAfter, same⟩
    exact ⟨after, [], isAfter, sound.same same [packet]⟩

/-! ## Profiles -/

variable {npages : UInt8} {vector : List UInt8}

namespace Node

/-- The pages after the first loop of `handle_profile`. -/
theorem renewPages_eq {left : Nat} {pages : List Page} {vector : List UInt8}
    (enoughPages : left ≤ pages.length) (enough : left ≤ vector.length) :
    renewPages left pages vector =
      some (List.zipWith renew (pages.take left) vector ++
        pages.drop left) := by
  induction left generalizing pages vector with
  | zero => rfl
  | succ left inductionHypothesis =>
      cases pages with
      | nil => exact absurd enoughPages (Nat.not_succ_le_zero left)
      | cons page pages =>
          cases vector with
          | nil => exact absurd enough (Nat.not_succ_le_zero left)
          | cons version vector =>
              unfold renewPages
              rw [inductionHypothesis (Nat.le_of_succ_le_succ enoughPages)
                (Nat.le_of_succ_le_succ enough)]
              rfl

def profilePages (node : Node) (npages : UInt8) (vector : List UInt8) :
    List Page :=
  List.zipWith renew (node.pages.take node.pageCount) vector ++
    List.replicate (npages.toNat - node.pageCount) initPage

theorem length_zipWith_renew {count : Nat} {pages : List Page}
    {vector : List UInt8} (enoughPages : count ≤ pages.length)
    (enough : count ≤ vector.length) :
    (List.zipWith renew (pages.take count) vector).length = count := by
  rw [List.length_zipWith, List.length_take]
  omega

theorem length_profilePages (few : node.pageCount ≤ node.pages.length)
    (grows : node.pageCount ≤ npages.toNat)
    (enough : node.pageCount ≤ vector.length) :
    (node.profilePages npages vector).length = npages.toNat := by
  unfold profilePages
  rw [List.length_append, length_zipWith_renew few enough,
    List.length_replicate]
  omega

theorem pageCount_of_npages (node : Node) (npages : UInt8) :
    pageCount { node with size := npages.toUInt16 * 256 } =
      npages.toNat := by
  have small : npages.toNat < 256 := UInt8.toNat_lt npages
  have size : (npages.toUInt16 * 256).toNat = npages.toNat * 256 := by
    rw [UInt16.toNat_mul, UInt8.toNat_toUInt16]
    exact Nat.mod_eq_of_lt (by
      have value : (256 : UInt16).toNat = 256 := rfl
      rw [value]
      omega)
  unfold pageCount objectPageCount sPage sPkt nPkt
  dsimp only
  rw [size]
  -- the sum is below two to the 16th
  split <;> omega

theorem handleProfile_eq {version npages : UInt8}
    {vector : List UInt8} (few : node.pageCount ≤ node.pages.length)
    (isNewer : node.updateVersion < version)
    (grows : node.pageCount ≤ npages.toNat)
    (enough : node.pageCount ≤ vector.length) :
    ∃ after highest, node.handleProfile true version npages vector =
        some after ∧
      after.pages = node.profilePages npages vector ∧
      after.pageCount = npages.toNat ∧
      after.currentPage = node.currentPage ∧
      after.currentRxPage = UInt8.ofNat highest ∧
      (∀ j, j < highest → ∀ page, after.pages[j]? = some page →
        page.complete = true) ∧
      (highest < npages.toNat → ∃ page, after.pages[highest]? = some page ∧
        page.complete = false) := by
  have length : (List.zipWith renew (node.pages.take node.pageCount)
      vector).length = node.pageCount :=
    length_zipWith_renew few enough
  have smaller : min node.pageCount npages.toNat = node.pageCount :=
    Nat.min_eq_left grows
  have notOld : ¬ version ≤ node.updateVersion :=
    UInt8.not_le.mpr isNewer
  have total := length_profilePages few grows enough
  have copied : node.pageCount ≤ (node.pages.take node.pageCount ++
      List.replicate (npages.toNat - node.pageCount) initPage).length := by
    rw [List.length_append, List.length_take]
    omega
  have renewed := renewPages_eq copied enough
  have takePages : (node.pages.take node.pageCount ++ List.replicate
      (npages.toNat - node.pageCount) initPage).take node.pageCount =
        node.pages.take node.pageCount :=
    List.take_left' (List.length_take_of_le few)
  rw [takePages] at renewed
  have count := pageCount_of_npages
    { node with txSet := 0, pages := node.profilePages npages vector } npages
  have inside : 0 + npages.toNat ≤ ({ node with
      txSet := 0
      size := npages.toUInt16 * 256
      pages := node.profilePages npages vector } : Node).pages.length := by
    dsimp only
    omega
  rcases highestFrom_eq inside with ⟨highest, found, _, _, complete, first⟩
  rw [← count] at found
  have isHighest : highestAvailablePage { node with
      txSet := 0
      size := npages.toUInt16 * 256
      pages := node.profilePages npages vector } = some highest := found
  have pages : List.zipWith renew (node.pages.take node.pageCount) vector ++
      List.replicate (npages.toNat - node.pageCount) initPage =
        node.profilePages npages vector := rfl
  unfold handleProfile
  rw [if_neg notOld]
  dsimp only
  rw [if_neg (by decide), pageCount_of_npages { node with txSet := 0 },
    if_neg (by omega), smaller, renewed]
  dsimp only [Option.bind_eq_bind, Option.bind_some]
  rw [List.take_left' length, pages, isHighest]
  refine ⟨_, highest, rfl, rfl, ?_, rfl, rfl, ?_, ?_⟩
  · exact pageCount_of_npages
      { node with
        txSet := 0
        pages := node.profilePages npages vector
        currentRxPage := UInt8.ofNat highest
        updateVersion := version
        state := .rx } npages
  · exact fun j isBefore => complete j (Nat.zero_le j) isBefore
  · exact fun isBefore => first (by omega)

/-- A page with packets after a profile is one that the profile leaves. -/
theorem profilePages_kept {i : Nat} {page : Page}
    (isPage : (node.profilePages npages vector)[i]? = some page) {slot : Nat}
    (isSet : page.packetSet.testBit slot = true) :
    i < node.pageCount ∧ node.pages[i]? = some page ∧
      ∃ version, vector[i]? = some version ∧ ¬ page.version < version := by
  unfold profilePages at isPage
  rw [List.getElem?_append] at isPage
  split at isPage
  · rcases List.getElem?_zipWith_eq_some.mp isPage with
      ⟨old, version, isOld, isVersion, renewed⟩
    have isBefore : i < node.pageCount := by
      rcases List.getElem?_eq_some_iff.mp isOld with ⟨bound, _⟩
      rw [List.length_take] at bound
      omega
    rw [List.getElem?_take_of_lt isBefore] at isOld
    unfold renew at renewed
    by_cases isNewer : old.version < version
    · rw [if_pos isNewer] at renewed
      rw [← renewed, Nat.zero_testBit] at isSet
      exact absurd isSet Bool.false_ne_true
    · rw [if_neg isNewer] at renewed
      rw [← renewed]
      exact ⟨isBefore, isOld, version, isVersion, isNewer⟩
  · have isNew := List.eq_of_mem_replicate (List.mem_of_getElem? isPage)
    rw [isNew] at isSet
    have isEmpty : initPage.packetSet.testBit slot = false :=
      Nat.zero_testBit slot
    rw [isEmpty] at isSet
    exact absurd isSet Bool.false_ne_true

theorem profilePages_settled (few : node.pageCount ≤ node.pages.length)
    (enough : node.pageCount ≤ vector.length) {i : Nat}
    (isBefore : i < node.pageCount)
    (isSettled : node.settled vector i = true) :
    ∃ page, (node.profilePages npages vector)[i]? = some page ∧
      page.complete = true := by
  have inside : i < (List.zipWith renew (node.pages.take node.pageCount)
      vector).length := by
    rw [length_zipWith_renew few enough]
    exact isBefore
  unfold profilePages
  rw [List.getElem?_append_left inside]
  unfold settled at isSettled
  split at isSettled
  · rename_i page version isPage isVersion
    rw [Bool.and_eq_true, Bool.not_eq_true', decide_eq_false_iff_not]
      at isSettled
    refine ⟨page, ?_, isSettled.1⟩
    apply List.getElem?_zipWith_eq_some.mpr
    refine ⟨page, version, ?_, isVersion, if_neg isSettled.2⟩
    rw [List.getElem?_take_of_lt isBefore, isPage]
  · exact absurd isSettled Bool.false_ne_true

theorem settled_of_keepsReception
    (keeps : node.keepsReception vector = true) {page : Page}
    {version : UInt8}
    (isPage : node.pages[node.currentRxPage.toNat]? = some page)
    (isVersion : vector[node.currentRxPage.toNat]? = some version)
    (isBefore : node.currentRxPage.toNat < node.pageCount)
    (isPartial : page.isPartial = true) (notNewer : ¬ page.version < version) :
    ∀ i < node.currentRxPage.toNat, node.settled vector i = true := by
  unfold keepsReception at keeps
  rw [isPage, isVersion] at keeps
  dsimp only at keeps
  rw [decide_eq_false (Nat.not_le.mpr isBefore), isPartial,
    decide_eq_false notNewer, Bool.not_true, Bool.false_or, Bool.false_or,
    Bool.false_or, List.all_eq_true] at keeps
  exact fun i isEarlier => keeps i (List.mem_range.mpr isEarlier)

end Node

/-- A mild profile leads nowhere outside of an array and keeps the page that
is being received, if there is one. -/
theorem Sound.profile (sound : Sound system)
    {memory : Bool} {version npages : UInt8} {vector : List UInt8}
    (mild : system.node.mildProfile memory version npages vector = true) :
    ∃ first, vector.head? = some first ∧
      (vector.length < npages.toNat * first.toNat ∨
        ∃ after, system.node.handleProfile memory version npages vector =
            some after ∧
          Sound { node := after, received := system.received ++ [],
                  written := system.written ++ [] }) := by
  unfold Node.mildProfile at mild
  split at mild
  · exact absurd mild Bool.false_ne_true
  · rename_i first isFirst
    refine ⟨first, isFirst, ?_⟩
    by_cases isShort : vector.length < npages.toNat * first.toNat
    · exact Or.inl isShort
    · refine Or.inr ?_
      rw [decide_eq_false isShort, Bool.false_or] at mild
      by_cases isOld : version ≤ system.node.updateVersion
      · refine ⟨system.node, ?_, ?_⟩
        · unfold Node.handleProfile
          rw [if_pos isOld]
        · exact sound.same (.of_pages rfl rfl rfl rfl) []
      · rw [decide_eq_false isOld, Bool.false_or] at mild
        cases memory with
        | false =>
            rw [if_neg Bool.false_ne_true, decide_eq_true_iff] at mild
            refine ⟨{ system.node with
                        txSet := 0, size := npages.toUInt16 * 256 },
              ?_, ?_, ?_, ?_⟩
            · unfold Node.handleProfile
              rw [if_neg isOld]
              rfl
            · have count := Node.pageCount_of_npages
                { system.node with txSet := 0 } npages
              dsimp only at count ⊢
              rw [count]
              exact mild
            · rw [List.append_nil]
              exact sound.kept
            · rw [List.append_nil, List.append_nil]
              exact sound.intact
        | true =>
            rw [if_pos rfl, Bool.and_eq_true, Bool.and_eq_true,
              decide_eq_true_iff, decide_eq_true_iff] at mild
            rcases mild with ⟨⟨grows, enough⟩, keeps⟩
            rcases Node.handleProfile_eq sound.few (UInt8.not_le.mp isOld)
              grows enough with ⟨after, highest, isAfter, pages, count,
                memory, rxPage, complete, first⟩
            refine ⟨after, isAfter, ?_, ?_, ?_⟩
            · apply Nat.le_of_eq
              dsimp only
              rw [count, pages,
                Node.length_profilePages sound.few grows enough]
            · intro i page isPage notComplete slot isSlot isSet
              dsimp only at isPage ⊢
              rw [pages] at isPage
              rcases Node.profilePages_kept isPage isSet with
                ⟨isBefore, isOldPage, version, isVersion, notNewer⟩
              rcases sound.kept i page isOldPage notComplete slot isSlot
                isSet with ⟨isCurrent, packet, isReceived, supplies⟩
              have isPartial : page.isPartial = true := by
                unfold Page.isPartial
                rw [notComplete, Bool.not_false, Bool.true_and]
                exact List.any_eq_true.mpr
                  ⟨slot, List.mem_range.mpr isSlot, isSet⟩
              rw [isCurrent] at isOldPage isVersion isBefore
              have settled := Node.settled_of_keepsReception keeps
                isOldPage isVersion isBefore isPartial notNewer
              have notAbove : ¬ i < highest := by
                intro isAbove
                rw [← pages] at isPage
                rw [complete i isAbove page isPage] at notComplete
                exact Bool.false_ne_true notComplete.symm
              have notBelow : ¬ highest < i := by
                intro isBelow
                have isPageNumber : highest < npages.toNat := by
                  omega
                rcases first isPageNumber with ⟨other, isOther, incomplete⟩
                rcases Node.profilePages_settled sound.few enough
                  (i := highest) (by omega)
                  (settled highest (by omega)) with
                  ⟨same, isSame, isComplete⟩
                rw [pages, isSame] at isOther
                rw [← Option.some.inj isOther, isComplete] at incomplete
                exact Bool.false_ne_true incomplete.symm
              have isHighest : highest = i := by
                omega
              rw [rxPage, isHighest, memory, List.append_nil]
              refine ⟨?_, packet, isReceived, supplies⟩
              rw [isCurrent, UInt8.ofNat_toNat]
            · rw [List.append_nil, List.append_nil]
              exact sound.intact

/-! ## Runs -/

theorem init_sound (wideInt : Bool) (size : UInt16) (version : UInt8) :
    Sound (System.init wideInt size version) where
  few := by
    have length : (System.init wideInt size version).node.pages.length =
        (System.init wideInt size version).node.pageCount :=
      List.length_replicate
    exact Nat.le_of_eq length.symm
  kept := by
    intro i page isPage notComplete
    have isFirst : page = havePage version :=
      List.eq_of_mem_replicate (List.mem_of_getElem? isPage)
    rw [isFirst] at notComplete
    exact absurd notComplete Bool.noConfusion
  intact := List.forall_mem_nil _

theorem Sound.step (sound : Sound system) (clockSecond : Nat) {event : Event}
    (mild : system.node.mild event.memory event.message = true) :
    ∃ next, system.step clockSecond event = some next ∧ Sound next := by
  unfold System.step
  cases isMessage : event.message with
  | summary version highestAvailable =>
      rcases Node.handleSummary_eq sound.few clockSecond event.now version
        highestAvailable with ⟨after, isAfter, same⟩
      dsimp only [Node.commandDispatcher]
      rw [isAfter]
      exact ⟨_, rfl, sound.same same []⟩
  | request version pagenum requestSet =>
      rcases Node.handleRequest_eq sound.few event.now version pagenum
        requestSet with ⟨after, isAfter, same⟩
      dsimp only [Node.commandDispatcher]
      rw [isAfter]
      exact ⟨_, rfl, sound.same same []⟩
  | packet packet =>
      rw [isMessage] at mild
      rcases sound.packet event.now mild with
        ⟨after, written, isAfter, later⟩
      dsimp only [Node.commandDispatcher]
      rw [isAfter]
      exact ⟨_, rfl, later⟩
  | profile version npages vector =>
      rw [isMessage] at mild
      rcases sound.profile mild with
        ⟨first, isFirst, isShort | ⟨after, isAfter, later⟩⟩
      · dsimp only [Node.commandDispatcher]
        rw [isFirst]
        dsimp only [Option.bind_eq_bind, Option.bind_some]
        rw [if_pos isShort]
        exact ⟨_, rfl, sound.same (.of_pages rfl rfl rfl rfl) []⟩
      · dsimp only [Node.commandDispatcher]
        rw [isFirst]
        dsimp only [Option.bind_eq_bind, Option.bind_some]
        split
        · exact ⟨_, rfl, sound.same (.of_pages rfl rfl rfl rfl) []⟩
        · rw [isAfter]
          exact ⟨_, rfl, later⟩

theorem Sound.run (sound : Sound system)
    {clockSecond : Nat} {events : List Event}
    (mild : MildRun clockSecond system events) :
    IntactRun clockSecond system events := by
  induction events generalizing system with
  | nil => exact sound.intact
  | cons event events inductionHypothesis =>
      rcases mild with ⟨isMild, mildRest⟩
      rcases sound.step clockSecond isMild with ⟨next, isNext, later⟩
      rw [isNext] at mildRest
      exact ⟨sound.intact, next, isNext, inductionHypothesis later mildRest⟩

/-- A packet of a page of version one; the payload of zeros has the
checksum zero. -/
def zeroPacket (packetnum : UInt8) (payload : UInt8) : Event where
  message := .packet
    { version := 1, pagenum := 0, packetnum, crc := 0
      payload := Vector.replicate 64 payload }
  now := 0
  memory := true

/-- The only page has a new version. -/
def newVersion : Event where
  message := .profile 1 1 [1]
  now := 0
  memory := true

/-- All packets of the page are received, and one of them twice. -/
def completingRun : List Event :=
  [newVersion, zeroPacket 2 0, zeroPacket 0 0, zeroPacket 2 0,
    zeroPacket 3 0, zeroPacket 1 0]

theorem IntactRun.last {clockSecond : Nat} {system : System}
    {events : List Event} (run : IntactRun clockSecond system events) :
    ∃ final, events.foldlM (System.step clockSecond) system = some final ∧
      Intact final := by
  induction events generalizing system with
  | nil => exact ⟨system, rfl, run⟩
  | cons event events inductionHypothesis =>
      rcases run.2 with ⟨next, isNext, later⟩
      rcases inductionHypothesis later with ⟨final, isFinal, intact⟩
      refine ⟨final, ?_, intact⟩
      rw [List.foldlM_cons, isNext]
      exact isFinal

/-- A packet for a slot that has been received comes again with a wrong
checksum. -/
def spoiledRun : List Event :=
  [newVersion, zeroPacket 0 0, zeroPacket 0 1, zeroPacket 1 0,
    zeroPacket 2 0, zeroPacket 3 0]

end Contiki.Apps.Deluge
