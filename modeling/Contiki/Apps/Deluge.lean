import Contiki.Lib.ByteMem

/-!
# Deluge

`apps/deluge/deluge.c` disseminates a file in pages of four packets.  A page is
assembled in memory and written when it is complete.  An access outside of an
array or of a message ends in `none`.
-/

namespace Contiki.Apps.Deluge

open Contiki.Lib

/-- `S_PKT` -/
def sPkt : Nat := 64

/-- `N_PKT` -/
def nPkt : Nat := 4

/-- `S_PAGE` -/
def sPage : Nat := sPkt * nPkt

/-- `ALL_PACKETS` -/
def allPackets : Nat := 15

/-- `struct deluge_page` -/
structure Page where
  packetSet : Nat
  lastRequest : Nat
  lastData : Nat
  /-- `PAGE_COMPLETE` in the flags. -/
  complete : Bool
  version : UInt8
  deriving DecidableEq

/-- `deluge_state` -/
inductive State where
  | maintain
  | rx
  | tx
  deriving DecidableEq

/-- `current_object` and the variables of the module. -/
structure Node where
  /-- Whether an `int` of the platform has more than 16 bits. -/
  wideInt : Bool
  size : UInt16
  version : UInt8
  updateVersion : UInt8
  pages : List Page
  currentRxPage : UInt8
  currentTxPage : Int8
  currentPage : ByteMem
  txSet : UInt8
  state : State
  neighborInconsistency : Bool
  oldSummary : Bool
  broadcastProfile : Bool
  recvAdv : Nat
  rInterval : Nat

/-- `struct deluge_msg_packet` -/
structure Packet where
  version : UInt8
  pagenum : UInt8
  packetnum : UInt8
  crc : UInt16
  payload : Vector UInt8 64
  deriving DecidableEq

/-- The messages, if they are as long as their structures; shorter ones are
dropped.  A profile has a vector of the bytes after its header. -/
inductive Message where
  | summary (version highestAvailable : UInt8)
  | request (version pagenum requestSet : UInt8)
  | packet (packet : Packet)
  | profile (version npages : UInt8) (versionVector : List UInt8)
  deriving DecidableEq

/-- A page that is written to the file, with the version of its entry. -/
structure Written where
  pagenum : UInt8
  version : UInt8
  data : List UInt8
  deriving DecidableEq

/-! ## Checksums -/

/-- `crc16_add` -/
def crc16Add (b : UInt8) (acc : UInt16) : UInt16 :=
  let acc := acc ^^^ b.toUInt16
  let acc := (acc >>> 8) ||| (acc <<< 8)
  let acc := acc ^^^ ((acc &&& 0xff00) <<< 4)
  let acc := acc ^^^ ((acc >>> 8) >>> 4)
  acc ^^^ ((acc &&& 0xff00) >>> 5)

/-- `crc16_data` -/
def crc16Data (data : List UInt8) (acc : UInt16) : UInt16 :=
  data.foldl (fun acc b => crc16Add b acc) acc

namespace Packet

/-- The checksum of the packet is that of its payload. -/
def crcMatches (packet : Packet) : Bool :=
  packet.crc = crc16Data packet.payload.toList 0

end Packet

/-! ## Pages -/

/-- `init_page` for a page that is not there. -/
def initPage : Page where
  packetSet := 0
  lastRequest := 0
  lastData := 0
  complete := false
  version := 0

/-- `init_page` for a page of the object. -/
def havePage (version : UInt8) : Page where
  packetSet := allPackets
  lastRequest := 0
  lastData := 0
  complete := true
  version

/-- `OBJECT_PAGE_COUNT`, with a sum of the width of an `int`. -/
def objectPageCount (wideInt : Bool) (size : UInt16) : Nat :=
  let sum := size.toNat + (sPage - 1)
  (if wideInt then sum else sum % 65536) / sPage

namespace Node

def pageCount (node : Node) : Nat :=
  objectPageCount node.wideInt node.size

/-- `highest_available_page` from a page on, when some pages are left. -/
def highestFrom (node : Node) (i : Nat) : Nat → Option Nat
  | 0 => some i
  | left + 1 => do
      let page ← node.pages[i]?
      if page.complete then highestFrom node (i + 1) left else some i

/-- `highest_available_page` -/
def highestAvailablePage (node : Node) : Option Nat :=
  highestFrom node 0 node.pageCount

/-- The oldest times of a request and of data, in the loop of
`handle_summary`. -/
def oldestFrom (node : Node) (i : Nat) (oldestRequest oldestData : Nat) :
    Nat → Option (Nat × Nat)
  | 0 => some (oldestRequest, oldestData)
  | left + 1 => do
      let page ← node.pages[i]?
      let oldestRequest :=
        if page.lastRequest < oldestRequest then page.lastRequest
        else oldestRequest
      let oldestData :=
        if page.lastRequest < oldestData then page.lastData else oldestData
      oldestFrom node (i + 1) oldestRequest oldestData left

/-- The beginning of `handle_summary`, when the pages below `highest` are
available. -/
def noteSummary (node : Node) (highest : Nat)
    (version highestAvailable : UInt8) : Node :=
  let node :=
    if version ≠ node.version ∨ highestAvailable.toNat ≠ highest then
      { node with neighborInconsistency := true }
    else { node with recvAdv := node.recvAdv + 1 }
  if version < node.version then
    { node with oldSummary := true, broadcastProfile := true }
  else node

/-- `handle_summary`; the clock is at `now`. -/
def handleSummary (clockSecond now : Nat) (node : Node)
    (version highestAvailable : UInt8) : Option Node := do
  let highest ← node.highestAvailablePage
  let node := node.noteSummary highest version highestAvailable
  if version = node.updateVersion ∧ highest < highestAvailable.toNat then
    if node.pageCount < highestAvailable.toNat then some node
    else do
      let (oldestRequest, oldestData) ←
        node.oldestFrom 0 now now highestAvailable.toNat
      if (now - oldestRequest) / clockSecond ≤ 2 * node.rInterval ∨
          (now - oldestData) / clockSecond ≤ node.rInterval then some node
      else some { node with state := .rx }
  else some node

/-- A message of another version is an inconsistency. -/
def noteVersion (node : Node) (version : UInt8) : Node :=
  if version ≠ node.version then { node with neighborInconsistency := true }
  else node

/-- `handle_request` -/
def handleRequest (now : Nat) (node : Node)
    (version pagenum requestSet : UInt8) : Option Node := do
  if node.pageCount ≤ pagenum.toNat then some node
  else
    let node := node.noteVersion version
    let highest ← node.highestAvailablePage
    if version = node.version ∧ pagenum.toNat ≤ highest then
      let page ← node.pages[pagenum.toNat]?
      let pages :=
        node.pages.set pagenum.toNat { page with lastRequest := now }
      let txSet :=
        if (pagenum.toNat : Int) = node.currentTxPage.toInt then
          node.txSet ||| requestSet
        else requestSet
      some
        { node with pages, txSet, currentTxPage := pagenum.toInt8,
                    state := .tx }
    else some node

/-- `handle_packet` -/
def handlePacket (now : Nat) (node : Node) (packet : Packet) :
    Option (Node × List Written) := do
  if packet.pagenum ≠ node.currentRxPage then some (node, [])
  else
    let node := node.noteVersion packet.version
    let page ← node.pages[packet.pagenum.toNat]?
    if packet.version = page.version ∧ page.complete = false then
      -- the packet has to be one of the page
      if nPkt ≤ packet.packetnum.toNat then none
      else
        let node :=
          { node with
            currentPage := node.currentPage.write
              (sPkt * packet.packetnum.toNat) packet.payload.toList }
        if packet.crcMatches = false then some (node, [])
        else
          let page :=
            { page with
              lastData := now
              packetSet :=
                page.packetSet ||| (1 <<< packet.packetnum.toNat : Nat) }
          if page.packetSet = allPackets then
            let page := { page with version := packet.version,
                                    complete := true }
            some
              ({ node with
                 pages := node.pages.set packet.pagenum.toNat page
                 currentRxPage := node.currentRxPage + 1
                 version :=
                   if packet.pagenum.toNat + 1 = node.pageCount then
                     node.updateVersion
                   else node.version
                 state := .maintain },
                [{ pagenum := packet.pagenum
                   version := packet.version
                   data := node.currentPage.read 0 sPage }])
          else
            some
              ({ node with
                 pages := node.pages.set packet.pagenum.toNat page }, [])
    else some (node, [])

/-- A page whose version in the vector of a profile is newer is received
again. -/
def renew (page : Page) (version : UInt8) : Page :=
  if page.version < version then
    { page with packetSet := 0, complete := false, version }
  else page

/-- The first loop of `handle_profile`, over some of the pages. -/
def renewPages : Nat → List Page → List UInt8 → Option (List Page)
  | 0, pages, _ => some pages
  | left + 1, page :: pages, version :: vector =>
      (renewPages left pages vector).map fun rest =>
        renew page version :: rest
  | _ + 1, _, _ => none

/-- `handle_profile`; there is memory for the pages, or not. -/
def handleProfile (memory : Bool) (node : Node) (version npages : UInt8)
    (versionVector : List UInt8) : Option Node := do
  if version ≤ node.updateVersion then some node
  else
    let old := node.pageCount
    let node := { node with txSet := 0, size := npages.toUInt16 * 256 }
    if memory = false then some node
    else
      let new := node.pageCount
      -- the old pages are copied to the new array
      if new < old ∨ node.pages.length < old then none
      else
        let pages := node.pages.take old ++ List.replicate (new - old) initPage
        let pages ← renewPages (min old npages.toNat) pages versionVector
        let kept := pages.take (min old npages.toNat)
        let added :=
          List.replicate (npages.toNat - min old npages.toNat) initPage
        let node := { node with pages := kept ++ added }
        let highest ← node.highestAvailablePage
        some
          { node with
            currentRxPage := UInt8.ofNat highest
            updateVersion := version
            state := .rx }

/-- `command_dispatcher` -/
def commandDispatcher (clockSecond now : Nat) (memory : Bool) (node : Node)
    (message : Message) : Option (Node × List Written) :=
  match message with
  | .summary version highestAvailable =>
      (node.handleSummary clockSecond now version highestAvailable).map
        fun node => (node, [])
  | .request version pagenum requestSet =>
      (node.handleRequest now version pagenum requestSet).map
        fun node => (node, [])
  | .packet packet => node.handlePacket now packet
  | .profile version npages versionVector => do
      let first ← versionVector.head?
      if versionVector.length < npages.toNat * first.toNat then
        some (node, [])
      else
        (node.handleProfile memory version npages versionVector).map
          fun node => (node, [])

/-- `init_object` for a file of `size` bytes. -/
def initObject (wideInt : Bool) (size : UInt16) (version : UInt8) :
    Node where
  wideInt
  size
  version
  updateVersion := version
  pages := List.replicate (objectPageCount wideInt size) (havePage version)
  currentRxPage := 0
  currentTxPage := 0
  currentPage := fun _ => 0
  txSet := 0
  state := .maintain
  neighborInconsistency := false
  oldSummary := false
  broadcastProfile := false
  recvAdv := 0
  rInterval := 2

end Node

end Contiki.Apps.Deluge
