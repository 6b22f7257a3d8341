import Mathlib.Data.List.Basic

/-!
# The neighbours of a collect node

`core/net/rime/collect-neighbor.c` keeps the advertised metrics of the
neighbours, and `core/net/rime/collect-link-estimate.c` estimates the
transmissions that are needed to reach them.
-/

namespace Contiki.Rime

/-- `COLLECT_LINK_ESTIMATE_UNIT` -/
def collectLinkEstimateUnit : Nat := 8

/-- `INITIAL_LINK_ESTIMATE` -/
def initialLinkEstimate : Nat := 16

/-- `COLLECT_LINK_ESTIMATE_ALPHA` -/
def collectLinkEstimateAlpha : Nat := 3 * collectLinkEstimateUnit / 8

/-- `MAX_ESTIMATES` -/
def maxEstimates : Nat := 255

/-- `RTMETRIC_SINK` -/
def rtmetricSink : Nat := 0

/-- `RTMETRIC_MAX` -/
def rtmetricMax : Nat := collectLinkEstimateUnit * 64 - 1

/-- `MAX_AGE` -/
def maxAge : Nat := 180

/-- `MAX_LE_AGE` -/
def maxLeAge : Nat := 10

/-- `struct collect_link_estimate`, with the ranges of `uint32_t` and
`uint8_t`. -/
structure CollectLinkEstimate where
  etxAccumulator : Nat
  numEstimates : Nat
  deriving DecidableEq

namespace CollectLinkEstimate

/-- `collect_link_estimate_new` -/
def new : CollectLinkEstimate where
  etxAccumulator := collectLinkEstimateUnit
  numEstimates := 0

/-- `collect_link_estimate_update_tx`; `tx` is converted to `uint8_t`. -/
def updateTx (le : CollectLinkEstimate) (tx : Nat) : CollectLinkEstimate :=
  let tx := tx % 256
  if tx = 0 then le
  else
    let etxAccumulator :=
      if le.numEstimates = 0 then tx * collectLinkEstimateUnit
      else le.etxAccumulator
    { numEstimates :=
        if le.numEstimates < maxEstimates then le.numEstimates + 1
        else le.numEstimates
      etxAccumulator :=
        (tx * collectLinkEstimateUnit * collectLinkEstimateAlpha +
          etxAccumulator *
            (collectLinkEstimateUnit - collectLinkEstimateAlpha)) %
          4294967296 / collectLinkEstimateUnit }

/-- `collect_link_estimate_update_tx_fail` -/
def updateTxFail (le : CollectLinkEstimate) (tx : Nat) :
    CollectLinkEstimate :=
  le.updateTx (tx % 256 * 2)

/-- `collect_link_estimate` -/
def estimate (le : CollectLinkEstimate) : Nat :=
  if le.numEstimates = 0 then initialLinkEstimate * collectLinkEstimateUnit
  else le.etxAccumulator % 65536

end CollectLinkEstimate

/-- `struct collect_neighbor` -/
structure CollectNeighbor (Addr : Type) where
  addr : Addr
  rtmetric : Nat
  age : Nat
  leAge : Nat
  le : CollectLinkEstimate
  deriving DecidableEq

namespace CollectNeighbor

variable {Addr : Type}

/-- `collect_neighbor_rtmetric_link_estimate`, an `uint16_t`. -/
def rtmetricLinkEstimate (n : CollectNeighbor Addr) : Nat :=
  (n.rtmetric + n.le.estimate) % 65536

/-- `collect_neighbor_update_rtmetric` -/
def updateRtmetric (rtmetric : Nat) (n : CollectNeighbor Addr) :
    CollectNeighbor Addr :=
  { n with rtmetric, age := 0 }

/-- `collect_neighbor_tx` -/
def tx (numTx : Nat) (n : CollectNeighbor Addr) : CollectNeighbor Addr :=
  { n with le := n.le.updateTx numTx, leAge := 0, age := 0 }

/-- `collect_neighbor_tx_fail` -/
def txFail (numTx : Nat) (n : CollectNeighbor Addr) : CollectNeighbor Addr :=
  { n with le := n.le.updateTxFail numTx, leAge := 0, age := 0 }

/-- A neighbour that has just been added. -/
def fresh (addr : Addr) (rtmetric : Nat) : CollectNeighbor Addr where
  addr := addr
  rtmetric := rtmetric
  age := 0
  leAge := 0
  le := .new

end CollectNeighbor

abbrev CollectNeighborList (Addr : Type) := List (CollectNeighbor Addr)

namespace CollectNeighborList

variable {Addr : Type} [DecidableEq Addr]

/-- `collect_neighbor_list_find` -/
def find (neighbors : CollectNeighborList Addr) (addr : Addr) :
    Option (CollectNeighbor Addr) :=
  List.find? (fun n => n.addr = addr) neighbors

/-- The neighbour that is found for an address is changed, if there is
one. -/
def modify (neighbors : CollectNeighborList Addr) (addr : Addr)
    (change : CollectNeighbor Addr → CollectNeighbor Addr) :
    CollectNeighborList Addr :=
  match neighbors with
  | [] => []
  | n :: rest =>
      if n.addr = addr then change n :: rest
      else n :: modify rest addr change

/-- The loop of `collect_neighbor_list_best`. -/
def bestFrom (rtmetric : Nat) (best : Option (CollectNeighbor Addr)) :
    CollectNeighborList Addr → Option (CollectNeighbor Addr)
  | [] => best
  | n :: rest =>
      if n.rtmetricLinkEstimate < rtmetric then
        bestFrom n.rtmetricLinkEstimate (some n) rest
      else bestFrom rtmetric best rest

/-- `collect_neighbor_list_best` -/
def best (neighbors : CollectNeighborList Addr) :
    Option (CollectNeighbor Addr) :=
  bestFrom rtmetricMax none neighbors

/-- The loop of `collect_neighbor_list_add` for the worst neighbour. -/
def worstFrom (worst : Option (CollectNeighbor Addr))
    (worstRtmetric : Nat) :
    CollectNeighborList Addr → Option (CollectNeighbor Addr) × Nat
  | [] => (worst, worstRtmetric)
  | n :: rest =>
      if worstRtmetric < n.rtmetric then
        worstFrom (some n) n.rtmetric rest
      else worstFrom worst worstRtmetric rest

/-- `collect_neighbor_list_add`, when `collect_neighbors_mem` has
`maxNeighbors` blocks. -/
def add (maxNeighbors : Nat) (neighbors : CollectNeighborList Addr)
    (addr : Addr) (nrtmetric : Nat) : CollectNeighborList Addr :=
  let fresh := CollectNeighbor.fresh addr nrtmetric
  match find neighbors addr with
  | some _ => modify neighbors addr fun _ => fresh
  | none =>
      if neighbors.length < maxNeighbors then neighbors ++ [fresh]
      else
        match worstFrom none 0 neighbors with
        | (some worst, worstRtmetric) =>
            if nrtmetric < worstRtmetric then
              modify neighbors worst.addr fun _ => fresh
            else neighbors
        | (none, _) => neighbors

/-- A link estimate that is too old is forgotten. -/
def refresh (n : CollectNeighbor Addr) : CollectNeighbor Addr :=
  if n.leAge = maxLeAge then { n with le := .new, leAge := 0 } else n

/-- The second loop of `periodic`: it has come to the neighbours `rest`.  When
a neighbour is removed, the loop goes on behind the head of the list. -/
def periodicLoop (visited : CollectNeighborList Addr) :
    CollectNeighborList Addr → CollectNeighborList Addr
  | [] => visited
  | n :: rest =>
      let n := refresh n
      if n.age = maxAge then
        match visited, rest with
        | [], [] => []
        | [], head :: tail => periodicLoop [head] tail
        | head :: tail, rest => periodicLoop [head] (tail ++ rest)
      else periodicLoop (visited ++ [n]) rest
  termination_by rest => (visited.length + rest.length, rest.length)
  decreasing_by
    all_goals simp_wf
    all_goals omega

/-- `periodic` -/
def periodic (neighbors : CollectNeighborList Addr) :
    CollectNeighborList Addr :=
  periodicLoop [] (neighbors.map fun n =>
    { n with age := (n.age + 1) % 65536, leAge := (n.leAge + 1) % 65536 })

end CollectNeighborList

end Contiki.Rime
