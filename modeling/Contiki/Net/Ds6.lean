import Contiki.Net.Route

/-!
# Unicast and multicast addresses

`core/net/ipv6/uip-ds6.c` keeps a list of the unicast addresses of the node
and one of the multicast addresses that it listens to.  Each unicast address
comes with its solicited-node multicast address.
-/

namespace Contiki.Net

/-- The sizes of the address lists.  Besides the solicited-node addresses the
multicast list has room for all nodes and, in a router, for all routers. -/
structure Ds6Config where
  /-- `UIP_CONF_ROUTER` -/
  router : Bool
  /-- `UIP_DS6_ADDR_NBU` -/
  addrNbu : Nat
  /-- `UIP_DS6_MADDR_NBU` -/
  maddrNbu : Nat
  deriving DecidableEq

namespace Ds6Config

/-- `UIP_DS6_ADDR_NB` -/
def addrNb (config : Ds6Config) : Nat :=
  1 + config.addrNbu

/-- The multicast addresses that are no solicited-node addresses. -/
def groups (config : Ds6Config) : Nat :=
  if config.router then 2 else 1

/-- `UIP_DS6_MADDR_NB` -/
def maddrNb (config : Ds6Config) : Nat :=
  config.groups + config.addrNb + config.maddrNbu

end Ds6Config

/-- `uip_ds6_addr_t` without the state of the duplicate address detection. -/
structure Ds6Addr where
  isused : Bool
  ipaddr : IpAddr
  type : Nat
  isinfinite : Bool
  /-- `vlifetime`, in seconds. -/
  vlifetime : Nat
  deriving DecidableEq

/-- `uip_ds6_maddr_t` -/
structure Ds6Maddr where
  isused : Bool
  ipaddr : IpAddr
  deriving DecidableEq

/-- The address lists of `uip_ds6_if`. -/
structure Ds6Netif (config : Ds6Config) where
  addrList : Fin config.addrNb → Ds6Addr
  maddrList : Fin config.maddrNb → Ds6Maddr

/-- What `uip_ds6_list_loop` finds. -/
inductive ListLoop (size : Nat) where
  | found (element : Fin size)
  | freespace (element : Fin size)
  | nospace
  deriving DecidableEq

/-- `uip_ds6_list_loop` from an element on, when `out` is the last element
without an address. -/
def listLoopFrom {size : Nat} (isused : Fin size → Bool)
    (ipaddr : Fin size → IpAddr) (addr : IpAddr) (out : Option (Fin size)) :
    List (Fin size) → ListLoop size
  | [] =>
      match out with
      | some element => .freespace element
      | none => .nospace
  | element :: rest =>
      if isused element then
        if ipaddr element = addr then .found element
        else listLoopFrom isused ipaddr addr out rest
      else listLoopFrom isused ipaddr addr (some element) rest

/-- `uip_ds6_list_loop` for whole addresses. -/
def listLoop {size : Nat} (isused : Fin size → Bool)
    (ipaddr : Fin size → IpAddr) (addr : IpAddr) : ListLoop size :=
  listLoopFrom isused ipaddr addr none (List.finRange size)

/-- `uip_create_solicited_node` -/
def solicitedNode (addr : IpAddr) : IpAddr :=
  #v[0xff, 0x02, 0, 0, 0, 0, 0, 0, 0, 0, 0, 0x01, 0xff,
    addr.get 13, addr.get 14, addr.get 15]

theorem size_allnodesMcast :
    (#[0xff, 0x02, 0, 0, 0, 0, 0, 0, 0, 0, 0, 0, 0, 0, 0, 0x01] :
      Array UInt8).size = 16 := rfl

/-- `uip_create_linklocal_allnodes_mcast` -/
def allnodesMcast : IpAddr :=
  ⟨#[0xff, 0x02, 0, 0, 0, 0, 0, 0, 0, 0, 0, 0, 0, 0, 0, 0x01],
    size_allnodesMcast⟩

/-- `uip_create_linklocal_allrouters_mcast` -/
def allroutersMcast : IpAddr :=
  #v[0xff, 0x02, 0, 0, 0, 0, 0, 0, 0, 0, 0, 0, 0, 0, 0, 0x02]

def unspecifiedAddr : IpAddr :=
  #v[0, 0, 0, 0, 0, 0, 0, 0, 0, 0, 0, 0, 0, 0, 0, 0]

namespace Ds6Netif

variable {config : Ds6Config}

/-- `uip_ds6_list_loop` over the unicast addresses. -/
def addrLoop (netif : Ds6Netif config) (ipaddr : IpAddr) :
    ListLoop config.addrNb :=
  listLoop (fun slot => (netif.addrList slot).isused)
    (fun slot => (netif.addrList slot).ipaddr) ipaddr

/-- `uip_ds6_list_loop` over the multicast addresses. -/
def maddrLoop (netif : Ds6Netif config) (ipaddr : IpAddr) :
    ListLoop config.maddrNb :=
  listLoop (fun slot => (netif.maddrList slot).isused)
    (fun slot => (netif.maddrList slot).ipaddr) ipaddr

/-- `uip_ds6_maddr_add` -/
def maddrAdd (netif : Ds6Netif config) (ipaddr : IpAddr) :
    Ds6Netif config :=
  match netif.maddrLoop ipaddr with
  | .freespace slot =>
      { netif with
        maddrList := Function.update netif.maddrList slot
          { isused := true, ipaddr } }
  | _ => netif

/-- `uip_ds6_maddr_lookup` -/
def maddrLookup (netif : Ds6Netif config) (ipaddr : IpAddr) :
    Option (Fin config.maddrNb) :=
  match netif.maddrLoop ipaddr with
  | .found slot => some slot
  | _ => none

/-- `uip_ds6_maddr_rm` -/
def maddrRm (netif : Ds6Netif config) (slot : Fin config.maddrNb) :
    Ds6Netif config :=
  { netif with
    maddrList := Function.update netif.maddrList slot
      { netif.maddrList slot with isused := false } }

/-- `uip_ds6_addr_add` -/
def addrAdd (netif : Ds6Netif config) (ipaddr : IpAddr) (vlifetime : Nat)
    (type : Nat) : Ds6Netif config :=
  match netif.addrLoop ipaddr with
  | .freespace slot =>
      maddrAdd { netif with
        addrList := Function.update netif.addrList slot
          { isused := true
            ipaddr
            type
            isinfinite := vlifetime = 0
            vlifetime } } (solicitedNode ipaddr)
  | _ => netif

/-- `uip_ds6_addr_rm` for an address that is not `NULL`. -/
def addrRm (netif : Ds6Netif config) (slot : Fin config.addrNb) :
    Ds6Netif config :=
  let netif :=
    match netif.maddrLookup (solicitedNode (netif.addrList slot).ipaddr) with
    | some maddr => netif.maddrRm maddr
    | none => netif
  { netif with
    addrList := Function.update netif.addrList slot
      { netif.addrList slot with isused := false } }

/-- The address has a lifetime that has expired. -/
def expires (netif : Ds6Netif config) (expired : Fin config.addrNb → Bool)
    (slot : Fin config.addrNb) : Bool :=
  (netif.addrList slot).isused && !(netif.addrList slot).isinfinite &&
    expired slot

/-- The loop of `uip_ds6_periodic` over the unicast addresses; `expired` tells
which of the timers have expired. -/
def periodicFrom (expired : Fin config.addrNb → Bool)
    (netif : Ds6Netif config) :
    List (Fin config.addrNb) → Ds6Netif config
  | [] => netif
  | slot :: rest =>
      if netif.expires expired slot then
        periodicFrom expired (netif.addrRm slot) rest
      else periodicFrom expired netif rest

/-- `uip_ds6_periodic`, for the unicast addresses. -/
def periodic (netif : Ds6Netif config)
    (expired : Fin config.addrNb → Bool) : Ds6Netif config :=
  periodicFrom expired netif (List.finRange config.addrNb)

/-- `uip_ds6_init`, for the address lists; `linkLocal` is the link-local
address of the node. -/
def init (config : Ds6Config) (linkLocal : IpAddr) : Ds6Netif config :=
  let netif : Ds6Netif config :=
    { addrList := fun _ =>
        { isused := false
          ipaddr := unspecifiedAddr
          type := 0
          isinfinite := false
          vlifetime := 0 }
      maddrList := fun _ => { isused := false, ipaddr := unspecifiedAddr } }
  -- the addresses are acquired by autoconfiguration
  let netif := (netif.addrAdd linkLocal 0 1).maddrAdd allnodesMcast
  if config.router then netif.maddrAdd allroutersMcast else netif

/-- What happens to the addresses. -/
inductive Event (config : Ds6Config) where
  | addrAdd (ipaddr : IpAddr) (vlifetime type : Nat)
  | addrRm (slot : Fin config.addrNb)
  | periodic (expired : Fin config.addrNb → Bool)

def step (netif : Ds6Netif config) : Event config → Ds6Netif config
  | .addrAdd ipaddr vlifetime type => netif.addrAdd ipaddr vlifetime type
  | .addrRm slot => netif.addrRm slot
  | .periodic expired => netif.periodic expired

end Ds6Netif

end Contiki.Net
