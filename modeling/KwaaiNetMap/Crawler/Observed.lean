import KwaaiNetMap.Crawler.Bootstrap

/-!
The connections the swarm lists, grouped back per peer and reduced to one verdict each.
-/

namespace KwaaiNetMap
open Collections

def kwaaiKadPrefix : String := "/kwaai/kad/"

inductive Direction where
  | inbound | outbound
  deriving DecidableEq

structure Conn where
  addr : String
  direction : Direction
  /-- Our circuit listener, for an inbound connection that arrived relayed. -/
  via : Option String
  dcutr : Bool
  deriving DecidableEq

inductive Reachability where
  | direct | punched | relayed | inbound
  deriving DecidableEq

def Reachability.asStr : Reachability → String
  | direct => "direct"
  | punched => "punched"
  | relayed => "relayed"
  | inbound => "inbound"

structure Observed where
  /-- The addresses that justify `reachability`, and only those. -/
  addrs : List String
  reachability : Reachability
  agentVersion : Option String := none
  kwaaiKad : Bool := false
  deriving DecidableEq

def Conn.isCircuit (c : Conn) : Bool := isCircuitAddr c.addr || c.via.isSome

def Conn.outbound (c : Conn) : Bool := c.direction = .outbound

/-- The circuit form of a relayed connection; an inbound one is rebuilt from our listener's side. -/
def Conn.relayedAddr (peerId : String) (c : Conn) : String :=
  match c.via with
  | some via => via ++ "/p2p/" ++ peerId
  | none => c.addr

def classify (peerId : String) (conns : List Conn) : Observed :=
  if conns.any (·.dcutr) then
    { addrs := (conns.filter (·.dcutr)).map (·.addr), reachability := .punched }
  else
    let direct := (conns.filter fun c => c.outbound && !c.isCircuit).map (·.addr)
    if !direct.isEmpty then { addrs := direct, reachability := .direct }
    else
      let relayed := (conns.filter (·.isCircuit)).map (·.relayedAddr peerId)
      if !relayed.isEmpty then { addrs := relayed, reachability := .relayed }
      else { addrs := conns.map (·.addr), reachability := .inbound }

structure PeerEntry where
  peerId : PeerId
  agentVersion : Option String
  protocols : List String
  conn : Conn

structure Seen where
  conns : List Conn := []
  agentVersion : Option String := none
  kwaaiKad : Bool := false

def speaksKwaaiKad (protocols : List String) : Bool :=
  protocols.any fun p => kwaaiKadPrefix.toList.isPrefixOf p.toList

def seenAgain (peer : PeerEntry) (held : Option Seen) : Seen :=
  let entry := held.getD {}
  { conns := entry.conns ++ [peer.conn]
    agentVersion := entry.agentVersion.or peer.agentVersion
    kwaaiKad := entry.kwaaiKad || speaksKwaaiKad peer.protocols }

def seePeer (seen : HashMap String Seen) (peer : PeerEntry) : HashMap String Seen :=
  seen.upsert peer.peerId (seenAgain peer)

def Seen.observed (peerId : String) (s : Seen) : Observed :=
  { classify peerId s.conns with agentVersion := s.agentVersion, kwaaiKad := s.kwaaiKad }

def observedAddrs (listPeers : Option (List PeerEntry)) : HashMap String Observed :=
  match listPeers with
  | none => ∅
  | some peers =>
    (peers.foldl seePeer ∅).mapValues fun id s => s.observed id

/-! ### Who is left out, and the dials -/

def trailingPeerId (addr : String) : Option String := do
  let (_, id) ← Text.rsplitOnce p2pMark addr.toList
  if id ≠ [] ∧ '/' ∉ id then some (String.ofList id) else none

def excludedPeers (localPeerId : PeerId) (bootstrapPeers : List String) : BTreeSet String :=
  BTreeSet.ofList (localPeerId :: bootstrapPeers.filterMap trailingPeerId)

def dialError : Dial → Option String
  | .ok => none
  | .err message => some message
  | .timeout => some "dial timed out after 15s"

def connectDiscoveredPeers (localPeerId : PeerId) (dial : PeerId → Dial) (peerIds : BTreeSet String) :
    BTreeMap String String :=
  (peerIds.items.filter (· ≠ localPeerId)).foldl
    (fun errors id =>
      match dialError (dial id) with
      | some err => errors.insert id err
      | none => errors) ∅

end KwaaiNetMap
