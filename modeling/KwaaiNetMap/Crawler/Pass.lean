import KwaaiNetMap.Crawler.Assemble

/-!
`crawlOnce` from the bootstrap dials to the finished snapshot.
-/

namespace KwaaiNetMap
open Collections Numeric

structure World where
  net : Network
  localPeerId : PeerId
  peerIdBytes : Bytes := []
  networkSnapshot : Option (List PeerId × List PeerId) := none
  dialPeer : PeerId → Dial := fun _ => .timeout
  listPeers : Option (List PeerEntry) := none
  lookupHost : String → Option (List IpAddr) := fun _ => none
  fetchBatch : List String → Option (List GeoIp.ApiEntry) := fun _ => none
  now : DateTime := 0
  elapsed : F64 := 0.0

def World.ourDhtid (world : World) : Bytes := world.net.sha1 world.peerIdBytes

def crawlInterval : Nat := 60

def dialEntries (net : Network) : List BootstrapEntry → Nat → List BootstrapEntry × Nat
  | [], commands => ([], commands)
  | e :: rest, commands =>
    if Text.contains p2pMark e.addr.toList then
      let (dialed, sent) := dialEntries net rest (commands + 1)
      ({ e with dialed := (net.connectPeer commands e.addr).isOk } :: dialed, sent)
    else
      let (dialed, sent) := dialEntries net rest commands
      ({ e with dialed := false } :: dialed, sent)

def dialBootstraps (net : Network) (bootstrapPeers : List String) : Pass :=
  let (entries, commands) := dialEntries net (BootstrapSet.new bootstrapPeers).entries 0
  { set := ⟨entries⟩, commands }

structure Reading where
  models : List Model
  perModel : BTreeMap String (HashMap String PeerModelEntry)
  capabilityPeers : HashMap String ServerInfo
  pass : Pass

def readDht (rmpv : Rmpv) (world : World) (pass : Pass) : Reading :=
  let (models, pass) := discoverModels rmpv world.net world.ourDhtid pass
  let (perModel, pass) := collectModels rmpv world.net world.ourDhtid models pass
  let (capabilityPeers, pass) := collectCapabilities rmpv world.net world.ourDhtid pass
  { models, perModel, capabilityPeers, pass }

def discoveredPeers (world : World) (exclude : BTreeSet String) (reading : Reading) : BTreeSet String :=
  let kadKnown :=
    match world.networkSnapshot with
    | some (routing, peers) => routing ++ peers
    | none => []
  BTreeSet.ofList
    ((reading.perModel.values.flatMap HashMap.keys ++ reading.capabilityPeers.keys ++ kadKnown).filter
      fun id => !exclude.contains id)

def warmedGeo (world : World) (geo : GeoIp) (addrs : HashMap String Observed) : GeoIp :=
  let flat := (addrs.entries.map Prod.snd).flatMap (·.addrs)
  let (geo, resolved) := geo.resolveRelays world.lookupHost (relayDnsNames flat)
  geo.warm world.fetchBatch (publicIps flat ++ resolved)

def crawlInput (order : IterOrder) (bootstrapPeers : List String) (world : World) (geo : GeoIp)
    (reading : Reading) : CrawlInput :=
  let exclude := excludedPeers world.localPeerId bootstrapPeers
  let addrs := (observedAddrs world.listPeers).reorder order
  { bootstrapStates := reading.pass.set.states
    models := reading.models
    perModel := reading.perModel.mapValues fun _ peers => peers.reorder order
    capabilityPeers := reading.capabilityPeers.reorder order
    addrs
    dialErrors := connectDiscoveredPeers world.localPeerId world.dialPeer
      (discoveredPeers world exclude reading)
    exclude
    geo := warmedGeo world geo addrs }

def crawlOnce (overflowChecks : Bool) (order : IterOrder) (rmpv : Rmpv) (bootstrapPeers : List String)
    (world : World) (geo : GeoIp) : Option Snapshot :=
  let pass := dialBootstraps world.net bootstrapPeers
  if !pass.set.hasDialable then
    some { Snapshot.default world.now with
      bootstrapStates := pass.set.states
      updatePeriod := crawlInterval
      updateDuration := world.elapsed }
  else
    (buildSnapshot overflowChecks order world.now
      (crawlInput order bootstrapPeers world geo (readDht rmpv world pass))).map fun snapshot =>
        { snapshot with updatePeriod := crawlInterval, updateDuration := world.elapsed }

end KwaaiNetMap
