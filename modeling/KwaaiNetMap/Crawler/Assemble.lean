import KwaaiNetMap.Crawler.Observed
import KwaaiNetMap.Crawler.Queries

/-!
`buildSnapshot` turns what one pass read and observed into the published document. It is absent where
the source traps: an id cut inside a character, or an overflow with overflow checks compiled in.
-/

namespace KwaaiNetMap
open Collections Numeric

/-- What a pass hands to the builder. Hash maps list their entries in iteration order. -/
structure CrawlInput where
  bootstrapStates : List String := []
  models : List Model := []
  perModel : BTreeMap String (HashMap String PeerModelEntry) := ∅
  capabilityPeers : HashMap String ServerInfo := ∅
  addrs : HashMap String Observed := ∅
  dialErrors : BTreeMap String String := ∅
  exclude : BTreeSet String := ∅
  geo : GeoIp

/-! ### Placing a row -/

/-- What a located relay lends: its place, unless it has none or stands at the origin. -/
def lentPin (relay : Location) : Option Location :=
  if relay.status = "success" ∧ !(relay.lat == 0.0 && relay.lon == 0.0) then some (viaRelayAt relay)
  else none

/-- A row's location; a relayed peer that geolocates to nothing borrows the pin of a relay the crawl
located. -/
def locateRow (geo : GeoIp) (peerAddrs : List String) (known : HashMap String Location) : Location :=
  let loc := geo.locate peerAddrs
  if loc.status = "success" ∨ !peerAddrs.any isCircuitAddr then loc
  else
    (peerAddrs.findSome? fun a => do
      let relay ← known.get? (← relayPeerIdOf a.toList)
      lentPin relay).getD loc

def peerIpInfoFor (observed : Option Observed) (usingRelay : Option Bool) (geo : GeoIp)
    (known : HashMap String Location) : PeerIpInfo :=
  match observed with
  | some o =>
    if o.reachability = .inbound ∧ usingRelay = some true then
      -- its egress address is real, but it asked not to be placed by it
      { location := Location.viaRelay, multiaddrs := [], reachability := some Reachability.relayed.asStr }
    else
      { location := locateRow geo o.addrs known, multiaddrs := o.addrs,
        reachability := some o.reachability.asStr }
  | none => {}

def CrawlInput.known (input : CrawlInput) : HashMap String Location :=
  input.addrs.mapValues fun _ o => input.geo.locate o.addrs

def modelName (repository dhtPrefix : String) : String :=
  let path := ((Text.splitOnce "://".toList repository.toList).map Prod.snd).getD repository.toList
  match Text.splitOnce ['/'] path with
  | some (_, rest) => if rest ≠ [] then String.ofList (Text.trimEnd '/' rest) else dhtPrefix
  | none => dhtPrefix

def shortName (name : String) : String :=
  ((Text.rsplitOnce ['/'] name.toList).map fun parts => String.ofList parts.2).getD name

/-! ### Model reports -/

structure ServerAcc where
  covered : BTreeSet Int := ∅
  serverRows : List ServerRow := []
  issues : BTreeMap String String

def serverRow (input : CrawlInput) (known : HashMap String Location) (peerId short : String)
    (entry : PeerModelEntry) : ServerRow :=
  { peerId
    shortPeerId := short
    showPublicName := entry.info.publicName.isSome
    state := entry.info.state
    peerIpInfo := peerIpInfoFor (input.addrs.get? peerId) entry.info.usingRelay input.geo known
    span :=
      { peerId, start := entry.info.startBlock, stop := entry.info.endBlock, serverInfo := entry.info } }

def markOnline (dialErrors : BTreeMap String String) (acc : ServerAcc) (peerId : String)
    (entry : PeerModelEntry) : ServerAcc :=
  if entry.info.state = "online" then
    { acc with
      covered := acc.covered.extend entry.blocks.items
      issues :=
        match dialErrors.get? peerId with
        | some err => acc.issues.insert peerId err
        | none => acc.issues }
  else acc

def serverStep (input : CrawlInput) (known : HashMap String Location) (acc : ServerAcc)
    (peer : String × PeerModelEntry) : Option ServerAcc := do
  let (peerId, entry) := peer
  let acc := markOnline input.dialErrors acc peerId entry
  let short ← shortPeerId peerId
  return { acc with serverRows := acc.serverRows ++ [serverRow input known peerId short entry] }

def rowBefore (a b : ServerRow) : Prop :=
  a.span.start < b.span.start ∨ (a.span.start = b.span.start ∧ a.peerId ≤ b.peerId)

instance : DecidableRel rowBefore := fun _ _ => inferInstanceAs (Decidable (_ ∨ _))

def modelReport (model : Model) (covered : BTreeSet Int) (serverRows : List ServerRow) : ModelReport :=
  let name := modelName model.repository model.dhtPrefix
  { name
    shortName := shortName name
    dhtPrefix := model.dhtPrefix
    repository := model.repository
    numBlocks := model.numBlocks
    state := if (covered.len : Int) = model.numBlocks then "healthy" else "broken"
    serverRows := serverRows.insertionSort rowBefore }

structure ReportAcc where
  modelReports : List ModelReport := []
  blocksCovered : Nat := 0
  issues : BTreeMap String String := ∅

def modelStep (input : CrawlInput) (known : HashMap String Location) (acc : ReportAcc) (model : Model) :
    Option ReportAcc :=
  match input.perModel.get? model.dhtPrefix with
  | none => some acc
  | some peers =>
    if peers.isEmpty then some acc
    else do
      let servers ← peers.entries.foldlM (serverStep input known) { issues := acc.issues }
      return {
        modelReports := acc.modelReports ++ [modelReport model servers.covered servers.serverRows]
        blocksCovered := acc.blocksCovered + servers.covered.len
        issues := servers.issues }

def reportBefore (a b : ModelReport) : Prop := b.serverRows.length ≤ a.serverRows.length

instance : DecidableRel reportBefore := fun _ _ => inferInstanceAs (Decidable (_ ≤ _))

/-! ### Top contributors -/

section Contributors
variable (overflowChecks : Bool)

def contributor (row : ServerRow) : Option Contributor := do
  let span ← i64Result overflowChecks (row.span.stop - row.span.start)
  let blocks ← i64Result overflowChecks (span + 1)
  return {
    peerId := row.peerId
    publicName := row.span.serverInfo.publicName
    throughput := row.span.serverInfo.throughput
    blocks }

def higher (candidate : Contributor) (held : Option Contributor) : Contributor :=
  match held with
  | none => candidate
  | some c => if candidate.throughput > c.throughput then candidate else c

def bestStep (best : HashMap String Contributor) (row : ServerRow) : Option (HashMap String Contributor) := do
  let candidate ← contributor overflowChecks row
  return best.upsert row.peerId (higher candidate)

def throughputBefore (a b : Contributor) : Prop :=
  totalOrderKey b.throughput ≤ totalOrderKey a.throughput

instance : DecidableRel throughputBefore := fun _ _ => inferInstanceAs (Decidable (_ ≤ _))

def topContributors (order : IterOrder) (reports : List ModelReport) : Option (List Contributor) := do
  let best ← reports.foldlM
    (fun best report => report.serverRows.foldlM (bestStep overflowChecks) best) ∅
  return (((order.iter best.entries).map Prod.snd).insertionSort throughputBefore).take 5

end Contributors

/-! ### Every peer -/

def chooseBlock (model : Model) (entry : PeerModelEntry) (held : Option (Model × PeerModelEntry)) :
    Model × PeerModelEntry :=
  match held with
  | none => (model, entry)
  | some cur =>
    if cur.2.info.state ≠ "online" ∧ entry.info.state = "online" then (model, entry) else cur

def CrawlInput.peersOf (input : CrawlInput) (model : Model) : List (String × PeerModelEntry) :=
  ((input.perModel.get? model.dhtPrefix).map HashMap.entries).getD []

def CrawlInput.blockOf (input : CrawlInput) : HashMap String (Model × PeerModelEntry) :=
  input.models.foldl
    (fun blocks model =>
      (input.peersOf model).foldl
        (fun blocks (id, entry) => blocks.upsert id (chooseBlock model entry)) blocks)
    ∅

def CrawlInput.peerIds (input : CrawlInput) (order : IterOrder) : BTreeSet String :=
  BTreeSet.ofList
    (((order.iter input.blockOf.entries).map Prod.fst ++ input.capabilityPeers.keys ++
      (input.addrs.entries.filter fun e => e.2.kwaaiKad).map Prod.fst).filter
        fun id => !input.exclude.contains id)

def peerRowAs (input : CrawlInput) (known : HashMap String Location) (id short : String) : PeerRow :=
  let block := input.blockOf.get? id
  let info := (block.map fun b => b.2.info).or (input.capabilityPeers.get? id)
  let observed := input.addrs.get? id
  let usingRelay := info.bind (·.usingRelay)
  { peerId := id
    shortPeerId := short
    publicName := info.bind (·.publicName)
    version := (info.bind (·.version)).or (observed.bind (·.agentVersion))
    state := (info.map (·.state)).getD "unannounced"
    shardLoading := (info.bind (·.shardLoading)).getD false
    model := block.map fun b => shortName (modelName b.1.repository b.1.dhtPrefix)
    span := block.map fun b => { start := b.2.info.startBlock, stop := b.2.info.endBlock }
    throughput := (info.map (·.throughput)).getD 0.0
    usingRelay
    vpk := info.bind (·.vpk)
    trustAttestations := (info.map (·.trustAttestations)).getD 0
    peerIpInfo := peerIpInfoFor observed usingRelay input.geo known
    kad := (observed.map (·.kwaaiKad)).getD false
    announced := info.isSome }

def peerRow (input : CrawlInput) (known : HashMap String Location) (id : String) : Option PeerRow :=
  (shortPeerId id).map (peerRowAs input known id)

def buildSnapshot (overflowChecks : Bool) (order : IterOrder) (now : DateTime) (input : CrawlInput) :
    Option Snapshot := do
  let known := input.known
  let acc ← input.models.foldlM (modelStep input known) {}
  let modelReports := acc.modelReports.insertionSort reportBefore
  let peers ← (input.peerIds order).items.mapM (peerRow input known)
  let topContributors ← topContributors overflowChecks order modelReports
  return {
    topContributors
    -- filled in by the caller, which times the pass
    updatePeriod := 0
    updateDuration := 0.0
    bootstrapStates := input.bootstrapStates
    numPeers := peers.length
    numBlocksCovered := acc.blocksCovered
    modelReports
    reachabilityIssues := acc.issues.entries.map fun (peerId, err) => { peerId, err }
    peers
    lastUpdated := now
    staleSince := none
    crawlsHeld := 0 }

end KwaaiNetMap
