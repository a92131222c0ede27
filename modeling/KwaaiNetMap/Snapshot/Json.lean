import KwaaiNetMap.Collections.Fields
import KwaaiNetMap.Snapshot.Types

/-!
Every type of the document with what it is written as and what it is read from, field by field: a field
may be left out when it is empty, defaulted when it is missing, or never written. Between the two stands
the text of the document (`WireText`), which keeps everything but floats that are not finite. A reader goes no
deeper than its limit (`Json.within`).
-/

namespace KwaaiNetMap
open Collections Numeric

/-! ### The text -/

/-- What the text of a document brings across. A finite float comes back as the number its decimals read
as, a time as itself. -/
structure WireText where
  restored : F64 → F64
  writeTime : DateTime → String
  readTime : String → Option DateTime
  readTime_writeTime : ∀ t, readTime (writeTime t) = some t

namespace WireText
variable (text : WireText)

mutual

/-- A value written as text and read again: a float that is not finite is written as `null`. -/
def carried : Json → Json
  | .null => .null
  | .bool b => .bool b
  | .int n => .int n
  | .float x => if x.isFinite then .float (text.restored x) else .null
  | .string s => .string s
  | .array items => .array (carriedItems items)
  | .object fields => .object (carriedFields fields)

def carriedItems : List Json → List Json
  | [] => []
  | item :: rest => carried item :: carriedItems rest

def carriedFields : List (String × Json) → List (String × Json)
  | [] => []
  | (name, j) :: rest => (name, carried j) :: carriedFields rest

end

end WireText

/-! ### Nesting -/

/-- `remaining_depth` of a fresh deserializer. -/
def recursionLimit : Nat := 128

mutual

/-- Whether a deserializer with that much depth left reads the value: every array and every object takes one, and
may not take the last. -/
def Json.within : Json → Nat → Bool
  | .array items, depth => decide (1 < depth) && withinItems items (depth - 1)
  | .object fields, depth => decide (1 < depth) && withinFields fields (depth - 1)
  | _, _ => true

def withinItems : List Json → Nat → Bool
  | [], _ => true
  | item :: rest, depth => item.within depth && withinItems rest depth

def withinFields : List (String × Json) → Nat → Bool
  | [], _ => true
  | (_, j) :: rest, depth => j.within depth && withinFields rest depth

end

/-! ### Reading -/

def Json.asFields : Json → Option (List (String × Json))
  | .object fields => some fields
  | _ => none

def readString : Json → Option String
  | .string s => some s
  | _ => none

def readBool : Json → Option Bool
  | .bool b => some b
  | _ => none

def readF64 : Json → Option F64
  | .float x => some x
  | .int n => some (.ofFloat (intToFloat n))
  | _ => none

def readI64 : Json → Option Int
  | .int n => if InI64 n then some n else none
  | _ => none

def readUsize : Json → Option Nat
  | .int n => if 0 ≤ n ∧ n < 2 ^ 64 then some n.toNat else none
  | _ => none

def InU32 (n : Int) : Prop := 0 ≤ n ∧ n < (UInt32.size : Int)

instance (n : Int) : Decidable (InU32 n) := inferInstanceAs (Decidable (_ ∧ _))

def readU32 : Json → Option UInt32
  | .int n => if InU32 n then some (UInt32.ofNat n.toNat) else none
  | _ => none

def readList {α : Type} (read : Json → Option α) : Json → Option (List α)
  | .array items => items.mapM read
  | _ => none

/-- `null` and a missing field are both read as nothing. -/
def readOption {α : Type} (read : Json → Option α) : Option Json → Option (Option α)
  | none => some none
  | some .null => some none
  | some j => (read j).map some

section
variable {α : Type} (fields : List (String × Json)) (name : String) (read : Json → Option α)

def required : Option α := (member fields name).bind fun held => held.bind read

def optional : Option (Option α) := (member fields name).bind (readOption read)

def defaulted (missing : α) : Option α :=
  (member fields name).bind fun held => (held.map read).getD (some missing)

end

def orNull (o : Option Json) : Option Json := some (o.getD .null)

/-! ### Each type -/

def ServerInfo.fields (info : ServerInfo) : List (String × Option Json) := [
    ("state", some (.string info.state)),
    ("throughput", some (.float info.throughput)),
    ("start_block", some (.int info.startBlock)),
    ("end_block", some (.int info.endBlock)),
    ("public_name", info.publicName.map .string),
    ("version", info.version.map .string),
    ("network_rps", info.networkRps.map .float),
    ("forward_rps", info.forwardRps.map .float),
    ("inference_rps", info.inferenceRps.map .float),
    ("torch_dtype", info.torchDtype.map .string),
    ("quant_type", info.quantType.map .string),
    ("using_relay", info.usingRelay.map .bool),
    ("cache_tokens_left", info.cacheTokensLeft.map .int),
    ("shard_loading", info.shardLoading.map .bool),
    ("vpk", info.vpk),
    ("trust_attestations", some (.int info.trustAttestations))]

def ServerInfo.toJson (info : ServerInfo) : Json := .object (present info.fields)

def ServerInfo.ofFields (fields : List (String × Json)) : Option ServerInfo := do
  return {
    state := ← required fields "state" readString
    throughput := ← required fields "throughput" readF64
    startBlock := ← required fields "start_block" readI64
    endBlock := ← required fields "end_block" readI64
    publicName := ← optional fields "public_name" readString
    version := ← optional fields "version" readString
    networkRps := ← optional fields "network_rps" readF64
    forwardRps := ← optional fields "forward_rps" readF64
    inferenceRps := ← optional fields "inference_rps" readF64
    torchDtype := ← optional fields "torch_dtype" readString
    quantType := ← optional fields "quant_type" readString
    usingRelay := ← optional fields "using_relay" readBool
    cacheTokensLeft := ← optional fields "cache_tokens_left" readI64
    shardLoading := ← optional fields "shard_loading" readBool
    vpk := ← optional fields "vpk" some
    trustAttestations := ← defaulted fields "trust_attestations" readUsize 0
    -- skipped both ways
    peerId := none }

def ServerInfo.ofJson (j : Json) : Option ServerInfo := j.asFields.bind ServerInfo.ofFields

def Location.fields (l : Location) : List (String × Option Json) := [
    ("status", some (.string l.status)),
    ("country", some (.string l.country)),
    ("city", some (.string l.city)),
    ("lat", some (.float l.lat)),
    ("lon", some (.float l.lon)),
    ("isp", some (.string l.isp))]

def Location.toJson (l : Location) : Json := .object (present l.fields)

def Location.ofFields (fields : List (String × Json)) : Option Location := do
  return {
    status := ← required fields "status" readString
    country := ← defaulted fields "country" readString ""
    city := ← defaulted fields "city" readString ""
    lat := ← defaulted fields "lat" readF64 0.0
    lon := ← defaulted fields "lon" readF64 0.0
    isp := ← defaulted fields "isp" readString "" }

def Location.ofJson (j : Json) : Option Location := j.asFields.bind Location.ofFields

def PeerIpInfo.fields (info : PeerIpInfo) : List (String × Option Json) := [
    ("location", some info.location.toJson),
    ("multiaddrs", some (.array (info.multiaddrs.map .string))),
    ("reachability", info.reachability.map .string)]

def PeerIpInfo.toJson (info : PeerIpInfo) : Json := .object (present info.fields)

def PeerIpInfo.ofFields (fields : List (String × Json)) : Option PeerIpInfo := do
  return {
    location := ← required fields "location" Location.ofJson
    multiaddrs := ← required fields "multiaddrs" (readList readString)
    reachability := ← optional fields "reachability" readString }

def PeerIpInfo.ofJson (j : Json) : Option PeerIpInfo := j.asFields.bind PeerIpInfo.ofFields

def PeerSpan.fields (span : PeerSpan) : List (String × Option Json) := [
    ("peer_id", some (.string span.peerId)),
    ("start", some (.int span.start)),
    ("end", some (.int span.stop)),
    ("server_info", some span.serverInfo.toJson)]

def PeerSpan.toJson (span : PeerSpan) : Json := .object (present span.fields)

def PeerSpan.ofFields (fields : List (String × Json)) : Option PeerSpan := do
  return {
    peerId := ← required fields "peer_id" readString
    start := ← required fields "start" readI64
    stop := ← required fields "end" readI64
    serverInfo := ← required fields "server_info" ServerInfo.ofJson }

def PeerSpan.ofJson (j : Json) : Option PeerSpan := j.asFields.bind PeerSpan.ofFields

def ServerRow.fields (row : ServerRow) : List (String × Option Json) := [
    ("peer_id", some (.string row.peerId)),
    ("short_peer_id", some (.string row.shortPeerId)),
    ("show_public_name", some (.bool row.showPublicName)),
    ("state", some (.string row.state)),
    ("peer_ip_info", some row.peerIpInfo.toJson),
    ("span", some row.span.toJson)]

def ServerRow.toJson (row : ServerRow) : Json := .object (present row.fields)

def ServerRow.ofFields (fields : List (String × Json)) : Option ServerRow := do
  return {
    peerId := ← required fields "peer_id" readString
    shortPeerId := ← required fields "short_peer_id" readString
    showPublicName := ← required fields "show_public_name" readBool
    state := ← required fields "state" readString
    peerIpInfo := ← required fields "peer_ip_info" PeerIpInfo.ofJson
    span := ← required fields "span" PeerSpan.ofJson }

def ServerRow.ofJson (j : Json) : Option ServerRow := j.asFields.bind ServerRow.ofFields

def ModelReport.fields (report : ModelReport) : List (String × Option Json) := [
    ("name", some (.string report.name)),
    ("short_name", some (.string report.shortName)),
    ("dht_prefix", some (.string report.dhtPrefix)),
    ("repository", some (.string report.repository)),
    ("num_blocks", some (.int report.numBlocks)),
    ("state", some (.string report.state)),
    ("server_rows", some (.array (report.serverRows.map ServerRow.toJson)))]

def ModelReport.toJson (report : ModelReport) : Json := .object (present report.fields)

def ModelReport.ofFields (fields : List (String × Json)) : Option ModelReport := do
  return {
    name := ← required fields "name" readString
    shortName := ← required fields "short_name" readString
    dhtPrefix := ← required fields "dht_prefix" readString
    repository := ← required fields "repository" readString
    numBlocks := ← required fields "num_blocks" readI64
    state := ← required fields "state" readString
    serverRows := ← required fields "server_rows" (readList ServerRow.ofJson) }

def ModelReport.ofJson (j : Json) : Option ModelReport := j.asFields.bind ModelReport.ofFields

def Contributor.fields (c : Contributor) : List (String × Option Json) := [
    ("peer_id", some (.string c.peerId)),
    ("public_name", orNull (c.publicName.map .string)),
    ("throughput", some (.float c.throughput)),
    ("blocks", some (.int c.blocks))]

def Contributor.toJson (c : Contributor) : Json := .object (present c.fields)

def Contributor.ofFields (fields : List (String × Json)) : Option Contributor := do
  return {
    peerId := ← required fields "peer_id" readString
    publicName := ← optional fields "public_name" readString
    throughput := ← required fields "throughput" readF64
    blocks := ← required fields "blocks" readI64 }

def Contributor.ofJson (j : Json) : Option Contributor := j.asFields.bind Contributor.ofFields

def ReachabilityIssue.fields (issue : ReachabilityIssue) : List (String × Option Json) := [
    ("peer_id", some (.string issue.peerId)),
    ("err", some (.string issue.err))]

def ReachabilityIssue.toJson (issue : ReachabilityIssue) : Json := .object (present issue.fields)

def ReachabilityIssue.ofFields (fields : List (String × Json)) : Option ReachabilityIssue := do
  return { peerId := ← required fields "peer_id" readString, err := ← required fields "err" readString }

def ReachabilityIssue.ofJson (j : Json) : Option ReachabilityIssue := j.asFields.bind ReachabilityIssue.ofFields

def BlockSpan.fields (span : BlockSpan) : List (String × Option Json) := [
    ("start", some (.int span.start)),
    ("end", some (.int span.stop))]

def BlockSpan.toJson (span : BlockSpan) : Json := .object (present span.fields)

def BlockSpan.ofFields (fields : List (String × Json)) : Option BlockSpan := do
  return { start := ← required fields "start" readI64, stop := ← required fields "end" readI64 }

def BlockSpan.ofJson (j : Json) : Option BlockSpan := j.asFields.bind BlockSpan.ofFields

def PeerRow.fields (row : PeerRow) : List (String × Option Json) := [
    ("peer_id", some (.string row.peerId)),
    ("short_peer_id", some (.string row.shortPeerId)),
    ("public_name", orNull (row.publicName.map .string)),
    ("version", orNull (row.version.map .string)),
    ("state", some (.string row.state)),
    ("shard_loading", some (.bool row.shardLoading)),
    ("model", orNull (row.model.map .string)),
    ("span", orNull (row.span.map BlockSpan.toJson)),
    ("throughput", some (.float row.throughput)),
    ("using_relay", orNull (row.usingRelay.map .bool)),
    ("vpk", orNull row.vpk),
    ("trust_attestations", some (.int row.trustAttestations)),
    ("peer_ip_info", some row.peerIpInfo.toJson),
    ("kad", some (.bool row.kad)),
    ("announced", some (.bool row.announced))]

def PeerRow.toJson (row : PeerRow) : Json := .object (present row.fields)

def PeerRow.ofFields (fields : List (String × Json)) : Option PeerRow := do
  return {
    peerId := ← required fields "peer_id" readString
    shortPeerId := ← required fields "short_peer_id" readString
    publicName := ← optional fields "public_name" readString
    version := ← optional fields "version" readString
    state := ← required fields "state" readString
    shardLoading := ← required fields "shard_loading" readBool
    model := ← optional fields "model" readString
    span := ← optional fields "span" BlockSpan.ofJson
    throughput := ← required fields "throughput" readF64
    usingRelay := ← optional fields "using_relay" readBool
    vpk := ← optional fields "vpk" some
    trustAttestations := ← required fields "trust_attestations" readUsize
    peerIpInfo := ← required fields "peer_ip_info" PeerIpInfo.ofJson
    kad := ← required fields "kad" readBool
    announced := ← required fields "announced" readBool }

def PeerRow.ofJson (j : Json) : Option PeerRow := j.asFields.bind PeerRow.ofFields

def isZero (n : UInt32) : Bool := n == 0

section
variable (text : WireText)

def readDateTime (j : Json) : Option DateTime := (readString j).bind text.readTime

def Snapshot.fields (s : Snapshot) : List (String × Option Json) := [
    ("bootstrap_states", some (.array (s.bootstrapStates.map .string))),
    ("model_reports", some (.array (s.modelReports.map ModelReport.toJson))),
    ("num_peers", some (.int s.numPeers)),
    ("num_blocks_covered", some (.int s.numBlocksCovered)),
    ("top_contributors", some (.array (s.topContributors.map Contributor.toJson))),
    ("reachability_issues", some (.array (s.reachabilityIssues.map ReachabilityIssue.toJson))),
    ("last_updated", some (.string (text.writeTime s.lastUpdated))),
    ("update_period", some (.int s.updatePeriod)),
    ("update_duration", some (.float s.updateDuration)),
    ("stale_since", s.staleSince.map fun t => .string (text.writeTime t)),
    ("crawls_held", if isZero s.crawlsHeld then none else some (.int s.crawlsHeld.toNat)),
    ("peers", some (.array (s.peers.map PeerRow.toJson)))]

def Snapshot.toJson (s : Snapshot) : Json := .object (present (s.fields text))

def Snapshot.ofFields (fields : List (String × Json)) : Option Snapshot := do
  return {
    bootstrapStates := ← required fields "bootstrap_states" (readList readString)
    modelReports := ← required fields "model_reports" (readList ModelReport.ofJson)
    numPeers := ← required fields "num_peers" readUsize
    numBlocksCovered := ← required fields "num_blocks_covered" readUsize
    topContributors := ← required fields "top_contributors" (readList Contributor.ofJson)
    reachabilityIssues := ← required fields "reachability_issues" (readList ReachabilityIssue.ofJson)
    lastUpdated := ← required fields "last_updated" (readDateTime text)
    updatePeriod := ← required fields "update_period" readUsize
    updateDuration := ← required fields "update_duration" readF64
    staleSince := ← optional fields "stale_since" (readDateTime text)
    crawlsHeld := ← defaulted fields "crawls_held" readU32 0
    peers := ← defaulted fields "peers" (readList PeerRow.ofJson) [] }

def Snapshot.ofJson (j : Json) : Option Snapshot := j.asFields.bind (Snapshot.ofFields text)

def Snapshot.readBack (s : Snapshot) : Option Snapshot :=
  let written := text.carried (s.toJson text)
  if written.within recursionLimit then Snapshot.ofJson text written else none

end

end KwaaiNetMap
