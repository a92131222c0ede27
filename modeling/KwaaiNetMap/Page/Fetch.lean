import KwaaiNetMap.Page.Popup
import KwaaiNetMap.Snapshot.ReadBack

/-!
The page reads the document off its text, where a number that is not finite stands as `null`. It has no more of the
document than `documentOf` says, and that is what it reads (`fetched_served`).
-/

namespace KwaaiNetMap.Page
open Collections Numeric

structure Fetched extends Document where
  bootstrapStates : Option (List String)

/-! ### Reading -/

def readNumber : Json → Option (Option Float)
  | .float x => some (some x.toFloat)
  | .int n => some (some (intToFloat n))
  | .null => some none
  | _ => none

def readInt : Json → Option Int
  | .int n => some n
  | _ => none

def Location.ofFields (fields : List (String × Json)) : Option Location := do
  return {
    status := ← required fields "status" readString
    country := ← required fields "country" readString
    city := ← required fields "city" readString
    lat := ← required fields "lat" readNumber
    lon := ← required fields "lon" readNumber }

def Location.ofJson (j : Json) : Option Location := j.asFields.bind Location.ofFields

def PeerIpInfo.ofFields (fields : List (String × Json)) : Option PeerIpInfo := do
  return {
    location := ← required fields "location" Location.ofJson
    multiaddrs := ← required fields "multiaddrs" (readList readString)
    reachability := ← optional fields "reachability" readString }

def PeerIpInfo.ofJson (j : Json) : Option PeerIpInfo := j.asFields.bind PeerIpInfo.ofFields

def blockSpan (fields : List (String × Json)) : Option BlockSpan := do
  return { start := ← required fields "start" readInt, stop := ← required fields "end" readInt }

def Peer.ofFields (fields : List (String × Json)) : Option Peer := do
  return {
    peerId := ← required fields "peer_id" readString
    publicName := ← optional fields "public_name" readString
    version := ← optional fields "version" readString
    state := ← required fields "state" readString
    shardLoading := ← required fields "shard_loading" readBool
    model := ← optional fields "model" readString
    span := ← optional fields "span" fun j => j.asFields.bind blockSpan
    throughput := ← required fields "throughput" readNumber
    usingRelay := ← optional fields "using_relay" readBool
    peerIpInfo := ← required fields "peer_ip_info" PeerIpInfo.ofJson }

def Peer.ofJson (j : Json) : Option Peer := j.asFields.bind Peer.ofFields

def ServerInfo.ofFields (fields : List (String × Json)) : Option ServerInfo := do
  return {
    publicName := ← optional fields "public_name" readString
    version := ← optional fields "version" readString
    throughput := ← required fields "throughput" readNumber
    usingRelay := ← optional fields "using_relay" readBool
    shardLoading := ← optional fields "shard_loading" readBool }

def ServerInfo.ofJson (j : Json) : Option ServerInfo := j.asFields.bind ServerInfo.ofFields

def Span.ofFields (fields : List (String × Json)) : Option Span := do
  return {
    start := some (← required fields "start" readInt)
    stop := some (← required fields "end" readInt)
    serverInfo := some (← required fields "server_info" ServerInfo.ofJson) }

def Span.ofJson (j : Json) : Option Span := j.asFields.bind Span.ofFields

def ServerRow.ofFields (fields : List (String × Json)) : Option ServerRow := do
  return {
    peerId := ← required fields "peer_id" readString
    state := ← required fields "state" readString
    peerIpInfo := some (← required fields "peer_ip_info" PeerIpInfo.ofJson)
    span := some (← required fields "span" Span.ofJson) }

def ServerRow.ofJson (j : Json) : Option ServerRow := j.asFields.bind ServerRow.ofFields

def ModelReport.ofFields (fields : List (String × Json)) : Option ModelReport := do
  return {
    name := ← required fields "name" readString
    serverRows := ← required fields "server_rows" (readList ServerRow.ofJson) }

def ModelReport.ofJson (j : Json) : Option ModelReport := j.asFields.bind ModelReport.ofFields

def Fetched.ofFields (fields : List (String × Json)) : Option Fetched := do
  return {
    bootstrapStates := ← optional fields "bootstrap_states" (readList readString)
    modelReports := ← defaulted fields "model_reports" (readList ModelReport.ofJson) []
    peers := ← optional fields "peers" (readList Peer.ofJson) }

/-- `response.json()`, as far as the page goes into it. -/
def Fetched.ofJson (j : Json) : Option Fetched := j.asFields.bind Fetched.ofFields

/-! ### What there is to read -/

section
variable (text : WireText)

def number (x : F64) : Option Float := if x.isFinite then some (text.restored x).toFloat else none

def locationOf (l : KwaaiNetMap.Location) : Location :=
  { status := l.status, country := l.country, city := l.city, lat := number text l.lat, lon := number text l.lon }

def ipInfoOf (info : KwaaiNetMap.PeerIpInfo) : PeerIpInfo :=
  { location := locationOf text info.location, multiaddrs := info.multiaddrs, reachability := info.reachability }

def peerOf (p : PeerRow) : Peer :=
  { peerId := p.peerId
    publicName := p.publicName
    version := p.version
    state := p.state
    shardLoading := p.shardLoading
    model := p.model
    span := p.span
    throughput := number text p.throughput
    usingRelay := p.usingRelay
    peerIpInfo := ipInfoOf text p.peerIpInfo }

def serverInfoOf (info : KwaaiNetMap.ServerInfo) : ServerInfo :=
  { publicName := info.publicName
    version := info.version
    throughput := number text info.throughput
    usingRelay := info.usingRelay
    shardLoading := info.shardLoading }

def spanOf (span : PeerSpan) : Span :=
  { start := some span.start, stop := some span.stop, serverInfo := some (serverInfoOf text span.serverInfo) }

def serverRowOf (row : KwaaiNetMap.ServerRow) : ServerRow :=
  { peerId := row.peerId
    state := row.state
    peerIpInfo := some (ipInfoOf text row.peerIpInfo)
    span := some (spanOf text row.span) }

def reportOf (report : KwaaiNetMap.ModelReport) : ModelReport :=
  { name := report.name, serverRows := report.serverRows.map (serverRowOf text) }

def documentOf (s : Snapshot) : Document :=
  { peers := some (s.peers.map (peerOf text)), modelReports := s.modelReports.map (reportOf text) }

def fetchedOf (s : Snapshot) : Fetched := { documentOf text s with bootstrapStates := some s.bootstrapStates }

end

section
variable {text : WireText} {fields : List (String × Option Json)} (nodup : (fields.map Prod.fst).Nodup) {name : String}
include nodup

theorem required_number {x : F64} (held : fields.lookup name = some (some (.float x))) :
    required (text.returned fields) name readNumber = some (number text x) := by
  rw [required_returned nodup held, WireText.carried, number]
  split <;> rfl

theorem required_integer {n : Int} (held : fields.lookup name = some (some (.int n))) :
    required (text.returned fields) name readInt = some n := required_returned nodup held

theorem required_record {α : Type} {read : Json → Option α} {j : Json} {a : α}
    (each : read (text.carried j) = some a) (held : fields.lookup name = some (some j)) :
    required (text.returned fields) name read = some a := (required_returned nodup held).trans each

end

section
variable {text : WireText}

theorem readList_each {α β : Type} {write : α → Json} {read : Json → Option β} {back : α → β} (l : List α)
    (each : ∀ a, read (text.carried (write a)) = some (back a)) :
    readList read (text.carried (.array (l.map write))) = some (l.map back) := by
  rw [WireText.carried_array, List.map_map, readList]
  exact (mapM_map_eq_some_iff _ read back l).mpr fun a _ => each a

theorem readOption_each {α β : Type} {write : α → Json} {read : Json → Option β} {back : α → β} (l : List α)
    (each : ∀ a, read (text.carried (write a)) = some (back a)) :
    readOption (readList read) ((some (.array (l.map write))).map text.carried) = some (some (l.map back)) := by
  have all := readList_each l each
  rw [WireText.carried_array] at all
  rw [Option.map_some, WireText.carried_array]
  exact congrArg (Option.map some) all

end

/-! ### What is read -/

section
variable {text : WireText}

theorem read_location (l : KwaaiNetMap.Location) :
    Location.ofJson (text.carried l.toJson) = some (locationOf text l) := by
  have nodup : (l.fields.map Prod.fst).Nodup := by simp [KwaaiNetMap.Location.fields]
  rw [KwaaiNetMap.Location.toJson, WireText.carried_object, Location.ofJson, Json.asFields, Option.bind_some,
    Location.ofFields]
  iterate 3 apply read_field (required_string nodup rfl)
  iterate 2 apply read_field (required_number nodup rfl)
  rfl

theorem read_ipInfo (info : KwaaiNetMap.PeerIpInfo) :
    PeerIpInfo.ofJson (text.carried info.toJson) = some (ipInfoOf text info) := by
  have nodup : (info.fields.map Prod.fst).Nodup := by simp [KwaaiNetMap.PeerIpInfo.fields]
  rw [KwaaiNetMap.PeerIpInfo.toJson, WireText.carried_object, PeerIpInfo.ofJson, Json.asFields, Option.bind_some,
    PeerIpInfo.ofFields]
  apply read_field (required_record nodup (read_location info.location) rfl)
  apply read_field ((required_returned nodup rfl).trans (readList_string info.multiaddrs))
  apply read_field (optional_string nodup rfl)
  rfl

theorem read_blockSpan (o : Option BlockSpan) :
    readOption (fun j => j.asFields.bind blockSpan) ((orNull (o.map BlockSpan.toJson)).map text.carried) = some o := by
  cases o with
  | none => rfl
  | some span =>
    have nodup : (span.fields.map Prod.fst).Nodup := by simp [BlockSpan.fields]
    have read : blockSpan (text.returned span.fields) = some span := by
      rw [blockSpan]
      apply read_field (required_integer nodup (n := span.start) rfl)
      apply read_field (required_integer nodup (n := span.stop) rfl)
      rfl
    rw [readOption_orNull, Option.map_some, Option.map_some, BlockSpan.toJson, WireText.carried_object]
    exact congrArg (Option.map some) read

theorem read_peer (p : PeerRow) : Peer.ofJson (text.carried p.toJson) = some (peerOf text p) := by
  have nodup : (p.fields.map Prod.fst).Nodup := by simp [PeerRow.fields]
  rw [PeerRow.toJson, WireText.carried_object, Peer.ofJson, Json.asFields, Option.bind_some, Peer.ofFields]
  apply read_field (required_string nodup rfl)
  iterate 2 apply read_field (nullable_string nodup rfl)
  apply read_field (required_string nodup rfl)
  apply read_field (required_bool nodup rfl)
  apply read_field (nullable_string nodup rfl)
  apply read_field ((optional_returned nodup rfl).trans (read_blockSpan p.span))
  apply read_field (required_number nodup rfl)
  apply read_field (nullable_bool nodup rfl)
  apply read_field (required_record nodup (read_ipInfo p.peerIpInfo) rfl)
  rfl

theorem read_serverRow (row : KwaaiNetMap.ServerRow) :
    ServerRow.ofJson (text.carried row.toJson) = some (serverRowOf text row) := by
  have info : ServerInfo.ofJson (text.carried row.span.serverInfo.toJson) =
      some (serverInfoOf text row.span.serverInfo) := by
    have nodup : (row.span.serverInfo.fields.map Prod.fst).Nodup := by simp [KwaaiNetMap.ServerInfo.fields]
    rw [KwaaiNetMap.ServerInfo.toJson, WireText.carried_object, ServerInfo.ofJson, Json.asFields, Option.bind_some,
      ServerInfo.ofFields]
    iterate 2 apply read_field (optional_string nodup rfl)
    apply read_field (required_number nodup rfl)
    iterate 2 apply read_field (optional_bool nodup rfl)
    rfl
  have span : Span.ofJson (text.carried row.span.toJson) = some (spanOf text row.span) := by
    have nodup : (row.span.fields.map Prod.fst).Nodup := by simp [PeerSpan.fields]
    rw [PeerSpan.toJson, WireText.carried_object, Span.ofJson, Json.asFields, Option.bind_some, Span.ofFields]
    iterate 2 apply read_field (required_integer nodup rfl)
    apply read_field (required_record nodup info rfl)
    rfl
  have nodup : (row.fields.map Prod.fst).Nodup := by simp [KwaaiNetMap.ServerRow.fields]
  rw [KwaaiNetMap.ServerRow.toJson, WireText.carried_object, ServerRow.ofJson, Json.asFields, Option.bind_some,
    ServerRow.ofFields]
  iterate 2 apply read_field (required_string nodup rfl)
  apply read_field (required_record nodup (read_ipInfo row.peerIpInfo) rfl)
  apply read_field (required_record nodup span rfl)
  rfl

theorem read_report (report : KwaaiNetMap.ModelReport) :
    ModelReport.ofJson (text.carried report.toJson) = some (reportOf text report) := by
  have nodup : (report.fields.map Prod.fst).Nodup := by simp [KwaaiNetMap.ModelReport.fields]
  rw [KwaaiNetMap.ModelReport.toJson, WireText.carried_object, ModelReport.ofJson, Json.asFields, Option.bind_some,
    ModelReport.ofFields]
  apply read_field (required_string nodup rfl)
  apply read_field ((required_returned nodup rfl).trans (readList_each report.serverRows read_serverRow))
  rfl

theorem fetched_served (s : Snapshot) : Fetched.ofJson (text.carried (s.toJson text)) = some (fetchedOf text s) := by
  have nodup : ((s.fields text).map Prod.fst).Nodup := by simp [Snapshot.fields]
  have states : optional (text.returned (s.fields text)) "bootstrap_states" (readList readString) =
      some (some (s.bootstrapStates.map id)) := (optional_returned nodup rfl).trans (readOption_each _ fun _ => rfl)
  rw [List.map_id] at states
  rw [Snapshot.toJson, WireText.carried_object, Fetched.ofJson, Json.asFields, Option.bind_some, Fetched.ofFields]
  apply read_field states
  apply read_field ((defaulted_returned nodup rfl _).trans (readList_each s.modelReports read_report))
  apply read_field ((optional_returned nodup rfl).trans (readOption_each s.peers read_peer))
  rfl

end

end KwaaiNetMap.Page
