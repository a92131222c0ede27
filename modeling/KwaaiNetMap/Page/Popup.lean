import KwaaiNetMap.Snapshot.Types

/-!
What the map page shows of the nodes at one place: the rows of a state document, the labels a row is given, and
the HTML they are put into.
-/

namespace KwaaiNetMap.Page

/-- What the page takes from the browser: numbers as text, and what every object answers to besides its own
properties. -/
structure Browser where
  number : Int → String
  decimal : Float → String
  toFixed : Float → Nat → String
  inherited : String → Option String

structure ServerInfo where
  publicName : Option String
  version : Option String
  throughput : Option Float
  usingRelay : Option Bool
  shardLoading : Option Bool

structure Span where
  start : Option Int
  stop : Option Int
  serverInfo : Option ServerInfo

/-- Where a node is, a coordinate absent where the document has `null`. -/
structure Location where
  status : String
  country : String := ""
  city : String := ""
  lat : Option Float := some 0
  lon : Option Float := some 0

structure PeerIpInfo where
  location : Location := { status := "fail" }
  multiaddrs : List String := []
  reachability : Option String := none

structure Server where
  state : String
  peerIpInfo : Option PeerIpInfo
  span : Option Span

structure Row where
  model : Option String
  server : Server

structure Report where
  name : String

structure Node where
  server : Server
  report : Report

structure Site where
  label : String
  nodes : List Node

/-- `s || fallback`. -/
def orElse (s : Option String) (fallback : String) : String :=
  match s with
  | none => fallback
  | some s => if s = "" then fallback else s

/-- What `table[key]` is, where it is anything. -/
def property (browser : Browser) (table : List (String × String)) (key : String) : Option String :=
  (table.lookup key).or (browser.inherited key)

def Server.info (server : Server) : Option ServerInfo := server.span.bind Span.serverInfo

/-! ### Rows and sites -/

/-- One of `data.peers`; a number is absent where the document has `null`. -/
structure Peer where
  peerId : String
  publicName : Option String
  version : Option String
  state : String
  shardLoading : Bool
  model : Option String
  span : Option BlockSpan
  throughput : Option Float
  usingRelay : Option Bool
  peerIpInfo : PeerIpInfo

structure ServerRow extends Server where
  peerId : String

structure ModelReport where
  name : String
  serverRows : List ServerRow

/-- The document as the page reads it; an older one has no `peers`. -/
structure Document where
  peers : Option (List Peer)
  modelReports : List ModelReport

def noModel : String := "No model"

def ofPeer (p : Peer) : Row :=
  { model := p.model.filter (· ≠ "")
    server := {
      state := p.state
      peerIpInfo := some p.peerIpInfo
      span := some {
        start := p.span.map BlockSpan.start
        stop := p.span.map BlockSpan.stop
        serverInfo := some {
          publicName := p.publicName
          version := p.version
          throughput := p.throughput
          usingRelay := p.usingRelay
          shardLoading := some p.shardLoading } } } }

def peerRows (data : Document) : List Row :=
  match data.peers with
  | some peers => peers.map ofPeer
  | none =>
    data.modelReports.flatMap fun report =>
      report.serverRows.map fun row => { model := some report.name, server := row.toServer }

structure Sites where
  located : List (String × Site)
  unknown : Site

def pushNode (key label : String) (node : Node) : List (String × Site) → List (String × Site)
  | [] => [(key, { label, nodes := [node] })]
  | (k, site) :: rest =>
    if k = key then (k, { site with nodes := site.nodes ++ [node] }) :: rest
    else (k, site) :: pushNode key label node rest

def Row.node (row : Row) : Node := { server := row.server, report := { name := orElse row.model noModel } }

def coordinate (browser : Browser) (x : Option Float) : String := (x.map browser.decimal).getD "null"

def placeRow (browser : Browser) (sites : Sites) (row : Row) : Sites :=
  match row.server.peerIpInfo.map PeerIpInfo.location with
  | some location =>
    if location.status = "success" then
      let key := coordinate browser location.lat ++ "," ++ coordinate browser location.lon
      { sites with located := pushNode key (location.city ++ ", " ++ location.country) row.node sites.located }
    else { sites with unknown := { sites.unknown with nodes := sites.unknown.nodes ++ [row.node] } }
  | none => { sites with unknown := { sites.unknown with nodes := sites.unknown.nodes ++ [row.node] } }

def collectSites (browser : Browser) (data : Document) : Sites :=
  (peerRows data).foldl (placeRow browser) { located := [], unknown := { label := "Location unknown", nodes := [] } }

def Sites.all (sites : Sites) : List Site := sites.located.map Prod.snd ++ [sites.unknown]

/-! ### Name and version -/

def isVersionChar (c : Char) : Bool := c.isAlphanum || c == '_' || c == '.' || c == '+' || c == '-'

/-- `/v`, a digit, and nothing but version characters up to the end. -/
def isVersionSuffix : List Char → Bool
  | '/' :: 'v' :: d :: rest => d.isDigit && rest.all isVersionChar
  | _ => false

def dropVersionSuffix : List Char → List Char
  | [] => []
  | c :: cs => if isVersionSuffix (c :: cs) then [] else c :: dropVersionSuffix cs

def isAgentChar (c : Char) : Bool := c != '-' && c != '/'

def dropAgentPrefix (cs : List Char) : List Char :=
  match cs.dropWhile isAgentChar with
  | [] => cs
  | _ :: rest => rest

structure NameAndVersion where
  name : String
  version : String

def nameAndVersion (server : Server) : NameAndVersion :=
  let publicName := orElse (server.info.bind ServerInfo.publicName) ""
  let version := orElse (server.info.bind ServerInfo.version) ""
  { name := orElse (some (String.ofList (dropVersionSuffix publicName.toList))) "N/A"
    version := orElse (some (String.ofList (dropAgentPrefix version.toList))) "N/A" }

/-! ### Connection -/

def Server.usingRelay (server : Server) : Bool := (server.info.bind ServerInfo.usingRelay).getD false

def circuitMark : List Char := "/p2p-circuit".toList

def getConnectionType (browser : Browser) (server : Server) : String :=
  let verdict := orElse (server.peerIpInfo.bind PeerIpInfo.reachability) ""
  let addrs := (server.peerIpInfo.map PeerIpInfo.multiaddrs).getD []
  if verdict ≠ "" then
    (property browser [("direct", "Direct"), ("punched", "NAT"), ("relayed", "Relay"),
      ("inbound", if server.usingRelay then "Relay" else "Direct")] verdict).getD "Unknown"
  else if addrs ≠ [] then
    if addrs.any fun a => Text.contains circuitMark a.toList then "Relay"
    else if server.usingRelay then "NAT" else "Direct"
  -- no multiaddrs visible: the node's own word
  else if server.info.isSome then
    if server.usingRelay then "Relay" else "Direct"
  else "Unknown"

/-- `CONNECTION_TYPE_STYLE`, as far as the popup goes. -/
def connectionTypeColor (type : String) : String :=
  ([("Direct", "blue"), ("NAT", "teal"), ("Relay", "purple")].lookup type).getD "black"

/-! ### Status and model -/

def statusLabels : List (String × String) := [
  ("online", "Sharding"), ("joining", "Idle"), ("offline", "Departed"), ("unreachable", "Unreachable"),
  ("unannounced", "Unannounced")]

def statusLabel (browser : Browser) (state : String) : String :=
  (property browser statusLabels state).getD "Unknown"

def statusClass (browser : Browser) (state : String) : String :=
  "status-" ++ (if (property browser statusLabels state).isSome then state else "unknown")

def serverStatus (browser : Browser) (server : Server) : String :=
  if server.state = "online" then "Serving"
  else if server.state = "joining" ∧ server.info.bind ServerInfo.shardLoading = some true then "Loading"
  else statusLabel browser server.state

def modelLabel (browser : Browser) (server : Server) (model : String) : String :=
  let name := orElse (some model) noModel
  let status := serverStatus browser server
  match server.span.bind Span.start with
  | none => name
  | some start =>
    if status = "Serving" ∨ status = "Loading" then
      let stop := ((server.span.bind Span.stop).map browser.number).getD "null"
      name ++ " [" ++ browser.number start ++ ":" ++ stop ++ "]"
    else name

/-! ### The HTML -/

def Server.throughput (server : Server) : Option Float :=
  match server.info with
  | none => some 0
  | some info => info.throughput

def throughputColor (throughput : Option Float) : String :=
  match throughput with
  | none => "#FF0000"
  | some x => if x > 500 then "#00FF00" else if x > 100 then "#FFFF00" else "#FF0000"

def throughputText (browser : Browser) (throughput : Option Float) : String :=
  match throughput with
  | none => "N/A"
  | some x => if x == 0 || x.isNaN then "N/A" else browser.toFixed x 2

def nodePopupHtml (browser : Browser) (node : Node) : String :=
  let { server, report } := node
  let { name := publicName, version } := nameAndVersion server
  let connectionType := getConnectionType browser server
  "<div class=\"site-node\">\n                <b>Model:</b> " ++ modelLabel browser server report.name ++
    "<br>\n                <b>Sharding:</b> <span class=\"" ++ statusClass browser server.state ++ "\">" ++
    serverStatus browser server ++ "</span><br>\n                <b>Public Name:</b> " ++ publicName ++
    "<br>\n                <b>Version:</b> " ++ version ++
    "<br>\n                <b>Connection:</b> <span style=\"color:" ++ connectionTypeColor connectionType ++
    "; font-weight:bold;\">" ++ connectionType ++
    "</span><br>\n                <b>Tok/sec:</b> <span style=\"color:" ++ throughputColor server.throughput ++
    "\">" ++ throughputText browser server.throughput ++ "</span>\n            </div>"

def heading (browser : Browser) (site : Site) : String :=
  if site.nodes.length = 1 then site.label
  else browser.number site.nodes.length ++ " nodes · " ++ site.label

def openPopup (browser : Browser) (site : Site) : String :=
  "<span class=\"close\" title=\"Close\">&times;</span><h5>" ++ heading browser site ++ "</h5>" ++
    String.join (site.nodes.map (nodePopupHtml browser))

end KwaaiNetMap.Page
