import KwaaiNetMap.Collections.BTree
import KwaaiNetMap.Geoip.IpAddr
import KwaaiNetMap.Snapshot.Types
import Mathlib.Data.List.Destutter
import Mathlib.Data.String.Basic

/-!
Reading addresses, the location cache, and where a peer is pinned.
-/

namespace KwaaiNetMap
open Collections Numeric

/-! ### Reading addresses -/

def circuitMark : List Char := "/p2p-circuit".toList

def p2pMark : List Char := "/p2p/".toList

def isCircuitAddr (addr : String) : Bool := Text.contains circuitMark addr.toList

/-- The first `ip4` or `ip6` component, unless what follows it is no address. -/
def ipOfParts : List (List Char) → Option String
  | [] => none
  | proto :: rest =>
    if proto = "ip4".toList ∨ proto = "ip6".toList then
      match rest with
      | [] => none
      | raw :: _ => if (IpAddr.parse raw).isSome then some (String.ofList raw) else none
    else ipOfParts rest

def ipOf (addr : List Char) : Option String := ipOfParts ((addr.splitOn '/').drop 1)

def publicIpOf (addr : List Char) : Option String :=
  if Text.contains circuitMark addr then none
  else do
    let raw ← ipOf addr
    let ip ← IpAddr.parse raw.toList
    if ip.isPublic then some raw else none

def relayPart (addr : List Char) : Option (List Char) :=
  (Text.splitOnce circuitMark addr).map Prod.fst

def relayIpOf (addr : List Char) : Option String := (relayPart addr).bind publicIpOf

def relayPeerIdOf (addr : List Char) : Option String := do
  let relay ← relayPart addr
  let (_, id) ← Text.rsplitOnce p2pMark relay
  return String.ofList id

def dnsNameOfParts : List (List Char) → Option String
  | [] => none
  | proto :: rest =>
    if proto ∈ ["dns".toList, "dns4".toList, "dns6".toList, "dnsaddr".toList] then
      rest.head?.map String.ofList
    else dnsNameOfParts rest

def relayDnsOf (addr : List Char) : Option String :=
  (relayPart addr).bind (fun relay => dnsNameOfParts ((relay.splitOn '/').drop 1))

def publicIps (addrs : List String) : List String :=
  addrs.filterMap (fun a => publicIpOf a.toList) ++ addrs.filterMap (fun a => relayIpOf a.toList)

def firstPublicIp (addrs : List String) : Option String := addrs.findSome? (fun a => publicIpOf a.toList)

def firstRelayIp (addrs : List String) : Option String := addrs.findSome? (fun a => relayIpOf a.toList)

def relayDnsNames (addrs : List String) : List String := addrs.filterMap (fun a => relayDnsOf a.toList)

/-- "Via relay", pinned at the relay's coordinates if it has been located. -/
def viaRelayAt (relay : Location) : Location :=
  if relay.status ≠ "success" then Location.viaRelay
  else { relay with city := "Via relay", isp := "Relay: " ++ relay.isp }

/-! ### The cache -/

def batchLimit : Nat := 100

def cacheLimit : Nat := 50000

structure GeoIp where
  cache : HashMap String Location
  dns : HashMap String String
  enabled : Bool
  statics : HashMap String Location

namespace GeoIp

def cached (geo : GeoIp) (ip : String) : Location := (geo.cache.get? ip).getD Location.unknown

def staticFor (geo : GeoIp) (addrs : List String) : Option Location :=
  if geo.statics.isEmpty then none
  else
    let own := (addrs.filter (fun a => !isCircuitAddr a)).findSome? fun a =>
      (ipOf a.toList).bind geo.statics.get?
    own.or
      (((addrs.filterMap (fun a => relayPart a.toList)).findSome? fun relay =>
        (ipOf relay).bind geo.statics.get?).map viaRelayAt)

def locate (geo : GeoIp) (addrs : List String) : Location :=
  match geo.staticFor addrs with
  | some loc => loc
  | none =>
    match firstPublicIp addrs with
    | some ip => geo.cached ip
    | none =>
      let relayIp := (firstRelayIp addrs).or
        (addrs.findSome? fun a => (relayDnsOf a.toList).bind geo.dns.get?)
      match relayIp with
      | some ip => viaRelayAt (geo.cached ip)
      | none => if addrs.any isCircuitAddr then Location.viaRelay else Location.unknown

def sortedDistinct (names : List String) : List String :=
  (names.insertionSort (· ≤ ·)).destutter (· ≠ ·)

def resolveStep (lookupHost : String → Option (List IpAddr)) (state : GeoIp × List String)
    (name : String) : GeoIp × List String :=
  let (geo, out) := state
  match geo.dns.get? name with
  | some ip => (geo, out ++ [ip])
  | none =>
    if !geo.enabled then (geo, out)
    else
      match (lookupHost name).bind (fun resolved => resolved.find? IpAddr.isPublic) with
      | some ip => ({ geo with dns := geo.dns.insert name ip.print }, out ++ [ip.print])
      | none => (geo, out)

def resolveRelays (geo : GeoIp) (lookupHost : String → Option (List IpAddr)) (names : List String) :
    GeoIp × List String :=
  (sortedDistinct names).foldl (resolveStep lookupHost) (geo, [])

structure ApiEntry where
  status : String := ""
  country : String := ""
  city : String := ""
  lat : F64 := 0.0
  lon : F64 := 0.0
  isp : String := ""
  query : String := ""

def ApiEntry.location (e : ApiEntry) : Location :=
  { status := e.status, country := e.country, city := e.city, lat := e.lat, lon := e.lon, isp := e.isp }

def insertEntries (geo : GeoIp) (entries : List ApiEntry) : GeoIp :=
  { geo with cache := entries.foldl (fun cache e => cache.insert e.query e.location) geo.cache }

def fetchAll (fetchBatch : List String → Option (List ApiEntry)) : List (List String) → GeoIp → GeoIp
  | [], geo => geo
  | chunk :: chunks, geo =>
    match fetchBatch chunk with
    | some entries => fetchAll fetchBatch chunks (geo.insertEntries entries)
    | none => geo

def pending (geo : GeoIp) (ips : List String) : List String :=
  sortedDistinct (ips.filter (fun ip => (geo.cache.get? ip).isNone))

def warm (geo : GeoIp) (fetchBatch : List String → Option (List ApiEntry)) (ips : List String) : GeoIp :=
  if !geo.enabled ∨ geo.cache.entries.length ≥ cacheLimit then geo
  else fetchAll fetchBatch ((geo.pending ips).toChunks batchLimit) geo

end GeoIp

end KwaaiNetMap
