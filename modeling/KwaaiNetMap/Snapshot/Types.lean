import KwaaiNetMap.Dht.Value
import KwaaiNetMap.Text.Slice

/-!
The wire types of a crawl snapshot and the peer id abbreviation of its rows.
-/

namespace KwaaiNetMap
open Numeric

abbrev DateTime := Int

structure ServerInfo where
  /-- `offline`, `joining`, `online` or `unknown`. -/
  state : String := ""
  throughput : F64 := 0.0
  startBlock : Int := 0
  endBlock : Int := 0
  publicName : Option String := none
  version : Option String := none
  networkRps : Option F64 := none
  forwardRps : Option F64 := none
  inferenceRps : Option F64 := none
  torchDtype : Option String := none
  quantType : Option String := none
  usingRelay : Option Bool := none
  cacheTokensLeft : Option Int := none
  shardLoading : Option Bool := none
  vpk : Option Json := none
  trustAttestations : Nat := 0
  peerId : Option String := none

structure Location where
  status : String
  country : String := ""
  city : String := ""
  lat : F64 := 0.0
  lon : F64 := 0.0
  isp : String := ""
  deriving DecidableEq

def Location.unknown : Location := { status := "fail" }

def Location.viaRelay : Location :=
  { status := "fail", country := "Unknown", city := "Via relay", isp := "Relay" }

structure PeerIpInfo where
  location : Location := Location.unknown
  multiaddrs : List String := []
  reachability : Option String := none
  deriving DecidableEq

structure PeerSpan where
  peerId : String
  start : Int
  stop : Int
  serverInfo : ServerInfo

structure ServerRow where
  peerId : String
  shortPeerId : String
  showPublicName : Bool
  state : String
  peerIpInfo : PeerIpInfo
  span : PeerSpan

structure ModelReport where
  name : String
  shortName : String
  dhtPrefix : String
  repository : String
  numBlocks : Int
  /-- `healthy` when every block has at least one online server, else `broken`. -/
  state : String
  serverRows : List ServerRow

structure Contributor where
  peerId : String
  publicName : Option String
  throughput : F64
  blocks : Int
  deriving DecidableEq

structure ReachabilityIssue where
  peerId : String
  err : String
  deriving DecidableEq

structure BlockSpan where
  start : Int
  stop : Int
  deriving DecidableEq

structure PeerRow where
  peerId : String
  shortPeerId : String
  publicName : Option String
  version : Option String
  state : String
  shardLoading : Bool
  model : Option String
  span : Option BlockSpan
  throughput : F64
  usingRelay : Option Bool
  vpk : Option Json
  trustAttestations : Nat
  peerIpInfo : PeerIpInfo
  kad : Bool
  announced : Bool

/-- The whole document, and the cache's unit of replacement. -/
structure Snapshot where
  bootstrapStates : List String := []
  modelReports : List ModelReport := []
  numPeers : Nat := 0
  numBlocksCovered : Nat := 0
  topContributors : List Contributor := []
  reachabilityIssues : List ReachabilityIssue := []
  lastUpdated : DateTime
  updatePeriod : Nat := 0
  updateDuration : F64 := 0.0
  staleSince : Option DateTime := none
  crawlsHeld : UInt32 := 0
  peers : List PeerRow := []

def Snapshot.default (now : DateTime) : Snapshot := { lastUpdated := now }

/-- `...` and the last six bytes, for ids over ten bytes; absent where the cut would fall inside a
character, which traps. -/
def shortPeerId (peerId : String) : Option String :=
  let len := Text.byteLen peerId.toList
  if len > 10 then
    (Text.sliceFrom peerId.toList (len - 6)).map (fun tail => "..." ++ String.ofList tail)
  else some peerId

def Sliceable (peerId : String) : Prop :=
  Text.byteLen peerId.toList ≤ 10 ∨
    Text.IsBoundary peerId.toList (Text.byteLen peerId.toList - 6)

instance (peerId : String) : Decidable (Sliceable peerId) := inferInstanceAs (Decidable (_ ∨ _))

theorem shortPeerId_isSome (peerId : String) : (shortPeerId peerId).isSome = true ↔ Sliceable peerId := by
  unfold shortPeerId Sliceable
  dsimp only
  split
  · rename_i long
    rw [Option.isSome_map, Text.sliceFrom_isSome]
    exact ⟨Or.inr, fun either => either.resolve_left (by omega)⟩
  · rename_i short
    simp only [Option.isSome_some, true_iff]
    exact Or.inl (by omega)

def abbreviated (peerId : String) : String := (shortPeerId peerId).getD ""

theorem shortPeerId_of_sliceable {peerId : String} (ok : Sliceable peerId) :
    shortPeerId peerId = some (abbreviated peerId) := by
  obtain ⟨short, found⟩ := Option.isSome_iff_exists.mp ((shortPeerId_isSome peerId).mpr ok)
  rw [abbreviated, found]
  rfl

theorem shortPeerId_of_not_sliceable {peerId : String} (bad : ¬ Sliceable peerId) :
    shortPeerId peerId = none := by
  rw [← shortPeerId_isSome] at bad
  simpa using bad

end KwaaiNetMap
