import KwaaiNetMap.Snapshot.Types

/-!
`mergeCrawl` decides whether a fresh crawl replaces the served snapshot or the served one is held;
`NodeCache` keeps the outcome and the flat node list derived from it.
-/

namespace KwaaiNetMap
open Numeric

/-- What to serve, given a fresh crawl and what is currently served. The count wraps, as in a build without overflow
checks. -/
def mergeCrawl (served fresh : Snapshot) : Snapshot :=
  if fresh.numPeers > 0 ∨ served.numPeers = 0 then fresh
  else
    { served with
      bootstrapStates := fresh.bootstrapStates
      updatePeriod := fresh.updatePeriod
      updateDuration := fresh.updateDuration
      staleSince := served.staleSince.or (some served.lastUpdated)
      crawlsHeld := served.crawlsHeld + 1 }

/-- `mergeCrawl` where the build may check the count for overflow; a build that does panics at the top of it. -/
def mergeCrawl? (overflowChecks : Bool) (served fresh : Snapshot) : Option Snapshot :=
  if fresh.numPeers > 0 ∨ served.numPeers = 0 then some fresh
  else do
    let crawlsHeld ← u32Result overflowChecks (served.crawlsHeld.toNat + 1)
    return {
      served with
      bootstrapStates := fresh.bootstrapStates
      updatePeriod := fresh.updatePeriod
      updateDuration := fresh.updateDuration
      staleSince := served.staleSince.or (some served.lastUpdated)
      crawlsHeld }

theorem mergeCrawl?_cases (overflowChecks : Bool) (served fresh : Snapshot) :
    mergeCrawl? overflowChecks served fresh = some (mergeCrawl served fresh) ∨
      mergeCrawl? overflowChecks served fresh = none ∧ UInt32.size ≤ served.crawlsHeld.toNat + 1 := by
  have wraps : UInt32.ofNat (served.crawlsHeld.toNat + 1) = served.crawlsHeld + 1 := by simp [UInt32.ofNat_add]
  unfold mergeCrawl? mergeCrawl u32Result
  rw [wraps]
  split
  · exact Or.inl rfl
  · split
    · exact Or.inl rfl
    · rename_i full
      cases overflowChecks with
      | true => exact Or.inr ⟨rfl, Nat.le_of_not_lt full⟩
      | false => exact Or.inl rfl

structure NodeEntry where
  peerId : String
  trustTier : String
  startBlock : Nat
  endBlock : Nat
  throughput : F64
  publicName : String
  version : String
  vpk : Bool
  lastSeen : DateTime
  deriving DecidableEq

def NodeEntry.isActive (n : NodeEntry) : Bool := n.throughput > 0.0

def tierFromVcCount (count : Nat) : String :=
  if count = 0 then "Unknown"
  else if count ≤ 2 then "Known"
  else if count ≤ 4 then "Verified"
  else "Trusted"

def nodeEntries (snapshot : Snapshot) : List NodeEntry :=
  snapshot.peers.map fun p =>
    { peerId := p.peerId
      trustTier := tierFromVcCount p.trustAttestations
      startBlock := (p.span.map fun s => s.start.toNat).getD 0
      endBlock := (p.span.map fun s => s.stop.toNat).getD 0
      throughput := p.throughput
      publicName := p.publicName.getD ""
      version := p.version.getD ""
      vpk := p.vpk.isSome
      lastSeen := snapshot.lastUpdated }

structure NodeCache where
  snapshot : Snapshot
  nodes : List NodeEntry

def NodeCache.new (now : DateTime) : NodeCache := { snapshot := Snapshot.default now, nodes := [] }

def NodeCache.publish (cache : NodeCache) (snapshot : Snapshot) : NodeCache :=
  let served := mergeCrawl cache.snapshot snapshot
  { snapshot := served, nodes := nodeEntries served }

def NodeCache.publish? (overflowChecks : Bool) (cache : NodeCache) (snapshot : Snapshot) : Option NodeCache :=
  (mergeCrawl? overflowChecks cache.snapshot snapshot).map fun served =>
    { snapshot := served, nodes := nodeEntries served }

theorem NodeCache.publish?_cases (overflowChecks : Bool) (cache : NodeCache) (fresh : Snapshot) :
    cache.publish? overflowChecks fresh = some (cache.publish fresh) ∨
      cache.publish? overflowChecks fresh = none ∧ UInt32.size ≤ cache.snapshot.crawlsHeld.toNat + 1 := by
  rcases mergeCrawl?_cases overflowChecks cache.snapshot fresh with merged | ⟨panics, full⟩
  · refine Or.inl ?_
    rw [publish?, merged]
    rfl
  · refine Or.inr ⟨?_, full⟩
    rw [publish?, panics]
    rfl

end KwaaiNetMap
