import KwaaiNetMap.Collections.BTree
import KwaaiNetMap.Collections.Trapping
import KwaaiNetMap.Collections.Ranking
import KwaaiNetMap.Collections.StableSort
import KwaaiNetMap.Collections.Leading
import KwaaiNetMap.Collections.Chunks
import KwaaiNetMap.Collections.Fields
import KwaaiNetMap.Collections.Grouping
import KwaaiNetMap.Collections.Paging
import KwaaiNetMap.Collections.Bitmap
import KwaaiNetMap.Systems.Memo
import KwaaiNetMap.Systems.Pool
import KwaaiNetMap.Systems.Runs
import KwaaiNetMap.Text.Slice
import KwaaiNetMap.Text.Search
import KwaaiNetMap.Numeric.Machine
import KwaaiNetMap.Numeric.Binary64
import KwaaiNetMap.Numeric.TotalOrder
import KwaaiNetMap.Dht.Value
import KwaaiNetMap.Snapshot.Types
import KwaaiNetMap.Snapshot.Json
import KwaaiNetMap.Snapshot.ReadBack
import KwaaiNetMap.Dht.Records
import KwaaiNetMap.Dht.Announcement
import KwaaiNetMap.Dht.Wire
import KwaaiNetMap.Dht.Sha1
import KwaaiNetMap.Geoip.IpAddr
import KwaaiNetMap.Geoip.Locate
import KwaaiNetMap.Geoip.RoundTrip
import KwaaiNetMap.Geoip.Ranges
import KwaaiNetMap.Crawler.Bootstrap
import KwaaiNetMap.Crawler.Queries
import KwaaiNetMap.Crawler.Observed
import KwaaiNetMap.Crawler.Assemble
import KwaaiNetMap.Crawler.Document
import KwaaiNetMap.Crawler.Pass
import KwaaiNetMap.Cache.Publish
import KwaaiNetMap.Cache.Hold
import KwaaiNetMap.Cache.Stats
import KwaaiNetMap.Crawler.Registry
import KwaaiNetMap.Crawler.Records
import KwaaiNetMap.Crawler.Gather
import KwaaiNetMap.Crawler.Silence
import KwaaiNetMap.Crawler.Scripted
import KwaaiNetMap.Crawler.Completion
import KwaaiNetMap.Crawler.Coverage
import KwaaiNetMap.Crawler.Placement
import KwaaiNetMap.Crawler.Dialing
import KwaaiNetMap.Crawler.Discovery
import KwaaiNetMap.Crawler.Egress
import KwaaiNetMap.Reachability.Probe
import KwaaiNetMap.Reachability.Interference
import KwaaiNetMap.Reachability.Requests
import KwaaiNetMap.Cache.Denominator
import KwaaiNetMap.Cache.Outage
import KwaaiNetMap.Cache.Population
import KwaaiNetMap.Cache.Process
import KwaaiNetMap.Cache.Agreement
import KwaaiNetMap.Geoip.Provider
import KwaaiNetMap.Geoip.Budget
import KwaaiNetMap.Geoip.Sourced
import KwaaiNetMap.Cache.Readers
import KwaaiNetMap.Crawler.Health
import KwaaiNetMap.Crawler.Capability
import KwaaiNetMap.Crawler.Roster
import KwaaiNetMap.Crawler.Rearranged
import KwaaiNetMap.Crawler.HashOrder
import KwaaiNetMap.Cache.ReadBack
import KwaaiNetMap.Crawler.Servers
import KwaaiNetMap.Dht.Negotiation
import KwaaiNetMap.Dht.FindNode
import KwaaiNetMap.Text.Html
import KwaaiNetMap.Page.Popup
import KwaaiNetMap.Page.Rewording
import KwaaiNetMap.Page.Shell
import KwaaiNetMap.Page.Sorting
import KwaaiNetMap.Page.Map
import KwaaiNetMap.Page.Markup
import KwaaiNetMap.Page.Table
import KwaaiNetMap.Page.Topology
import KwaaiNetMap.Crawler.PeerIds
import KwaaiNetMap.Crawler.Classify
import KwaaiNetMap.Crawler.Relayed
import KwaaiNetMap.Geoip.Pins
import KwaaiNetMap.Geoip.Offered
import KwaaiNetMap.Crawler.Copies
import KwaaiNetMap.Crawler.ModelView
import KwaaiNetMap.Crawler.Coherence
import KwaaiNetMap.Crawler.Contributors
import KwaaiNetMap.Crawler.Traffic
import KwaaiNetMap.Crawler.Vpk
import KwaaiNetMap.Crawler.ModelNames
import KwaaiNetMap.Routes.Metrics
import KwaaiNetMap.Routes.Serving
import KwaaiNetMap.Page.Network
