import KwaaiNetMap.Cache.Population
import KwaaiNetMap.Cache.ReadBack
import KwaaiNetMap.Page.Shell

/-!
A crawler serves, a page fetches. However the crawler came to what it serves and whatever was done to the page,
the view in front shows each peer of the population once, as the text of the document has it (`network_shown`).
-/

namespace KwaaiNetMap.Page
open Collections Systems

section
variable (engine : Engine) (text : WireText) (served : Snapshot)

def rowOf (p : PeerRow) : Row := ofPeer (peerOf text p)

/-- The view in front has the peers of the document, each once: in a circle or counted by the chip, while the map has
a size, in a row, or in a node of the topology, where no name clash cut that short and its timeout is over. -/
def ShowsEach (s : Shell) : Prop :=
  match s.active with
  | .map =>
    s.sized = true →
      s.drawing.chip = chipFor engine.toBrowser s.drawing.unlocated.nodes.length ∧
        (s.drawing.circles.flatMap (fun circle : Circle => circle.site.nodes) ++ s.drawing.unlocated.nodes).Perm
          (served.peers.map fun p => (rowOf text p).node)
  | .table => s.table.tableData = served.peers.map fun p => tableRow engine p.peerId (rowOf text p)
  | .topology =>
    0 < s.redraws ∨ Clash (documentOf text served) ∨
      ∃ seats : List (String × Row × Nat), (seats.map fun seat => seat.2.1).Perm (served.peers.map (rowOf text)) ∧
        (s.topology.nodes.filter fun node => node.level = 2).map VisNode.unplaced = seats.map fun seat =>
          serverNode engine.toBrowser (documentOf text served) seat.1 seat.2.1.server seat.2.2

variable {engine text served}

theorem identifiedRows_documentOf :
    identifiedRows (documentOf text served) = served.peers.map fun p => (p.peerId, rowOf text p) := List.map_map

theorem peerRows_documentOf : peerRows (documentOf text served) = served.peers.map (rowOf text) := by
  rw [← identifiedRows_rows, identifiedRows_documentOf, List.map_map]
  rfl

theorem tableRows_documentOf :
    tableRows engine (documentOf text served) = served.peers.map fun p => tableRow engine p.peerId (rowOf text p) := by
  rw [tableRows, identifiedRows_documentOf, List.map_map]
  rfl

theorem level_alike {graph other : Topology} (alike : Alike graph other) :
    (graph.nodes.filter fun node => node.level = 2).map VisNode.unplaced =
      (other.nodes.filter fun node => node.level = 2).map VisNode.unplaced := by
  have swap (nodes : List VisNode) : (nodes.filter fun node => node.level = 2).map VisNode.unplaced =
      (nodes.map VisNode.unplaced).filter fun node => node.level = 2 := by
    rw [List.filter_map]
    rfl
  rw [swap, swap, alike.nodes]

theorem seats_of_view (browser : Browser) (data : Document) (apart : ¬ Clash data) :
    ((documentedView data browser []).nodes.filter fun node => node.level = 2).map VisNode.unplaced =
      (numbered data).map fun seat => serverNode browser data seat.1 seat.2.1.server seat.2.2 := by
  have same : keepPlace [] = id := funext fun node => rfl
  rw [view_nodes, if_pos ((all_free_iff data).mpr apart), admitted_all data apart, same, List.map_id, graphOf_nodes,
    List.filter_append]
  have upper : (bootstrapNodes ++
      (modelNames data).flatMap (fun name => [apiNode data "1" name, apiNode data "2" name]) ++
      (modelNames data).map modelNode).filter (fun node => node.level = 2) = [] := by
    refine List.filter_eq_nil_iff.mpr fun node member => ?_
    simp only [List.mem_append, List.mem_flatMap, List.mem_map, List.mem_cons, List.not_mem_nil, or_false,
      bootstrapNodes] at member
    rcases member with ((rfl | rfl) | ⟨name, -, rfl | rfl⟩) | ⟨name, -, rfl⟩ <;> simp [apiNode, modelNode]
  have lower : ((numbered data).map fun seat => serverNode browser data seat.1 seat.2.1.server seat.2.2).filter
      (fun node => node.level = 2) =
        (numbered data).map fun seat => serverNode browser data seat.1 seat.2.1.server seat.2.2 := by
    refine List.filter_eq_self.mpr fun node member => ?_
    obtain ⟨seat, -, rfl⟩ := List.mem_map.mp member
    exact decide_eq_true rfl
  rw [upper, lower, List.nil_append, List.map_map]
  rfl

theorem showsEach_of_inView {vis : DataSet} (documented : vis.Documented) {s : Shell}
    (inView : InView engine vis s.active s (documentOf text served)) : ShowsEach engine text served s := by
  unfold ShowsEach
  cases front : s.active with
  | map =>
    rw [front] at inView
    intro sized
    have drawn : s.drawing = updateMapView engine.toBrowser s.expanded (documentOf text served) := inView sized
    rw [drawn]
    refine ⟨chip_eq engine.toBrowser s.expanded (documentOf text served), ?_⟩
    have perm := drawn_perm engine.toBrowser s.expanded (documentOf text served)
    rwa [peerRows_documentOf, List.map_map] at perm
  | table =>
    rw [front] at inView
    exact inView.trans tableRows_documentOf
  | topology =>
    rw [front] at inView
    rcases inView with pending | alike
    · exact Or.inl pending
    · rw [updateNetworkView_eq _ _ _ documented] at alike
      refine Or.inr ?_
      by_cases apart : Clash (documentOf text served)
      · exact Or.inl apart
      · exact Or.inr ⟨numbered (documentOf text served), peerRows_documentOf ▸ numbered_perm _,
          (level_alike alike).trans (seats_of_view engine.toBrowser _ apart)⟩

end

theorem ascending_run (d : Deployment) (task : CrawlTask) (tours : List Tour)
    (ascending : (task.cache.snapshot.peers.map (·.peerId)).Pairwise (· < ·)) :
    ((runCrawler d task tours).cache.snapshot.peers.map (·.peerId)).Pairwise (· < ·) := by
  refine runCrawler_keeps (I := fun cache => (cache.snapshot.peers.map (·.peerId)).Pairwise (· < ·)) ?_ ascending
  intro tour member geo cache crawl ascending ran
  show ((mergeCrawl cache.snapshot crawl).peers.map (·.peerId)).Pairwise (· < ·)
  unfold mergeCrawl
  split
  · exact (coherent_of_crawl ran).ascending
  · exact ascending

/-- However the crawler came to what it serves, and whatever was done to the page before and after it fetched that:
the document lists each peer that the last pass to name anybody named, once and nobody else, and the view in front
has each of them once. -/
theorem network_shown (d : Deployment) (now : DateTime) (geo : GeoIp) (tours : List Tour) (text : WireText)
    (engine : Engine) {vis : DataSet} (documented : vis.Documented) (fragment search : String) (refreshEnabled : Bool)
    (interval : Nat) (sized : Bool) {events : List PageEvent} {s : Shell} {data : Fetched}
    (ran : Systems.run (pageStep engine vis) (Shell.loaded engine fragment search refreshEnabled interval sized)
      events = some s)
    (last : lastArrived events = some data)
    (fetched : Fetched.ofJson
      (text.carried ((runCrawler d (CrawlTask.start now geo) tours).cache.snapshot.toJson text)) = some data) :
    let served := (runCrawler d (CrawlTask.start now geo) tours).cache.snapshot
    (served.peers.map (·.peerId)).Nodup ∧
      (∀ id, id ∈ served.peers.map (·.peerId) ↔ id ∈ population d (CrawlTask.start now geo) tours []) ∧
      ShowsEach engine text served s := by
  intro served
  have ascending : (served.peers.map (·.peerId)).Pairwise (· < ·) :=
    ascending_run d (CrawlTask.start now geo) tours List.Pairwise.nil
  have blank : Shows [] (CrawlTask.start now geo).cache := ⟨rfl, fun id => Iff.rfl, rfl⟩
  refine ⟨ascending.imp fun less => ne_of_lt less, (shows_run (d := d) blank tours).peers, ?_⟩
  obtain ⟨current, shown, -⟩ := page_run engine fragment search refreshEnabled interval sized documented ran
  have same : data = fetchedOf text served := Option.some.inj (fetched.symm.trans (fetched_served served))
  have inView := shown data (current.trans last)
  rw [same] at inView
  exact showsEach_of_inView documented inView

theorem network_shown_one_pass :
    let engine : Engine :=
      { number := Int.repr, decimal := fun _ => "", toFixed := fun _ _ => "", inherited := fun _ => none
        toLowerCase := String.toLower, parseFloat := fun _ => 0 }
    let d : Deployment :=
      { overflowChecks := true, rmpv := Rmpv.ofTable []
        bootstrapPeers := ["/ip4/203.0.113.7/tcp/8000/p2p/QmBootstrap"] }
    let world : World := { World.scripted [] with networkSnapshot := some ([], ["QmPeer"]) }
    let served := (runCrawler d (CrawlTask.start 0 .disabled) [⟨.insertion, world⟩]).cache.snapshot
    ∃ s, Systems.run (pageStep engine .listed) (Shell.loaded engine "table" "" true 5000 true)
        [.arrived (fetchedOf .tally served)] = some s ∧
      ShowsEach engine .tally served s := by
  intro engine d world served
  have ran : Systems.run (pageStep engine .listed) (Shell.loaded engine "table" "" true 5000 true)
      [.arrived (fetchedOf .tally served)] = some _ := rfl
  exact ⟨_, ran, (network_shown d 0 .disabled [⟨.insertion, world⟩] .tally engine DataSet.listed_documented "table" ""
    true 5000 true ran rfl (fetched_served served)).2.2⟩

end KwaaiNetMap.Page
