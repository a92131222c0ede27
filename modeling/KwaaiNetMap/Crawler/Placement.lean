import KwaaiNetMap.Crawler.Completion

/-!
The addresses a peer was seen on reach the document only through the placement of its rows. One document
built twice, from two lists of source addresses of one peer, is the same exactly when every row is placed
the same (`withSource_built_iff`).
-/

namespace KwaaiNetMap
open Collections

def CrawlInput.withSource (input : CrawlInput) (q : String) (sources : List String) : CrawlInput :=
  { input with addrs := input.addrs.mapValues fun id o => if id = q then { o with addrs := sources } else o }

section
variable (input : CrawlInput)

def CrawlInput.recordOf (id : String) : Option ServerInfo :=
  ((input.blockOf.get? id).map fun b => b.2.info).or (input.capabilityPeers.get? id)

def CrawlInput.placements (order : IterOrder) : List (String × Option Bool) :=
  (input.listings.map fun listing => (listing.2.1, listing.2.2.info.usingRelay)) ++
    (input.peerIds order).items.map fun id => (id, (input.recordOf id).bind fun info => info.usingRelay)

def CrawlInput.place (row : String × Option Bool) : PeerIpInfo :=
  peerIpInfoFor (input.addrs.get? row.1) row.2 input.geo input.known

/-! ### What the addresses do not reach -/

variable (q : String) (sources : List String)

theorem get?_withSource (id : String) :
    (input.withSource q sources).addrs.get? id =
      (input.addrs.get? id).map fun o => if id = q then { o with addrs := sources } else o :=
  HashMap.get?_mapValues input.addrs _ id

theorem peerIds_withSource (order : IterOrder) : (input.withSource q sources).peerIds order = input.peerIds order := by
  have kad : ((input.withSource q sources).addrs.entries.filter fun e => e.2.kwaaiKad).map Prod.fst =
      (input.addrs.entries.filter fun e => e.2.kwaaiKad).map Prod.fst := by
    change ((input.addrs.entries.map fun e : String × Observed =>
      (e.1, if e.1 = q then { e.2 with addrs := sources } else e.2)).filter fun e => e.2.kwaaiKad).map Prod.fst = _
    rw [List.filter_map, List.map_map]
    congr 1
    apply List.filter_congr
    intro e _
    dsimp only [Function.comp_apply]
    split <;> rfl
  rw [CrawlInput.peerIds, kad]
  rfl

theorem rowOf_withSource (peer : String × PeerModelEntry) :
    rowOf (input.withSource q sources) peer =
      { rowOf input peer with
        peerIpInfo := (input.withSource q sources).place (peer.1, peer.2.info.usingRelay) } := rfl

theorem peerRowAs_withSource (id short : String) :
    peerRowAs (input.withSource q sources) (input.withSource q sources).known id short =
      { peerRowAs input input.known id short with
        peerIpInfo := (input.withSource q sources).place
          (id, (input.recordOf id).bind fun info => info.usingRelay) } := by
  have version : ((input.withSource q sources).addrs.get? id).bind (·.agentVersion) =
      (input.addrs.get? id).bind (·.agentVersion) := by
    rw [get?_withSource]
    cases input.addrs.get? id with
    | none => rfl
    | some o => dsimp only [Option.map_some, Option.bind_some]; split <;> rfl
  have kad : ((input.withSource q sources).addrs.get? id).map (·.kwaaiKad) =
      (input.addrs.get? id).map (·.kwaaiKad) := by
    rw [get?_withSource]
    cases input.addrs.get? id with
    | none => rfl
    | some o => dsimp only [Option.map_some]; split <;> rfl
  simp only [peerRowAs, version, kad]
  rfl

/-! ### One document, two sources -/

theorem forall_placements (order : IterOrder) (P : String × Option Bool → Prop) :
    (∀ row ∈ input.placements order, P row) ↔
      (∀ model ∈ input.models, ∀ peer ∈ input.peersOf model, P (peer.1, peer.2.info.usingRelay)) ∧
      ∀ id ∈ (input.peerIds order).items, P (id, (input.recordOf id).bind fun info => info.usingRelay) := by
  simp only [CrawlInput.placements, CrawlInput.listings, List.forall_mem_append, List.forall_mem_map,
    List.forall_mem_flatMap]

variable {input q sources}

theorem reports_withSource_iff :
    (input.withSource q sources).reports = input.reports ↔
      ∀ model ∈ input.models, ∀ peer ∈ input.peersOf model,
        (input.withSource q sources).place (peer.1, peer.2.info.usingRelay) =
          input.place (peer.1, peer.2.info.usingRelay) := by
  constructor
  · intro same model read peer member
    have listed : model ∈ input.listed := mem_listed.mpr ⟨read, peer, member⟩
    have shown : reportOf input model ∈ (input.withSource q sources).reports := by
      rw [same]
      exact mem_reports.mpr ⟨model, listed, rfl⟩
    obtain ⟨other, -, report⟩ := mem_reports.mp shown
    have row : rowOf input peer ∈ (reportOf (input.withSource q sources) other).serverRows := by
      rw [report]
      exact mem_serverRows.mpr ⟨peer, member, rfl⟩
    obtain ⟨twin, -, row⟩ := mem_serverRows.mp row
    rw [rowOf_withSource] at row
    have id : twin.1 = peer.1 := congrArg ServerRow.peerId row
    have info : twin.2.info = peer.2.info := congrArg (fun r : ServerRow => r.span.serverInfo) row
    have placed := congrArg ServerRow.peerIpInfo row
    dsimp only at placed
    rw [id, info] at placed
    exact placed
  · intro same
    have report : ∀ model ∈ input.listed, reportOf (input.withSource q sources) model = reportOf input model := by
      intro model listed
      have rows : (input.peersOf model).map (rowOf (input.withSource q sources)) =
          (input.peersOf model).map (rowOf input) := by
        apply List.map_congr_left
        intro peer member
        rw [rowOf_withSource, same model (mem_listed.mp listed).1 peer member]
        rfl
      change modelReport model _ ((input.peersOf model).map (rowOf (input.withSource q sources))) = _
      rw [rows]
      rfl
    change (input.listed.map (reportOf (input.withSource q sources))).insertionSort reportBefore = _
    rw [List.map_congr_left report]
    rfl

theorem peerRows_withSource_iff (order : IterOrder) :
    (input.withSource q sources).peerRows order = input.peerRows order ↔
      ∀ id ∈ (input.peerIds order).items,
        (input.withSource q sources).place (id, (input.recordOf id).bind fun info => info.usingRelay) =
          input.place (id, (input.recordOf id).bind fun info => info.usingRelay) := by
  rw [CrawlInput.peerRows, CrawlInput.peerRows, peerIds_withSource, List.map_inj_left]
  apply forall_congr'
  intro id
  apply forall_congr'
  intro _
  rw [peerRowAs_withSource]
  constructor
  · intro same
    exact congrArg PeerRow.peerIpInfo same
  · intro same
    rw [same]
    rfl

theorem withSource_built_iff {overflowChecks : Bool} {order : IterOrder} {now : DateTime} {s : Snapshot}
    (built : buildSnapshot overflowChecks order now input = some s) :
    buildSnapshot overflowChecks order now (input.withSource q sources) = some s ↔
      ∀ row ∈ input.placements order, (input.withSource q sources).place row = input.place row := by
  rw [forall_placements, ← reports_withSource_iff, ← peerRows_withSource_iff, buildSnapshot_eq_some]
  obtain ⟨⟨models, ids⟩, contributors, top, document⟩ := (buildSnapshot_eq_some ..).mp built
  constructor
  · rintro ⟨-, twins, -, again⟩
    rw [document] at again
    exact ⟨(congrArg Snapshot.modelReports again).symm, (congrArg Snapshot.peers again).symm⟩
  · rintro ⟨reports, rows⟩
    refine ⟨⟨models, ?_⟩, contributors, ?_, ?_⟩
    · rw [peerIds_withSource]
      exact ids
    · rw [reports]
      exact top
    · rw [document, CrawlInput.document, CrawlInput.document, reports, rows]
      rfl

end

end KwaaiNetMap
