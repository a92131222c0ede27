import KwaaiNetMap.Cache.Outage
import KwaaiNetMap.Cache.Process
import KwaaiNetMap.Crawler.Roster

/-!
A pass names the peers its answers carry records of and the connected ones that speak kad, short of the
observer and its bootstraps. What is served lists exactly those the last pass to name anybody named
(`served_population`).
-/

namespace KwaaiNetMap
open Collections

def kadPeers (listPeers : Option (List PeerEntry)) : List String :=
  ((listPeers.getD []).filter fun peer => speaksKwaaiKad peer.protocols).map (·.peerId)

/-- The peers a pass hears of from its bootstraps and its own connections. -/
def heardOf (rmpv : Rmpv) (world : World) (pass : Pass) : List String :=
  let (models, pass) := discoverModels rmpv world.net world.ourDhtid pass
  let (blocks, pass) := blockAnswers world.net world.ourDhtid models pass
  let (capability, _) := capabilityAnswers world.net world.ourDhtid capabilityKeys pass
  (blocks.flatMap fun answer => (recordsOf rmpv answer.2).map (·.peerId)) ++
    (capability.flatMap (capabilityEntries rmpv)).map Prod.fst ++ kadPeers world.listPeers

def Tour.named (d : Deployment) (tour : Tour) : List String :=
  let pass := dialBootstraps tour.world.net d.bootstrapPeers
  if !pass.set.hasDialable then []
  else (heardOf d.rmpv tour.world pass).filter fun id =>
    !(excludedPeers tour.world.localPeerId d.bootstrapPeers).contains id

/-- Those named by the last pass that completed and named anybody. -/
def population (d : Deployment) : CrawlTask → List Tour → List String → List String
  | _, [], held => held
  | task, tour :: tours, held =>
    let next := task.turn d tour
    let named := tour.named d
    population d next tours (if next.alive && !named.isEmpty then named else held)

theorem mem_kadPeers (listPeers : Option (List PeerEntry)) (id : String) :
    id ∈ kadPeers listPeers ↔ ∃ peers, listPeers = some peers ∧
      ∃ peer ∈ peers, peer.peerId = id ∧ speaksKwaaiKad peer.protocols = true := by
  cases listPeers with
  | none => simp [kadPeers]
  | some peers =>
    simp only [kadPeers, Option.getD_some, List.mem_map, List.mem_filter, Option.some.injEq]
    constructor
    · rintro ⟨peer, ⟨member, speaks⟩, same⟩
      exact ⟨peers, rfl, peer, member, same, speaks⟩
    · rintro ⟨listed, rfl, peer, member, same, speaks⟩
      exact ⟨peer, ⟨member, speaks⟩, same⟩

section
variable {rmpv : Rmpv} {order : IterOrder} {base : CrawlInput} {answers : Answers} {capability : List FindResponse}

theorem blockOf_withAnswers (id : String) :
    ((base.withAnswers rmpv order answers capability).blockOf.get? id).isSome = true ↔
      ∃ answer ∈ answers, ∃ r ∈ recordsOf rmpv answer.2, r.peerId = id := by
  rw [blockOf_isSome]
  constructor
  · rintro ⟨model, -, ⟨found, e⟩, member, rfl⟩
    rw [mem_peersOf_withAnswers] at member
    obtain ⟨r, carried, same⟩ := (collected_isSome rmpv _ found).mp (Option.isSome_iff_exists.mpr ⟨e, member⟩)
    obtain ⟨answer, asked, -, carried⟩ := mem_recordsOf_of_under carried
    exact ⟨answer, asked, r, carried, same⟩
  · rintro ⟨answer, asked, r, carried, rfl⟩
    obtain ⟨e, stored⟩ := collected_of_mem rmpv (mem_recordsOf_under asked carried)
    exact ⟨answer.1, List.mem_map_of_mem asked, (r.peerId, e), (mem_peersOf_withAnswers _ _ _).mpr stored, rfl⟩

end

theorem mem_peerIds_heard (rmpv : Rmpv) (order : IterOrder) (bootstrapPeers : List String) (world : World) (geo : GeoIp)
    (pass : Pass) (id : String) :
    id ∈ ((crawlInput order bootstrapPeers world geo (readDht rmpv world pass)).peerIds order).items ↔
      id ∈ heardOf rmpv world pass ∧ (excludedPeers world.localPeerId bootstrapPeers).contains id = false := by
  have kad := crawlInput_kad order bootstrapPeers world geo (readDht rmpv world pass) id
  have input := crawlInput_eq rmpv order bootstrapPeers world geo pass
  rw [mem_peerIds, kad, ← mem_kadPeers]
  refine and_congr_left fun _ => ?_
  rw [input, blockOf_withAnswers, mem_capability_withAnswers, heardOf]
  simp only [List.mem_append, List.mem_flatMap, List.mem_map, or_assoc]
  refine or_congr Iff.rfl (or_congr ?_ Iff.rfl)
  constructor
  · rintro ⟨resp, answered, entry, member, same⟩
    exact ⟨entry, ⟨resp, answered, member⟩, same⟩
  · rintro ⟨entry, ⟨resp, answered, member⟩, same⟩
    exact ⟨resp, answered, entry, member, same⟩

section
variable {d : Deployment} {tour : Tour} {geo : GeoIp} {s : Snapshot}

theorem rows_of_crawl (ran : tour.crawl d geo = some s) (id : String) :
    id ∈ s.peers.map (·.peerId) ↔ id ∈ tour.named d := by
  unfold Tour.named
  rcases crawl_cases ran with ⟨dialable, rfl⟩ | ⟨dialable, built, done, rfl⟩
  · dsimp only
    rw [dialable]
    exact Iff.rfl
  · obtain ⟨-, contributors, -, rfl⟩ := (buildSnapshot_eq_some _ _ _ _ _).mp done
    have heard := mem_peerIds_heard d.rmpv tour.order d.bootstrapPeers tour.world geo
      (dialBootstraps tour.world.net d.bootstrapPeers) id
    change id ∈ (CrawlInput.peerRows _ tour.order).map (·.peerId) ↔ _
    rw [CrawlInput.peerRows, List.map_map]
    refine (List.mem_map.trans ⟨?_, ?_⟩).trans (heard.trans ?_)
    · rintro ⟨other, listed, rfl⟩
      exact listed
    · exact fun listed => ⟨id, listed, rfl⟩
    · simp [dialable, List.mem_filter]

end

/-! ### Over a run -/

/-- The cache shows `held`, in the document and in the node list. -/
structure Shows (held : List String) (cache : NodeCache) : Prop where
  counted : cache.snapshot.numPeers = cache.snapshot.peers.length
  peers : ∀ id, id ∈ cache.snapshot.peers.map (·.peerId) ↔ id ∈ held
  nodes : cache.nodes.map (·.peerId) = cache.snapshot.peers.map (·.peerId)

theorem nodeEntries_ids (s : Snapshot) : (nodeEntries s).map (·.peerId) = s.peers.map (·.peerId) := by
  rw [nodeEntries, List.map_map]
  rfl

theorem Shows.publish {d : Deployment} {tour : Tour} {geo : GeoIp} {fresh : Snapshot} {cache : NodeCache}
    {held : List String} (shows : Shows held cache) (ran : tour.crawl d geo = some fresh) :
    Shows (if !(tour.named d).isEmpty then tour.named d else held) (cache.publish fresh) := by
  have rows := rows_of_crawl ran
  have counted := (coherent_of_crawl ran).counted
  have served : (cache.publish fresh).snapshot = mergeCrawl cache.snapshot fresh := rfl
  refine ⟨?_, ?_, nodeEntries_ids _⟩
  · rw [served, mergeCrawl]
    split
    · exact counted
    · exact shows.counted
  intro id
  rw [served, mergeCrawl]
  cases named : tour.named d with
  | nil =>
    have none : fresh.peers = [] := by
      refine List.eq_nil_iff_forall_not_mem.mpr fun row member => ?_
      have heard := (rows row.peerId).mp (List.mem_map_of_mem member)
      rw [named] at heard
      cases heard
    split
    · rename_i replaces
      have empty : cache.snapshot.peers = [] := by
        refine List.eq_nil_of_length_eq_zero ?_
        rw [counted, none, shows.counted] at replaces
        simpa using replaces
      have nobody := shows.peers id
      rw [empty] at nobody
      rw [none]
      exact nobody
    · exact shows.peers id
  | cons first others =>
    have some_row : fresh.numPeers > 0 := by
      obtain ⟨row, member, -⟩ := List.mem_map.mp ((rows first).mpr (named ▸ List.mem_cons_self))
      rw [counted]
      exact List.length_pos_of_mem member
    rw [if_pos (Or.inl some_row), rows, named]
    rfl

theorem shows_run {d : Deployment} {task : CrawlTask} {held : List String} (shows : Shows held task.cache)
    (tours : List Tour) : Shows (population d task tours held) (runCrawler d task tours).cache := by
  induction tours generalizing task held with
  | nil => exact shows
  | cons tour tours ih =>
    refine ih ?_
    rcases turn_cases d task tour with ⟨fresh, -, ran, step⟩ | died
    · rw [step]
      exact shows.publish ran
    · rw [died]
      exact shows

/-- Over every run, the peers served are those named by the last pass that completed and named anybody. -/
theorem served_population (d : Deployment) (now : DateTime) (geo : GeoIp) (tours : List Tour) (id : String) :
    let start := CrawlTask.start now geo
    let cache := (runCrawler d start tours).cache
    (id ∈ cache.snapshot.peers.map (·.peerId) ↔ id ∈ population d start tours []) ∧
      (id ∈ cache.nodes.map (·.peerId) ↔ id ∈ population d start tours []) := by
  intro start cache
  have blank : Shows [] start.cache := ⟨rfl, fun id => Iff.rfl, rfl⟩
  have shows := shows_run (d := d) blank tours
  exact ⟨shows.peers id, by rw [shows.nodes]; exact shows.peers id⟩

end KwaaiNetMap
