import KwaaiNetMap.Cache.Hold
import KwaaiNetMap.Crawler.Coherence
import KwaaiNetMap.Crawler.Health
import KwaaiNetMap.Crawler.Registry

/-!
`run_crawler` makes one pass after another with one geolocation state, and publishes what each read. A pass
that traps ends the task, and the server goes on serving what was published last. Whatever the networks
answer and however the hash maps iterate, every document served is coherent (`served_coherent`).
-/

namespace KwaaiNetMap
open Collections

structure Deployment where
  overflowChecks : Bool
  rmpv : Rmpv
  bootstrapPeers : List String

/-- What one pass meets: the world, and how its hash maps iterate. -/
structure Tour where
  order : IterOrder
  world : World

structure CrawlTask where
  cache : NodeCache
  geo : GeoIp
  alive : Bool

namespace CrawlTask

def start (now : DateTime) (geo : GeoIp) : CrawlTask := { cache := NodeCache.new now, geo, alive := true }

end CrawlTask

def geoAfter (d : Deployment) (tour : Tour) (geo : GeoIp) : GeoIp :=
  if !(dialBootstraps tour.world.net d.bootstrapPeers).set.hasDialable then geo
  else warmedGeo tour.world geo ((observedAddrs tour.world.listPeers).reorder tour.order)

def Tour.crawl (d : Deployment) (tour : Tour) (geo : GeoIp) : Option Snapshot :=
  crawlOnce d.overflowChecks tour.order d.rmpv d.bootstrapPeers tour.world geo

def CrawlTask.turn (d : Deployment) (task : CrawlTask) (tour : Tour) : CrawlTask :=
  if !task.alive then task
  else
    match (tour.crawl d task.geo).bind (task.cache.publish? d.overflowChecks) with
    | some cache => { cache, geo := geoAfter d tour task.geo, alive := true }
    | none => { task with alive := false }

def runCrawler (d : Deployment) (task : CrawlTask) (tours : List Tour) : CrawlTask :=
  tours.foldl (CrawlTask.turn d) task

theorem turn_cases (d : Deployment) (task : CrawlTask) (tour : Tour) :
    (∃ snapshot, task.alive = true ∧ tour.crawl d task.geo = some snapshot ∧
      task.turn d tour = { cache := task.cache.publish snapshot, geo := geoAfter d tour task.geo, alive := true }) ∨
      task.turn d tour = { task with alive := false } := by
  obtain ⟨cache, geo, alive⟩ := task
  cases alive with
  | false => exact Or.inr rfl
  | true =>
    cases read : tour.crawl d geo with
    | none =>
      refine Or.inr ?_
      simp [CrawlTask.turn, read]
    | some snapshot =>
      rcases cache.publish?_cases d.overflowChecks snapshot with published | ⟨panics, -⟩
      · refine Or.inl ⟨snapshot, rfl, rfl, ?_⟩
        simp [CrawlTask.turn, read, published]
      · refine Or.inr ?_
        simp [CrawlTask.turn, read, panics]

theorem runCrawler_keeps {d : Deployment} {tours : List Tour} {I : NodeCache → Prop}
    (kept : ∀ tour ∈ tours, ∀ geo cache crawl, I cache → tour.crawl d geo = some crawl → I (cache.publish crawl))
    {task : CrawlTask} (start : I task.cache) : I (runCrawler d task tours).cache := by
  induction tours generalizing task with
  | nil => exact start
  | cons tour tours ih =>
    refine ih (fun later member => kept later (List.mem_cons_of_mem _ member)) ?_
    rcases turn_cases d task tour with ⟨crawl, -, ran, step⟩ | died
    · rw [step]
      exact kept tour List.mem_cons_self task.geo task.cache crawl start ran
    · rw [died]
      exact start

/-! ### One pass -/

/-- A pass publishes an empty document when no bootstrap could be dialed, and what was built when one could. -/
theorem crawl_cases {d : Deployment} {tour : Tour} {geo : GeoIp} {s : Snapshot} (ran : tour.crawl d geo = some s) :
    (dialBootstraps tour.world.net d.bootstrapPeers).set.hasDialable = false ∧
        s = { Snapshot.default tour.world.now with
          bootstrapStates := (dialBootstraps tour.world.net d.bootstrapPeers).set.states
          updatePeriod := crawlInterval
          updateDuration := tour.world.elapsed } ∨
      (dialBootstraps tour.world.net d.bootstrapPeers).set.hasDialable = true ∧
        ∃ built, buildSnapshot d.overflowChecks tour.order tour.world.now
            (crawlInput tour.order d.bootstrapPeers tour.world geo
              (readDht d.rmpv tour.world (dialBootstraps tour.world.net d.bootstrapPeers))) = some built ∧
          s = { built with updatePeriod := crawlInterval, updateDuration := tour.world.elapsed } := by
  cases dialable : (dialBootstraps tour.world.net d.bootstrapPeers).set.hasDialable with
  | false =>
    unfold Tour.crawl crawlOnce at ran
    simp only [dialable, Bool.not_false, if_true] at ran
    exact Or.inl ⟨rfl, (Option.some.inj ran).symm⟩
  | true => exact Or.inr ⟨rfl, crawlOnce_dialable dialable ran⟩

theorem coherent_congr {overflowChecks : Bool} {exclude : BTreeSet String} {s t : Snapshot}
    (coherent : Coherent overflowChecks exclude s) (peers : t.peers = s.peers) (count : t.numPeers = s.numPeers)
    (reports : t.modelReports = s.modelReports) (issues : t.reachabilityIssues = s.reachabilityIssues)
    (contributors : t.topContributors = s.topContributors) : Coherent overflowChecks exclude t := by
  constructor
  · exact peers ▸ coherent.ascending
  · rw [count, peers]
    exact coherent.counted
  · exact peers ▸ coherent.kept
  · exact reports ▸ coherent.prefixes
  · exact reports ▸ coherent.sized
  · exact reports ▸ coherent.servers
  · rw [reports, peers]
    exact coherent.listed
  · rw [reports, peers]
    exact coherent.modelled
  · rw [reports, issues]
    exact coherent.issues
  · rw [reports, contributors]
    exact coherent.contributors

theorem addrs_after (set : BootstrapSet) (turns : List Turn) : (set.after turns).addrs = set.addrs := by
  induction turns generalizing set with
  | nil => rfl
  | cons t turns ih =>
    refine (ih (set.turn t)).trans ?_
    cases t with
    | begins => rfl
    | asked addr answered => exact BootstrapSet.addrs_record set addr answered

theorem mem_states {set : BootstrapSet} {state : String} (member : state ∈ set.states) :
    state = "online" ∨ state = "offline" := by
  obtain ⟨e, -, rfl⟩ := List.mem_map.mp member
  split
  · exact Or.inl rfl
  · exact Or.inr rfl

def Dotted (bootstrapPeers : List String) (s : Snapshot) : Prop :=
  s.bootstrapStates.length = bootstrapPeers.length ∧
    ∀ state ∈ s.bootstrapStates, state = "online" ∨ state = "offline"

theorem dotted_of_crawl {d : Deployment} {tour : Tour} {geo : GeoIp} {s : Snapshot}
    (ran : tour.crawl d geo = some s) : Dotted d.bootstrapPeers s := by
  have states := crawlOnce_states ran
  rw [finalSet_eq] at states
  have addrs := addrs_after (dialBootstraps tour.world.net d.bootstrapPeers).set
    (passTurns d.rmpv tour.world (dialBootstraps tour.world.net d.bootstrapPeers))
  rw [dialBootstraps_addrs] at addrs
  refine ⟨?_, ?_⟩
  · rw [states, BootstrapSet.states, List.length_map]
    simpa [BootstrapSet.addrs] using congrArg List.length addrs
  · rw [states]
    exact fun state => mem_states

theorem unmarked_of_crawl {d : Deployment} {tour : Tour} {geo : GeoIp} {s : Snapshot}
    (ran : tour.crawl d geo = some s) : Unmarked s := by
  rcases crawl_cases ran with ⟨-, rfl⟩ | ⟨-, built, done, rfl⟩
  · exact ⟨rfl, rfl⟩
  · obtain ⟨-, contributors, -, rfl⟩ := (buildSnapshot_eq_some _ _ _ _ _).mp done
    exact ⟨rfl, rfl⟩

theorem crawlsHeld_run (d : Deployment) (now : DateTime) (geo : GeoIp) (tours : List Tour) :
    (runCrawler d (CrawlTask.start now geo) tours).cache.snapshot.crawlsHeld.toNat ≤ tours.length := by
  induction tours using List.reverseRecOn with
  | nil => exact Nat.zero_le _
  | append_singleton tours tour ih =>
    have last : runCrawler d (CrawlTask.start now geo) (tours ++ [tour]) =
        (runCrawler d (CrawlTask.start now geo) tours).turn d tour := List.foldl_append
    rw [last, List.length_append, List.length_singleton]
    generalize runCrawler d (CrawlTask.start now geo) tours = task at ih
    rcases turn_cases d task tour with ⟨fresh, -, ran, step⟩ | died
    · rw [step]
      show (mergeCrawl task.cache.snapshot fresh).crawlsHeld.toNat ≤ tours.length + 1
      unfold mergeCrawl
      split
      · rw [(unmarked_of_crawl ran).2]
        exact Nat.zero_le _
      · show (task.cache.snapshot.crawlsHeld + 1).toNat ≤ tours.length + 1
        rw [UInt32.toNat_add]
        exact (Nat.mod_le _ _).trans (Nat.add_le_add_right ih 1)
    · rw [died]
      exact Nat.le_succ_of_le ih

/-- Until the count is full, 2³² passes on, only a pass that panics itself ends the loop. -/
theorem alive_turn_iff (d : Deployment) (now : DateTime) (geo : GeoIp) {tours : List Tour}
    (few : tours.length + 1 < 2 ^ 32) (tour : Tour) :
    let task := runCrawler d (CrawlTask.start now geo) tours
    (task.turn d tour).alive = true ↔ task.alive = true ∧ (tour.crawl d task.geo).isSome := by
  intro task
  have held : task.cache.snapshot.crawlsHeld.toNat ≤ tours.length := crawlsHeld_run d now geo tours
  unfold CrawlTask.turn
  cases alive : task.alive with
  | false => simp [alive]
  | true =>
    cases read : tour.crawl d task.geo with
    | none => simp
    | some fresh =>
      rcases task.cache.publish?_cases d.overflowChecks fresh with published | ⟨-, full⟩
      · simp [published]
      · rw [show UInt32.size = 2 ^ 32 from rfl] at full
        omega

theorem readDht_models (rmpv : Rmpv) (world : World) (pass : Pass) :
    (readDht rmpv world pass).models = (discoverModels rmpv world.net world.ourDhtid pass).1 := by
  unfold readDht
  rfl

theorem coherent_of_crawl {d : Deployment} {tour : Tour} {geo : GeoIp} {s : Snapshot}
    (ran : tour.crawl d geo = some s) :
    Coherent d.overflowChecks (excludedPeers tour.world.localPeerId d.bootstrapPeers) s := by
  rcases crawl_cases ran with ⟨-, rfl⟩ | ⟨-, built, done, rfl⟩
  · exact coherent_congr (coherent_default _ _ tour.world.now) rfl rfl rfl rfl rfl
  · obtain ⟨distinct, sized⟩ := discoverModels_wellFormed d.rmpv tour.world.net tour.world.ourDhtid
      (dialBootstraps tour.world.net d.bootstrapPeers)
    rw [← readDht_models] at distinct sized
    generalize readDht d.rmpv tour.world (dialBootstraps tour.world.net d.bootstrapPeers) = reading
      at done distinct sized
    exact coherent_congr (coherent_of_built done distinct sized) rfl rfl rfl rfl rfl

/-! ### Every document served -/

/-- What is served: one coherent document with the node list derived from it, marked as stale exactly by the
date of its own data. -/
structure Served (d : Deployment) (us : PeerId) (now : DateTime) (cache : NodeCache) : Prop where
  coherent : Coherent d.overflowChecks (excludedPeers us d.bootstrapPeers) cache.snapshot
  nodes : cache.nodes = nodeEntries cache.snapshot
  dots : Dotted d.bootstrapPeers cache.snapshot ∨ cache.snapshot = Snapshot.default now
  fresh : cache.snapshot.staleSince = none → cache.snapshot.crawlsHeld = 0
  stale : ∀ since, cache.snapshot.staleSince = some since →
    since = cache.snapshot.lastUpdated ∧ cache.snapshot.peers ≠ []

theorem served_start (d : Deployment) (us : PeerId) (now : DateTime) : Served d us now (NodeCache.new now) where
  coherent := coherent_default _ _ now
  nodes := rfl
  dots := Or.inr rfl
  fresh _ := rfl
  stale _ marked := by cases marked

theorem served_publish {d : Deployment} {us : PeerId} {now : DateTime} {cache : NodeCache} {crawl : Snapshot}
    (served : Served d us now cache)
    (coherent : Coherent d.overflowChecks (excludedPeers us d.bootstrapPeers) crawl)
    (dotted : Dotted d.bootstrapPeers crawl) (unmarked : Unmarked crawl) :
    Served d us now (cache.publish crawl) := by
  by_cases replaces : crawl.numPeers > 0 ∨ cache.snapshot.numPeers = 0
  · have same : (cache.publish crawl).snapshot = crawl := mergeCrawl_replaces replaces
    constructor
    · exact same.symm ▸ coherent
    · rfl
    · exact Or.inl (same.symm ▸ dotted)
    · rw [same]
      exact fun _ => unmarked.2
    · rw [same, unmarked.1]
      exact fun since marked => nomatch marked
  · have merged : (cache.publish crawl).snapshot =
        { cache.snapshot with
          bootstrapStates := crawl.bootstrapStates
          updatePeriod := crawl.updatePeriod
          updateDuration := crawl.updateDuration
          staleSince := cache.snapshot.staleSince.or (some cache.snapshot.lastUpdated)
          crawlsHeld := cache.snapshot.crawlsHeld + 1 } := if_neg replaces
    have peers : cache.snapshot.peers ≠ [] := by
      intro none
      have count := served.coherent.counted
      rw [none] at count
      exact replaces (Or.inr count)
    constructor
    · rw [merged]
      exact coherent_congr served.coherent rfl rfl rfl rfl rfl
    · rfl
    · rw [merged]
      exact Or.inl dotted
    · rw [merged]
      intro unheld
      cases before : cache.snapshot.staleSince with
      | none => simp [before] at unheld
      | some since => simp [before] at unheld
    · rw [merged]
      intro since marked
      cases before : cache.snapshot.staleSince with
      | none =>
        simp only [before, Option.none_or] at marked
        exact ⟨(Option.some.inj marked).symm, peers⟩
      | some earlier =>
        simp only [before, Option.some_or] at marked
        exact served.stale since (before.trans marked)

/-- Over every run of the crawler, whatever the networks answer and however the hash maps iterate, and whether or
not the task has died on the way, what is served is one coherent document. -/
theorem served_coherent (d : Deployment) (us : PeerId) (now : DateTime) (geo : GeoIp) (tours : List Tour)
    (home : ∀ tour ∈ tours, tour.world.localPeerId = us) :
    Served d us now (runCrawler d (CrawlTask.start now geo) tours).cache := by
  refine runCrawler_keeps ?_ (served_start d us now)
  intro tour member geo cache crawl served ran
  have coherent := coherent_of_crawl ran
  rw [home tour member] at coherent
  exact served_publish served coherent (dotted_of_crawl ran) (unmarked_of_crawl ran)

/-! ### A process of three passes -/

def PeerEntry.dialed (peerId addr : String) : PeerEntry :=
  { peerId, agentVersion := some "kwaainet/0.4.2", protocols := ["/kwaai/kad/1.0.0"]
    conn := { addr, direction := .outbound, via := none, dcutr := false } }

def vpkRegistered : Wire := .dictionary [("QmC", .record 2 [("version", .str "0.4.2")])]

def threePasses : Deployment :=
  { overflowChecks := true, rmpv := Wire.reader [vpkRegistered]
    bootstrapPeers := ["/ip4/203.0.113.7/tcp/8000/p2p/QmBootstrap"] }

/-- A pass that meets two peers, and the registered one; one that meets one of the two elsewhere; and one that meets
nobody, which is held. -/
def threeTours : List Tour :=
  let registry := some ⟨[.notFound]⟩
  let capability := some ⟨[.dictionary vpkRegistered]⟩
  [ { order := .insertion
      world := { World.scripted [none, registry, capability, registry] with
        listPeers := some [.dialed "QmB" "/ip4/1.2.3.4/tcp/8000", .dialed "QmA" "/ip4/5.6.7.8/tcp/8000"], now := 60 } },
    { order := .turned 1
      world := { World.scripted [none, registry, registry, registry] with
        listPeers := some [.dialed "QmB" "/ip4/9.9.9.9/tcp/8000"], now := 120 } },
    { order := .insertion, world := { World.scripted [] with now := 180 } } ]

theorem served_coherent_three_passes :
    let served := (runCrawler threePasses (CrawlTask.start 0 .disabled) threeTours).cache
    Served threePasses "QmObserver" 0 served ∧
      ((runCrawler threePasses (CrawlTask.start 0 .disabled) (threeTours.take 1)).cache.snapshot.peers.map (·.peerId)) =
        ["QmA", "QmB", "QmC"] ∧
      served.snapshot.peers.map (·.peerId) = ["QmB"] ∧ served.snapshot.staleSince = some 120 := by
  intro served
  refine ⟨served_coherent threePasses "QmObserver" 0 .disabled threeTours ?_, by decide +kernel, by decide +kernel,
    by decide +kernel⟩
  have home : ∀ tour ∈ threeTours, tour.world.localPeerId = "QmObserver" := by simp [threeTours, World.scripted]
  exact home

end KwaaiNetMap
