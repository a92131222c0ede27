import KwaaiNetMap.Cache.Process
import KwaaiNetMap.Geoip.Budget

/-!
Every pin on the map stands where the static file or an answer of the provider put it, over whole runs of the
crawler (`pins_sourced`). A deployment with lookups off asks nobody, and its map depends on nobody's answers
(`sealed_run`).
-/

namespace KwaaiNetMap
open Collections Numeric Systems

namespace GeoIp

/-! ### The environment -/

structure StaticEntry where
  country : String := ""
  city : String := ""
  lat : F64 := 0.0
  lon : F64 := 0.0
  isp : String := ""

/-- The pins of a static file, which may turn out unreadable. -/
def loadStatic (parsed : Option (HashMap String StaticEntry)) : HashMap String Location :=
  match parsed with
  | some entries =>
    entries.mapValues fun _ e =>
      { status := "success", country := e.country, city := e.city, lat := e.lat, lon := e.lon, isp := e.isp }
  | none => ∅

def lookupsOn (setting : Option String) : Bool :=
  (setting.map fun v => decide (v ∉ ["0", "false", "no"])).getD true

/-- `from_env`: the setting of `GEOIP_ENABLED`, and what the file at `GEOIP_STATIC_FILE` parses as, if one is
named. -/
def fromVars (setting : Option String) (staticFile : Option (Option (HashMap String StaticEntry))) : GeoIp :=
  fromEnv (lookupsOn setting) ((staticFile.map loadStatic).getD ∅)

/-! ### Sources -/

/-- The operator's file, or an answer to a post, puts it there. -/
inductive Told (statics : HashMap String Location) (log : List Post) (loc : Location) : Prop
  | pinned (ip : String) (listed : statics.get? ip = some loc)
  | answered (post : Post) (posted : post ∈ log) (entries : List ApiEntry) (reply : post.reply = some entries)
      (e : ApiEntry) (member : e ∈ entries) (gives : e.location = loc)

/-- `loc` stands at `source`, and is `source` itself unless labelled as a relay's. -/
structure Shows (loc source : Location) : Prop where
  status : source.status = "success"
  lat : loc.lat = source.lat
  lon : loc.lon = source.lon
  country : loc.country = source.country
  label : loc = source ∨ loc.city = "Via relay"

def Sourced (statics : HashMap String Location) (log : List Post) (loc : Location) : Prop :=
  loc.status = "success" → ∃ source, Told statics log source ∧ Shows loc source

structure Remembers (statics : HashMap String Location) (log : List Post) (geo : GeoIp) : Prop where
  pins : geo.statics = statics
  cached : ∀ ip loc, geo.cache.get? ip = some loc → Told statics log loc

section
variable {statics : HashMap String Location} {log more : List Post} {geo : GeoIp} {loc source : Location}

theorem Told.mono (told : Told statics log loc) : Told statics (log ++ more) loc := by
  cases told with
  | pinned ip listed => exact .pinned ip listed
  | answered post posted entries reply e member gives =>
    exact .answered post (List.mem_append_left _ posted) entries reply e member gives

theorem Sourced.mono (sourced : Sourced statics log loc) : Sourced statics (log ++ more) loc := by
  intro located
  obtain ⟨source, told, shows⟩ := sourced located
  exact ⟨source, told.mono, shows⟩

theorem remembers_fromEnv (enabled : Bool) (statics : HashMap String Location) :
    Remembers statics [] (fromEnv enabled statics) :=
  ⟨rfl, fun ip loc held => by cases held⟩

theorem fetchAll_statics (fetchBatch : List String → Option (List ApiEntry)) (chunks : List (List String))
    (geo : GeoIp) : (fetchAll fetchBatch chunks geo).statics = geo.statics := by
  induction chunks generalizing geo with
  | nil => rfl
  | cons chunk chunks ih =>
    unfold fetchAll
    split
    · exact ih _
    · rfl

theorem after_statics (geo : GeoIp) (round : Round) : (geo.after round).statics = geo.statics := by
  change ((geo.gathered round).1.warm round.fetchBatch (geo.gathered round).2).statics = _
  rw [warm_eq, fetchAll_statics]
  exact (gathered_frame geo round).2.2

theorem remembers_after (remembers : Remembers statics log geo) (round : Round) :
    Remembers statics (log ++ geo.posted round) (geo.after round) := by
  refine ⟨(after_statics geo round).trans remembers.pins, ?_⟩
  intro ip loc held
  rw [after_learns] at held
  rcases foldl_learn_cases held with before | ⟨ask, asked, answered⟩
  · exact (remembers.cached ip loc before).mono
  · obtain ⟨post, posted, rfl⟩ := List.mem_map.mp asked
    obtain ⟨e, member, same⟩ := List.mem_map.mp answered
    obtain ⟨-, gives⟩ := Prod.mk.inj same
    cases reply : post.reply with
    | none => rw [reply] at member; cases member
    | some entries =>
      rw [reply] at member
      exact .answered post (List.mem_append_right _ posted) entries reply e member gives

/-! ### Pins -/

theorem shows_self (located : loc.status = "success") : Shows loc loc := ⟨located, rfl, rfl, rfl, Or.inl rfl⟩

theorem shows_viaRelayAt (shows : Shows loc source) (located : (viaRelayAt loc).status = "success") :
    Shows (viaRelayAt loc) source := by
  unfold viaRelayAt at located ⊢
  split at located
  · exact absurd located (by decide)
  · rename_i known
    rw [if_neg known]
    exact ⟨shows.status, shows.lat, shows.lon, shows.country, Or.inr rfl⟩

theorem viaRelayAt_status (located : (viaRelayAt loc).status = "success") : loc.status = "success" := by
  unfold viaRelayAt at located
  split at located
  · exact absurd located (by decide)
  · exact located

theorem sourced_viaRelayAt (sourced : Sourced statics log loc) : Sourced statics log (viaRelayAt loc) := by
  intro located
  obtain ⟨source, told, shows⟩ := sourced (viaRelayAt_status located)
  exact ⟨source, told, shows_viaRelayAt shows located⟩

theorem sourced_of_told (told : Told statics log loc) : Sourced statics log loc :=
  fun located => ⟨loc, told, shows_self located⟩

theorem sourced_of_fail (failed : loc.status = "fail") : Sourced statics log loc := by
  intro located
  rw [failed] at located
  exact absurd located (by decide)

theorem cached_sourced (remembers : Remembers statics log geo) (ip : String) :
    Sourced statics log (geo.cached ip) := by
  unfold cached
  cases held : geo.cache.get? ip with
  | none => exact sourced_of_fail rfl
  | some loc => exact sourced_of_told (remembers.cached ip loc held)

theorem staticFor_sourced (remembers : Remembers statics log geo) {addrs : List String}
    (pinned : geo.staticFor addrs = some loc) : Sourced statics log loc := by
  have told (lookup : Option String) (l : Location) (found : lookup.bind geo.statics.get? = some l) :
      Told statics log l := by
    obtain ⟨ip, -, listed⟩ := Option.bind_eq_some_iff.mp found
    exact .pinned ip (remembers.pins ▸ listed)
  unfold staticFor at pinned
  split at pinned
  · cases pinned
  · rcases Option.or_eq_some_iff.mp pinned with own | ⟨-, relayed⟩
    · obtain ⟨a, -, found⟩ := List.exists_of_findSome?_eq_some own
      exact sourced_of_told (told _ _ found)
    · obtain ⟨l, found, rfl⟩ := Option.map_eq_some_iff.mp relayed
      obtain ⟨relay, -, found⟩ := List.exists_of_findSome?_eq_some found
      exact sourced_viaRelayAt (sourced_of_told (told _ _ found))

theorem locate_sourced (remembers : Remembers statics log geo) (addrs : List String) :
    Sourced statics log (geo.locate addrs) := by
  unfold locate
  cases pinned : geo.staticFor addrs with
  | some loc => exact staticFor_sourced remembers pinned
  | none =>
    dsimp only
    split
    · exact cached_sourced remembers _
    · split
      · exact sourced_viaRelayAt (cached_sourced remembers _)
      · split <;> exact sourced_of_fail rfl

end

end GeoIp

open GeoIp

section
variable {statics : HashMap String Location} {log more : List Post} {geo : GeoIp}

theorem locateRow_sourced (remembers : Remembers statics log geo) {known : HashMap String Location}
    (sourced : ∀ id loc, known.get? id = some loc → Sourced statics log loc) (addrs : List String) :
    Sourced statics log (locateRow geo addrs known) := by
  have own := locate_sourced remembers addrs
  unfold locateRow
  dsimp only
  split
  · exact own
  · cases lent : addrs.findSome? fun a => do
        let relay ← known.get? (← relayPeerIdOf a.toList)
        lentPin relay with
    | none => exact own
    | some pin =>
      obtain ⟨a, -, found⟩ := List.exists_of_findSome?_eq_some lent
      simp only [Option.bind_eq_bind, Option.bind_eq_some_iff] at found
      obtain ⟨id, -, relay, held, pinned⟩ := found
      unfold lentPin at pinned
      split at pinned
      · obtain rfl := Option.some.inj pinned
        exact sourced_viaRelayAt (sourced id relay held)
      · cases pinned

theorem peerIpInfoFor_sourced (remembers : Remembers statics log geo) {known : HashMap String Location}
    (sourced : ∀ id loc, known.get? id = some loc → Sourced statics log loc) (observed : Option Observed)
    (usingRelay : Option Bool) : Sourced statics log (peerIpInfoFor observed usingRelay geo known).location := by
  unfold peerIpInfoFor
  split
  · split
    · exact sourced_of_fail rfl
    · exact locateRow_sourced remembers sourced _
  · exact sourced_of_fail rfl

def Snapshot.Sourced (statics : HashMap String Location) (log : List Post) (s : Snapshot) : Prop :=
  (∀ peer ∈ s.peers, GeoIp.Sourced statics log peer.peerIpInfo.location) ∧
    ∀ report ∈ s.modelReports, ∀ row ∈ report.serverRows, GeoIp.Sourced statics log row.peerIpInfo.location

theorem Snapshot.Sourced.mono {s : Snapshot} (sourced : s.Sourced statics log) : s.Sourced statics (log ++ more) :=
  ⟨fun peer shown => (sourced.1 peer shown).mono,
    fun report shown row member => (sourced.2 report shown row member).mono⟩

theorem sourced_of_built {input : CrawlInput} {overflowChecks : Bool} {order : IterOrder} {now : DateTime}
    {s : Snapshot} (remembers : Remembers statics log input.geo)
    (built : buildSnapshot overflowChecks order now input = some s) : s.Sourced statics log := by
  have known : ∀ id loc, input.known.get? id = some loc → GeoIp.Sourced statics log loc := by
    intro id loc held
    rw [CrawlInput.known, HashMap.get?_mapValues] at held
    obtain ⟨o, -, rfl⟩ := Option.map_eq_some_iff.mp held
    exact locate_sourced remembers o.addrs
  obtain ⟨-, contributors, -, rfl⟩ := (buildSnapshot_eq_some input order overflowChecks now s).mp built
  refine ⟨?_, ?_⟩
  · intro peer shown
    obtain ⟨id, -, rfl⟩ := mem_peerRows.mp shown
    exact peerIpInfoFor_sourced remembers known _ _
  · intro report shown row member
    obtain ⟨model, -, id, entry, -, rfl⟩ := record_of_row shown member
    exact peerIpInfoFor_sourced remembers known _ _

end

/-! ### A run of the crawler -/

def Tour.round (tour : Tour) : Round :=
  ⟨(((observedAddrs tour.world.listPeers).reorder tour.order).entries.map Prod.snd).flatMap (·.addrs),
    tour.world.lookupHost, tour.world.fetchBatch⟩

def Tour.dials (d : Deployment) (tour : Tour) : Bool :=
  (dialBootstraps tour.world.net d.bootstrapPeers).set.hasDialable

def Tour.posts (d : Deployment) (tour : Tour) (geo : GeoIp) : List Post :=
  if tour.dials d then geo.posted tour.round else []

def Tour.lookups (d : Deployment) (tour : Tour) (geo : GeoIp) : List (Ask String String) :=
  if tour.dials d then geo.lookedUp tour.round else []

def CrawlTask.posts (d : Deployment) : CrawlTask → List Tour → List Post
  | _, [] => []
  | task, tour :: tours =>
    (if task.alive then tour.posts d task.geo else []) ++ CrawlTask.posts d (task.turn d tour) tours

def CrawlTask.lookups (d : Deployment) : CrawlTask → List Tour → List (Ask String String)
  | _, [] => []
  | task, tour :: tours =>
    (if task.alive then tour.lookups d task.geo else []) ++ CrawlTask.lookups d (task.turn d tour) tours

theorem geoAfter_eq (d : Deployment) (tour : Tour) (geo : GeoIp) :
    geoAfter d tour geo = if tour.dials d then geo.after tour.round else geo := by
  unfold geoAfter Tour.dials
  cases (dialBootstraps tour.world.net d.bootstrapPeers).set.hasDialable <;> rfl

section
variable {d : Deployment} {statics : HashMap String Location} {log : List Post} {task : CrawlTask}

theorem remembers_geoAfter {geo : GeoIp} (remembers : Remembers statics log geo) (tour : Tour) :
    Remembers statics (log ++ tour.posts d geo) (geoAfter d tour geo) := by
  rw [geoAfter_eq, Tour.posts]
  split
  · exact remembers_after remembers tour.round
  · rw [List.append_nil]
    exact remembers

theorem sourced_of_crawl {geo : GeoIp} (remembers : Remembers statics log geo) {tour : Tour} {s : Snapshot}
    (ran : tour.crawl d geo = some s) : s.Sourced statics (log ++ tour.posts d geo) := by
  have warmed := remembers_geoAfter (d := d) remembers tour
  rcases crawl_cases ran with ⟨-, rfl⟩ | ⟨dialable, built, done, rfl⟩
  · exact ⟨fun peer shown => (nomatch shown), fun report shown => (nomatch shown)⟩
  · have same : geoAfter d tour geo =
        warmedGeo tour.world geo ((observedAddrs tour.world.listPeers).reorder tour.order) := by
      unfold geoAfter
      rw [dialable]
      rfl
    rw [same] at warmed
    generalize readDht d.rmpv tour.world (dialBootstraps tour.world.net d.bootstrapPeers) = reading at done
    have sourced : built.Sourced statics (log ++ tour.posts d geo) := by
      refine sourced_of_built ?_ done
      exact warmed
    exact sourced

theorem sourced_publish {cache : NodeCache} {crawl : Snapshot} (served : cache.snapshot.Sourced statics log)
    (fresh : crawl.Sourced statics log) : (cache.publish crawl).snapshot.Sourced statics log := by
  change (mergeCrawl cache.snapshot crawl).Sourced statics log
  unfold mergeCrawl
  split
  · exact fresh
  · exact served

theorem sourced_run (tours : List Tour) (remembers : Remembers statics log task.geo)
    (served : task.cache.snapshot.Sourced statics log) :
    (runCrawler d task tours).cache.snapshot.Sourced statics (log ++ CrawlTask.posts d task tours) := by
  induction tours generalizing task log with
  | nil =>
    rw [CrawlTask.posts, List.append_nil]
    exact served
  | cons tour tours ih =>
    rw [CrawlTask.posts, ← List.append_assoc]
    change (runCrawler d (task.turn d tour) tours).cache.snapshot.Sourced _ _
    rcases turn_cases d task tour with ⟨snapshot, alive, read, step⟩ | died
    · rw [if_pos alive]
      refine ih ?_ ?_
      · rw [step]
        exact remembers_geoAfter remembers tour
      · rw [step]
        exact sourced_publish served.mono (sourced_of_crawl remembers read)
    · refine ih ?_ ?_
      · rw [died]
        exact ⟨remembers.pins, fun ip loc held => (remembers.cached ip loc held).mono⟩
      · rw [died]
        exact served.mono

end

/-- Over every run of the crawler from a fresh process, every pin served stands where the static file or an
answer to one of the process's own posts puts it, under its own label or a relay's. -/
theorem pins_sourced (d : Deployment) (now : DateTime) (enabled : Bool) (statics : HashMap String Location)
    (tours : List Tour) :
    let start := CrawlTask.start now (fromEnv enabled statics)
    (runCrawler d start tours).cache.snapshot.Sourced statics (start.posts d tours) := by
  intro start
  have blank : start.cache.snapshot.Sourced statics [] :=
    ⟨fun peer shown => (nomatch shown), fun report shown => (nomatch shown)⟩
  exact sourced_run tours (remembers_fromEnv enabled statics) blank

/-! ### A sealed deployment -/

section
variable {d : Deployment} {geo : GeoIp}

theorem gathered_off (off : geo.enabled = false) (round : Round) : (geo.gathered round).1 = geo := by
  have step (name : String) (out : List String) :
      (resolveStep round.lookupHost (geo, out) name).1 = geo := by
    rcases resolveStep_cases round.lookupHost geo out name with ⟨ip, -, same⟩ | ⟨ip, -, on, -, -⟩ | ⟨-, same⟩
    · rw [same]
    · rw [off] at on
      cases on
    · rw [same]
  have fold (names : List String) (out : List String) :
      (names.foldl (resolveStep round.lookupHost) (geo, out)).1 = geo := by
    induction names generalizing out with
    | nil => rfl
    | cons name names ih =>
      have pair : resolveStep round.lookupHost (geo, out) name =
          (geo, (resolveStep round.lookupHost (geo, out) name).2) := Prod.ext (step name out) rfl
      rw [List.foldl_cons, pair]
      exact ih _
  exact fold _ []

theorem after_off (off : geo.enabled = false) (round : Round) : geo.after round = geo := by
  change (geo.gathered round).1.warm round.fetchBatch (geo.gathered round).2 = geo
  rw [gathered_off off, warm, if_pos (Or.inl (by rw [off]; rfl))]

theorem posted_off (off : geo.enabled = false) (round : Round) : geo.posted round = [] := by
  rw [posted, gathered_off off, GeoIp.batches, if_pos (Or.inl (by rw [off]; rfl))]
  rfl

theorem lookups_off (off : geo.enabled = false) (lookupHost : String → Option (List IpAddr)) (names : List String) :
    GeoIp.lookups lookupHost geo names = [] := by
  induction names with
  | nil => rfl
  | cons name names ih =>
    have same : (resolveStep lookupHost (geo, []) name).1 = geo := by
      rcases resolveStep_cases lookupHost geo [] name with ⟨ip, -, step⟩ | ⟨ip, -, on, -, -⟩ | ⟨-, step⟩
      · rw [step]
      · rw [off] at on
        cases on
      · rw [step]
    unfold GeoIp.lookups
    rw [same, ih, if_neg]
    rw [off]
    simp

def Tour.deaf (tour : Tour) : Tour :=
  { tour with world := { tour.world with lookupHost := fun _ => none, fetchBatch := fun _ => none } }

theorem geoAfter_off (off : geo.enabled = false) (tour : Tour) : geoAfter d tour geo = geo := by
  rw [geoAfter_eq]
  split
  · exact after_off off tour.round
  · rfl

theorem crawlInput_deaf (off : geo.enabled = false) (tour : Tour) (reading : Reading) :
    crawlInput tour.order d.bootstrapPeers tour.deaf.world geo reading =
      crawlInput tour.order d.bootstrapPeers tour.world geo reading := by
  unfold crawlInput
  simp only [warmedGeo_eq, after_off off]
  rfl

theorem crawl_deaf (off : geo.enabled = false) (tour : Tour) : tour.deaf.crawl d geo = tour.crawl d geo := by
  unfold Tour.crawl crawlOnce
  have reading (pass : Pass) : readDht d.rmpv tour.deaf.world pass = readDht d.rmpv tour.world pass := rfl
  have order : tour.deaf.order = tour.order := rfl
  have net : tour.deaf.world.net = tour.world.net := rfl
  have now : tour.deaf.world.now = tour.world.now := rfl
  have elapsed : tour.deaf.world.elapsed = tour.world.elapsed := rfl
  simp only [reading, order, net, now, elapsed, crawlInput_deaf off]

theorem turn_deaf {task : CrawlTask} (off : task.geo.enabled = false) (tour : Tour) :
    task.turn d tour.deaf = task.turn d tour ∧ (task.turn d tour).geo = task.geo := by
  unfold CrawlTask.turn
  simp only [crawl_deaf off, geoAfter_off off]
  refine ⟨trivial, ?_⟩
  split
  · rfl
  · split <;> rfl

theorem run_off {task : CrawlTask} (off : task.geo.enabled = false) (tours : List Tour) :
    runCrawler d task (tours.map Tour.deaf) = runCrawler d task tours ∧
      CrawlTask.posts d task tours = [] ∧ CrawlTask.lookups d task tours = [] := by
  induction tours generalizing task with
  | nil => exact ⟨rfl, rfl, rfl⟩
  | cons tour tours ih =>
    obtain ⟨deaf, same⟩ := turn_deaf (d := d) off tour
    have still : (task.turn d tour).geo.enabled = false := by rw [same, off]
    obtain ⟨run, posts, lookups⟩ := ih still
    refine ⟨?_, ?_, ?_⟩
    · change runCrawler d (task.turn d tour.deaf) (tours.map Tour.deaf) = runCrawler d (task.turn d tour) tours
      rw [deaf, run]
    · have none : tour.posts d task.geo = [] := by
        unfold Tour.posts
        split
        · exact posted_off off tour.round
        · rfl
      rw [CrawlTask.posts, posts, none]
      simp
    · have none : tour.lookups d task.geo = [] := by
        unfold Tour.lookups
        split
        · exact lookups_off off _ _
        · rfl
      rw [CrawlTask.lookups, lookups, none]
      simp

end

/-- With lookups off nothing is posted and no name is looked up, what is served does not depend on what the
resolver or the provider would answer, and every pin is one of the static file. -/
theorem sealed_run (d : Deployment) (now : DateTime) (setting : String) (off : lookupsOn (some setting) = false)
    (staticFile : Option (Option (HashMap String StaticEntry))) (tours : List Tour) :
    let start := CrawlTask.start now (fromVars (some setting) staticFile)
    start.posts d tours = [] ∧ start.lookups d tours = [] ∧
      (∀ tours', tours'.map Tour.deaf = tours.map Tour.deaf → runCrawler d start tours' = runCrawler d start tours) ∧
      (runCrawler d start tours).cache.snapshot.Sourced ((staticFile.map loadStatic).getD ∅) [] := by
  intro start
  have still : start.geo.enabled = false := off
  obtain ⟨run, posts, lookups⟩ := run_off (d := d) still tours
  refine ⟨posts, lookups, ?_, ?_⟩
  · intro tours' alike
    rw [← (run_off (d := d) still tours').1, alike, run]
  · have blank : start.cache.snapshot.Sourced ((staticFile.map loadStatic).getD ∅) [] :=
      ⟨fun peer shown => (nomatch shown), fun report shown => (nomatch shown)⟩
    have sourced := sourced_run (d := d) tours
      (remembers_fromEnv (lookupsOn (some setting)) ((staticFile.map loadStatic).getD ∅)) blank
    rw [posts] at sourced
    exact sourced

def answeredTours : List Tour :=
  threeTours.map fun tour =>
    { tour with world := { tour.world with
      fetchBatch := fun batch =>
        some (batch.map fun ip => { status := "success", city := "Elsewhere", query := ip }) } }

/-- With lookups on the tours post the peers' addresses; with them off nothing is posted, and the one peer that is
pinned is pinned by the file. -/
theorem sealed_run_no :
    let file : HashMap String StaticEntry := HashMap.insert ∅ "9.9.9.9" { country := "Utopia", city := "Amaurot" }
    let sealed := CrawlTask.start 0 (fromVars (some "no") (some (some file)))
    let opened := CrawlTask.start 0 (fromVars none (some (some file)))
    (opened.posts threePasses answeredTours).map Post.batch = [["1.2.3.4", "5.6.7.8"], ["9.9.9.9"]] ∧
      sealed.posts threePasses answeredTours = [] ∧
      (runCrawler threePasses sealed answeredTours).cache.snapshot.peers.map
        (fun peer => (peer.peerId, peer.peerIpInfo.location.city)) = [("QmB", "Amaurot")] := by
  intro file sealed opened
  exact ⟨by decide +kernel, (sealed_run threePasses 0 "no" (by decide) (some (some file)) answeredTours).1,
    by decide +kernel⟩

end KwaaiNetMap
