import KwaaiNetMap.Cache.Publish

/-!
A run of publishes serves the last crawl that read peers, with the dots and timings of the last crawl
and marks that count the empty passes since. `heldView` is that document; one publish moves it one
pass on (`mergeCrawl_heldView`), or starts it afresh.
-/

namespace KwaaiNetMap

/-- A crawl as the crawler hands it over, never marked as held. -/
def Unmarked (crawl : Snapshot) : Prop := crawl.staleSince = none ∧ crawl.crawlsHeld = 0

def NodeCache.publishAll (cache : NodeCache) (crawls : List Snapshot) : NodeCache :=
  crawls.foldl NodeCache.publish cache

/-- The peer data of one crawl under the dots and timings of another, `n` empty passes later. -/
def heldView (data last : Snapshot) (n : Nat) : Snapshot :=
  { data with
    bootstrapStates := last.bootstrapStates
    updatePeriod := last.updatePeriod
    updateDuration := last.updateDuration
    staleSince := if n = 0 then none else some data.lastUpdated
    crawlsHeld := UInt32.ofNat n }

theorem heldView_self {data : Snapshot} (unmarked : Unmarked data) : heldView data data 0 = data := by
  obtain ⟨stale, held⟩ := unmarked
  cases data
  simp only at stale held
  subst stale held
  rfl

theorem mergeCrawl_replaces {served fresh : Snapshot} (replaces : fresh.numPeers > 0 ∨ served.numPeers = 0) :
    mergeCrawl served fresh = fresh := if_pos replaces

theorem mergeCrawl_heldView {data last fresh : Snapshot} (n : Nat) (populated : data.numPeers > 0)
    (empty : fresh.numPeers = 0) :
    mergeCrawl (heldView data last n) fresh = heldView data fresh (n + 1) := by
  have holds : ¬ (fresh.numPeers > 0 ∨ (heldView data last n).numPeers = 0) := by
    rintro (read | blank)
    · omega
    · exact absurd blank (Nat.ne_of_gt populated)
  have stale : (heldView data last n).staleSince.or (some (heldView data last n).lastUpdated) =
      some data.lastUpdated := by
    by_cases first : n = 0 <;> simp [heldView, first]
  have count : (heldView data last n).crawlsHeld + 1 = UInt32.ofNat (n + 1) := by
    simp [heldView, UInt32.ofNat_add]
  rw [mergeCrawl, if_neg holds, stale, count]
  simp [heldView]

theorem publishAll_heldView {data : Snapshot} (populated : data.numPeers > 0) (after : List Snapshot)
    (empty : ∀ crawl ∈ after, crawl.numPeers = 0) (last : Snapshot) (n : Nat) (nodes : List NodeEntry) :
    (NodeCache.publishAll { snapshot := heldView data last n, nodes } after).snapshot =
      heldView data (after.getLastD last) (n + after.length) := by
  induction after generalizing last n nodes with
  | nil => rfl
  | cons fresh rest ih =>
    have step : NodeCache.publish { snapshot := heldView data last n, nodes } fresh =
        { snapshot := heldView data fresh (n + 1), nodes := nodeEntries (heldView data fresh (n + 1)) } := by
      unfold NodeCache.publish
      simp only [mergeCrawl_heldView n populated (empty fresh List.mem_cons_self)]
    rw [NodeCache.publishAll, List.foldl_cons, step, ← NodeCache.publishAll,
      ih (fun crawl member => empty crawl (List.mem_cons_of_mem _ member)), List.getLastD_cons,
      List.length_cons, Nat.add_assoc, Nat.add_comm 1]

theorem publish_populated {data : Snapshot} (populated : data.numPeers > 0) (cache : NodeCache) :
    cache.publish data = { snapshot := data, nodes := nodeEntries data } := by
  unfold NodeCache.publish
  simp only [mergeCrawl_replaces (Or.inl populated)]

theorem publishAll_empty (crawls : List Snapshot) (empty : ∀ crawl ∈ crawls, crawl.numPeers = 0)
    (cache : NodeCache) (blank : cache.snapshot.numPeers = 0) :
    (cache.publishAll crawls).snapshot = crawls.getLastD cache.snapshot := by
  induction crawls generalizing cache with
  | nil => rfl
  | cons fresh rest ih =>
    have step : (cache.publish fresh).snapshot = fresh := mergeCrawl_replaces (Or.inr blank)
    rw [NodeCache.publishAll, List.foldl_cons, ← NodeCache.publishAll,
      ih (fun crawl member => empty crawl (List.mem_cons_of_mem _ member)) _
        (by rw [step]; exact empty fresh List.mem_cons_self), step, List.getLastD_cons]

theorem publishAll_nodes (crawls : List Snapshot) (cache : NodeCache)
    (derived : cache.nodes = nodeEntries cache.snapshot) :
    (cache.publishAll crawls).nodes = nodeEntries (cache.publishAll crawls).snapshot := by
  induction crawls generalizing cache with
  | nil => exact derived
  | cons fresh rest ih => exact ih (cache.publish fresh) rfl

/-- From startup, a run of crawls that read nothing serves the last of them; otherwise it serves the
last crawl that read peers under the dots and timings of the last crawl, marked with the number of
empty passes since. The node list is that of the served snapshot after every publish. -/
theorem served_after_run (now : DateTime) (crawls : List Snapshot)
    (unmarked : ∀ crawl ∈ crawls, Unmarked crawl) (bounded : crawls.length < 2 ^ 32) :
    ((∀ crawl ∈ crawls, crawl.numPeers = 0) → ∀ last, crawls.getLast? = some last →
      ((NodeCache.new now).publishAll crawls).snapshot = last) ∧
    (∀ before data after, crawls = before ++ data :: after → data.numPeers > 0 →
      (∀ crawl ∈ after, crawl.numPeers = 0) → ∀ last, crawls.getLast? = some last →
      let served := ((NodeCache.new now).publishAll crawls).snapshot
      served.peers = data.peers ∧ served.modelReports = data.modelReports ∧
      served.numPeers = data.numPeers ∧ served.numBlocksCovered = data.numBlocksCovered ∧
      served.topContributors = data.topContributors ∧
      served.reachabilityIssues = data.reachabilityIssues ∧ served.lastUpdated = data.lastUpdated ∧
      served.bootstrapStates = last.bootstrapStates ∧ served.updatePeriod = last.updatePeriod ∧
      served.updateDuration = last.updateDuration ∧
      served.crawlsHeld.toNat = crawls.length - (before.length + 1) ∧
      served.staleSince = if after = [] then none else some data.lastUpdated) ∧
    (∀ published rest, crawls = published ++ rest → published ≠ [] →
      ((NodeCache.new now).publishAll published).nodes =
        nodeEntries ((NodeCache.new now).publishAll published).snapshot) := by
  refine ⟨?_, ?_, ?_⟩
  · intro empty last final
    rw [publishAll_empty crawls empty _ rfl, List.getLastD_eq_getLast?, final]
    rfl
  · intro before data after split populated empty last final served
    have fresh : Unmarked data := unmarked data (by rw [split]; simp)
    have lastEq : after.getLastD data = last := by
      rw [split, List.getLast?_append_cons, List.getLast?_cons] at final
      rw [List.getLastD_eq_getLast?]
      exact Option.some.inj final
    have view : served = heldView data last after.length := by
      change ((NodeCache.new now).publishAll crawls).snapshot = _
      rw [split, NodeCache.publishAll, List.foldl_append, List.foldl_cons, publish_populated populated,
        ← NodeCache.publishAll]
      have run := publishAll_heldView populated after empty data 0 (nodeEntries data)
      rw [heldView_self fresh, Nat.zero_add, lastEq] at run
      exact run
    have count : crawls.length = before.length + (after.length + 1) := by
      rw [split, List.length_append, List.length_cons]
    have marks : (UInt32.ofNat after.length).toNat = crawls.length - (before.length + 1) := by
      have small : after.length < UInt32.size := by rw [show UInt32.size = 2 ^ 32 from rfl]; omega
      rw [UInt32.toNat_ofNat_of_lt' small]
      omega
    rw [view]
    refine ⟨rfl, rfl, rfl, rfl, rfl, rfl, rfl, rfl, rfl, rfl, marks, ?_⟩
    simp [heldView, List.length_eq_zero_iff]
  · intro published rest _ _
    exact publishAll_nodes published _ rfl

theorem served_after_run_one_held :
    let data : Snapshot := { lastUpdated := 5, numPeers := 7, bootstrapStates := ["online"] }
    let empty : Snapshot := { lastUpdated := 65, bootstrapStates := ["offline"] }
    let served := ((NodeCache.new 0).publishAll [data, empty]).snapshot
    served.numPeers = 7 ∧ served.bootstrapStates = ["offline"] ∧ served.crawlsHeld.toNat = 1 ∧
      served.staleSince = some 5 := by
  intro data empty served
  have run := served_after_run 0 [data, empty] (by simp [Unmarked, data, empty]) (by decide)
  obtain ⟨-, -, peers, -, -, -, -, dots, -, -, held, stale⟩ :=
    run.2.1 [] data [empty] rfl (by decide) (by simp [empty]) empty rfl
  exact ⟨peers, dots, held, stale⟩

end KwaaiNetMap
