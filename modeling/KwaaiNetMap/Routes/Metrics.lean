import KwaaiNetMap.Cache.Hold
import KwaaiNetMap.Cache.Stats
import KwaaiNetMap.Text.Search

/-!
`/metrics` writes nine gauges, each under a comment for its help and one for its type. Read back line by line
they are the gauges that were written, and they give the figures of the snapshot (`metrics_read_back`).
-/

namespace KwaaiNetMap
open Numeric Text

structure Gauge where
  name : String
  help : String
  value : Float

/-- How Rust writes a float, on one line, and the second a time is in. -/
structure Clerk where
  display : Float → String
  oneLine : ∀ x, '\n' ∉ (display x).toList
  timestamp : DateTime → Int

def gauges (clerk : Clerk) (stats : NetworkStats) (snapshot : Snapshot) : List Gauge :=
  let bootstrapsOnline := (snapshot.bootstrapStates.filter fun s => s = "online").length
  [{ name := "kwaainet_nodes", help := "Servers seen in the last crawl.", value := natToFloat stats.nodeCount },
    { name := "kwaainet_peers", help := "Distinct peers seen in the last crawl."
      value := natToFloat snapshot.numPeers },
    { name := "kwaainet_tokens_per_second", help := "Aggregate announced throughput.", value := stats.tokensPerSec },
    { name := "kwaainet_block_coverage_percent", help := "Block coverage of the largest model."
      value := stats.coveragePct },
    { name := "kwaainet_blocks_covered", help := "Model blocks with at least one online server."
      value := natToFloat snapshot.numBlocksCovered },
    { name := "kwaainet_models", help := "Models registered in the DHT."
      value := natToFloat snapshot.modelReports.length },
    { name := "kwaainet_bootstraps_online", help := "Reachable bootstrap peers."
      value := natToFloat bootstrapsOnline },
    { name := "kwaainet_bootstraps_total", help := "Configured bootstrap peers."
      value := natToFloat snapshot.bootstrapStates.length },
    { name := "kwaainet_last_crawl_timestamp_seconds", help := "Unix time of the last completed crawl."
      value := intToFloat (clerk.timestamp snapshot.lastUpdated) }]

/-- The closure `gauge`. -/
def gaugeLines (clerk : Clerk) (gauge : Gauge) : List String := [
  "# HELP " ++ gauge.name ++ " " ++ gauge.help, "# TYPE " ++ gauge.name ++ " gauge",
  gauge.name ++ " " ++ clerk.display gauge.value]

def metrics (clerk : Clerk) (stats : NetworkStats) (snapshot : Snapshot) : String :=
  String.join (((gauges clerk stats snapshot).flatMap (gaugeLines clerk)).map fun line => line ++ "\n")

/-! ### Reading it back -/

structure Sample where
  name : List Char
  help : List Char
  value : List Char
  deriving DecidableEq

/-- A sample with the two comments above it, which must be its own. -/
def readSample (help type sample : List Char) : Option Sample := do
  let (name, value) ← splitOnce [' '] sample
  let front := "# HELP ".toList ++ name ++ [' ']
  guard (type = "# TYPE ".toList ++ name ++ " gauge".toList ∧ front <+: help)
  return { name, help := help.drop front.length, value }

def readSamples : List (List Char) → Option (List Sample)
  | [] => some []
  | help :: type :: sample :: rest => do return (← readSample help type sample) :: (← readSamples rest)
  | _ => none

def Gauge.sample (clerk : Clerk) (gauge : Gauge) : Sample :=
  { name := gauge.name.toList, help := gauge.help.toList, value := (clerk.display gauge.value).toList }

def Gauge.Plain (gauge : Gauge) : Prop := ' ' ∉ gauge.name.toList ∧ '\n' ∉ gauge.name.toList ∧ '\n' ∉ gauge.help.toList

instance (gauge : Gauge) : Decidable gauge.Plain := inferInstanceAs (Decidable (_ ∧ _ ∧ _))

section
variable {clerk : Clerk} {gauge : Gauge}

theorem readSample_gauge (word : ' ' ∉ gauge.name.toList) :
    readSample ("# HELP " ++ gauge.name ++ " " ++ gauge.help).toList ("# TYPE " ++ gauge.name ++ " gauge").toList
      (gauge.name ++ " " ++ clerk.display gauge.value).toList = some (gauge.sample clerk) := by
  have cut : splitOnce [' '] (gauge.name ++ " " ++ clerk.display gauge.value).toList =
      some (gauge.name.toList, (clerk.display gauge.value).toList) := by
    rw [String.toList_append, String.toList_append]
    exact splitOnce_of_fresh word [] _
  have help : ("# HELP " ++ gauge.name ++ " " ++ gauge.help).toList =
      "# HELP ".toList ++ gauge.name.toList ++ [' '] ++ gauge.help.toList := by
    rw [String.toList_append, String.toList_append, String.toList_append]
    rfl
  have type :
      ("# TYPE " ++ gauge.name ++ " gauge").toList = "# TYPE ".toList ++ gauge.name.toList ++ " gauge".toList := by
    rw [String.toList_append, String.toList_append]
  rw [readSample, cut, help, type]
  simp [Gauge.sample, guard]

theorem oneLine_gauge (plain : gauge.Plain) : ∀ line ∈ gaugeLines clerk gauge, '\n' ∉ line.toList := by
  obtain ⟨-, name, help⟩ := plain
  have value := clerk.oneLine gauge.value
  intro line member
  simp only [gaugeLines, List.mem_cons, List.not_mem_nil, or_false] at member
  rcases member with rfl | rfl | rfl <;> simp [String.toList_append, name, help, value]

theorem readSamples_gauges {all : List Gauge} (plain : ∀ gauge ∈ all, gauge.Plain) :
    readSamples ((all.flatMap (gaugeLines clerk)).map String.toList) = some (all.map (Gauge.sample clerk)) := by
  induction all with
  | nil => rfl
  | cons gauge all ih =>
    obtain ⟨here, later⟩ := List.forall_mem_cons.mp plain
    rw [List.flatMap_cons, List.map_append, gaugeLines]
    simp only [List.map_cons, List.map_nil, List.cons_append, List.nil_append]
    rw [readSamples, readSample_gauge here.1, ih later]
    rfl

end

theorem toList_join (rows : List String) :
    (String.join (rows.map fun line => line ++ "\n")).toList = unlines (rows.map String.toList) := by
  rw [String.toList_join, unlines, List.flatMap_map, List.flatMap_map]
  exact List.flatMap_congr fun line _ => String.toList_append

theorem gauges_plain (clerk : Clerk) (stats : NetworkStats) (snapshot : Snapshot) :
    (∀ gauge ∈ gauges clerk stats snapshot, gauge.Plain) ∧ ((gauges clerk stats snapshot).map Gauge.name).Nodup := by
  refine ⟨?_, by simp only [gauges, List.map_cons, List.map_nil]; decide⟩
  intro gauge member
  simp only [gauges, List.mem_cons, List.not_mem_nil, or_false] at member
  rcases member with rfl | rfl | rfl | rfl | rfl | rfl | rfl | rfl | rfl <;>
    exact (show _ ∧ _ ∧ _ by dsimp only; decide)

/-- What is to be read off a snapshot, for a network of that many blocks. -/
def figures (clerk : Clerk) (snapshot : Snapshot) (total : Nat) : List (String × Float) :=
  let served := (Finset.range total).filter fun b => ∃ report ∈ snapshot.modelReports, report.Serves b
  [("kwaainet_nodes", natToFloat snapshot.peers.length),
    ("kwaainet_peers", natToFloat snapshot.numPeers),
    ("kwaainet_tokens_per_second", snapshot.peers.foldl (fun sum p => sum + p.throughput.toFloat) (-0.0)),
    ("kwaainet_block_coverage_percent",
      if total = 0 then 0.0 else natToFloat served.card / natToFloat total * 100.0),
    ("kwaainet_blocks_covered", natToFloat snapshot.numBlocksCovered),
    ("kwaainet_models", natToFloat snapshot.modelReports.length),
    ("kwaainet_bootstraps_online", natToFloat (snapshot.bootstrapStates.count "online")),
    ("kwaainet_bootstraps_total", natToFloat snapshot.bootstrapStates.length),
    ("kwaainet_last_crawl_timestamp_seconds", intToFloat (clerk.timestamp snapshot.lastUpdated))]

theorem gauges_figures (clerk : Clerk) {cache : NodeCache} (derived : cache.nodes = nodeEntries cache.snapshot)
    (totalBlocks : Option Nat) :
    (gauges clerk (cache.stats totalBlocks) cache.snapshot).map (fun gauge => (gauge.name, gauge.value)) =
      figures clerk cache.snapshot (statsTotal cache.snapshot totalBlocks) := by
  have nodes : cache.nodes.length = cache.snapshot.peers.length := by
    rw [derived]
    exact List.length_map _
  have tokens : cache.nodes.foldl (fun sum n => sum + n.throughput.toFloat) (-0.0) =
      cache.snapshot.peers.foldl (fun sum p => sum + p.throughput.toFloat) (-0.0) := by
    rw [derived]
    exact List.foldl_map
  have online : (cache.snapshot.bootstrapStates.filter fun s => s = "online").length =
      cache.snapshot.bootstrapStates.count "online" := by
    rw [List.count_eq_length_filter]
    congr 1
  unfold gauges figures NodeCache.stats
  simp only [List.map_cons, List.map_nil, nodes, tokens, online, coveredCount_eq]

/-- Whatever was crawled, the text of a scrape reads back line by line as its gauges, each under its own help and
type and no name twice. After any publishes the gauges give the figures of the snapshot served. -/
theorem metrics_read_back (clerk : Clerk) (stats : NetworkStats) (snapshot : Snapshot) :
    readSamples (lines (metrics clerk stats snapshot).toList) =
        some ((gauges clerk stats snapshot).map (Gauge.sample clerk)) ∧
      ((gauges clerk stats snapshot).map Gauge.name).Nodup ∧
      ∀ now crawls totalBlocks,
        let cache := (NodeCache.new now).publishAll crawls
        (gauges clerk (cache.stats totalBlocks) cache.snapshot).map (fun gauge => (gauge.name, gauge.value)) =
          figures clerk cache.snapshot (statsTotal cache.snapshot totalBlocks) := by
  obtain ⟨plain, nodup⟩ := gauges_plain clerk stats snapshot
  refine ⟨?_, nodup, fun now crawls totalBlocks =>
    gauges_figures clerk (publishAll_nodes crawls (NodeCache.new now) rfl) totalBlocks⟩
  have single : ∀ row ∈ ((gauges clerk stats snapshot).flatMap (gaugeLines clerk)).map String.toList, '\n' ∉ row := by
    intro row member
    obtain ⟨line, written, rfl⟩ := List.mem_map.mp member
    obtain ⟨gauge, listed, line_of⟩ := List.mem_flatMap.mp written
    exact oneLine_gauge (plain gauge listed) line line_of
  rw [metrics, toList_join, lines_unlines single, readSamples_gauges plain]

end KwaaiNetMap
