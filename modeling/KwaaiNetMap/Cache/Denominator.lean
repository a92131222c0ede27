import KwaaiNetMap.Cache.Stats
import KwaaiNetMap.Crawler.Coverage
import KwaaiNetMap.Crawler.Registry

/-!
The denominator of the stats is read back out of the reports, and only models with a server get one.
`stats_total_iff` says when it still is the block count of the largest registered model.
-/

namespace KwaaiNetMap
open Collections

def largestBlocks (models : List Model) : Int := (models.map fun m => m.numBlocks).max?.getD 0

theorem largestBlocks_spec {models : List Model} (some : models ≠ []) :
    (∃ m ∈ models, m.numBlocks = largestBlocks models) ∧ ∀ m ∈ models, m.numBlocks ≤ largestBlocks models := by
  obtain ⟨n, largest⟩ : ∃ n, (models.map fun m => m.numBlocks).max? = Option.some n := by
    rw [← Option.isSome_iff_exists, List.isSome_max?_iff]
    simpa using some
  obtain ⟨attained, bound⟩ := List.max?_eq_some_iff.mp largest
  rw [largestBlocks, largest]
  constructor
  · obtain ⟨m, member, same⟩ := List.mem_map.mp attained
    exact ⟨m, member, same⟩
  · intro m member
    exact bound _ (List.mem_map_of_mem member)

section
variable {rmpv : Rmpv} {order : IterOrder} {base : CrawlInput} {answers : Answers}
  {capability : List FindResponse}

theorem listed_iff (distinct : (answers.map fun a => a.1.dhtPrefix).Nodup)
    {answer : Model × List FindResponse} (asked : answer ∈ answers) :
    answer.1 ∈ (base.withAnswers rmpv order answers capability).listed ↔ recordsOf rmpv answer.2 ≠ [] := by
  rw [mem_listed]
  constructor
  · rintro ⟨-, ⟨id, e⟩, member⟩ none
    have stored := (mem_peersOf_withAnswers answer.1 id e).mp member
    rw [under_eq distinct asked] at stored
    obtain ⟨r, carried, -⟩ := (collected_isSome rmpv answer.2 id).mp (Option.isSome_iff_exists.mpr ⟨e, stored⟩)
    rw [none] at carried
    cases carried
  · intro some
    obtain ⟨r, carried⟩ := List.exists_mem_of_ne_nil _ some
    obtain ⟨e, stored⟩ := collected_of_mem rmpv carried
    refine ⟨List.mem_map_of_mem asked, (r.peerId, e), ?_⟩
    rw [mem_peersOf_withAnswers, under_eq distinct asked]
    exact stored

section
variable {s : Snapshot} (reports : s.modelReports = (base.withAnswers rmpv order answers capability).reports)
  (distinct : (answers.map fun a => a.1.dhtPrefix).Nodup)
include reports distinct

theorem served_iff (report : ModelReport) :
    report ∈ s.modelReports ↔
      ∃ answer ∈ answers, recordsOf rmpv answer.2 ≠ [] ∧
        reportOf (base.withAnswers rmpv order answers capability) answer.1 = report := by
  rw [reports, mem_reports]
  constructor
  · rintro ⟨model, listed, rfl⟩
    obtain ⟨answer, member, rfl⟩ := List.mem_map.mp (mem_listed.mp listed).1
    exact ⟨answer, member, (listed_iff distinct member).mp listed, rfl⟩
  · rintro ⟨answer, member, some, rfl⟩
    exact ⟨answer.1, (listed_iff distinct member).mpr some, rfl⟩

theorem total_of_silence (silent : ∀ answer ∈ answers, recordsOf rmpv answer.2 = []) : statsTotal s none = 80 := by
  apply statsTotal_of_none
  refine List.eq_nil_iff_forall_not_mem.mpr fun report member => ?_
  obtain ⟨answer, member, some, -⟩ := (served_iff reports distinct report).mp member
  exact some (silent answer member)

theorem total_of_records (blocks : ∀ answer ∈ answers, 1 ≤ answer.1.numBlocks)
    (some : ∃ answer ∈ answers, recordsOf rmpv answer.2 ≠ []) :
    (∃ answer ∈ answers, recordsOf rmpv answer.2 ≠ [] ∧ answer.1.numBlocks = statsTotal s none) ∧
      ∀ answer ∈ answers, recordsOf rmpv answer.2 ≠ [] → answer.1.numBlocks ≤ statsTotal s none := by
  obtain ⟨first, member, carried⟩ := some
  obtain ⟨⟨report, served, total⟩, above⟩ := statsTotal_of_positive
    ⟨_, (served_iff reports distinct _).mpr ⟨first, member, carried, rfl⟩,
      (blocks first member : 1 ≤ first.1.numBlocks)⟩
  obtain ⟨answer, answered, records, rfl⟩ := (served_iff reports distinct report).mp served
  refine ⟨⟨answer, answered, records, total⟩, ?_⟩
  intro other asked records
  exact above _ ((served_iff reports distinct _).mpr ⟨other, asked, records, rfl⟩)

theorem total_of_reports (blocks : ∀ answer ∈ answers, 1 ≤ answer.1.numBlocks) (asked : answers ≠ []) :
    (statsTotal s none : Int) = largestBlocks (answers.map Prod.fst) ↔
      (∃ answer ∈ answers, answer.1.numBlocks = largestBlocks (answers.map Prod.fst) ∧
        recordsOf rmpv answer.2 ≠ []) ∨
      ((∀ answer ∈ answers, recordsOf rmpv answer.2 = []) ∧ largestBlocks (answers.map Prod.fst) = 80) := by
  by_cases silent : ∀ answer ∈ answers, recordsOf rmpv answer.2 = []
  · rw [total_of_silence reports distinct silent]
    constructor
    · intro same
      exact Or.inr ⟨silent, same.symm⟩
    · rintro (⟨answer, member, -, some⟩ | ⟨-, same⟩)
      · exact absurd (silent answer member) some
      · exact same.symm
  · have some : ∃ answer ∈ answers, recordsOf rmpv answer.2 ≠ [] := by simpa using silent
    obtain ⟨⟨answer, answered, records, total⟩, above⟩ := total_of_records reports distinct blocks some
    have nonempty : answers.map Prod.fst ≠ [] := by simpa using asked
    have bound := (largestBlocks_spec nonempty).2 _ (List.mem_map_of_mem answered)
    constructor
    · intro same
      exact Or.inl ⟨answer, answered, total.trans same, records⟩
    · rintro (⟨largest, asked, same, records⟩ | ⟨silent', -⟩)
      · have low := above largest asked records
        omega
      · exact absurd silent' silent

end

end

/-- Exactly when the stats of a crawl that read a registry measure against the largest registered model:
a largest model has a server record among its answers, or no model has any and the largest has 80
blocks. -/
theorem stats_total_iff {overflowChecks : Bool} {order : IterOrder} {rmpv : Rmpv} {bootstrapPeers : List String}
    {world : World} {geo : GeoIp} {s : Snapshot} {nodes : List NodeEntry}
    (ran : crawlOnce overflowChecks order rmpv bootstrapPeers world geo = some s)
    (registered : (readRegistry rmpv world.net world.ourDhtid
      (dialBootstraps world.net bootstrapPeers).set.live ∅ (dialBootstraps world.net bootstrapPeers)).1.isEmpty =
        false) :
    let discovered := discoverModels rmpv world.net world.ourDhtid (dialBootstraps world.net bootstrapPeers)
    let answers := (blockAnswers world.net world.ourDhtid discovered.1 discovered.2).1
    ((NodeCache.stats { snapshot := s, nodes } none).totalBlocks : Int) = largestBlocks discovered.1 ↔
      (∃ answer ∈ answers, answer.1.numBlocks = largestBlocks discovered.1 ∧ recordsOf rmpv answer.2 ≠ []) ∨
      ((∀ answer ∈ answers, recordsOf rmpv answer.2 = []) ∧ largestBlocks discovered.1 = 80) := by
  intro discovered answers
  have models : answers.map Prod.fst = discovered.1 := blockAnswers_models _ _ _ _
  obtain ⟨prefixes, blocks⟩ := discoverModels_wellFormed rmpv world.net world.ourDhtid
    (dialBootstraps world.net bootstrapPeers)
  have distinct : (answers.map fun a => a.1.dhtPrefix).Nodup := by
    have keyed : (discovered.1.map fun m => m.dhtPrefix).Nodup := prefixes
    rw [← models, List.map_map] at keyed
    exact keyed
  have positive : ∀ answer ∈ answers, 1 ≤ answer.1.numBlocks := fun answer asked =>
    (blocks answer.1 (models ▸ List.mem_map_of_mem asked)).1
  have asked : answers ≠ [] := by
    intro none
    have empty : discovered.1 = [] := by rw [← models, none]; rfl
    change (discoverModels rmpv world.net world.ourDhtid (dialBootstraps world.net bootstrapPeers)).1 = [] at empty
    rw [discoverModels] at empty
    simp only [registered, Bool.false_eq_true, if_false, BTreeMap.values, List.map_eq_nil_iff] at empty
    simp [BTreeMap.isEmpty, empty] at registered
  have dialable : (dialBootstraps world.net bootstrapPeers).set.hasDialable = true := by
    by_contra undialed
    rw [live_of_not_dialable (by simpa using undialed)] at registered
    cases registered
  obtain ⟨built, assembled, rfl⟩ := crawlOnce_dialable dialable ran
  have reports := built_modelReports assembled
  rw [crawlInput_eq] at reports
  rw [← models]
  exact total_of_reports reports distinct positive asked

theorem stats_total_of_served_largest :
    let registry := Wire.dictionary
      [("a", Wire.map [("num_blocks", .int 2)]), ("b", Wire.map [("num_blocks", .int 1)])]
    let served := Wire.dictionary [("QmA", Wire.record 2 [])]
    let script : List (Option FindResponse) :=
      [none, some { results := [.dictionary registry] }, some { results := [.dictionary served, .notFound] },
        some { results := [.notFound] }, some { results := [.notFound] }, some { results := [.notFound] }]
    let rmpv := Wire.reader [registry, served]
    let world := World.scripted script
    let bootstrapPeers := ["/ip4/203.0.113.7/tcp/8000/p2p/QmBootstrap"]
    ∃ s, crawlOnce false .insertion rmpv bootstrapPeers world .disabled = some s ∧
      ((NodeCache.stats { snapshot := s, nodes := [] } none).totalBlocks : Int) =
        largestBlocks (discoverModels rmpv world.net world.ourDhtid (dialBootstraps world.net bootstrapPeers)).1 := by
  intro registry served script rmpv world bootstrapPeers
  have completes : (crawlOnce false .insertion rmpv bootstrapPeers world .disabled).isSome = true := by
    decide +kernel
  obtain ⟨s, ran⟩ := Option.isSome_iff_exists.mp completes
  refine ⟨s, ran, (stats_total_iff ran (by decide +kernel)).mpr (Or.inl ?_)⟩
  refine ⟨({ dhtPrefix := "a", repository := "", numBlocks := 2 }, [{ results := [.dictionary served, .notFound] }]),
    ?_, by decide +kernel, ?_⟩
  · decide +kernel
  · decide +kernel

/-- Of two registered models only the smaller has a server: its two blocks are the whole network. -/
theorem stats_total_of_unserved_largest :
    let registry := Wire.dictionary
      [("a", Wire.map [("num_blocks", .int 4)]), ("b", Wire.map [("num_blocks", .int 2)])]
    let served := Wire.dictionary [("QmA", Wire.record 2 [("end_block", .int 2)])]
    let script : List (Option FindResponse) :=
      [none, some { results := [.dictionary registry] },
        some { results := [.notFound, .notFound, .notFound, .notFound] },
        some { results := [.dictionary served, .dictionary served] }, some { results := [.notFound] },
        some { results := [.notFound] }]
    let rmpv := Wire.reader [registry, served]
    let world := World.scripted script
    let bootstrapPeers := ["/ip4/203.0.113.7/tcp/8000/p2p/QmBootstrap"]
    ((crawlOnce false .insertion rmpv bootstrapPeers world .disabled).map fun s =>
        (NodeCache.stats { snapshot := s, nodes := [] } none).totalBlocks) = some 2 ∧
      largestBlocks (discoverModels rmpv world.net world.ourDhtid (dialBootstraps world.net bootstrapPeers)).1 =
        4 := by
  decide +kernel

end KwaaiNetMap
