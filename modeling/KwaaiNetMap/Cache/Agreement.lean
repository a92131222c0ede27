import KwaaiNetMap.Cache.Stats
import KwaaiNetMap.Crawler.Coverage
import KwaaiNetMap.Crawler.Scripted
import KwaaiNetMap.Numeric.Binary64

/-!
The builder unions the block keys of online peers; the stats fill a bitmap from the spans read back out of
the rows. Where the keys of each online peer are its announced range the two agree (`coverage_agrees`).
-/

namespace KwaaiNetMap
open Collections Numeric

/-- The peer is listed under exactly the blocks of the model that its announced range takes in. -/
def ListedAsAnnounced (model : Model) (entry : PeerModelEntry) : Prop :=
  ∀ b : Int, b ∈ entry.blocks.items ↔
    entry.info.startBlock ≤ b ∧ b < entry.info.endBlock ∧ 0 ≤ b ∧ b < model.numBlocks

section
variable {input : CrawlInput}

theorem reportOf_serves (model : Model) (b : Nat) :
    (reportOf input model).Serves b ↔
      ∃ peer ∈ input.peersOf model, peer.2.info.state = "online" ∧
        peer.2.info.startBlock ≤ b ∧ (b : Int) < peer.2.info.endBlock := by
  constructor
  · rintro ⟨row, shown, online, low, high⟩
    obtain ⟨peer, member, rfl⟩ := mem_serverRows.mp shown
    change max peer.2.info.startBlock 0 ≤ b at low
    change (b : Int) < max peer.2.info.endBlock 0 at high
    exact ⟨peer, member, online, by omega, by omega⟩
  · rintro ⟨peer, member, online, low, high⟩
    refine ⟨rowOf input peer, mem_serverRows.mpr ⟨peer, member, rfl⟩, online, ?_, ?_⟩
    · change max peer.2.info.startBlock 0 ≤ b
      omega
    · change (b : Int) < max peer.2.info.endBlock 0
      omega

section Announced
variable {model : Model} (announced : ∀ peer ∈ input.peersOf model, peer.2.info.state = "online" →
  ListedAsAnnounced model peer.2)
include announced

theorem serves_iff_covered {b : Nat} (slot : (b : Int) < model.numBlocks) :
    (reportOf input model).Serves b ↔ (b : Int) ∈ (coveredBlocks (input.peersOf model)).items := by
  rw [reportOf_serves, mem_coveredBlocks]
  constructor
  · rintro ⟨peer, member, online, low, high⟩
    exact ⟨peer, member, online, (announced peer member online b).mpr ⟨low, high, by omega, slot⟩⟩
  · rintro ⟨peer, member, online, listed⟩
    obtain ⟨low, high, -, -⟩ := (announced peer member online b).mp listed
    exact ⟨peer, member, online, low, high⟩

theorem covered_within {b : Int} (covered : b ∈ (coveredBlocks (input.peersOf model)).items) :
    0 ≤ b ∧ b < model.numBlocks := by
  obtain ⟨peer, member, online, listed⟩ := (mem_coveredBlocks _ b).mp covered
  exact ((announced peer member online b).mp listed).2.2

end Announced

/-! ### A network of one model -/

variable {model : Model} (one : input.models = [model])
include one

theorem lone_reports (some : input.peersOf model ≠ []) : input.reports = [reportOf input model] := by
  have listed : input.listed = [model] := by
    rw [CrawlInput.listed, one]
    simp [some]
  rw [CrawlInput.reports, listed]
  rfl

theorem lone_blocksCovered : input.blocksCovered = (coveredBlocks (input.peersOf model)).len := by
  rw [CrawlInput.blocksCovered, CrawlInput.listed, one]
  by_cases none : input.peersOf model = []
  · rw [none]
    simp [none]
    rfl
  · simp [none]

theorem lone_unlisted (none : input.peersOf model = []) : input.reports = [] := by
  rw [CrawlInput.reports, CrawlInput.listed, one]
  simp [none]

theorem lone_total {s : Snapshot} (reports : s.modelReports = input.reports) (blocks : 1 ≤ model.numBlocks)
    (some : input.peersOf model ≠ []) : (statsTotal s none : Int) = model.numBlocks := by
  rw [lone_reports one some] at reports
  have positive : ∃ report ∈ s.modelReports, 0 < report.numBlocks := by
    rw [reports]
    exact ⟨reportOf input model, List.mem_cons_self, blocks⟩
  obtain ⟨⟨report, served, total⟩, -⟩ := statsTotal_of_positive positive
  rw [reports, List.mem_singleton] at served
  rw [← total, served]
  rfl

theorem lone_count {s : Snapshot} (reports : s.modelReports = input.reports) (blocks : 1 ≤ model.numBlocks)
    (announced : ∀ peer ∈ input.peersOf model, peer.2.info.state = "online" → ListedAsAnnounced model peer.2) :
    coveredCount s (statsTotal s none) = (coveredBlocks (input.peersOf model)).len := by
  rw [coveredCount_eq]
  by_cases unlisted : input.peersOf model = []
  · rw [reports, lone_unlisted one unlisted, unlisted]
    simp
    rfl
  · have total := lone_total one reports blocks unlisted
    have within : ∀ b ∈ (coveredBlocks (input.peersOf model)).items, 0 ≤ b ∧ b < (statsTotal s none : Int) := by
      intro b covered
      rw [total]
      exact covered_within announced covered
    rw [BTreeSet.len_eq_card_range within]
    congr 1
    apply Finset.filter_congr
    intro b slot
    have below : (b : Int) < model.numBlocks := by
      have := Finset.mem_range.mp slot
      omega
    rw [reports, lone_reports one unlisted, ← serves_iff_covered announced below]
    simp

end

/-- Where the keys of each online peer are its announced range cut to the model, the blocks counted from
spans are those counted from keys, and the share is 100% exactly when the report is healthy. Binary64
tells apart all counts below `2 ^ 53`, far above `maxBlocks`. -/
theorem coverage_agrees {overflowChecks : Bool} {order : IterOrder} {now : DateTime} {input : CrawlInput}
    {s : Snapshot} (nodes : List NodeEntry) (built : buildSnapshot overflowChecks order now input = some s)
    {model : Model} (one : input.models = [model]) (blocks : 1 ≤ model.numBlocks)
    (bounded : model.numBlocks < 2 ^ 53)
    (announced : ∀ peer ∈ input.peersOf model, peer.2.info.state = "online" → ListedAsAnnounced model peer.2) :
    coveredCount s (statsTotal s none) = s.numBlocksCovered ∧
      ((NodeCache.stats { snapshot := s, nodes } none).coveragePct = 100.0 ↔
        ∃ report ∈ s.modelReports, report.dhtPrefix = model.dhtPrefix ∧ report.state = "healthy") := by
  have reports := built_modelReports built
  have count := lone_count one reports blocks announced
  have total : statsTotal s none = 80 ∧ input.peersOf model = [] ∨ (statsTotal s none : Int) = model.numBlocks := by
    by_cases unlisted : input.peersOf model = []
    · exact Or.inl ⟨statsTotal_of_none (reports.trans (lone_unlisted one unlisted)), unlisted⟩
    · exact Or.inr (lone_total one reports blocks unlisted)
  have positive : 0 < statsTotal s none := by omega
  have within : coveredCount s (statsTotal s none) ≤ statsTotal s none := by
    rw [coveredCount_eq]
    exact (Finset.card_filter_le _ _).trans (Finset.card_range _).le
  refine ⟨by rw [count, built_numBlocksCovered built, lone_blocksCovered one], ?_⟩
  have share : (NodeCache.stats { snapshot := s, nodes } none).coveragePct =
      natToFloat (coveredCount s (statsTotal s none)) / natToFloat (statsTotal s none) * 100.0 :=
    if_neg positive.ne'
  rw [share, percent_eq_hundred_iff positive (by omega) within, count, reports,
    healthy_iff (by rw [one]; simp) (by rw [one]; exact List.mem_cons_self) blocks]
  rcases total with ⟨default, unlisted⟩ | total
  · -- nobody serves the model: no block is counted, of the default 80 or of the model
    rw [default, unlisted]
    change 0 = 80 ↔ ((0 : Nat) : Int) = model.numBlocks
    omega
  · omega

theorem coverage_agrees_on_overlap :
    let entry : Int → Int → String → List Int → PeerModelEntry := fun startBlock endBlock state listed =>
      { blocks := BTreeSet.ofList listed, info := { state, startBlock, endBlock } }
    let model : Model := { dhtPrefix := "m", repository := "", numBlocks := 3 }
    let peers : HashMap String PeerModelEntry :=
      ((((∅ : HashMap String PeerModelEntry).insert "QmA" (entry 1 9 "online" [1, 2])).insert "QmB"
        (entry 2 0 "online" [])).insert "QmC" (entry 0 3 "offline" [0, 1, 2]))
    let input : CrawlInput :=
      { models := [model], perModel := (∅ : BTreeMap _ _).insert "m" peers, geo := .disabled }
    ∃ s, buildSnapshot false .insertion 0 input = some s ∧
      coveredCount s (statsTotal s none) = s.numBlocksCovered ∧
      ((NodeCache.stats { snapshot := s, nodes := [] } none).coveragePct = 100.0 ↔
        ∃ report ∈ s.modelReports, report.dhtPrefix = model.dhtPrefix ∧ report.state = "healthy") := by
  intro entry model peers input
  obtain ⟨s, built⟩ := Option.isSome_iff_exists.mp
    (show (buildSnapshot false .insertion 0 input).isSome = true by decide +kernel)
  refine ⟨s, built, coverage_agrees [] built rfl (by decide) (by decide) ?_⟩
  have listed : input.peersOf model =
      [("QmA", entry 1 9 "online" [1, 2]), ("QmB", entry 2 0 "online" []), ("QmC", entry 0 3 "offline" [0, 1, 2])] :=
    rfl
  rw [listed]
  intro peer member online b
  simp only [List.mem_cons, List.not_mem_nil, or_false] at member
  rcases member with rfl | rfl | rfl
  · rw [BTreeSet.mem_items_ofList]
    simp only [List.mem_cons, List.not_mem_nil, or_false]
    change _ ↔ 1 ≤ b ∧ b < 9 ∧ 0 ≤ b ∧ b < 3
    omega
  · rw [BTreeSet.mem_items_ofList]
    change _ ↔ 2 ≤ b ∧ b < 0 ∧ 0 ≤ b ∧ b < 3
    simp only [List.not_mem_nil, false_iff]
    omega
  · exact absurd online (by decide)

end KwaaiNetMap
