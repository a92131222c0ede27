import KwaaiNetMap.Cache.Publish
import KwaaiNetMap.Collections.Bitmap

/-!
`NodeCache.stats` reads the covered share of the network back out of the served rows: one bitmap, filled
by every online row of every report, over as many slots as the largest report has blocks.
-/

namespace KwaaiNetMap
open Collections Numeric

structure NetworkStats where
  nodeCount : Nat
  tokensPerSec : Float
  coveragePct : Float
  activeSessions : Nat
  totalBlocks : Nat
  deriving DecidableEq

def statsTotal (snapshot : Snapshot) (totalBlocks : Option Nat) : Nat :=
  (totalBlocks.or
    ((snapshot.modelReports.map fun m => m.numBlocks.toNat).max?.filter fun n => decide (n > 0))).getD 80

/-- Mark the slots of one row; a node serving only block 0 announces `0..1`. -/
def markRow (total : Nat) (covered : List Bool) (row : ServerRow) : List Bool :=
  if row.state ≠ "online" then covered
  else fillRange covered row.span.start.toNat (min row.span.stop.toNat total)

def coveredSlots (snapshot : Snapshot) (total : Nat) : List Bool :=
  snapshot.modelReports.foldl (fun covered report => report.serverRows.foldl (markRow total) covered)
    (List.replicate total false)

def coveredCount (snapshot : Snapshot) (total : Nat) : Nat := (coveredSlots snapshot total).count true

/-- Aggregate stats over the current snapshot; a sum of throughputs starts at `-0.0`. -/
def NodeCache.stats (cache : NodeCache) (totalBlocks : Option Nat) : NetworkStats :=
  let total := statsTotal cache.snapshot totalBlocks
  { nodeCount := cache.nodes.length
    tokensPerSec := cache.nodes.foldl (fun sum n => sum + n.throughput.toFloat) (-0.0)
    coveragePct :=
      if total = 0 then 0.0
      else natToFloat (coveredCount cache.snapshot total) / natToFloat total * 100.0
    activeSessions := (cache.nodes.filter NodeEntry.isActive).length
    totalBlocks := total }

/-! ### What is counted -/

def ServerRow.Serves (row : ServerRow) (b : Nat) : Prop :=
  row.state = "online" ∧ max row.span.start 0 ≤ b ∧ (b : Int) < max row.span.stop 0

instance (row : ServerRow) (b : Nat) : Decidable (row.Serves b) := inferInstanceAs (Decidable (_ ∧ _))

def ModelReport.Serves (report : ModelReport) (b : Nat) : Prop := ∃ row ∈ report.serverRows, row.Serves b

instance (report : ModelReport) (b : Nat) : Decidable (report.Serves b) :=
  inferInstanceAs (Decidable (∃ row ∈ report.serverRows, row.Serves b))

def onlineRanges (total : Nat) (rows : List ServerRow) : List (Nat × Nat) :=
  (rows.filter fun row => decide (row.state = "online")).map fun row =>
    (row.span.start.toNat, min row.span.stop.toNat total)

theorem foldl_markRow (total : Nat) (covered : List Bool) (rows : List ServerRow) :
    rows.foldl (markRow total) covered = fillRanges covered (onlineRanges total rows) := by
  induction rows generalizing covered with
  | nil => rfl
  | cons row rows ih =>
    rw [List.foldl_cons, ih]
    by_cases online : row.state = "online" <;> simp [markRow, onlineRanges, fillRanges, online]

theorem coveredSlots_eq (snapshot : Snapshot) (total : Nat) :
    coveredSlots snapshot total =
      fillRanges (List.replicate total false)
        (onlineRanges total (snapshot.modelReports.flatMap fun report => report.serverRows)) := by
  rw [← foldl_markRow, List.foldl_flatMap]
  rfl

theorem coveredCount_eq (snapshot : Snapshot) (total : Nat) :
    coveredCount snapshot total =
      ((Finset.range total).filter fun b => ∃ report ∈ snapshot.modelReports, report.Serves b).card := by
  rw [coveredCount, coveredSlots_eq, count_fillRanges]
  congr 1
  apply Finset.filter_congr
  intro b slot
  have below : b < total := Finset.mem_range.mp slot
  constructor
  · rintro ⟨range, member, low, high⟩
    obtain ⟨row, shown, rfl⟩ := List.mem_map.mp member
    obtain ⟨shown, online⟩ := List.mem_filter.mp shown
    obtain ⟨report, served, shown⟩ := List.mem_flatMap.mp shown
    exact ⟨report, served, row, shown, of_decide_eq_true online, by dsimp only at low; omega,
      by dsimp only at high; omega⟩
  · rintro ⟨report, served, row, shown, online, low, high⟩
    refine ⟨(row.span.start.toNat, min row.span.stop.toNat total), ?_, by dsimp only; omega,
      by dsimp only; omega⟩
    exact List.mem_map.mpr ⟨row, List.mem_filter.mpr
      ⟨List.mem_flatMap.mpr ⟨report, served, shown⟩, decide_eq_true online⟩, rfl⟩

theorem statsTotal_of_positive {snapshot : Snapshot}
    (positive : ∃ report ∈ snapshot.modelReports, 0 < report.numBlocks) :
    (∃ report ∈ snapshot.modelReports, report.numBlocks = statsTotal snapshot none) ∧
      ∀ report ∈ snapshot.modelReports, report.numBlocks ≤ statsTotal snapshot none := by
  obtain ⟨report, served, blocks⟩ := positive
  obtain ⟨n, largest⟩ : ∃ n, (snapshot.modelReports.map fun m => m.numBlocks.toNat).max? = some n := by
    rw [← Option.isSome_iff_exists, List.isSome_max?_iff]
    exact List.ne_nil_of_mem (List.mem_map_of_mem served)
  obtain ⟨attained, bound⟩ := List.max?_eq_some_iff.mp largest
  have above : ∀ m ∈ snapshot.modelReports, m.numBlocks.toNat ≤ n := fun m member =>
    bound _ (List.mem_map_of_mem member)
  have some_blocks : n > 0 := by
    have := above report served
    omega
  have total : statsTotal snapshot none = n := by
    rw [statsTotal, largest]
    simp [Option.filter, some_blocks]
  rw [total]
  constructor
  · obtain ⟨m, member, same⟩ := List.mem_map.mp attained
    exact ⟨m, member, by omega⟩
  · intro m member
    have := above m member
    omega

theorem statsTotal_of_none {snapshot : Snapshot} (none : snapshot.modelReports = []) :
    statsTotal snapshot Option.none = 80 := by
  rw [statsTotal, none]
  rfl

/-! ### Coverage of the largest model -/

def largestServed (snapshot : Snapshot) (total : Nat) : Finset Nat :=
  (Finset.range total).filter fun b =>
    ∃ report ∈ snapshot.modelReports, report.numBlocks = total ∧ report.Serves b

/-- Exactly when the count is the coverage of the largest model: every block that an online row of a
smaller model spans, one of a largest model spans too. -/
theorem coveredCount_largest_iff {snapshot : Snapshot}
    (positive : ∃ report ∈ snapshot.modelReports, 0 < report.numBlocks) :
    coveredCount snapshot (statsTotal snapshot none) = (largestServed snapshot (statsTotal snapshot none)).card ↔
      ∀ report ∈ snapshot.modelReports, report.numBlocks < statsTotal snapshot none →
        ∀ b < statsTotal snapshot none, report.Serves b →
          ∃ largest ∈ snapshot.modelReports, largest.numBlocks = statsTotal snapshot none ∧ largest.Serves b := by
  obtain ⟨-, bound⟩ := statsTotal_of_positive positive
  have subset : largestServed snapshot (statsTotal snapshot none) ⊆
      (Finset.range (statsTotal snapshot none)).filter
        fun b => ∃ report ∈ snapshot.modelReports, report.Serves b := by
    intro b member
    obtain ⟨slot, report, served, -, spans⟩ := Finset.mem_filter.mp member
    exact Finset.mem_filter.mpr ⟨slot, report, served, spans⟩
  rw [coveredCount_eq]
  constructor
  · intro count report served _ b slot spans
    have equal := Finset.eq_of_subset_of_card_le subset (Nat.le_of_eq count)
    have member : b ∈ largestServed snapshot (statsTotal snapshot none) := by
      rw [equal]
      exact Finset.mem_filter.mpr ⟨Finset.mem_range.mpr slot, report, served, spans⟩
    exact (Finset.mem_filter.mp member).2
  · intro covered
    congr 1
    apply Finset.Subset.antisymm _ subset
    intro b member
    obtain ⟨slot, report, served, spans⟩ := Finset.mem_filter.mp member
    refine Finset.mem_filter.mpr ⟨slot, ?_⟩
    rcases lt_or_eq_of_le (bound report served) with smaller | largest
    · exact covered report served smaller b (Finset.mem_range.mp slot) spans
    · exact ⟨report, served, largest, spans⟩

def singleRowReport (numBlocks start stop : Int) : ModelReport :=
  { name := "m", shortName := "m", dhtPrefix := "m", repository := "", numBlocks, state := "broken"
    serverRows :=
      [{ peerId := "QmA", shortPeerId := "QmA", showPublicName := false, state := "online", peerIpInfo := {}
         span := { peerId := "QmA", start, stop, serverInfo := { state := "online" } } }] }

theorem coveredCount_largest_shared :
    let snapshot : Snapshot :=
      { lastUpdated := 0, modelReports := [singleRowReport 4 0 2, singleRowReport 2 (-3) 1] }
    coveredCount snapshot (statsTotal snapshot none) = (largestServed snapshot (statsTotal snapshot none)).card := by
  intro snapshot
  refine (coveredCount_largest_iff ⟨singleRowReport 4 0 2, List.mem_cons_self, by decide⟩).mpr ?_
  decide

/-- Two blocks of a smaller model count towards a larger one that serves one. -/
theorem coveredCount_counts_smaller_models :
    let snapshot : Snapshot :=
      { lastUpdated := 0, modelReports := [singleRowReport 4 0 1, singleRowReport 2 0 2] }
    statsTotal snapshot none = 4 ∧ coveredCount snapshot 4 = 2 ∧ (largestServed snapshot 4).card = 1 := by
  decide

end KwaaiNetMap
