import KwaaiNetMap.Crawler.Completion

/-!
A report counts the blocks its online peers are listed under, and a peer is listed under every block key
that ever carried one of its records. `mem_covered` says what that makes of the answers of one model:
a block is covered when some peer has a record there and an online record anywhere.
-/

namespace KwaaiNetMap
open Collections

section
variable {input : CrawlInput}

theorem healthy_iff (distinct : (input.models.map fun m => m.dhtPrefix).Nodup) {model : Model}
    (read : model ∈ input.models) (blocks : 1 ≤ model.numBlocks) :
    (∃ report ∈ input.reports, report.dhtPrefix = model.dhtPrefix ∧ report.state = "healthy") ↔
      ((coveredBlocks (input.peersOf model)).len : Int) = model.numBlocks := by
  have state : ∀ m : Model, (reportOf input m).state = "healthy" ↔
      ((coveredBlocks (input.peersOf m)).len : Int) = m.numBlocks := by
    intro m
    change (if ((coveredBlocks (input.peersOf m)).len : Int) = m.numBlocks then "healthy" else "broken") =
      "healthy" ↔ _
    split <;> simp_all
  constructor
  · rintro ⟨report, shown, same, healthy⟩
    obtain ⟨m, listed, rfl⟩ := mem_reports.mp shown
    have equal : m = model := List.inj_on_of_nodup_map distinct (mem_listed.mp listed).1 read same
    exact equal ▸ (state m).mp healthy
  · intro full
    have listed : ∃ peer, peer ∈ input.peersOf model := by
      by_contra none
      have empty : input.peersOf model = [] :=
        List.eq_nil_iff_forall_not_mem.mpr fun peer member => none ⟨peer, member⟩
      rw [empty] at full
      change ((0 : Nat) : Int) = _ at full
      omega
    exact ⟨reportOf input model, mem_reports.mpr ⟨model, mem_listed.mpr ⟨read, listed⟩, rfl⟩, rfl,
      (state model).mpr full⟩

theorem blocksCovered_le (within : ∀ model ∈ input.models,
      ((coveredBlocks (input.peersOf model)).len : Int) ≤ model.numBlocks) :
    (input.blocksCovered : Int) ≤ (input.models.map fun m => m.numBlocks).sum := by
  unfold CrawlInput.blocksCovered CrawlInput.listed
  generalize input.models = models at within
  induction models with
  | nil => simp
  | cons model rest ih =>
    have head := within model List.mem_cons_self
    have tail := ih fun m member => within m (List.mem_cons_of_mem _ member)
    rw [List.map_cons, List.sum_cons]
    by_cases empty : (input.peersOf model).isEmpty = true
    · rw [List.filter_cons_of_neg (by simpa using empty)]
      exact tail.trans (le_add_of_nonneg_left (by omega))
    · rw [List.filter_cons_of_pos (by simpa using empty), List.map_cons, List.sum_cons, Int.natCast_add]
      exact Int.add_le_add head tail

end

/-! ### What the answers cover -/

section
variable {rmpv : Rmpv} {order : IterOrder} {base : CrawlInput} {answers : Answers}
  {capability : List FindResponse}

theorem under_eq (distinct : (answers.map fun a => a.1.dhtPrefix).Nodup)
    {answer : Model × List FindResponse} (asked : answer ∈ answers) :
    answers.under answer.1.dhtPrefix = answer.2 := by
  unfold Answers.under
  induction answers with
  | nil => cases asked
  | cons first rest ih =>
    simp only [List.map_cons, List.nodup_cons] at distinct
    have apart : ∀ a ∈ rest, a.1.dhtPrefix ≠ first.1.dhtPrefix := fun a member same =>
      distinct.1 (List.mem_map.mpr ⟨a, member, same⟩)
    rcases List.mem_cons.mp asked with rfl | later
    · have none : (rest.filter fun a => decide (a.1.dhtPrefix = answer.1.dhtPrefix)) = [] :=
        List.filter_eq_nil_iff.mpr fun a member => by simpa using apart a member
      rw [List.filter_cons_of_pos (by simp), none]
      simp
    · rw [List.filter_cons_of_neg (by simpa using (apart answer later).symm)]
      exact ih distinct.2 later

theorem models_distinct (distinct : (answers.map fun a => a.1.dhtPrefix).Nodup) :
    ((base.withAnswers rmpv order answers capability).models.map fun m => m.dhtPrefix).Nodup := by
  rw [CrawlInput.withAnswers, List.map_map]
  exact distinct

theorem block_of_record {responses : List FindResponse} {r : BlockRecord}
    (carried : r ∈ recordsOf rmpv responses) :
    ∃ resp ∈ responses, 0 ≤ r.block ∧ r.block < resp.results.length := by
  obtain ⟨resp, answered, carried⟩ := List.mem_flatMap.mp carried
  obtain ⟨⟨result, index⟩, placed, carried⟩ := List.mem_flatMap.mp carried
  have bound := List.snd_lt_of_mem_zipIdx placed
  unfold resultRecords at carried
  dsimp only at carried bound
  split at carried
  · cases carried
  · obtain ⟨server, -, rfl⟩ := List.mem_map.mp carried
    exact ⟨resp, answered, by dsimp only; omega, by dsimp only; omega⟩

theorem mem_covered (distinct : (answers.map fun a => a.1.dhtPrefix).Nodup)
    {answer : Model × List FindResponse} (asked : answer ∈ answers) (b : Int) :
    b ∈ (coveredBlocks ((base.withAnswers rmpv order answers capability).peersOf answer.1)).items ↔
      ∃ r ∈ recordsOf rmpv answer.2, r.block = b ∧
        ∃ x ∈ recordsOf rmpv answer.2, x.peerId = r.peerId ∧ x.IsOnline := by
  rw [mem_coveredBlocks]
  constructor
  · rintro ⟨⟨id, e⟩, member, online, listed⟩
    have stored := (mem_peersOf_withAnswers answer.1 id e).mp member
    rw [under_eq distinct asked] at stored
    obtain ⟨r, carried, rfl, here⟩ := ((collected_entry rmpv stored).1 b).mp listed
    exact ⟨r, carried, here, (collected_online rmpv stored).mp online⟩
  · rintro ⟨r, carried, here, online⟩
    obtain ⟨e, stored⟩ := collected_of_mem rmpv carried
    have listed : (r.peerId, e) ∈ (base.withAnswers rmpv order answers capability).peersOf answer.1 := by
      rw [mem_peersOf_withAnswers, under_eq distinct asked]
      exact stored
    exact ⟨(r.peerId, e), listed, (collected_online rmpv stored).mpr online,
      ((collected_entry rmpv stored).1 b).mpr ⟨r, carried, rfl, here⟩⟩

/-! ### Coverage by online records -/

def OnlineAt (rmpv : Rmpv) (responses : List FindResponse) (b : Int) : Prop :=
  ∃ r ∈ recordsOf rmpv responses, r.block = b ∧ r.IsOnline

instance (rmpv : Rmpv) (responses : List FindResponse) (b : Int) : Decidable (OnlineAt rmpv responses b) :=
  inferInstanceAs (Decidable (∃ r ∈ recordsOf rmpv responses, r.block = b ∧ r.IsOnline))

theorem covered_of_onlineAt (distinct : (answers.map fun a => a.1.dhtPrefix).Nodup)
    {answer : Model × List FindResponse} (asked : answer ∈ answers) {b : Int}
    (online : OnlineAt rmpv answer.2 b) :
    b ∈ (coveredBlocks ((base.withAnswers rmpv order answers capability).peersOf answer.1)).items := by
  obtain ⟨r, carried, here, state⟩ := online
  exact (mem_covered distinct asked b).mpr ⟨r, carried, here, r, carried, rfl, state⟩

theorem len_eq_numBlocks_iff {covered : BTreeSet Int} {n : Int} (positive : 0 ≤ n)
    (within : ∀ b ∈ covered.items, 0 ≤ b ∧ b < n) :
    ((BTreeSet.len covered : Nat) : Int) = n ↔ ∀ b, 0 ≤ b → b < n → b ∈ covered.items := by
  obtain ⟨k, rfl⟩ := Int.eq_ofNat_of_zero_le positive
  rw [← BTreeSet.len_eq_iff_full within]
  exact Int.natCast_inj

theorem len_le_numBlocks {covered : BTreeSet Int} {n : Int} (positive : 0 ≤ n)
    (within : ∀ b ∈ covered.items, 0 ≤ b ∧ b < n) : ((BTreeSet.len covered : Nat) : Int) ≤ n := by
  obtain ⟨k, rfl⟩ := Int.eq_ofNat_of_zero_le positive
  exact Int.ofNat_le.mpr (BTreeSet.len_le_of_within within)

theorem covered_iff_onlineAt (distinct : (answers.map fun a => a.1.dhtPrefix).Nodup)
    {answer : Model × List FindResponse} (asked : answer ∈ answers)
    (grounded : ∀ r ∈ recordsOf rmpv answer.2,
      (∃ x ∈ recordsOf rmpv answer.2, x.peerId = r.peerId ∧ x.IsOnline) → OnlineAt rmpv answer.2 r.block) (b : Int) :
    b ∈ (coveredBlocks ((base.withAnswers rmpv order answers capability).peersOf answer.1)).items ↔
      OnlineAt rmpv answer.2 b := by
  refine ⟨fun listed => ?_, covered_of_onlineAt distinct asked⟩
  obtain ⟨r, carried, rfl, online⟩ := (mem_covered distinct asked b).mp listed
  exact grounded r carried online

theorem onlineAt_within {responses : List FindResponse} {n : Int}
    (records : ∀ r ∈ recordsOf rmpv responses, r.block < n) {b : Int} (online : OnlineAt rmpv responses b) :
    0 ≤ b ∧ b < n := by
  obtain ⟨r, carried, rfl, -⟩ := online
  obtain ⟨-, -, low, -⟩ := block_of_record carried
  exact ⟨low, records r carried⟩

theorem healthy_iff_online {overflowChecks : Bool} {now : DateTime} {s : Snapshot}
    (built : buildSnapshot overflowChecks order now (base.withAnswers rmpv order answers capability) = some s)
    (distinct : (answers.map fun a => a.1.dhtPrefix).Nodup) {answer : Model × List FindResponse}
    (asked : answer ∈ answers) (blocks : 1 ≤ answer.1.numBlocks)
    (records : ∀ r ∈ recordsOf rmpv answer.2, r.block < answer.1.numBlocks)
    (covered : ∀ b, b ∈ (coveredBlocks ((base.withAnswers rmpv order answers capability).peersOf answer.1)).items ↔
      OnlineAt rmpv answer.2 b) :
    (∃ report ∈ s.modelReports, report.dhtPrefix = answer.1.dhtPrefix ∧ report.state = "healthy") ↔
      ∀ b, 0 ≤ b → b < answer.1.numBlocks → OnlineAt rmpv answer.2 b := by
  have within : ∀ b ∈
      (coveredBlocks ((base.withAnswers rmpv order answers capability).peersOf answer.1)).items,
      0 ≤ b ∧ b < answer.1.numBlocks := fun b listed => onlineAt_within records ((covered b).mp listed)
  rw [built_modelReports built, healthy_iff (models_distinct distinct) (List.mem_map_of_mem asked) blocks,
    len_eq_numBlocks_iff (by omega) within]
  simp only [covered]

/-- Exactly when a model's coverage rests on online records alone: where a peer with an online record
anywhere has a record under some block, an online record stands under that block. The report is then
healthy exactly when every block has one. -/
theorem coverage_online_iff {overflowChecks : Bool} {now : DateTime} {s : Snapshot}
    (built : buildSnapshot overflowChecks order now (base.withAnswers rmpv order answers capability) = some s)
    (distinct : (answers.map fun a => a.1.dhtPrefix).Nodup) {model : Model} {responses : List FindResponse}
    (asked : (model, responses) ∈ answers) (blocks : 1 ≤ model.numBlocks)
    (aligned : ∀ resp ∈ responses, (resp.results.length : Int) ≤ model.numBlocks) :
    ((∀ b, b ∈ (coveredBlocks ((base.withAnswers rmpv order answers capability).peersOf model)).items ↔
        OnlineAt rmpv responses b) ∧
      ((∃ report ∈ s.modelReports, report.dhtPrefix = model.dhtPrefix ∧ report.state = "healthy") ↔
        ∀ b, 0 ≤ b → b < model.numBlocks → OnlineAt rmpv responses b)) ↔
    ∀ r ∈ recordsOf rmpv responses,
      (∃ x ∈ recordsOf rmpv responses, x.peerId = r.peerId ∧ x.IsOnline) → OnlineAt rmpv responses r.block := by
  constructor
  · rintro ⟨grounded, -⟩ r carried online
    exact (grounded r.block).mp ((mem_covered distinct asked r.block).mpr ⟨r, carried, rfl, online⟩)
  · intro grounded
    have covered : ∀ b,
        b ∈ (coveredBlocks ((base.withAnswers rmpv order answers capability).peersOf model)).items ↔
          OnlineAt rmpv responses b := covered_iff_onlineAt distinct asked grounded
    have records : ∀ r ∈ recordsOf rmpv responses, r.block < model.numBlocks := by
      intro r carried
      obtain ⟨resp, answered, -, high⟩ := block_of_record carried
      exact lt_of_lt_of_le high (aligned resp answered)
    exact ⟨covered, healthy_iff_online built distinct asked blocks records covered⟩

theorem coverage_online_replaced :
    let model : Model := { dhtPrefix := "m", repository := "", numBlocks := 2 }
    let first := Wire.dictionary [("QmA", Wire.record (-1) []), ("QmB", Wire.record 2 [])]
    let second := Wire.dictionary [("QmA", Wire.record 2 [])]
    let responses : List FindResponse := [{ results := [.dictionary first, .dictionary second] }]
    let rmpv := Wire.reader [first, second]
    ∃ s, buildSnapshot false .insertion 0 (CrawlInput.lone rmpv model responses) = some s ∧
      ((∃ report ∈ s.modelReports, report.dhtPrefix = model.dhtPrefix ∧ report.state = "healthy") ↔
        ∀ b, 0 ≤ b → b < model.numBlocks → OnlineAt rmpv responses b) := by
  intro model first second responses rmpv
  have completes : (buildSnapshot false .insertion 0 (CrawlInput.lone rmpv model responses)).isSome = true := by
    decide +kernel
  obtain ⟨s, built⟩ := Option.isSome_iff_exists.mp completes
  refine ⟨s, built, ((coverage_online_iff built ?_ List.mem_cons_self ?_ ?_).mpr ?_).2⟩
  · decide
  · decide
  · decide +kernel
  · decide +kernel

/-- A peer that takes its record of block 0 down and serves block 1 is counted under both: the report is
healthy, and no online record stands under block 0. -/
theorem coverage_counts_tombstoned_block :
    let model : Model := { dhtPrefix := "m", repository := "", numBlocks := 2 }
    let first := Wire.dictionary [("QmA", Wire.record (-1) [])]
    let second := Wire.dictionary [("QmA", Wire.record 2 [])]
    let responses : List FindResponse := [{ results := [.dictionary first, .dictionary second] }]
    let rmpv := Wire.reader [first, second]
    let input := CrawlInput.lone rmpv model responses
    (buildSnapshot false .insertion 0 input).map (fun s => s.modelReports.map fun r => r.state) =
        some ["healthy"] ∧
      0 ∈ (coveredBlocks (input.peersOf model)).items ∧ ¬ OnlineAt rmpv responses 0 := by
  decide +kernel

/-! ### Coverage within the model -/

def RecordsWithin (rmpv : Rmpv) (answers : Answers) : Prop :=
  ∀ answer ∈ answers, ∀ r ∈ recordsOf rmpv answer.2, r.block < answer.1.numBlocks

instance (rmpv : Rmpv) (answers : Answers) : Decidable (RecordsWithin rmpv answers) :=
  inferInstanceAs (Decidable (∀ answer ∈ answers, ∀ r ∈ recordsOf rmpv answer.2, r.block < answer.1.numBlocks))

/-- With all records online, exactly when positions stay blocks of the model: no result past the last
block carries a server record. No count then exceeds the model's, and healthy means every block is
served. -/
theorem alignment_iff {overflowChecks : Bool} {now : DateTime} {s : Snapshot}
    (built : buildSnapshot overflowChecks order now (base.withAnswers rmpv order answers capability) = some s)
    (distinct : (answers.map fun a => a.1.dhtPrefix).Nodup) (blocks : ∀ answer ∈ answers, 1 ≤ answer.1.numBlocks)
    (online : ∀ answer ∈ answers, ∀ r ∈ recordsOf rmpv answer.2, r.IsOnline) :
    ((∀ answer ∈ answers,
        (∀ id e, (collectResponses rmpv ∅ answer.2).get? id = some e →
          ∀ b ∈ e.blocks.items, 0 ≤ b ∧ b < answer.1.numBlocks) ∧
        ((coveredBlocks ((base.withAnswers rmpv order answers capability).peersOf answer.1)).len : Int) ≤
          answer.1.numBlocks ∧
        ((∃ report ∈ s.modelReports, report.dhtPrefix = answer.1.dhtPrefix ∧ report.state = "healthy") ↔
          ∀ b, 0 ≤ b → b < answer.1.numBlocks → OnlineAt rmpv answer.2 b)) ∧
      (s.numBlocksCovered : Int) ≤ (answers.map fun a => a.1.numBlocks).sum) ↔
    RecordsWithin rmpv answers := by
  constructor
  · rintro ⟨each, -⟩ answer asked r carried
    obtain ⟨e, stored⟩ := collected_of_mem rmpv carried
    have listed : r.block ∈ e.blocks.items := ((collected_entry rmpv stored).1 r.block).mpr ⟨r, carried, rfl, rfl⟩
    exact ((each answer asked).1 r.peerId e stored r.block listed).2
  · intro records
    have covered : ∀ answer ∈ answers, ∀ b,
        b ∈ (coveredBlocks ((base.withAnswers rmpv order answers capability).peersOf answer.1)).items ↔
          OnlineAt rmpv answer.2 b := fun answer asked =>
      covered_iff_onlineAt distinct asked fun r carried _ => ⟨r, carried, rfl, online answer asked r carried⟩
    have bounded : ∀ answer ∈ answers,
        ((coveredBlocks ((base.withAnswers rmpv order answers capability).peersOf answer.1)).len : Int) ≤
          answer.1.numBlocks := fun answer asked =>
      len_le_numBlocks (by have := blocks answer asked; omega) fun b listed =>
        onlineAt_within (records answer asked) ((covered answer asked b).mp listed)
    refine ⟨fun answer asked => ⟨?_, bounded answer asked, ?_⟩, ?_⟩
    · intro id e stored b listed
      obtain ⟨r, carried, -, rfl⟩ := ((collected_entry rmpv stored).1 b).mp listed
      obtain ⟨-, -, low, -⟩ := block_of_record carried
      exact ⟨low, records answer asked r carried⟩
    · exact healthy_iff_online built distinct asked (blocks answer asked) (records answer asked) (covered answer asked)
    · have each : ∀ model ∈ (base.withAnswers rmpv order answers capability).models,
          ((coveredBlocks ((base.withAnswers rmpv order answers capability).peersOf model)).len : Int) ≤
            model.numBlocks := by
        intro model read
        obtain ⟨answer, asked, rfl⟩ := List.mem_map.mp read
        exact bounded answer asked
      have total := blocksCovered_le each
      rw [show (base.withAnswers rmpv order answers capability).models = answers.map Prod.fst from rfl,
        List.map_map] at total
      rw [built_numBlocksCovered built]
      exact total

theorem alignment_with_empty_extra_result :
    let model : Model := { dhtPrefix := "m", repository := "", numBlocks := 2 }
    let served := Wire.dictionary [("QmA", Wire.record 2 [])]
    let responses : List FindResponse := [{ results := [.notFound, .dictionary served, .notFound] }]
    ∃ s, buildSnapshot false .insertion 0 (CrawlInput.lone (Wire.reader [served]) model responses) = some s ∧
      (s.numBlocksCovered : Int) ≤ 2 := by
  intro model served responses
  have completes :
      (buildSnapshot false .insertion 0 (CrawlInput.lone (Wire.reader [served]) model responses)).isSome = true := by
    decide +kernel
  obtain ⟨s, built⟩ := Option.isSome_iff_exists.mp completes
  refine ⟨s, built, ((alignment_iff built ?_ ?_ ?_).mpr ?_).2⟩
  · decide
  · decide
  · decide +kernel
  · decide +kernel

/-- A bootstrap that answers three results for two keys: two blocks are counted, the report is healthy,
and nobody serves block 0. -/
theorem alignment_fails_past_last_block :
    let model : Model := { dhtPrefix := "m", repository := "", numBlocks := 2 }
    let served := Wire.dictionary [("QmA", Wire.record 2 [])]
    let responses : List FindResponse := [{ results := [.notFound, .dictionary served, .dictionary served] }]
    let rmpv := Wire.reader [served]
    let input := CrawlInput.lone rmpv model responses
    (buildSnapshot false .insertion 0 input).map (fun s => s.modelReports.map fun r => r.state) =
        some ["healthy"] ∧
      2 ∈ (coveredBlocks (input.peersOf model)).items ∧ ¬ OnlineAt rmpv responses 0 := by
  decide +kernel

end

end KwaaiNetMap
