import KwaaiNetMap.Crawler.Document
import KwaaiNetMap.Crawler.Scripted

/-!
The two partial operations of a pass are the cut in `shortPeerId` and the block count in
`topContributors`. What the DHT answers reaches both: any subkey or record id the first, any announced
range the second. `pass_completes_iff` says exactly which answers the folds and the builder complete on,
with every `i64` operation in range.
-/

namespace KwaaiNetMap
open Collections Numeric

/-! ### Contributors -/

def CountFits (start stop : Int) : Prop := InI64 (stop - start) ∧ InI64 (stop - start + 1)

def RowFits (row : ServerRow) : Prop := CountFits row.span.start row.span.stop

def contributorOf (row : ServerRow) : Contributor :=
  { peerId := row.peerId
    publicName := row.span.serverInfo.publicName
    throughput := row.span.serverInfo.throughput
    blocks := row.span.stop - row.span.start + 1 }

def bestPass (best : HashMap String Contributor) (row : ServerRow) : HashMap String Contributor :=
  best.upsert row.peerId (higher (contributorOf row))

theorem bestStep_pass (best : HashMap String Contributor) (row : ServerRow) (fits : RowFits row) :
    bestStep true best row = some (bestPass best row) := by
  simp only [bestStep, contributor, i64Result_of_inI64 fits.1]
  simp only [Option.bind_eq_bind, Option.bind_some, i64Result_of_inI64 fits.2]
  rfl

theorem bestStep_trap (best : HashMap String Contributor) (row : ServerRow) (overflow : ¬ RowFits row) :
    bestStep true best row = none := by
  simp only [bestStep, contributor, Option.bind_eq_bind]
  by_cases span : InI64 (row.span.stop - row.span.start)
  · have count : ¬ InI64 (row.span.stop - row.span.start + 1) := fun fits => overflow ⟨span, fits⟩
    rw [i64Result_of_inI64 span, Option.bind_some, i64Result_checked count]
    rfl
  · rw [i64Result_checked span]
    rfl

theorem topContributors_isSome (order : IterOrder) (reports : List ModelReport) :
    (topContributors true order reports).isSome = true ↔
      ∀ report ∈ reports, ∀ row ∈ report.serverRows, RowFits row := by
  have rows := fun (best : HashMap String Contributor) (report : ModelReport) =>
    foldlM_guarded bestStep_pass bestStep_trap report.serverRows best
  have run := foldlM_guarded (P := fun report : ModelReport => ∀ row ∈ report.serverRows, RowFits row)
    (fun best report fits => (rows best report _).mpr ⟨fits, rfl⟩)
    (fun best report overflow => Option.eq_none_iff_forall_ne_some.mpr fun done ran =>
      overflow ((rows best report done).mp ran).1) reports (∅ : HashMap String Contributor)
  rw [Option.isSome_iff_exists]
  simp only [topContributors, Option.bind_eq_bind, Option.bind_eq_some_iff, run]
  constructor
  · rintro ⟨contributors, best, ⟨fits, -⟩, -⟩
    exact fits
  · intro fits
    exact ⟨_, _, ⟨fits, rfl⟩, rfl⟩

/-! ### The rows of a document -/

theorem mem_reports {input : CrawlInput} {report : ModelReport} :
    report ∈ input.reports ↔ ∃ model ∈ input.listed, reportOf input model = report := by
  rw [CrawlInput.reports, List.mem_insertionSort, List.mem_map]

theorem mem_serverRows {input : CrawlInput} {model : Model} {row : ServerRow} :
    row ∈ (reportOf input model).serverRows ↔ ∃ peer ∈ input.peersOf model, rowOf input peer = row := by
  change row ∈ ((input.peersOf model).map (rowOf input)).insertionSort rowBefore ↔ _
  rw [List.mem_insertionSort, List.mem_map]

theorem mem_listed {input : CrawlInput} {model : Model} :
    model ∈ input.listed ↔ model ∈ input.models ∧ ∃ peer, peer ∈ input.peersOf model := by
  rw [CrawlInput.listed, List.mem_filter]
  simp [List.eq_nil_iff_forall_not_mem]

theorem contributors_isSome (order : IterOrder) (input : CrawlInput) :
    (topContributors true order input.reports).isSome = true ↔
      ∀ model ∈ input.models, ∀ peer ∈ input.peersOf model,
        CountFits peer.2.info.startBlock peer.2.info.endBlock := by
  rw [topContributors_isSome]
  constructor
  · intro fits model read peer member
    exact fits (reportOf input model) (mem_reports.mpr ⟨model, mem_listed.mpr ⟨read, peer, member⟩, rfl⟩)
      (rowOf input peer) (mem_serverRows.mpr ⟨peer, member, rfl⟩)
  · intro fits report reported row shown
    obtain ⟨model, listed, rfl⟩ := mem_reports.mp reported
    obtain ⟨peer, member, rfl⟩ := mem_serverRows.mp shown
    exact fits model (mem_listed.mp listed).1 peer member

theorem buildSnapshot_isSome (order : IterOrder) (now : DateTime) (input : CrawlInput) :
    (buildSnapshot true order now input).isSome = true ↔
      input.IdsSliceable order ∧
        ∀ model ∈ input.models, ∀ peer ∈ input.peersOf model,
          CountFits peer.2.info.startBlock peer.2.info.endBlock := by
  rw [← contributors_isSome order input, Option.isSome_iff_exists, Option.isSome_iff_exists]
  simp only [buildSnapshot_eq_some]
  constructor
  · rintro ⟨s, ids, contributors, top, -⟩
    exact ⟨ids, contributors, top⟩
  · rintro ⟨ids, contributors, top⟩
    exact ⟨_, ids, contributors, top, rfl⟩

/-! ### From the answers -/

section
variable (rmpv : Rmpv) (order : IterOrder) (base : CrawlInput) (answers : Answers)
  (capability : List FindResponse)

def announcedBy (dhtPrefix id : String) : Option BlockRecord :=
  announced (ofPeer (recordsOf rmpv (answers.under dhtPrefix)) id)

theorem idsSliceable_withAnswers :
    (base.withAnswers rmpv order answers capability).IdsSliceable order ↔
      (∀ answer ∈ answers, ∀ r ∈ recordsOf rmpv answer.2, Sliceable r.peerId) ∧
      (∀ resp ∈ capability, ∀ entry ∈ capabilityEntries rmpv resp,
        base.exclude.contains entry.1 = false → Sliceable entry.1) ∧
      (∀ id o, base.addrs.get? id = some o → o.kwaaiKad = true → base.exclude.contains id = false →
        Sliceable id) := by
  have listed : ∀ model id, (∃ peer ∈ (base.withAnswers rmpv order answers capability).peersOf model,
      peer.1 = id) ↔ ∃ r ∈ recordsOf rmpv (answers.under model.dhtPrefix), r.peerId = id := by
    intro model id
    rw [← collected_isSome, Option.isSome_iff_exists]
    simp only [Prod.exists, mem_peersOf_withAnswers]
    constructor
    · rintro ⟨_, e, stored, rfl⟩
      exact ⟨e, stored⟩
    · rintro ⟨e, stored⟩
      exact ⟨id, e, stored, rfl⟩
  have asked : ∀ answer ∈ answers, answer.1 ∈ (base.withAnswers rmpv order answers capability).models :=
    fun answer member => List.mem_map_of_mem member
  constructor
  · rintro ⟨models, peers⟩
    refine ⟨?_, ?_, ?_⟩
    · intro answer member r carried
      obtain ⟨peer, shown, same⟩ := (listed answer.1 r.peerId).mpr ⟨r, mem_recordsOf_under member carried, rfl⟩
      exact same ▸ models answer.1 (asked answer member) peer shown
    · intro resp answered entry carried included
      refine peers entry.1 ((mem_peerIds _ order entry.1).mpr ⟨Or.inr (Or.inl ?_), included⟩)
      exact (mem_capability_withAnswers entry.1).mpr ⟨resp, answered, entry, carried, rfl⟩
    · intro id o seen kad included
      exact peers id ((mem_peerIds _ order id).mpr ⟨Or.inr (Or.inr ⟨o, seen, kad⟩), included⟩)
  · rintro ⟨records, entries, kads⟩
    have models : ∀ model ∈ (base.withAnswers rmpv order answers capability).models,
        ModelSliceable (base.withAnswers rmpv order answers capability) model := by
      intro model read peer shown
      obtain ⟨r, carried, same⟩ := (listed model peer.1).mp ⟨peer, shown, rfl⟩
      obtain ⟨answer, member, -, carried⟩ := mem_recordsOf_of_under carried
      exact same ▸ records answer member r carried
    refine ⟨models, fun id row => ?_⟩
    obtain ⟨source, included⟩ := (mem_peerIds _ order id).mp row
    rcases source with block | key | ⟨o, seen, kad⟩
    · obtain ⟨model, read, peer, shown, same⟩ := (blockOf_isSome _ id).mp block
      exact same ▸ models model read peer shown
    · obtain ⟨resp, answered, entry, carried, rfl⟩ := (mem_capability_withAnswers id).mp key
      exact entries resp answered entry carried included
    · exact kads id o seen kad included

/-- Exactly which answers a pass survives: every id it abbreviates is short or has a character boundary
six bytes before its end, and every announced range has a block count inside `i64`. -/
theorem pass_completes_iff (now : DateTime) :
    (buildSnapshot true order now (base.withAnswers rmpv order answers capability)).isSome = true ↔
      (∀ answer ∈ answers, ∀ r ∈ recordsOf rmpv answer.2, Sliceable r.peerId) ∧
      (∀ resp ∈ capability, ∀ entry ∈ capabilityEntries rmpv resp,
        base.exclude.contains entry.1 = false → Sliceable entry.1) ∧
      (∀ id o, base.addrs.get? id = some o → o.kwaaiKad = true → base.exclude.contains id = false →
        Sliceable id) ∧
      (∀ answer ∈ answers, ∀ id r, announcedBy rmpv answers answer.1.dhtPrefix id = some r →
        CountFits r.info.startBlock r.info.endBlock) := by
  have counts : (∀ model ∈ (base.withAnswers rmpv order answers capability).models,
      ∀ peer ∈ (base.withAnswers rmpv order answers capability).peersOf model,
        CountFits peer.2.info.startBlock peer.2.info.endBlock) ↔
      ∀ answer ∈ answers, ∀ id r, announcedBy rmpv answers answer.1.dhtPrefix id = some r →
        CountFits r.info.startBlock r.info.endBlock := by
    constructor
    · intro fits answer member id r found
      have named : ∃ x ∈ recordsOf rmpv (answers.under answer.1.dhtPrefix), x.peerId = id :=
        ⟨r, mem_ofPeer.mp (announced_mem found)⟩
      obtain ⟨e, stored⟩ := Option.isSome_iff_exists.mp ((collected_isSome rmpv _ id).mpr named)
      have kept := (collected_entry rmpv stored).2
      rw [show announced _ = some r from found] at kept
      have info : r.info = e.info := Option.some.inj kept
      have fit := fits answer.1 (List.mem_map_of_mem member) (id, e)
        ((mem_peersOf_withAnswers answer.1 id e).mpr stored)
      rw [info]
      exact fit
    · rintro fits model read ⟨id, e⟩ shown
      obtain ⟨answer, member, rfl⟩ := List.mem_map.mp read
      obtain ⟨r, found, info⟩ := Option.map_eq_some_iff.mp
        (collected_entry rmpv ((mem_peersOf_withAnswers answer.1 id e).mp shown)).2
      rw [← info]
      exact fits answer member id r found
  rw [buildSnapshot_isSome, idsSliceable_withAnswers, counts, and_assoc, and_assoc]

/-- A subkey of thirteen bytes whose sixth from the end is the second of a character, and a range whose
block count is one past the largest `i64`. -/
theorem pass_traps_on_split_id_and_long_range :
    let model : Model := { dhtPrefix := "m", repository := "", numBlocks := 1 }
    let split := Wire.dictionary [("ééééééa", Wire.record 2 [])]
    let long := Wire.dictionary [("QmA", Wire.record 2 [("end_block", Wire.int (2 ^ 63 - 1))])]
    let input := fun w : Wire => CrawlInput.lone (Wire.reader [w]) model [{ results := [.dictionary w] }]
    (buildSnapshot false .insertion 0 (input split)).isSome = false ∧
      (buildSnapshot true .insertion 0 (input long)).isSome = false := by
  decide +kernel

end

end KwaaiNetMap
