import KwaaiNetMap.Crawler.HashOrder
import KwaaiNetMap.Crawler.ModelView

/-!
The rows, reports, issues and contributors of one document are about the same peers: whoever a report lists
has a row, a row that names a model is listed in its report, and every issue and contributor is a server of
some report (`coherent_of_built`).
-/

namespace KwaaiNetMap
open Collections

/-- Every reference from one part of a document to another is met. -/
structure Coherent (overflowChecks : Bool) (exclude : BTreeSet String) (s : Snapshot) : Prop where
  ascending : (s.peers.map (·.peerId)).Pairwise (· < ·)
  counted : s.numPeers = s.peers.length
  kept : ∀ peer ∈ s.peers, exclude.contains peer.peerId = false
  prefixes : (s.modelReports.map (·.dhtPrefix)).Nodup
  sized : ∀ report ∈ s.modelReports, 1 ≤ report.numBlocks ∧ report.numBlocks ≤ maxBlocks
  servers : ∀ report ∈ s.modelReports,
    report.serverRows ≠ [] ∧ (report.serverRows.map (·.peerId)).Nodup
  listed : ∀ report ∈ s.modelReports, ∀ row ∈ report.serverRows, exclude.contains row.peerId = false →
    ∃ peer ∈ s.peers, peer.peerId = row.peerId ∧ peer.announced = true ∧
      (row.state = "online" → peer.state = "online")
  modelled : ∀ peer ∈ s.peers, ∀ name, peer.model = some name →
    ∃ report ∈ s.modelReports, report.shortName = name ∧
      ∃ row ∈ report.serverRows, row.peerId = peer.peerId ∧ row.state = peer.state ∧
        peer.span = some { start := row.span.start, stop := row.span.stop }
  issues : ∀ issue ∈ s.reachabilityIssues,
    ∃ report ∈ s.modelReports, ∃ row ∈ report.serverRows, row.peerId = issue.peerId ∧ row.state = "online"
  contributors : s.topContributors.length ≤ 5 ∧ (s.topContributors.map (·.peerId)).Nodup ∧
    ∀ c ∈ s.topContributors,
      ∃ report ∈ s.modelReports, ∃ row ∈ report.serverRows, contributor overflowChecks row = some c

theorem coherent_default (overflowChecks : Bool) (exclude : BTreeSet String) (now : DateTime) :
    Coherent overflowChecks exclude (Snapshot.default now) := by
  constructor <;> simp [Snapshot.default]

section
variable {input : CrawlInput} {overflowChecks : Bool}

theorem bestOf_rows {rows : List ServerRow} {best done : HashMap String Contributor}
    (ran : bestOf overflowChecks rows best = some done) {id : String} {c : Contributor}
    (held : done.get? id = some c) :
    best.get? id = some c ∨ ∃ row ∈ rows, contributor overflowChecks row = some c := by
  induction rows generalizing best with
  | nil =>
    obtain rfl := Option.some.inj ran
    exact Or.inl held
  | cons row rows ih =>
    obtain ⟨next, stepped, rest⟩ := Option.bind_eq_some_iff.mp ran
    rcases ih rest with before | ⟨later, member, counted⟩
    · obtain ⟨d, counted, read⟩ := get?_bestStep stepped
      rw [read] at before
      split at before
      · rename_i here
        subst here
        have chosen : higher d (best.get? row.peerId) = c := Option.some.inj before
        unfold higher at chosen
        cases earlier : best.get? row.peerId with
        | none =>
          rw [earlier] at chosen
          exact Or.inr ⟨row, List.mem_cons_self, chosen ▸ counted⟩
        | some e =>
          rw [earlier] at chosen
          dsimp only at chosen
          split at chosen
          · exact Or.inr ⟨row, List.mem_cons_self, chosen ▸ counted⟩
          · exact Or.inl (congrArg some chosen)
      · exact Or.inl before
    · exact Or.inr ⟨later, List.mem_cons_of_mem _ member, counted⟩

theorem mem_listedRows {row : ServerRow} :
    row ∈ input.listedRows ↔ ∃ report ∈ input.reports, row ∈ report.serverRows := List.mem_flatMap

theorem contributors_coherent {order : IterOrder} {listed : List Contributor}
    (top : topContributors overflowChecks order input.reports = some listed) :
    listed.length ≤ 5 ∧ (listed.map (·.peerId)).Nodup ∧
      ∀ c ∈ listed, ∃ report ∈ input.reports, ∃ row ∈ report.serverRows,
        contributor overflowChecks row = some c := by
  rw [topContributors_eq] at top
  obtain ⟨best, ran, rfl⟩ := Option.map_eq_some_iff.mp top
  have perm : (((order.iter best.entries).map Prod.snd).insertionSort throughputBefore).Perm
      (best.entries.map Prod.snd) :=
    (List.perm_insertionSort throughputBefore _).trans ((order.perm _).map Prod.snd)
  have own := best_ownKeys ran
  have ids : (best.entries.map Prod.snd).map (·.peerId) = best.keys := by
    rw [List.map_map, HashMap.keys]
    refine List.map_congr_left fun e member => ?_
    exact own e.1 e.2 ((HashMap.mem_entries _ _ _).mp member)
  refine ⟨List.length_take_le _ _, ?_, ?_⟩
  · have nodup : ((((order.iter best.entries).map Prod.snd).insertionSort throughputBefore).map
        (·.peerId)).Nodup := by
      rw [(perm.map _).nodup_iff, ids]
      exact best.nodup
    exact nodup.sublist ((List.take_sublist _ _).map _)
  · intro c member
    obtain ⟨⟨id, d⟩, stored, rfl⟩ := List.mem_map.mp (perm.subset (List.mem_of_mem_take member))
    rcases bestOf_rows ran ((HashMap.mem_entries _ _ _).mp stored) with empty | ⟨row, listed, counted⟩
    · cases empty
    · obtain ⟨report, shown, inside⟩ := mem_listedRows.mp listed
      exact ⟨report, shown, row, inside, counted⟩

/-! ### Rows and reports -/

theorem mem_blockRecords {id : String} {b : Model × PeerModelEntry} :
    b ∈ input.blockRecords id ↔ b.1 ∈ input.models ∧ input.recordIn id b.1 = some b.2 := by
  rw [CrawlInput.blockRecords, List.mem_filterMap]
  constructor
  · rintro ⟨model, read, found⟩
    obtain ⟨entry, here, rfl⟩ := Option.map_eq_some_iff.mp found
    exact ⟨read, here⟩
  · rintro ⟨read, found⟩
    exact ⟨b.1, read, by rw [found]; rfl⟩

theorem mem_blockRecords_of_blockOf {id : String} {b : Model × PeerModelEntry}
    (block : input.blockOf.get? id = some b) : b ∈ input.blockRecords id := by
  rw [get?_blockOf_eq] at block
  rcases Option.or_eq_some_iff.mp block with serving | ⟨-, first⟩
  · exact List.mem_of_find?_eq_some serving
  · exact List.mem_of_head? first

theorem blockOf_online {id : String} {model : Model} {entry : PeerModelEntry} (read : model ∈ input.models)
    (found : input.recordIn id model = some entry) (online : entry.info.state = "online") :
    ∃ b, input.blockOf.get? id = some b ∧ b.2.info.state = "online" := by
  have member : (model, entry) ∈ input.blockRecords id := mem_blockRecords.mpr ⟨read, found⟩
  have serves : claimsToServe (model, entry) = true := decide_eq_true online
  have serving : ((input.blockRecords id).find? claimsToServe).isSome = true :=
    List.find?_isSome.mpr ⟨_, member, serves⟩
  obtain ⟨b, chosen⟩ := Option.isSome_iff_exists.mp serving
  have claims : claimsToServe b = true := List.find?_some chosen
  refine ⟨b, ?_, of_decide_eq_true claims⟩
  rw [get?_blockOf_eq, chosen]
  rfl

theorem report_of_record {id : String} {model : Model} {entry : PeerModelEntry} (read : model ∈ input.models)
    (found : input.recordIn id model = some entry) :
    reportOf input model ∈ input.reports ∧ rowOf input (id, entry) ∈ (reportOf input model).serverRows :=
  ⟨mem_reports.mpr ⟨model, mem_listed_iff.mpr ⟨read, id, entry, found⟩, rfl⟩,
    mem_reportOf_rows.mpr ⟨id, entry, found, rfl⟩⟩

theorem record_of_row {report : ModelReport} (shown : report ∈ input.reports) {row : ServerRow}
    (member : row ∈ report.serverRows) :
    ∃ model ∈ input.models, ∃ id entry, input.recordIn id model = some entry ∧ rowOf input (id, entry) = row := by
  obtain ⟨model, listed, rfl⟩ := mem_reports.mp shown
  obtain ⟨id, entry, found, same⟩ := mem_reportOf_rows.mp member
  exact ⟨model, (mem_listed_iff.mp listed).1, id, entry, found, same⟩

theorem mem_peerRows {order : IterOrder} {peer : PeerRow} :
    peer ∈ input.peerRows order ↔ ∃ id, input.HasRow id ∧ peerRowAs input input.known id (abbreviated id) = peer := by
  rw [CrawlInput.peerRows, List.mem_map]
  simp only [mem_peerIds_iff]

variable {order : IterOrder} {now : DateTime} {s : Snapshot}

theorem peerRows_ids (input : CrawlInput) (order : IterOrder) :
    (input.peerRows order).map (·.peerId) = (input.peerIds order).items := by
  rw [CrawlInput.peerRows, List.map_map]
  exact List.map_id _

theorem reports_prefixes (distinct : (input.models.map (·.dhtPrefix)).Nodup) :
    (input.reports.map (·.dhtPrefix)).Nodup := by
  have arranged : (input.reports.map (·.dhtPrefix)).Perm (input.listed.map (·.dhtPrefix)) := by
    have sorted := (List.perm_insertionSort reportBefore (input.listed.map (reportOf input))).map (·.dhtPrefix)
    rwa [List.map_map] at sorted
  exact arranged.nodup_iff.mpr (distinct.sublist (List.filter_sublist.map _))

theorem coherent_of_built (built : buildSnapshot overflowChecks order now input = some s)
    (distinct : (input.models.map (·.dhtPrefix)).Nodup)
    (sized : ∀ model ∈ input.models, 1 ≤ model.numBlocks ∧ model.numBlocks ≤ maxBlocks) :
    Coherent overflowChecks input.exclude s := by
  obtain ⟨-, contributors, top, rfl⟩ := (buildSnapshot_eq_some input order overflowChecks now s).mp built
  refine ⟨?_, rfl, ?_, reports_prefixes distinct, ?_, ?_, ?_, ?_, ?_, contributors_coherent top⟩
  · change ((input.peerRows order).map (·.peerId)).Pairwise (· < ·)
    rw [peerRows_ids]
    exact BTreeSet.items_sorted _
  · intro peer shown
    obtain ⟨id, hasRow, rfl⟩ := mem_peerRows.mp shown
    exact hasRow.2
  · intro report shown
    obtain ⟨model, listed, rfl⟩ := mem_reports.mp shown
    exact sized model (mem_listed_iff.mp listed).1
  · intro report shown
    obtain ⟨model, listed, rfl⟩ := mem_reports.mp shown
    obtain ⟨read, id, entry, found⟩ := mem_listed_iff.mp listed
    exact ⟨List.ne_nil_of_mem (report_of_record read found).2, reportOf_rows_nodup model⟩
  · intro report shown row member included
    obtain ⟨model, read, id, entry, found, rfl⟩ := record_of_row shown member
    have hasRow : input.HasRow id := ⟨Or.inl ⟨model, read, by rw [found]; rfl⟩, included⟩
    refine ⟨_, mem_peerRows.mpr ⟨id, hasRow, rfl⟩, rfl, ?_, ?_⟩
    · have block : (input.blockOf.get? id).isSome = true :=
        (blockOf_isSome input id).mpr ⟨model, read, (id, entry), mem_peersOf.mpr found, rfl⟩
      obtain ⟨b, held⟩ := Option.isSome_iff_exists.mp block
      simp [peerRowAs, held]
    · intro online
      obtain ⟨b, held, serving⟩ := blockOf_online read found online
      simp [peerRowAs, held, serving]
  · intro peer shown name modelled
    obtain ⟨id, -, rfl⟩ := mem_peerRows.mp shown
    obtain ⟨b, held, same⟩ := Option.map_eq_some_iff.mp modelled
    obtain ⟨read, found⟩ := mem_blockRecords.mp (mem_blockRecords_of_blockOf held)
    obtain ⟨reported, listed⟩ := report_of_record read found
    refine ⟨_, reported, same, _, listed, rfl, ?_, ?_⟩
    · simp [peerRowAs, held, rowOf, serverRow]
    · simp [peerRowAs, held, rowOf, serverRow]
  · rintro ⟨id, err⟩ shown
    obtain ⟨⟨peerId, text⟩, stored, same⟩ := List.mem_map.mp shown
    obtain ⟨rfl, rfl⟩ := ReachabilityIssue.mk.inj same
    obtain ⟨⟨model, read, entry, found, online⟩, -⟩ :=
      (get?_issues peerId text).mp ((BTreeMap.mem_entries _ _ _).mp stored)
    obtain ⟨reported, listed⟩ := report_of_record read found
    exact ⟨_, reported, _, listed, rfl, online⟩

end

end KwaaiNetMap
