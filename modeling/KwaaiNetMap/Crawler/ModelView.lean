import KwaaiNetMap.Crawler.Rearranged

/-!
Every record of a listed model is one row of that model's report, and the reachability issues are the peers that
claim to serve somewhere and could not be dialed (`model_view`).
-/

namespace KwaaiNetMap
open Collections

section
variable {input : CrawlInput}

theorem mem_peersOf {model : Model} {id : String} {entry : PeerModelEntry} :
    (id, entry) ∈ input.peersOf model ↔ input.recordIn id model = some entry := by
  rw [mem_iff_lookup (peersOf_nodup input model), lookup_peersOf]

/-! ### Reports and rows -/

theorem mem_listed_iff {model : Model} :
    model ∈ input.listed ↔ model ∈ input.models ∧ ∃ id entry, input.recordIn id model = some entry := by
  rw [mem_listed, Prod.exists]
  simp only [mem_peersOf]

theorem mem_reportOf_rows {model : Model} {row : ServerRow} :
    row ∈ (reportOf input model).serverRows ↔
      ∃ id entry, input.recordIn id model = some entry ∧ rowOf input (id, entry) = row := by
  rw [mem_serverRows, Prod.exists]
  simp only [mem_peersOf]

theorem reportOf_rows_perm (model : Model) :
    ((reportOf input model).serverRows.map (·.peerId)).Perm ((input.peersOf model).map Prod.fst) := by
  have sorted : (reportOf input model).serverRows.Perm ((input.peersOf model).map (rowOf input)) :=
    List.perm_insertionSort rowBefore _
  have ids := sorted.map (·.peerId)
  rwa [List.map_map] at ids

theorem reportOf_rows_nodup (model : Model) : ((reportOf input model).serverRows.map (·.peerId)).Nodup :=
  (reportOf_rows_perm model).nodup_iff.mpr (peersOf_nodup input model)

def rowStrictlyBefore (a b : ServerRow) : Prop :=
  a.span.start < b.span.start ∨ (a.span.start = b.span.start ∧ a.peerId < b.peerId)

theorem reportOf_rows_sorted (model : Model) : (reportOf input model).serverRows.Pairwise rowStrictlyBefore := by
  have sorted : (reportOf input model).serverRows.Pairwise rowBefore := List.pairwise_insertionSort rowBefore _
  have nodup : ((reportOf input model).serverRows.map (·.peerId)).Nodup := reportOf_rows_nodup model
  have distinct := List.pairwise_map.mp nodup
  refine (sorted.and distinct).imp ?_
  rintro a b ⟨earlier | ⟨same, below⟩, differ⟩
  · exact Or.inl earlier
  · exact Or.inr ⟨same, lt_of_le_of_ne below differ⟩

instance : Std.Total reportBefore := ⟨fun a b => Nat.le_total b.serverRows.length a.serverRows.length⟩

instance : IsTrans ModelReport reportBefore := ⟨fun _ _ _ ab bc => Nat.le_trans bc ab⟩

theorem get?_issues_fold (models : List Model) (issues : BTreeMap String String) (id : String) :
    (models.foldl (fun issues model => issuesFrom input.dialErrors issues (input.peersOf model)) issues).get? id =
      if ∃ model ∈ models, ∃ peer ∈ input.peersOf model, peer.1 = id ∧ peer.2.info.state = "online"
      then (input.dialErrors.get? id).or (issues.get? id) else issues.get? id := by
  induction models generalizing issues with
  | nil => simp
  | cons model models ih =>
    rw [List.foldl_cons, ih, get?_issuesFrom]
    by_cases here : ∃ peer ∈ input.peersOf model, peer.1 = id ∧ peer.2.info.state = "online"
    · by_cases later : ∃ model ∈ models, ∃ peer ∈ input.peersOf model, peer.1 = id ∧ peer.2.info.state = "online"
      · simp only [here, later, List.exists_mem_cons_iff]
        cases input.dialErrors.get? id <;> simp
      · simp only [here, later, List.exists_mem_cons_iff]
        simp
    · simp only [here, List.exists_mem_cons_iff, false_or, if_false]

def CrawlInput.ClaimsToServe (input : CrawlInput) (id : String) : Prop :=
  ∃ model ∈ input.models, ∃ entry, input.recordIn id model = some entry ∧ entry.info.state = "online"

theorem get?_issues (id err : String) :
    input.issues.get? id = some err ↔ input.ClaimsToServe id ∧ input.dialErrors.get? id = some err := by
  have serving : (∃ model ∈ input.listed, ∃ peer ∈ input.peersOf model, peer.1 = id ∧ peer.2.info.state = "online") ↔
      input.ClaimsToServe id := by
    constructor
    · rintro ⟨model, listed, ⟨peerId, entry⟩, member, rfl, online⟩
      exact ⟨model, (mem_listed.mp listed).1, entry, mem_peersOf.mp member, online⟩
    · rintro ⟨model, read, entry, found, online⟩
      have member := mem_peersOf.mpr found
      exact ⟨model, mem_listed.mpr ⟨read, _, member⟩, (id, entry), member, rfl, online⟩
  rw [CrawlInput.issues, get?_issues_fold, BTreeMap.get?_empty, Option.or_none]
  split
  · rename_i claimed
    exact ⟨fun found => ⟨serving.mp claimed, found⟩, And.right⟩
  · rename_i silent
    exact ⟨fun found => (by cases found), fun both => absurd (serving.mpr both.1) silent⟩

end

/-! ### The view -/

/-- A document's reports hold each record of each model once, in order, and its issues name each undialed server
once, in order. -/
structure ModelView (input : CrawlInput) (s : Snapshot) : Prop where
  reported : ∀ model ∈ input.models, (∃ report ∈ s.modelReports, report.dhtPrefix = model.dhtPrefix) ↔
    ∃ id entry, input.recordIn id model = some entry
  owned : ∀ report ∈ s.modelReports, ∃ model ∈ input.models, report.dhtPrefix = model.dhtPrefix
  single : (s.modelReports.map (·.dhtPrefix)).Nodup
  rows : ∀ model ∈ input.models, ∀ report ∈ s.modelReports, report.dhtPrefix = model.dhtPrefix →
    ∀ row, row ∈ report.serverRows ↔
      ∃ id entry, input.recordIn id model = some entry ∧ rowOf input (id, entry) = row
  rowOnce : ∀ report ∈ s.modelReports, (report.serverRows.map (·.peerId)).Nodup
  rowsOrdered : ∀ report ∈ s.modelReports, report.serverRows.Pairwise rowStrictlyBefore
  reportsOrdered : s.modelReports.Pairwise fun a b => b.serverRows.length ≤ a.serverRows.length
  issues : ∀ id err, ⟨id, err⟩ ∈ s.reachabilityIssues ↔
    input.ClaimsToServe id ∧ input.dialErrors.get? id = some err
  issuesOrdered : (s.reachabilityIssues.map (·.peerId)).Pairwise (· < ·)

theorem built_issues {input : CrawlInput} {order : IterOrder} {overflowChecks : Bool} {now : DateTime} {s : Snapshot}
    (built : buildSnapshot overflowChecks order now input = some s) :
    s.reachabilityIssues = input.issues.entries.map fun (peerId, err) => { peerId, err } := by
  obtain ⟨-, contributors, -, rfl⟩ := (buildSnapshot_eq_some input order overflowChecks now s).mp built
  rfl

theorem model_view {input : CrawlInput} {order : IterOrder} {overflowChecks : Bool} {now : DateTime} {s : Snapshot}
    (built : buildSnapshot overflowChecks order now input = some s)
    (distinct : (input.models.map (·.dhtPrefix)).Nodup) : ModelView input s where
  reported model read := by
    rw [built_modelReports built]
    constructor
    · rintro ⟨report, shown, same⟩
      obtain ⟨other, listed, rfl⟩ := mem_reports.mp shown
      obtain ⟨readOther, id, entry, found⟩ := mem_listed_iff.mp listed
      obtain rfl : other = model := List.inj_on_of_nodup_map distinct readOther read same
      exact ⟨id, entry, found⟩
    · rintro ⟨id, entry, found⟩
      exact ⟨reportOf input model, mem_reports.mpr ⟨model, mem_listed_iff.mpr ⟨read, id, entry, found⟩, rfl⟩, rfl⟩
  owned report shown := by
    rw [built_modelReports built] at shown
    obtain ⟨model, listed, rfl⟩ := mem_reports.mp shown
    exact ⟨model, (mem_listed.mp listed).1, rfl⟩
  single := by
    rw [built_modelReports built]
    have arranged : (input.reports.map (·.dhtPrefix)).Perm (input.listed.map (·.dhtPrefix)) := by
      have prefixes := (List.perm_insertionSort reportBefore (input.listed.map (reportOf input))).map (·.dhtPrefix)
      rwa [List.map_map] at prefixes
    exact arranged.nodup_iff.mpr (distinct.sublist (List.filter_sublist.map _))
  rows model read report shown same row := by
    rw [built_modelReports built] at shown
    obtain ⟨other, listed, rfl⟩ := mem_reports.mp shown
    obtain rfl : other = model := List.inj_on_of_nodup_map distinct (mem_listed.mp listed).1 read same
    exact mem_reportOf_rows
  rowOnce report shown := by
    rw [built_modelReports built] at shown
    obtain ⟨model, -, rfl⟩ := mem_reports.mp shown
    exact reportOf_rows_nodup model
  rowsOrdered report shown := by
    rw [built_modelReports built] at shown
    obtain ⟨model, -, rfl⟩ := mem_reports.mp shown
    exact reportOf_rows_sorted model
  reportsOrdered := by
    rw [built_modelReports built]
    exact List.pairwise_insertionSort reportBefore _
  issues id err := by
    rw [built_issues built, ← get?_issues, ← BTreeMap.mem_entries, List.mem_map]
    constructor
    · rintro ⟨⟨peerId, text⟩, member, same⟩
      obtain ⟨rfl, rfl⟩ := ReachabilityIssue.mk.inj same
      exact member
    · intro member
      exact ⟨(id, err), member, rfl⟩
  issuesOrdered := by
    rw [built_issues built, List.map_map]
    exact BTreeMap.keys_sorted input.issues

def splitPeerInput : CrawlInput :=
  let entry := fun state : String =>
    ({ blocks := BTreeSet.ofList [0], info := { state, endBlock := 1 } } : PeerModelEntry)
  { models :=
      [{ dhtPrefix := "a", repository := "", numBlocks := 1 }, { dhtPrefix := "b", repository := "", numBlocks := 1 }]
    perModel :=
      ((∅ : BTreeMap String (HashMap String PeerModelEntry)).insert "a" (HashMap.insert ∅ "QmA" (entry "offline"))).insert
        "b" (HashMap.insert ∅ "QmA" (entry "online"))
    dialErrors := (∅ : BTreeMap String String).insert "QmA" "dial timed out after 15s"
    geo := .disabled }

theorem model_view_of_split_peer :
    ∃ s, buildSnapshot true .insertion 0 splitPeerInput = some s ∧ ModelView splitPeerInput s ∧
      ⟨"QmA", "dial timed out after 15s"⟩ ∈ s.reachabilityIssues := by
  have completes : (buildSnapshot true .insertion 0 splitPeerInput).isSome = true := by decide +kernel
  obtain ⟨s, built⟩ := Option.isSome_iff_exists.mp completes
  have view := model_view built (by decide)
  have online : (splitPeerInput.recordIn "QmA" { dhtPrefix := "b", repository := "", numBlocks := 1 }).map
      (·.info.state) = some "online" := by decide +kernel
  obtain ⟨entry, found, state⟩ := Option.map_eq_some_iff.mp online
  refine ⟨s, built, view, (view.issues _ _).mpr ⟨⟨_, ?_, entry, found, state⟩, by decide +kernel⟩⟩
  exact List.mem_cons_of_mem _ List.mem_cons_self

end KwaaiNetMap
