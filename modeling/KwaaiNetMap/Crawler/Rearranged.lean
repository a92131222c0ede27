import KwaaiNetMap.Crawler.Completion
import KwaaiNetMap.Crawler.Roster

/-!
Two inputs are `Rearranged` when they differ only in the order in which their hash maps are iterated.
Every list of the document but the contributors is then the same: the reports, their rows and the issues
because each is sorted by a key that tells its elements apart or held in a map ordered by peer, the peers
because their ids are.
-/

namespace KwaaiNetMap
open Collections

structure CrawlInput.Rearranged (input input' : CrawlInput) : Prop where
  bootstrapStates : input'.bootstrapStates = input.bootstrapStates
  models : input'.models = input.models
  perModel : ∀ dhtPrefix,
    Option.Rel HashMap.Rearranged (input.perModel.get? dhtPrefix) (input'.perModel.get? dhtPrefix)
  capabilityPeers : input.capabilityPeers.Rearranged input'.capabilityPeers
  addrs : input.addrs.Rearranged input'.addrs
  dialErrors : input'.dialErrors = input.dialErrors
  exclude : input'.exclude = input.exclude
  geo : input'.geo = input.geo

theorem CrawlInput.Rearranged.refl (input : CrawlInput) : input.Rearranged input where
  bootstrapStates := rfl
  models := rfl
  perModel := by
    intro dhtPrefix
    cases input.perModel.get? dhtPrefix with
    | none => exact .none
    | some peers => exact .some (.refl peers)
  capabilityPeers := .refl _
  addrs := .refl _
  dialErrors := rfl
  exclude := rfl
  geo := rfl

/-! ### Sorted rows -/

instance : Std.Total rowBefore where
  total a b := by
    rcases lt_trichotomy a.span.start b.span.start with before | same | after
    · exact Or.inl (Or.inl before)
    · exact (le_total a.peerId b.peerId).imp (fun le => Or.inr ⟨same, le⟩) fun le => Or.inr ⟨same.symm, le⟩
    · exact Or.inr (Or.inl after)

instance : IsTrans ServerRow rowBefore where
  trans a b c := by
    rintro (first | ⟨same, first⟩) (second | ⟨same', second⟩)
    · exact Or.inl (first.trans second)
    · exact Or.inl (same' ▸ first)
    · exact Or.inl (same ▸ second)
    · exact Or.inr ⟨same.trans same', first.trans second⟩

theorem rowBefore_antisymm {a b : ServerRow} (ab : rowBefore a b) (ba : rowBefore b a) :
    a.peerId = b.peerId := by
  rcases ab with before | ⟨level, le⟩
  · rcases ba with after | ⟨level, -⟩
    · exact absurd (before.trans after) (lt_irrefl _)
    · exact absurd before level.symm.not_lt
  · rcases ba with after | ⟨-, ge⟩
    · exact absurd after level.symm.not_lt
    · exact le_antisymm le ge

theorem sortedRows_eq {α : Type*} {rowOf : α → ServerRow} {l l' : List α} (perm : l'.Perm l)
    (distinct : ∀ a ∈ l, ∀ b ∈ l, (rowOf a).peerId = (rowOf b).peerId → a = b) :
    (l'.map rowOf).insertionSort rowBefore = (l.map rowOf).insertionSort rowBefore := by
  have arranged : ((l'.map rowOf).insertionSort rowBefore).Perm ((l.map rowOf).insertionSort rowBefore) :=
    (List.perm_insertionSort _ _).trans ((perm.map rowOf).trans (List.perm_insertionSort _ _).symm)
  refine List.Perm.eq_of_pairwise ?_ (List.pairwise_insertionSort rowBefore _)
    (List.pairwise_insertionSort rowBefore _) arranged
  intro x y first second before after
  obtain ⟨a, ina, rfl⟩ := List.mem_map.mp ((List.mem_insertionSort _).mp (arranged.mem_iff.mp first))
  obtain ⟨b, inb, rfl⟩ := List.mem_map.mp ((List.mem_insertionSort _).mp second)
  rw [distinct a ina b inb (rowBefore_antisymm before after)]

theorem get?_issuesFrom_one (dialErrors issues : BTreeMap String String) (peer : String × PeerModelEntry)
    (id : String) :
    (issuesFrom dialErrors issues [peer]).get? id =
      if peer.1 = id ∧ peer.2.info.state = "online" then (dialErrors.get? id).or (issues.get? id)
      else issues.get? id := by
  rw [issuesFrom, List.foldl_cons, List.foldl_nil]
  by_cases online : peer.2.info.state = "online"
  · by_cases here : peer.1 = id
    · subst here
      cases dialErrors.get? peer.1 <;> simp [online, BTreeMap.insert, BTreeMap.get?_upsert]
    · have other : ¬ id = peer.1 := Ne.symm here
      cases dialErrors.get? peer.1 <;> simp [online, here, other, BTreeMap.insert, BTreeMap.get?_upsert]
  · simp [online]

theorem get?_issuesFrom (dialErrors issues : BTreeMap String String) (peers : List (String × PeerModelEntry))
    (id : String) :
    (issuesFrom dialErrors issues peers).get? id =
      if ∃ peer ∈ peers, peer.1 = id ∧ peer.2.info.state = "online"
      then (dialErrors.get? id).or (issues.get? id) else issues.get? id := by
  induction peers generalizing issues with
  | nil => simp [issuesFrom]
  | cons peer peers ih =>
    have step : issuesFrom dialErrors issues (peer :: peers) =
        issuesFrom dialErrors (issuesFrom dialErrors issues [peer]) peers := rfl
    rw [step, ih, get?_issuesFrom_one]
    by_cases now : peer.1 = id ∧ peer.2.info.state = "online"
    · by_cases later : ∃ peer ∈ peers, peer.1 = id ∧ peer.2.info.state = "online"
      · simp only [now, later, List.exists_mem_cons_iff]
        cases dialErrors.get? id <;> simp
      · simp [now, later]
    · simp only [List.exists_mem_cons_iff, now, false_or, if_false]

/-! ### The document -/

section
variable {input input' : CrawlInput} (same : input.Rearranged input')
include same

theorem CrawlInput.Rearranged.recordIn_eq (id : String) (model : Model) :
    input'.recordIn id model = input.recordIn id model := by
  have peers := same.perModel model.dhtPrefix
  unfold CrawlInput.recordIn
  generalize input.perModel.get? model.dhtPrefix = held at peers ⊢
  generalize input'.perModel.get? model.dhtPrefix = held' at peers ⊢
  cases peers with
  | none => rfl
  | some peers => exact peers.get?_eq id

theorem CrawlInput.Rearranged.peersOf_perm (model : Model) :
    (input'.peersOf model).Perm (input.peersOf model) := by
  have peers := same.perModel model.dhtPrefix
  unfold CrawlInput.peersOf
  generalize input.perModel.get? model.dhtPrefix = held at peers ⊢
  generalize input'.perModel.get? model.dhtPrefix = held' at peers ⊢
  cases peers with
  | none => exact .refl _
  | some peers => exact peers

theorem CrawlInput.Rearranged.listed_eq : input'.listed = input.listed := by
  unfold CrawlInput.listed
  rw [same.models]
  exact List.filter_congr fun model _ => by rw [(same.peersOf_perm model).isEmpty_eq]

theorem CrawlInput.Rearranged.known_get? (id : String) : input'.known.get? id = input.known.get? id := by
  unfold CrawlInput.known
  rw [HashMap.get?_mapValues, HashMap.get?_mapValues, same.addrs.get?_eq, same.geo]

theorem CrawlInput.Rearranged.placed_eq (observed : Option Observed) (usingRelay : Option Bool) :
    peerIpInfoFor observed usingRelay input'.geo input'.known =
      peerIpInfoFor observed usingRelay input.geo input.known := by
  have located (addrs : List String) :
      locateRow input'.geo addrs input'.known = locateRow input.geo addrs input.known := by
    unfold locateRow
    simp only [same.geo, same.known_get?]
  unfold peerIpInfoFor
  simp only [located]

theorem CrawlInput.Rearranged.rowOf_eq (peer : String × PeerModelEntry) : rowOf input' peer = rowOf input peer := by
  unfold rowOf serverRow
  rw [same.placed_eq, same.addrs.get?_eq]

theorem CrawlInput.Rearranged.coveredBlocks_eq (model : Model) :
    coveredBlocks (input'.peersOf model) = coveredBlocks (input.peersOf model) := by
  apply BTreeSet.ext_items
  intro b
  rw [mem_coveredBlocks, mem_coveredBlocks]
  simp only [(same.peersOf_perm model).mem_iff]

theorem CrawlInput.Rearranged.reportOf_eq (model : Model) : reportOf input' model = reportOf input model := by
  have rows : ((input'.peersOf model).map (rowOf input')).insertionSort rowBefore =
      ((input.peersOf model).map (rowOf input)).insertionSort rowBefore := by
    rw [show rowOf input' = rowOf input from funext same.rowOf_eq]
    refine sortedRows_eq (same.peersOf_perm model) fun a ina b inb shared => ?_
    exact List.inj_on_of_nodup_map (peersOf_nodup input model) ina inb shared
  unfold reportOf modelReport
  rw [same.coveredBlocks_eq, rows]

theorem CrawlInput.Rearranged.reports_eq : input'.reports = input.reports := by
  unfold CrawlInput.reports
  rw [same.listed_eq, show reportOf input' = reportOf input from funext same.reportOf_eq]

theorem CrawlInput.Rearranged.blocksCovered_eq : input'.blocksCovered = input.blocksCovered := by
  unfold CrawlInput.blocksCovered
  simp only [same.listed_eq, same.coveredBlocks_eq]

theorem CrawlInput.Rearranged.issues_eq : input'.issues = input.issues := by
  unfold CrawlInput.issues
  rw [same.listed_eq, same.dialErrors]
  refine List.foldl_ext _ _ _ fun issues model _ => ?_
  apply BTreeMap.ext_get?
  intro id
  rw [get?_issuesFrom, get?_issuesFrom]
  simp only [(same.peersOf_perm model).mem_iff]

theorem CrawlInput.Rearranged.blockOf_get? (id : String) : input'.blockOf.get? id = input.blockOf.get? id := by
  have records : input'.blockRecords id = input.blockRecords id := by
    unfold CrawlInput.blockRecords
    rw [same.models]
    exact List.filterMap_congr fun model _ => by rw [same.recordIn_eq]
  rw [get?_blockOf_eq, get?_blockOf_eq, records]

theorem CrawlInput.Rearranged.hasRow_iff (id : String) : input'.HasRow id ↔ input.HasRow id := by
  unfold CrawlInput.HasRow
  simp only [same.models, same.recordIn_eq, same.capabilityPeers.get?_eq, same.addrs.get?_eq, same.exclude]

theorem CrawlInput.Rearranged.peerIds_eq (order order' : IterOrder) :
    input'.peerIds order' = input.peerIds order := by
  apply BTreeSet.ext_items
  intro id
  rw [mem_peerIds_iff, mem_peerIds_iff, same.hasRow_iff]

theorem CrawlInput.Rearranged.peerRows_eq (order order' : IterOrder) :
    input'.peerRows order' = input.peerRows order := by
  unfold CrawlInput.peerRows
  rw [same.peerIds_eq order order']
  refine List.map_congr_left fun id _ => ?_
  unfold peerRowAs
  simp only [same.blockOf_get?, same.capabilityPeers.get?_eq, same.addrs.get?_eq, same.placed_eq]

theorem CrawlInput.Rearranged.document_eq (order order' : IterOrder) (now now' : DateTime)
    (contributors : List Contributor) :
    input'.document order' now' contributors =
      { input.document order now contributors with lastUpdated := now' } := by
  unfold CrawlInput.document
  rw [same.bootstrapStates, same.reports_eq, same.blocksCovered_eq, same.issues_eq,
    same.peerRows_eq order order']

theorem CrawlInput.Rearranged.idsSliceable_iff (order order' : IterOrder) :
    input'.IdsSliceable order' ↔ input.IdsSliceable order := by
  unfold CrawlInput.IdsSliceable ModelSliceable
  rw [same.models, same.peerIds_eq order order']
  simp only [(same.peersOf_perm _).mem_iff]

end

end KwaaiNetMap
