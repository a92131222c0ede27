import KwaaiNetMap.Collections.Trapping
import KwaaiNetMap.Crawler.Assemble

/-!
Where no id is cut inside a character the loops of `buildSnapshot` run to the end, and each is a map or
a filter over what it reads. `buildSnapshot_eq_some` says so for the whole builder: it completes exactly
when every listed id can be abbreviated and the contributors can be computed, and the document is then
`CrawlInput.document`.
-/

namespace KwaaiNetMap
open Collections

/-! ### One model -/

def coveredFrom (covered : BTreeSet Int) (peers : List (String × PeerModelEntry)) : BTreeSet Int :=
  peers.foldl
    (fun covered peer =>
      if peer.2.info.state = "online" then covered.extend peer.2.blocks.items else covered) covered

abbrev coveredBlocks (peers : List (String × PeerModelEntry)) : BTreeSet Int := coveredFrom ∅ peers

def issuesFrom (dialErrors : BTreeMap String String) (issues : BTreeMap String String)
    (peers : List (String × PeerModelEntry)) : BTreeMap String String :=
  peers.foldl
    (fun issues peer =>
      if peer.2.info.state = "online" then
        match dialErrors.get? peer.1 with
        | some err => issues.insert peer.1 err
        | none => issues
      else issues) issues

theorem mem_coveredFrom (covered : BTreeSet Int) (peers : List (String × PeerModelEntry)) (b : Int) :
    b ∈ (coveredFrom covered peers).items ↔
      b ∈ covered.items ∨
        ∃ peer ∈ peers, peer.2.info.state = "online" ∧ b ∈ peer.2.blocks.items := by
  induction peers generalizing covered with
  | nil => simp [coveredFrom]
  | cons peer peers ih =>
    have step : coveredFrom covered (peer :: peers) =
        coveredFrom (if peer.2.info.state = "online" then covered.extend peer.2.blocks.items else covered)
          peers := rfl
    rw [step, ih]
    by_cases online : peer.2.info.state = "online"
    · simp [online, BTreeSet.mem_items_extend, or_assoc]
    · simp [online]

theorem mem_coveredBlocks (peers : List (String × PeerModelEntry)) (b : Int) :
    b ∈ (coveredBlocks peers).items ↔
      ∃ peer ∈ peers, peer.2.info.state = "online" ∧ b ∈ peer.2.blocks.items := by
  rw [mem_coveredFrom]
  simp

section
variable (input : CrawlInput)

def rowOf (peer : String × PeerModelEntry) : ServerRow :=
  serverRow input input.known peer.1 (abbreviated peer.1) peer.2

def serverPass (acc : ServerAcc) (peer : String × PeerModelEntry) : ServerAcc :=
  let acc := markOnline input.dialErrors acc peer.1 peer.2
  { acc with serverRows := acc.serverRows ++ [rowOf input peer] }

theorem serverStep_pass (acc : ServerAcc) (peer : String × PeerModelEntry) (ok : Sliceable peer.1) :
    serverStep input input.known acc peer = some (serverPass input acc peer) := by
  simp only [serverStep, shortPeerId_of_sliceable ok]
  rfl

theorem serverStep_trap (acc : ServerAcc) (peer : String × PeerModelEntry) (bad : ¬ Sliceable peer.1) :
    serverStep input input.known acc peer = none := by
  simp only [serverStep, shortPeerId_of_not_sliceable bad]
  rfl

theorem foldl_serverPass (acc : ServerAcc) (peers : List (String × PeerModelEntry)) :
    peers.foldl (serverPass input) acc =
      { covered := coveredFrom acc.covered peers
        serverRows := acc.serverRows ++ peers.map (rowOf input)
        issues := issuesFrom input.dialErrors acc.issues peers } := by
  induction peers generalizing acc with
  | nil => simp [coveredFrom, issuesFrom]
  | cons peer peers ih =>
    rw [List.foldl_cons, ih, serverPass, markOnline, coveredFrom, coveredFrom, issuesFrom, issuesFrom,
      List.foldl_cons, List.foldl_cons, List.map_cons]
    by_cases online : peer.2.info.state = "online"
    · simp only [if_pos online, List.append_assoc]
      rfl
    · simp only [if_neg online, List.append_assoc]
      rfl

/-! ### Every model -/

def CrawlInput.listed : List Model := input.models.filter fun model => !(input.peersOf model).isEmpty

def reportOf (model : Model) : ModelReport :=
  modelReport model (coveredBlocks (input.peersOf model)) ((input.peersOf model).map (rowOf input))

def CrawlInput.blocksCovered : Nat :=
  (input.listed.map fun model => (coveredBlocks (input.peersOf model)).len).sum

def CrawlInput.issues : BTreeMap String String :=
  input.listed.foldl (fun issues model => issuesFrom input.dialErrors issues (input.peersOf model)) ∅

def CrawlInput.reports : List ModelReport := (input.listed.map (reportOf input)).insertionSort reportBefore

def modelPass (acc : ReportAcc) (model : Model) : ReportAcc :=
  if (input.peersOf model).isEmpty then acc
  else
    { modelReports := acc.modelReports ++ [reportOf input model]
      blocksCovered := acc.blocksCovered + (coveredBlocks (input.peersOf model)).len
      issues := issuesFrom input.dialErrors acc.issues (input.peersOf model) }

def ModelSliceable (model : Model) : Prop := ∀ peer ∈ input.peersOf model, Sliceable peer.1

theorem modelStep_of_listed (acc : ReportAcc) {model : Model}
    (filled : ¬ (input.peersOf model).isEmpty = true) :
    modelStep input input.known acc model =
      ((input.peersOf model).foldlM (serverStep input input.known) { issues := acc.issues }).map
        fun servers =>
          { modelReports := acc.modelReports ++ [modelReport model servers.covered servers.serverRows]
            blocksCovered := acc.blocksCovered + servers.covered.len
            issues := servers.issues } := by
  unfold modelStep CrawlInput.peersOf at *
  cases found : input.perModel.get? model.dhtPrefix with
  | none => simp [found] at filled
  | some peers =>
    simp only [found, Option.map_some, Option.getD_some] at filled ⊢
    rw [if_neg (by simpa [HashMap.isEmpty] using filled), Option.map_eq_bind]
    rfl

theorem modelStep_of_unlisted (acc : ReportAcc) {model : Model}
    (empty : (input.peersOf model).isEmpty = true) :
    modelStep input input.known acc model = some acc := by
  unfold modelStep
  unfold CrawlInput.peersOf at empty
  cases found : input.perModel.get? model.dhtPrefix with
  | none => rfl
  | some peers =>
    rw [found] at empty
    exact if_pos empty

theorem modelStep_pass (acc : ReportAcc) (model : Model) (ok : ModelSliceable input model) :
    modelStep input input.known acc model = some (modelPass input acc model) := by
  by_cases empty : (input.peersOf model).isEmpty = true
  · rw [modelStep_of_unlisted input acc empty, modelPass, if_pos empty]
  · have run := (foldlM_guarded (serverStep_pass input) (serverStep_trap input) (input.peersOf model)
      { issues := acc.issues } _).mpr ⟨ok, rfl⟩
    rw [modelStep_of_listed input acc empty, run, foldl_serverPass, modelPass, if_neg empty]
    rfl

theorem modelStep_trap (acc : ReportAcc) (model : Model) (bad : ¬ ModelSliceable input model) :
    modelStep input input.known acc model = none := by
  have filled : ¬ (input.peersOf model).isEmpty = true := by
    intro empty
    rw [List.isEmpty_iff] at empty
    exact bad (by simp [ModelSliceable, empty])
  rw [modelStep_of_listed input acc filled, Option.map_eq_none_iff, Option.eq_none_iff_forall_ne_some]
  intro servers ran
  exact bad ((foldlM_guarded (serverStep_pass input) (serverStep_trap input) _ _ _).mp ran).1

theorem foldl_modelPass (acc : ReportAcc) (models : List Model) :
    models.foldl (modelPass input) acc =
      let listed := models.filter fun model => !(input.peersOf model).isEmpty
      { modelReports := acc.modelReports ++ listed.map (reportOf input)
        blocksCovered :=
          acc.blocksCovered + (listed.map fun model => (coveredBlocks (input.peersOf model)).len).sum
        issues :=
          listed.foldl (fun issues model => issuesFrom input.dialErrors issues (input.peersOf model))
            acc.issues } := by
  induction models generalizing acc with
  | nil => simp
  | cons model models ih =>
    rw [List.foldl_cons, ih]
    by_cases empty : (input.peersOf model).isEmpty = true
    · simp [modelPass, empty]
    · simp [modelPass, empty, Nat.add_assoc]

/-! ### Every peer -/

def CrawlInput.listings : List (Model × String × PeerModelEntry) :=
  input.models.flatMap fun model => (input.peersOf model).map fun peer => (model, peer)

theorem blockOf_eq :
    input.blockOf = input.listings.foldl
      (fun blocks listing => blocks.upsert listing.2.1 (chooseBlock listing.1 listing.2.2)) ∅ := by
  rw [CrawlInput.blockOf, CrawlInput.listings, List.foldl_flatMap]
  refine List.foldl_ext _ _ _ fun blocks model _ => ?_
  rw [List.foldl_map]

theorem mem_listings (model : Model) (peer : String × PeerModelEntry) :
    (model, peer) ∈ input.listings ↔ model ∈ input.models ∧ peer ∈ input.peersOf model := by
  simp [CrawlInput.listings]

theorem get?_blockOf (id : String) :
    input.blockOf.get? id =
      (input.listings.filter fun listing => decide (listing.2.1 = id)).foldl
        (fun held listing => some (chooseBlock listing.1 listing.2.2 held)) none := by
  rw [blockOf_eq]
  exact get?_foldl_upsert (μ := HashMap String (Model × PeerModelEntry))
    (fun listing : Model × String × PeerModelEntry => listing.2.1)
    (fun listing => chooseBlock listing.1 listing.2.2) input.listings ∅ id

theorem blockOf_isSome (id : String) :
    (input.blockOf.get? id).isSome = true ↔
      ∃ model ∈ input.models, ∃ peer ∈ input.peersOf model, peer.1 = id := by
  have listed : ((input.listings.filter fun listing => decide (listing.2.1 = id)) ≠ []) ↔
      ∃ listing ∈ input.listings, listing.2.1 = id := by
    simp [List.filter_eq_nil_iff]
  rw [get?_blockOf, foldl_some_isSome fun listing : Model × String × PeerModelEntry =>
    chooseBlock listing.1 listing.2.2, listed]
  constructor
  · rintro (absent | ⟨⟨model, peer⟩, member, same⟩)
    · cases absent
    · obtain ⟨read, member⟩ := (mem_listings input model peer).mp member
      exact ⟨model, read, peer, member, same⟩
  · rintro ⟨model, read, peer, member, same⟩
    exact Or.inr ⟨(model, peer), (mem_listings input model peer).mpr ⟨read, member⟩, same⟩

theorem foldl_chooseBlock_mem (listings : List (Model × String × PeerModelEntry))
    (held : Option (Model × PeerModelEntry)) {b : Model × PeerModelEntry}
    (chosen : listings.foldl (fun o listing => some (chooseBlock listing.1 listing.2.2 o)) held = some b) :
    held = some b ∨ ∃ listing ∈ listings, (listing.1, listing.2.2) = b := by
  induction listings generalizing held with
  | nil => exact Or.inl chosen
  | cons listing rest ih =>
    rcases ih _ chosen with first | ⟨later, member, same⟩
    · have step : (listing.1, listing.2.2) = b ∨ held = some b := by
        cases held with
        | none => exact Or.inl (Option.some.inj first)
        | some cur =>
          simp only [chooseBlock] at first
          split at first
          · exact Or.inl (Option.some.inj first)
          · exact Or.inr first
      rcases step with same | before
      · exact Or.inr ⟨listing, List.mem_cons_self, same⟩
      · exact Or.inl before
    · exact Or.inr ⟨later, List.mem_cons_of_mem _ member, same⟩

theorem blockOf_listed {id : String} {b : Model × PeerModelEntry} (block : input.blockOf.get? id = some b) :
    ∃ model ∈ input.models, ∃ peer ∈ input.peersOf model, peer.1 = id ∧ peer.2 = b.2 := by
  rw [get?_blockOf] at block
  rcases foldl_chooseBlock_mem _ none block with absent | ⟨⟨model, peer⟩, member, rfl⟩
  · cases absent
  · obtain ⟨listed, same⟩ := List.mem_filter.mp member
    obtain ⟨read, shown⟩ := (mem_listings input model peer).mp listed
    exact ⟨model, read, peer, shown, of_decide_eq_true same, rfl⟩

theorem mem_peerIds (order : IterOrder) (id : String) :
    id ∈ (input.peerIds order).items ↔
      ((input.blockOf.get? id).isSome = true ∨ id ∈ input.capabilityPeers.keys ∨
        ∃ o, input.addrs.get? id = some o ∧ o.kwaaiKad = true) ∧
        input.exclude.contains id = false := by
  have listed : id ∈ (order.iter input.blockOf.entries).map Prod.fst ↔
      (input.blockOf.get? id).isSome = true := by
    rw [((order.perm input.blockOf.entries).map Prod.fst).mem_iff]
    exact HashMap.mem_keys input.blockOf id
  have kad : id ∈ (input.addrs.entries.filter fun e => e.2.kwaaiKad).map Prod.fst ↔
      ∃ o, input.addrs.get? id = some o ∧ o.kwaaiKad = true := by
    simp [HashMap.mem_entries]
  rw [CrawlInput.peerIds, BTreeSet.mem_items_ofList, List.mem_filter, List.mem_append, List.mem_append,
    listed, kad, or_assoc]
  simp

/-! ### The document -/

variable (order : IterOrder)

def CrawlInput.IdsSliceable : Prop :=
  (∀ model ∈ input.models, ModelSliceable input model) ∧
    ∀ id ∈ (input.peerIds order).items, Sliceable id

def CrawlInput.peerRows : List PeerRow :=
  (input.peerIds order).items.map fun id => peerRowAs input input.known id (abbreviated id)

def CrawlInput.document (now : DateTime) (topContributors : List Contributor) : Snapshot :=
  { bootstrapStates := input.bootstrapStates
    modelReports := input.reports
    numPeers := (input.peerRows order).length
    numBlocksCovered := input.blocksCovered
    topContributors
    reachabilityIssues := input.issues.entries.map fun (peerId, err) => { peerId, err }
    lastUpdated := now
    peers := input.peerRows order }

theorem peerRow_pass (id : String) (ok : Sliceable id) :
    peerRow input input.known id = some (peerRowAs input input.known id (abbreviated id)) := by
  rw [peerRow, shortPeerId_of_sliceable ok]
  rfl

theorem peerRow_trap (id : String) (bad : ¬ Sliceable id) : peerRow input input.known id = none := by
  rw [peerRow, shortPeerId_of_not_sliceable bad]
  rfl

theorem buildSnapshot_eq_some (overflowChecks : Bool) (now : DateTime) (s : Snapshot) :
    buildSnapshot overflowChecks order now input = some s ↔
      input.IdsSliceable order ∧
        ∃ contributors, topContributors overflowChecks order input.reports = some contributors ∧
          s = input.document order now contributors := by
  have models := foldlM_guarded (modelStep_pass input) (modelStep_trap input) input.models {}
  have peers := mapM_guarded (peerRow_pass input) (peerRow_trap input) (input.peerIds order).items
  simp only [foldl_modelPass, List.nil_append, Nat.zero_add] at models
  simp only [buildSnapshot, Option.bind_eq_bind, Option.bind_eq_some_iff, models, peers]
  constructor
  · rintro ⟨acc, ⟨ids, rfl⟩, rows, ⟨peerIds, rfl⟩, contributors, top, same⟩
    exact ⟨⟨ids, peerIds⟩, contributors, top, (Option.some.inj same).symm⟩
  · rintro ⟨⟨ids, peerIds⟩, contributors, top, rfl⟩
    exact ⟨_, ⟨ids, rfl⟩, _, ⟨peerIds, rfl⟩, contributors, top, rfl⟩

variable {input order} {overflowChecks : Bool} {now : DateTime} {s : Snapshot}

theorem built_modelReports (built : buildSnapshot overflowChecks order now input = some s) :
    s.modelReports = input.reports := by
  obtain ⟨-, contributors, -, rfl⟩ := (buildSnapshot_eq_some input order overflowChecks now s).mp built
  rfl

theorem built_numBlocksCovered (built : buildSnapshot overflowChecks order now input = some s) :
    s.numBlocksCovered = input.blocksCovered := by
  obtain ⟨-, contributors, -, rfl⟩ := (buildSnapshot_eq_some input order overflowChecks now s).mp built
  rfl

theorem built_numPeers (built : buildSnapshot overflowChecks order now input = some s) :
    s.numPeers = (input.peerIds order).items.length := by
  obtain ⟨-, contributors, -, rfl⟩ := (buildSnapshot_eq_some input order overflowChecks now s).mp built
  exact List.length_map ..

end

end KwaaiNetMap
