import KwaaiNetMap.Crawler.Pass
import KwaaiNetMap.Crawler.Records

/-!
A pass keeps nothing of the DHT but the answers to its queries: `gather` folds the block answers of
each model into the map of its prefix, `gatherCapability` the capability answers, and `crawlInput_eq` says
that reading the DHT is asking and gathering.
-/

namespace KwaaiNetMap
open Collections

abbrev Answers := List (Model × List FindResponse)

def Answers.under (answers : Answers) (dhtPrefix : String) : List FindResponse :=
  (answers.filter fun answer => decide (answer.1.dhtPrefix = dhtPrefix)).flatMap Prod.snd

section
variable (rmpv : Rmpv)

def gatherStep (answer : Model × List FindResponse) (held : Option (HashMap String PeerModelEntry)) :
    HashMap String PeerModelEntry :=
  collectResponses rmpv (held.getD ∅) answer.2

def gather (answers : Answers) : BTreeMap String (HashMap String PeerModelEntry) :=
  answers.foldl (fun perModel answer => perModel.upsert answer.1.dhtPrefix (gatherStep rmpv answer)) ∅

def capabilityEntries (resp : FindResponse) : List (String × Bytes) :=
  resp.results.flatMap fun result =>
    if result.value.isEmpty then [] else dictionaryEntries rmpv result.value

def gatherCapability (responses : List FindResponse) : HashMap String ServerInfo :=
  responses.foldl (capabilityResponse rmpv) ∅

theorem foldl_gatherStep (answers : Answers) (held : HashMap String PeerModelEntry) :
    (answers.foldl (fun o answer => some (gatherStep rmpv answer o)) (some held)).getD ∅ =
      collectResponses rmpv held (answers.flatMap Prod.snd) := by
  induction answers generalizing held with
  | nil => rfl
  | cons answer answers ih =>
    rw [List.foldl_cons, ih, List.flatMap_cons, collectResponses_append]
    rfl

theorem get?_gather (answers : Answers) (dhtPrefix : String) :
    ((gather rmpv answers).get? dhtPrefix).getD ∅ = collectResponses rmpv ∅ (answers.under dhtPrefix) := by
  have fold := get?_foldl_upsert (μ := BTreeMap String (HashMap String PeerModelEntry))
    (fun answer : Model × List FindResponse => answer.1.dhtPrefix) (gatherStep rmpv) answers ∅ dhtPrefix
  change (gather rmpv answers).get? dhtPrefix = _ at fold
  rw [fold, Answers.under]
  cases answers.filter fun answer => decide (answer.1.dhtPrefix = dhtPrefix) with
  | nil => rfl
  | cons answer rest =>
    rw [List.foldl_cons, foldl_gatherStep, List.flatMap_cons, collectResponses_append]
    rfl

theorem capabilityResponse_eq (out : HashMap String ServerInfo) (resp : FindResponse) :
    capabilityResponse rmpv out resp =
      (capabilityEntries rmpv resp).foldl
        (fun out entry => out.orInsert entry.1 (capabilityInfo rmpv entry.2)) out := by
  rw [capabilityResponse, capabilityEntries, List.foldl_flatMap]
  refine List.foldl_ext _ _ _ fun out result _ => ?_
  unfold capabilityResult
  split <;> rfl

theorem gatherCapability_eq (responses : List FindResponse) :
    gatherCapability rmpv responses =
      (responses.flatMap (capabilityEntries rmpv)).foldl
        (fun out entry => out.orInsert entry.1 (capabilityInfo rmpv entry.2)) ∅ := by
  rw [gatherCapability, List.foldl_flatMap]
  exact List.foldl_ext _ _ _ fun out resp _ => capabilityResponse_eq rmpv out resp

theorem mem_keys_gatherCapability (responses : List FindResponse) (id : String) :
    id ∈ (gatherCapability rmpv responses).keys ↔
      ∃ resp ∈ responses, ∃ entry ∈ capabilityEntries rmpv resp, entry.1 = id := by
  have present := isSome_get?_foldl_upsert (μ := HashMap String ServerInfo) Prod.fst
    (fun (entry : String × Bytes) held => held.getD (capabilityInfo rmpv entry.2))
    (responses.flatMap (capabilityEntries rmpv)) ∅ id
  have empty : ¬ (KeyedMap.get? (∅ : HashMap String ServerInfo) id).isSome = true := by
    rw [HashMap.get?_eq, HashMap.get?_empty]
    decide
  rw [HashMap.mem_keys, gatherCapability_eq]
  refine present.trans ⟨fun either => ?_, fun ⟨resp, answered, entry, member, same⟩ => ?_⟩
  · obtain ⟨entry, member, same⟩ := either.resolve_left empty
    obtain ⟨resp, answered, member⟩ := List.mem_flatMap.mp member
    exact ⟨resp, answered, entry, member, same⟩
  · exact Or.inr ⟨entry, List.mem_flatMap.mpr ⟨resp, answered, member⟩, same⟩

end

/-! ### The queries of one pass -/

section
variable (net : Network) (ourDhtid : Bytes)

def blockAnswers : List Model → Pass → Answers × Pass
  | [], pass => ([], pass)
  | model :: rest, pass =>
    let (responses, pass) := askEach net ourDhtid (blockKeys net model) pass.set.live pass
    let (answers, pass) := blockAnswers rest pass
    ((model, responses) :: answers, pass)

def capabilityAnswers : List String → Pass → List FindResponse × Pass
  | [], pass => ([], pass)
  | key :: rest, pass =>
    let (responses, pass) := askEach net ourDhtid [dhtKey net key] pass.set.live pass
    let (answers, pass) := capabilityAnswers rest pass
    (responses ++ answers, pass)

theorem blockAnswers_models (models : List Model) (pass : Pass) :
    (blockAnswers net ourDhtid models pass).1.map Prod.fst = models := by
  induction models generalizing pass with
  | nil => rfl
  | cons model rest ih => exact congrArg (model :: ·) (ih _)

variable (rmpv : Rmpv)

theorem collectModels_fold (models : List Model) (perModel : BTreeMap String (HashMap String PeerModelEntry))
    (pass : Pass) :
    models.foldl
        (fun (perModel, pass) model =>
          let entry := (perModel.get? model.dhtPrefix).getD ∅
          let (entry, pass) := collectModel rmpv net ourDhtid pass model entry
          (perModel.insert model.dhtPrefix entry, pass))
        (perModel, pass) =
      ((blockAnswers net ourDhtid models pass).1.foldl
          (fun perModel answer => perModel.upsert answer.1.dhtPrefix (gatherStep rmpv answer)) perModel,
        (blockAnswers net ourDhtid models pass).2) := by
  induction models generalizing perModel pass with
  | nil => rfl
  | cons model rest ih =>
    have asked : blockAnswers net ourDhtid (model :: rest) pass =
        ((model, (askEach net ourDhtid (blockKeys net model) pass.set.live pass).1) ::
            (blockAnswers net ourDhtid rest
              (askEach net ourDhtid (blockKeys net model) pass.set.live pass).2).1,
          (blockAnswers net ourDhtid rest
            (askEach net ourDhtid (blockKeys net model) pass.set.live pass).2).2) := rfl
    have step : collectModel rmpv net ourDhtid pass model ((perModel.get? model.dhtPrefix).getD ∅) =
        (gatherStep rmpv (model, (askEach net ourDhtid (blockKeys net model) pass.set.live pass).1)
            (perModel.get? model.dhtPrefix),
          (askEach net ourDhtid (blockKeys net model) pass.set.live pass).2) :=
      collectFrom_eq rmpv net ourDhtid _ _ _ _
    rw [asked, List.foldl_cons, List.foldl_cons, ← BTreeMap.insert_eq_upsert]
    dsimp only
    rw [step]
    exact ih _ _

theorem collectModels_eq (models : List Model) (pass : Pass) :
    collectModels rmpv net ourDhtid models pass =
      (gather rmpv (blockAnswers net ourDhtid models pass).1, (blockAnswers net ourDhtid models pass).2) :=
  collectModels_fold net ourDhtid rmpv models ∅ pass

theorem capabilityFrom_eq (keys : List Bytes) (addrs : List String) (out : HashMap String ServerInfo)
    (pass : Pass) :
    capabilityFrom rmpv net ourDhtid keys addrs out pass =
      ((askEach net ourDhtid keys addrs pass).1.foldl (capabilityResponse rmpv) out,
        (askEach net ourDhtid keys addrs pass).2) := by
  induction addrs generalizing out pass with
  | nil => rfl
  | cons addr rest ih =>
    unfold capabilityFrom askEach
    rcases rpcFind net ourDhtid pass addr keys with ⟨_ | resp, pass⟩
    · exact ih out pass
    · exact ih (capabilityResponse rmpv out resp) pass

theorem collectCapabilities_fold (keys : List String) (out : HashMap String ServerInfo) (pass : Pass) :
    keys.foldl (fun (out, pass) key => collectCapability rmpv net ourDhtid pass key out) (out, pass) =
      ((capabilityAnswers net ourDhtid keys pass).1.foldl (capabilityResponse rmpv) out,
        (capabilityAnswers net ourDhtid keys pass).2) := by
  induction keys generalizing out pass with
  | nil => rfl
  | cons key rest ih =>
    have step : collectCapability rmpv net ourDhtid pass key out = _ :=
      capabilityFrom_eq net ourDhtid rmpv _ _ _ _
    rw [List.foldl_cons]
    dsimp only
    rw [step]
    refine (ih _ _).trans ?_
    simp only [capabilityAnswers, List.foldl_append]

theorem collectCapabilities_eq (pass : Pass) :
    collectCapabilities rmpv net ourDhtid pass =
      (gatherCapability rmpv (capabilityAnswers net ourDhtid capabilityKeys pass).1,
        (capabilityAnswers net ourDhtid capabilityKeys pass).2) :=
  collectCapabilities_fold net ourDhtid rmpv capabilityKeys ∅ pass

end

/-! ### The builder's input -/

/-- The input of a pass in which the DHT answered `answers` to the block queries and `capability` to
the capability queries, its hash maps iterated in any order. -/
def CrawlInput.withAnswers (base : CrawlInput) (rmpv : Rmpv) (order : IterOrder) (answers : Answers)
    (capability : List FindResponse) : CrawlInput :=
  { base with
    models := answers.map Prod.fst
    perModel := (gather rmpv answers).mapValues fun _ peers => peers.reorder order
    capabilityPeers := (gatherCapability rmpv capability).reorder order }

theorem crawlInput_eq (rmpv : Rmpv) (order : IterOrder) (bootstrapPeers : List String) (world : World)
    (geo : GeoIp) (pass : Pass) :
    let registry := discoverModels rmpv world.net world.ourDhtid pass
    let blocks := blockAnswers world.net world.ourDhtid registry.1 registry.2
    let capability := capabilityAnswers world.net world.ourDhtid capabilityKeys blocks.2
    let input := crawlInput order bootstrapPeers world geo (readDht rmpv world pass)
    input = input.withAnswers rmpv order blocks.1 capability.1 := by
  intro registry blocks capability input
  have reading : readDht rmpv world pass =
      { models := registry.1, perModel := gather rmpv blocks.1,
        capabilityPeers := gatherCapability rmpv capability.1, pass := capability.2 } := by
    unfold readDht
    simp only [collectModels_eq, collectCapabilities_eq]
    rfl
  simp only [input, reading, CrawlInput.withAnswers, blockAnswers_models, crawlInput, blocks]

theorem live_of_not_dialable {set : BootstrapSet} (none : set.hasDialable = false) : set.live = [] := by
  have undialed : ∀ e ∈ set.entries, ¬ e.dialed = true := by simpa [BootstrapSet.hasDialable] using none
  rw [BootstrapSet.live, List.filter_eq_nil_iff.mpr undialed]
  rfl

theorem crawlOnce_dialable {overflowChecks : Bool} {order : IterOrder} {rmpv : Rmpv}
    {bootstrapPeers : List String} {world : World} {geo : GeoIp} {s : Snapshot}
    (dialable : (dialBootstraps world.net bootstrapPeers).set.hasDialable = true)
    (ran : crawlOnce overflowChecks order rmpv bootstrapPeers world geo = some s) :
    ∃ built, buildSnapshot overflowChecks order world.now
        (crawlInput order bootstrapPeers world geo
          (readDht rmpv world (dialBootstraps world.net bootstrapPeers))) = some built ∧
      s = { built with updatePeriod := crawlInterval, updateDuration := world.elapsed } := by
  unfold crawlOnce at ran
  simp only [dialable, Bool.not_true, Bool.false_eq_true, if_false] at ran
  obtain ⟨built, done, same⟩ := Option.map_eq_some_iff.mp ran
  exact ⟨built, done, same.symm⟩

section
variable {rmpv : Rmpv} {order : IterOrder} {base : CrawlInput} {answers : Answers}
  {capability : List FindResponse}

theorem mem_peersOf_withAnswers (model : Model) (id : String) (e : PeerModelEntry) :
    (id, e) ∈ (base.withAnswers rmpv order answers capability).peersOf model ↔
      (collectResponses rmpv ∅ (answers.under model.dhtPrefix)).get? id = some e := by
  rw [← get?_gather, CrawlInput.peersOf, CrawlInput.withAnswers]
  dsimp only
  rw [BTreeMap.get?_mapValues]
  cases (gather rmpv answers).get? model.dhtPrefix with
  | none => simp
  | some peers =>
    simp only [Option.map_some, Option.getD_some]
    rw [HashMap.mem_entries, HashMap.get?_reorder]

theorem mem_capability_withAnswers (id : String) :
    id ∈ (base.withAnswers rmpv order answers capability).capabilityPeers.keys ↔
      ∃ resp ∈ capability, ∃ entry ∈ capabilityEntries rmpv resp, entry.1 = id := by
  rw [← mem_keys_gatherCapability, HashMap.mem_keys, HashMap.mem_keys, CrawlInput.withAnswers]
  dsimp only
  rw [HashMap.get?_reorder]

theorem mem_recordsOf_under {answer : Model × List FindResponse} (asked : answer ∈ answers) {r : BlockRecord}
    (member : r ∈ recordsOf rmpv answer.2) : r ∈ recordsOf rmpv (answers.under answer.1.dhtPrefix) := by
  obtain ⟨resp, answered, member⟩ := List.mem_flatMap.mp member
  refine List.mem_flatMap.mpr ⟨resp, List.mem_flatMap.mpr ⟨answer, ?_, answered⟩, member⟩
  exact List.mem_filter.mpr ⟨asked, decide_eq_true rfl⟩

theorem mem_recordsOf_of_under {dhtPrefix : String} {r : BlockRecord}
    (member : r ∈ recordsOf rmpv (answers.under dhtPrefix)) :
    ∃ answer ∈ answers, answer.1.dhtPrefix = dhtPrefix ∧ r ∈ recordsOf rmpv answer.2 := by
  obtain ⟨resp, answered, member⟩ := List.mem_flatMap.mp member
  obtain ⟨answer, asked, answered⟩ := List.mem_flatMap.mp answered
  obtain ⟨asked, same⟩ := List.mem_filter.mp asked
  exact ⟨answer, asked, of_decide_eq_true same, List.mem_flatMap.mpr ⟨resp, answered, member⟩⟩

end

end KwaaiNetMap
