import KwaaiNetMap.Cache.Hold
import KwaaiNetMap.Crawler.Capability
import KwaaiNetMap.Crawler.Copies
import KwaaiNetMap.Crawler.Roster

/-!
A plain capability map is no server record, so being listed under the VPK key puts no capability on a peer's
row: what does is the record that speaks for the peer (`vpk_shown_iff`).
-/

namespace KwaaiNetMap
open Collections

/-! ### The record that speaks for a peer -/

section
variable (rmpv : Rmpv)

def announcedIn (responses : List FindResponse) (id : String) : Option ServerInfo :=
  (announced (ofPeer (recordsOf rmpv responses) id)).map (·.info)

/-- A peer's block record: the online one of the earliest model that has one, else that of the earliest. -/
def blockRecordOf (answers : Answers) (id : String) : Option ServerInfo :=
  let records := answers.filterMap fun answer => announcedIn rmpv (answers.under answer.1.dhtPrefix) id
  (records.find? fun info => decide info.IsOnline).or records.head?

/-- The peer's block record announces VPK; or it has none, and its first registry entry is a record that does. -/
def AnnouncesVpk (answers : Answers) (listings : List Listing) (id : String) : Prop :=
  match blockRecordOf rmpv answers id with
  | some info => info.vpk.isSome = true
  | none => ∃ l info, (listings.find? fun l => decide (l.peerId = id)) = some l ∧
      decodeServerInfo rmpv l.raw = some info ∧ info.vpk.isSome = true

variable {rmpv}

theorem collected_info (responses : List FindResponse) (id : String) :
    ((collectResponses rmpv ∅ responses).get? id).map (·.info) = announcedIn rmpv responses id := by
  rw [get?_collectResponses, announcedIn]
  rcases foldEntry_spec (ofPeer (recordsOf rmpv responses) id) with ⟨none, empty⟩ | ⟨e, some, -, info⟩
  · rw [none, empty]
    rfl
  · rw [some, info]
    rfl

section
variable (base : CrawlInput) (order : IterOrder) (answers : Answers) (capability : List FindResponse)

theorem recordIn_withAnswers (id : String) (model : Model) :
    (base.withAnswers rmpv order answers capability).recordIn id model =
      (collectResponses rmpv ∅ (answers.under model.dhtPrefix)).get? id := by
  apply Option.ext
  intro e
  rw [← lookup_peersOf, ← mem_iff_lookup (peersOf_nodup _ model), mem_peersOf_withAnswers]

theorem source_withAnswers (id : String) :
    ((base.withAnswers rmpv order answers capability).source id).info =
      (blockRecordOf rmpv answers id).or
        ((base.withAnswers rmpv order answers capability).capabilityPeers.get? id) := by
  have infos : ((base.withAnswers rmpv order answers capability).blockRecords id).map (fun b => b.2.info) =
      answers.filterMap fun answer => announcedIn rmpv (answers.under answer.1.dhtPrefix) id := by
    unfold CrawlInput.blockRecords
    change List.map _ ((answers.map Prod.fst).filterMap _) = _
    rw [List.filterMap_map, List.map_filterMap]
    refine List.filterMap_congr fun answer _ => ?_
    rw [← collected_info, ← recordIn_withAnswers base order answers capability]
    exact Option.map_map _ _ _
  have chosen : ((((base.withAnswers rmpv order answers capability).blockRecords id).find? claimsToServe).or
      ((base.withAnswers rmpv order answers capability).blockRecords id).head?).map (fun b => b.2.info) =
        blockRecordOf rmpv answers id := by
    rw [blockRecordOf, ← infos, List.find?_map, List.head?_map, Option.map_or]
    rfl
  rw [← chosen, CrawlInput.source]
  generalize (((base.withAnswers rmpv order answers capability).blockRecords id).find? claimsToServe).or
    ((base.withAnswers rmpv order answers capability).blockRecords id).head? = block
  cases block with
  | some b => rfl
  | none =>
    cases (base.withAnswers rmpv order answers capability).capabilityPeers.get? id <;> rfl

end

theorem announcesVpk_iff (answers : Answers) (listings : List Listing) (id : String) :
    AnnouncesVpk rmpv answers listings id ↔
      (((blockRecordOf rmpv answers id).or ((listings.find? fun l => decide (l.peerId = id)).map fun l =>
        capabilityInfo rmpv l.raw)).bind (·.vpk)).isSome = true := by
  unfold AnnouncesVpk
  cases blockRecordOf rmpv answers id with
  | some info => rfl
  | none =>
    rw [Option.none_or]
    cases first : listings.find? (fun l => decide (l.peerId = id)) with
    | none => simp
    | some l =>
      cases decoded : decodeServerInfo rmpv l.raw with
      | none => simp [capabilityInfo_placeholder rmpv decoded, decoded, placeholder]
      | some info => simp [capabilityInfo_record rmpv decoded, decoded]

end

theorem BuiltFrom.vpk_eq {input : CrawlInput} {source : RowSource} {row : PeerRow}
    (shown : BuiltFrom input source row) : row.vpk = source.info.bind (·.vpk) := by
  cases spoken : source.info with
  | some info => exact (shown.record info spoken).2.2.2.2.2.1
  | none =>
    have bare : source = .connection := by cases source <;> simp_all [RowSource.info]
    exact (shown.bare bare).2.2.2.2.2.1

/-! ### One pass -/

section
variable (rmpv : Rmpv) (bootstrapPeers : List String) (world : World)

def World.blockReplies : Answers × Pass :=
  let registry := discoverModels rmpv world.net world.ourDhtid (dialBootstraps world.net bootstrapPeers)
  blockAnswers world.net world.ourDhtid registry.1 registry.2

def World.listings : List Listing :=
  capabilityListings rmpv world.net world.ourDhtid capabilityKeys (world.blockReplies rmpv bootstrapPeers).2

def World.ListsVpk (id : String) : Prop :=
  ∃ l ∈ world.listings rmpv bootstrapPeers, l.key = vpkKey ∧ l.peerId = id ∧
    ∃ fields, rmpv.readValue l.raw = some (.map fields)

def VpkShown (s : Snapshot) (cache : NodeCache) (id : String) : Prop :=
  (∃ row ∈ s.peers, row.peerId = id ∧ row.vpk.isSome = true) ∧
    ∃ node ∈ (cache.publish s).nodes, node.peerId = id ∧ node.vpk = true

theorem listings_of_undialed (net : Network) (ourDhtid : Bytes) {pass : Pass} (undialed : pass.set.live = []) :
    capabilityListings rmpv net ourDhtid capabilityKeys
      (blockAnswers net ourDhtid (discoverModels rmpv net ourDhtid pass).1
        (discoverModels rmpv net ourDhtid pass).2).2 = [] := by
  have registry : (discoverModels rmpv net ourDhtid pass).2 = pass := by
    unfold discoverModels
    rw [undialed]
    rfl
  have blocks (models : List Model) : (blockAnswers net ourDhtid models pass).2 = pass := by
    induction models with
    | nil => rfl
    | cons model models ih =>
      unfold blockAnswers
      rw [undialed]
      exact ih
  rw [registry, blocks, capabilityKeys_eq]
  simp [capabilityListings, askEach, undialed, listingsIn]

variable {rmpv bootstrapPeers world}

theorem get?_capabilityPeers (order : IterOrder) (geo : GeoIp) (id : String) :
    (crawlInput order bootstrapPeers world geo
        (readDht rmpv world (dialBootstraps world.net bootstrapPeers))).capabilityPeers.get? id =
      ((world.listings rmpv bootstrapPeers).find? fun l => decide (l.peerId = id)).map fun l =>
        capabilityInfo rmpv l.raw := by
  have reading : (readDht rmpv world (dialBootstraps world.net bootstrapPeers)).capabilityPeers =
      (collectCapabilities rmpv world.net world.ourDhtid (world.blockReplies rmpv bootstrapPeers).2).1 := by
    unfold readDht World.blockReplies
    simp only [collectModels_eq]
  change ((readDht rmpv world (dialBootstraps world.net bootstrapPeers)).capabilityPeers.reorder order).get? id = _
  rw [HashMap.get?_reorder, reading, collectCapabilities_keys, get?_collectKeys]
  rfl

theorem dialable_of_listed {l : Listing} (member : l ∈ world.listings rmpv bootstrapPeers) :
    (dialBootstraps world.net bootstrapPeers).set.hasDialable = true := by
  by_contra undialed
  rw [World.listings, World.blockReplies] at member
  rw [listings_of_undialed rmpv world.net world.ourDhtid (live_of_not_dialable (by simpa using undialed))] at member
  cases member

variable {order : IterOrder} {geo : GeoIp}

theorem capability_of_listed {l : Listing} {id : String} (member : l ∈ world.listings rmpv bootstrapPeers)
    (named : l.peerId = id) :
    ((crawlInput order bootstrapPeers world geo
      (readDht rmpv world (dialBootstraps world.net bootstrapPeers))).capabilityPeers.get? id).isSome = true := by
  rw [get?_capabilityPeers order geo, Option.isSome_map, List.find?_isSome]
  exact ⟨l, member, decide_eq_true named⟩

theorem row_vpk_iff {row : PeerRow}
    (shown : BuiltFrom (crawlInput order bootstrapPeers world geo
        (readDht rmpv world (dialBootstraps world.net bootstrapPeers)))
      ((crawlInput order bootstrapPeers world geo
        (readDht rmpv world (dialBootstraps world.net bootstrapPeers))).source row.peerId) row) :
    row.vpk.isSome = true ↔
      AnnouncesVpk rmpv (world.blockReplies rmpv bootstrapPeers).1 (world.listings rmpv bootstrapPeers) row.peerId := by
  have input := crawlInput_eq rmpv order bootstrapPeers world geo (dialBootstraps world.net bootstrapPeers)
  dsimp only at input
  rw [announcesVpk_iff, ← get?_capabilityPeers order geo, shown.vpk_eq, input, source_withAnswers]
  rfl

/-- A peer under the VPK key reaches the row and the node list as one exactly when the record that speaks for it
announces VPK. -/
theorem vpk_shown_iff {overflowChecks : Bool} {s : Snapshot} {id : String}
    (ran : crawlOnce overflowChecks order rmpv bootstrapPeers world geo = some s)
    (listed : world.ListsVpk rmpv bootstrapPeers id)
    (kept : (excludedPeers world.localPeerId bootstrapPeers).contains id = false) (cache : NodeCache) :
    VpkShown s cache id ↔
      AnnouncesVpk rmpv (world.blockReplies rmpv bootstrapPeers).1 (world.listings rmpv bootstrapPeers) id := by
  obtain ⟨l, member, -, named, -⟩ := listed
  obtain ⟨built, assembled, rfl⟩ := crawlOnce_dialable (dialable_of_listed member) ran
  obtain ⟨-, rows, count, sources, -⟩ := roster assembled
  have vpk : ∀ row ∈ built.peers, row.peerId = id → (row.vpk.isSome = true ↔
      AnnouncesVpk rmpv (world.blockReplies rmpv bootstrapPeers).1 (world.listings rmpv bootstrapPeers) id) := by
    rintro row shown rfl
    exact row_vpk_iff (sources row shown)
  constructor
  · rintro ⟨⟨row, shown, own, carries⟩, -⟩
    exact (vpk row shown own).mp carries
  · intro announces
    obtain ⟨row, shown, own⟩ := (rows id).mpr ⟨Or.inr (Or.inl (capability_of_listed member named)), kept⟩
    have carries := (vpk row shown own).mpr announces
    refine ⟨⟨row, shown, own, carries⟩, ?_⟩
    have filled : built.numPeers > 0 := by
      rw [count]
      exact List.length_pos_of_mem shown
    rw [publish_populated]
    · exact ⟨_, List.mem_map_of_mem shown, own, carries⟩
    · exact filled

theorem vpk_shown_of_block_record :
    let registry := Wire.dictionary [("m", Wire.map [("num_blocks", .int 1)])]
    let served := Wire.dictionary [("QmA", Wire.record 2 [("vpk", .bool true)])]
    let vpk := Wire.dictionary [("QmA", vpkMap)]
    let script : List (Option FindResponse) :=
      [none, some { results := [.dictionary registry] }, some { results := [.dictionary served] },
        some { results := [.dictionary vpk] }, some { results := [.notFound] }]
    let rmpv : Rmpv := { Wire.reader [registry, served, vpk, vpkMap] with toJson := fun _ => some (.bool true) }
    let world := World.scripted script
    let bootstrapPeers := ["/ip4/203.0.113.7/tcp/8000/p2p/QmBootstrap"]
    ∃ s, crawlOnce false .insertion rmpv bootstrapPeers world .disabled = some s ∧
      VpkShown s (NodeCache.new 0) "QmA" := by
  intro registry served vpk script rmpv world bootstrapPeers
  have completes : (crawlOnce false .insertion rmpv bootstrapPeers world .disabled).isSome = true := by
    decide +kernel
  obtain ⟨s, ran⟩ := Option.isSome_iff_exists.mp completes
  have listings : world.listings rmpv bootstrapPeers = [⟨vpkKey, "QmA", vpkMap.bytes⟩] := by decide +kernel
  have listed : world.ListsVpk rmpv bootstrapPeers "QmA" :=
    ⟨_, by rw [listings]; exact List.mem_singleton_self _, rfl, rfl, _, rfl⟩
  refine ⟨s, ran, (vpk_shown_iff ran listed (by decide +kernel) _).mpr ?_⟩
  have speaks : ((blockRecordOf rmpv (world.blockReplies rmpv bootstrapPeers).1 "QmA").bind (·.vpk)).isSome = true := by
    decide +kernel
  unfold AnnouncesVpk
  cases block : blockRecordOf rmpv (world.blockReplies rmpv bootstrapPeers).1 "QmA" with
  | none => simp [block] at speaks
  | some info => simpa [block] using speaks

/-- A peer only the VPK registry names: its row has no VPK and its entry no flag. -/
theorem vpk_lost_from_plain_map :
    let registry := Wire.dictionary [("m", Wire.map [("num_blocks", .int 1)])]
    let vpk := Wire.dictionary [("QmA", vpkMap)]
    let script : List (Option FindResponse) :=
      [none, some { results := [.dictionary registry] }, some { results := [.notFound] },
        some { results := [.dictionary vpk] }, some { results := [.notFound] }]
    let rmpv : Rmpv := { Wire.reader [registry, vpk, vpkMap] with toJson := fun _ => some (.bool true) }
    let world := World.scripted script
    let bootstrapPeers := ["/ip4/203.0.113.7/tcp/8000/p2p/QmBootstrap"]
    ∃ s, crawlOnce false .insertion rmpv bootstrapPeers world .disabled = some s ∧
      world.ListsVpk rmpv bootstrapPeers "QmA" ∧
      (excludedPeers world.localPeerId bootstrapPeers).contains "QmA" = false ∧
      s.peers.map (fun row => (row.peerId, row.vpk.isSome)) = [("QmA", false)] ∧
      ¬ VpkShown s (NodeCache.new 0) "QmA" := by
  intro registry vpk script rmpv world bootstrapPeers
  have rows : (crawlOnce false .insertion rmpv bootstrapPeers world .disabled).map
      (fun s => s.peers.map fun row => (row.peerId, row.vpk.isSome)) = some [("QmA", false)] := by
    decide +kernel
  obtain ⟨s, ran, bare⟩ := Option.map_eq_some_iff.mp rows
  have listings : world.listings rmpv bootstrapPeers = [⟨vpkKey, "QmA", vpkMap.bytes⟩] := by decide +kernel
  refine ⟨s, ran, ⟨_, by rw [listings]; exact List.mem_singleton_self _, rfl, rfl, _, rfl⟩, by decide +kernel, bare, ?_⟩
  rintro ⟨⟨row, shown, own, carries⟩, -⟩
  have member := List.mem_map_of_mem (f := fun row : PeerRow => (row.peerId, row.vpk.isSome)) shown
  rw [bare] at member
  obtain ⟨-, none⟩ := Prod.mk.inj (List.mem_singleton.mp member)
  rw [carries] at none
  cases none

end

end KwaaiNetMap
