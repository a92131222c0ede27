import KwaaiNetMap.Crawler.Document
import KwaaiNetMap.Crawler.Gather
import KwaaiNetMap.Crawler.Scripted

/-!
The peers of a document are those a record names or kad identified, less the excluded, in the order of
their ids (`CrawlInput.HasRow`). `CrawlInput.source` states which record speaks for a peer without any
fold: its online block record in the earliest model that has one, else its block record in the earliest
model, else its registry record. `get?_blockOf_eq` connects that to the builder's fold over the hash
maps, and `roster` says what every row is built from.
-/

namespace KwaaiNetMap
open Collections

/-! ### The preferred record -/

theorem foldl_prefer {α : Type*} (p : α → Bool) (held : α) (l : List α) :
    l.foldl (fun held a => if p held = false ∧ p a = true then a else held) held =
      if p held then held else (l.find? p).getD held := by
  induction l generalizing held with
  | nil => simp
  | cons a l ih =>
    rw [List.foldl_cons, ih]
    cases kept : p held with
    | true => simp [kept]
    | false => cases here : p a <;> simp [kept, here]

section
variable (input : CrawlInput)

def CrawlInput.recordIn (id : String) (model : Model) : Option PeerModelEntry :=
  (input.perModel.get? model.dhtPrefix).bind fun peers => peers.get? id

def CrawlInput.blockRecords (id : String) : List (Model × PeerModelEntry) :=
  input.models.filterMap fun model => (input.recordIn id model).map fun entry => (model, entry)

def claimsToServe (b : Model × PeerModelEntry) : Bool := decide (b.2.info.state = "online")

theorem lookup_peersOf (id : String) (model : Model) :
    (input.peersOf model).lookup id = input.recordIn id model := by
  unfold CrawlInput.peersOf CrawlInput.recordIn
  cases input.perModel.get? model.dhtPrefix <;> rfl

theorem peersOf_nodup (model : Model) : ((input.peersOf model).map Prod.fst).Nodup := by
  unfold CrawlInput.peersOf
  cases input.perModel.get? model.dhtPrefix with
  | none => exact List.nodup_nil
  | some peers => exact peers.nodup

theorem listings_of_peer (id : String) :
    (input.listings.filter fun listing => decide (listing.2.1 = id)) =
      (input.blockRecords id).map fun b => (b.1, id, b.2) := by
  have one (model : Model) : ((input.peersOf model).map fun peer => (model, peer)).filter
        (fun listing => decide (listing.2.1 = id)) =
      ((input.recordIn id model).map fun entry => (model, id, entry)).toList := by
    rw [List.filter_map]
    change ((input.peersOf model).filter fun peer => decide (peer.1 = id)).map _ = _
    rw [filter_key_eq (peersOf_nodup input model), lookup_peersOf]
    cases input.recordIn id model <;> rfl
  unfold CrawlInput.listings CrawlInput.blockRecords
  rw [List.filter_flatMap]
  induction input.models with
  | nil => rfl
  | cons model models ih =>
    rw [List.flatMap_cons, ih, one, List.filterMap_cons]
    cases input.recordIn id model <;> rfl

theorem get?_blockOf_eq (id : String) :
    input.blockOf.get? id =
      ((input.blockRecords id).find? claimsToServe).or (input.blockRecords id).head? := by
  have choose (b cur : Model × PeerModelEntry) : chooseBlock b.1 b.2 (some cur) =
      if claimsToServe cur = false ∧ claimsToServe b = true then b else cur := by
    simp only [chooseBlock, claimsToServe, decide_eq_false_iff_not, decide_eq_true_eq]
  have fold (l : List (Model × PeerModelEntry)) (cur : Model × PeerModelEntry) :
      l.foldl (fun held b => some (chooseBlock b.1 b.2 held)) (some cur) =
        some (l.foldl (fun cur b => if claimsToServe cur = false ∧ claimsToServe b = true then b else cur)
          cur) := by
    induction l generalizing cur with
    | nil => rfl
    | cons b l ih => rw [List.foldl_cons, choose, ih, List.foldl_cons]
  rw [get?_blockOf, listings_of_peer, List.foldl_map]
  cases input.blockRecords id with
  | nil => rfl
  | cons b l =>
    have first : chooseBlock b.1 b.2 none = b := rfl
    rw [List.foldl_cons, first, fold, foldl_prefer]
    cases serves : claimsToServe b with
    | true => simp [serves]
    | false => cases found : l.find? claimsToServe <;> simp [serves, found]

/-! ### Rows -/

inductive RowSource where
  | block (model : Model) (info : ServerInfo)
  | registry (info : ServerInfo)
  | connection

def RowSource.info : RowSource → Option ServerInfo
  | .block _ info => some info
  | .registry info => some info
  | .connection => none

def RowSource.IsBlock (source : RowSource) : Prop := ∃ model info, source = .block model info

def CrawlInput.source (id : String) : RowSource :=
  match ((input.blockRecords id).find? claimsToServe).or (input.blockRecords id).head? with
  | some b => .block b.1 b.2.info
  | none =>
    match input.capabilityPeers.get? id with
    | some info => .registry info
    | none => .connection

def CrawlInput.HasRow (id : String) : Prop :=
  ((∃ model ∈ input.models, (input.recordIn id model).isSome = true) ∨
      (input.capabilityPeers.get? id).isSome = true ∨
      ∃ o, input.addrs.get? id = some o ∧ o.kwaaiKad = true) ∧
    input.exclude.contains id = false

def announcedStates : List String := ["offline", "joining", "online", "unknown"]

def CrawlInput.StatesAnnounced : Prop :=
  (∀ model ∈ input.models, ∀ peer ∈ input.peersOf model, peer.2.info.state ∈ announcedStates) ∧
    ∀ id info, input.capabilityPeers.get? id = some info → info.state ∈ announcedStates

/-- `row` shows its peer as `source` has it. -/
structure BuiltFrom (source : RowSource) (row : PeerRow) : Prop where
  shortPeerId : shortPeerId row.peerId = some row.shortPeerId
  announced : row.announced = true ↔ source ≠ .connection
  span : row.span.isSome = true ↔ source.IsBlock
  model : row.model.isSome = true ↔ source.IsBlock
  kad : row.kad = true ↔ ∃ o, input.addrs.get? row.peerId = some o ∧ o.kwaaiKad = true
  version : row.version =
    (source.info.bind (·.version)).or ((input.addrs.get? row.peerId).bind (·.agentVersion))
  block : ∀ model info, source = .block model info →
    row.model = some (shortName (modelName model.repository model.dhtPrefix)) ∧
      row.span = some { start := info.startBlock, stop := info.endBlock }
  record : ∀ info, source.info = some info →
    row.publicName = info.publicName ∧ row.state = info.state ∧
      row.shardLoading = info.shardLoading.getD false ∧ row.throughput = info.throughput ∧
      row.usingRelay = info.usingRelay ∧ row.vpk = info.vpk ∧
      row.trustAttestations = info.trustAttestations
  bare : source = .connection →
    row.state = "unannounced" ∧ row.publicName = none ∧ row.shardLoading = false ∧ row.throughput = 0.0 ∧
      row.usingRelay = none ∧ row.vpk = none ∧ row.trustAttestations = 0
  placed : row.peerIpInfo =
    peerIpInfoFor (input.addrs.get? row.peerId) row.usingRelay input.geo input.known

end

section
variable {input : CrawlInput} {order : IterOrder} {overflowChecks : Bool} {now : DateTime} {s : Snapshot}

theorem mem_peerIds_iff (input : CrawlInput) (order : IterOrder) (id : String) :
    id ∈ (input.peerIds order).items ↔ input.HasRow id := by
  have block : (input.blockOf.get? id).isSome = true ↔
      ∃ model ∈ input.models, (input.recordIn id model).isSome = true := by
    rw [blockOf_isSome]
    refine exists_congr fun model => and_congr_right fun _ => ?_
    rw [← lookup_peersOf, Option.isSome_iff_exists]
    simp only [← mem_iff_lookup (peersOf_nodup input model), Prod.exists]
    exact ⟨fun ⟨_, entry, shown, same⟩ => ⟨entry, same ▸ shown⟩, fun ⟨entry, shown⟩ => ⟨id, entry, shown, rfl⟩⟩
  rw [mem_peerIds, block, HashMap.mem_keys, CrawlInput.HasRow]

theorem source_eq (id : String) :
    input.source id =
      match input.blockOf.get? id with
      | some b => .block b.1 b.2.info
      | none =>
        match input.capabilityPeers.get? id with
        | some info => .registry info
        | none => .connection := by
  rw [get?_blockOf_eq]
  rfl

theorem source_state (states : input.StatesAnnounced) {id : String} {info : ServerInfo}
    (spoken : (input.source id).info = some info) : info.state ∈ announcedStates := by
  rw [source_eq] at spoken
  cases block : input.blockOf.get? id with
  | some b =>
    simp only [block, RowSource.info, Option.some.injEq] at spoken
    obtain ⟨model, read, peer, shown, -, entry⟩ := blockOf_listed input block
    rw [← spoken, ← entry]
    exact states.1 model read peer shown
  | none =>
    cases registered : input.capabilityPeers.get? id with
    | some held =>
      simp only [block, registered, RowSource.info, Option.some.injEq] at spoken
      exact spoken ▸ states.2 id held registered
    | none =>
      simp only [block, registered, RowSource.info] at spoken
      cases spoken

theorem builtFrom_source {id : String} (ok : Sliceable id) :
    BuiltFrom input (input.source id) (peerRowAs input input.known id (abbreviated id)) := by
  have kad : ((input.addrs.get? id).map (·.kwaaiKad)).getD false = true ↔
      ∃ o, input.addrs.get? id = some o ∧ o.kwaaiKad = true := by
    cases input.addrs.get? id <;> simp
  rw [source_eq]
  cases block : input.blockOf.get? id with
  | some b =>
    simp only
    constructor <;> simp [peerRowAs, block, RowSource.IsBlock, RowSource.info, kad,
      shortPeerId_of_sliceable ok]
  | none =>
    cases registered : input.capabilityPeers.get? id with
    | some info =>
      simp only
      constructor <;> simp [peerRowAs, block, registered, RowSource.IsBlock, RowSource.info, kad,
        shortPeerId_of_sliceable ok]
    | none =>
      simp only
      constructor <;> simp [peerRowAs, block, registered, RowSource.IsBlock, RowSource.info, kad,
        shortPeerId_of_sliceable ok]

theorem BuiltFrom.unannounced_iff (states : input.StatesAnnounced) {row : PeerRow}
    (shown : BuiltFrom input (input.source row.peerId) row) :
    row.state = "unannounced" ↔ input.source row.peerId = .connection := by
  constructor
  · intro unannounced
    cases spoken : (input.source row.peerId).info with
    | none =>
      cases source : input.source row.peerId with
      | connection => rfl
      | block model info | registry info => simp [source, RowSource.info] at spoken
    | some info =>
      have known := source_state states spoken
      rw [← (shown.record info spoken).2.1, unannounced] at known
      exact absurd known (by decide)
  · intro bare
    exact (shown.bare bare).1

end

/-! ### The input of a pass -/

section
variable {rmpv : Rmpv} {order : IterOrder} {base : CrawlInput} {answers : Answers}
  {capability : List FindResponse}

theorem serversIn_decoded {resultType : Int} {value : Bytes} {server : String × ServerInfo}
    (carried : server ∈ serversIn rmpv resultType value) :
    ∃ raw, decodeServerInfo rmpv raw = some server.2 := by
  unfold serversIn at carried
  split at carried
  · obtain ⟨entry, -, read⟩ := List.mem_filterMap.mp carried
    obtain ⟨info, decoded, rfl⟩ := Option.map_eq_some_iff.mp read
    exact ⟨entry.2, decoded⟩
  · split at carried
    · split at carried
      · rename_i info decoded
        split at carried
        · obtain rfl := List.mem_singleton.mp carried
          exact ⟨value, decoded⟩
        · cases carried
      · cases carried
    · cases carried

theorem recordsOf_decoded {responses : List FindResponse} {r : BlockRecord}
    (carried : r ∈ recordsOf rmpv responses) : ∃ raw, decodeServerInfo rmpv raw = some r.info := by
  obtain ⟨resp, -, carried⟩ := List.mem_flatMap.mp carried
  obtain ⟨item, -, carried⟩ := List.mem_flatMap.mp carried
  unfold resultRecords at carried
  split at carried
  · cases carried
  · obtain ⟨server, member, rfl⟩ := List.mem_map.mp carried
    exact serversIn_decoded member

theorem capabilityInfo_state (raw : Bytes) : (capabilityInfo rmpv raw).state ∈ announcedStates := by
  unfold capabilityInfo
  cases read : decodeServerInfo rmpv raw with
  | none => decide
  | some info => exact (decodeServerInfo_wellFormed rmpv read).2

theorem statesAnnounced_withAnswers :
    (base.withAnswers rmpv order answers capability).StatesAnnounced := by
  constructor
  · rintro model - ⟨id, entry⟩ shown
    have stored := (mem_peersOf_withAnswers model id entry).mp shown
    obtain ⟨r, found, same⟩ := Option.map_eq_some_iff.mp (collected_entry rmpv stored).2
    obtain ⟨raw, decoded⟩ := recordsOf_decoded (mem_ofPeer.mp (announced_mem found)).1
    rw [← same]
    exact (decodeServerInfo_wellFormed rmpv decoded).2
  · intro id info registered
    have read : (gatherCapability rmpv capability).get? id = some info := by
      rw [← HashMap.get?_reorder order]
      exact registered
    rw [gatherCapability_eq, HashMap.get?_foldl_orInsert, HashMap.get?_empty, Option.none_or] at read
    obtain ⟨entry, -, rfl⟩ := Option.map_eq_some_iff.mp read
    exact capabilityInfo_state entry.2

theorem statesAnnounced_pass (rmpv : Rmpv) (order : IterOrder) (bootstrapPeers : List String) (world : World)
    (geo : GeoIp) (pass : Pass) :
    (crawlInput order bootstrapPeers world geo (readDht rmpv world pass)).StatesAnnounced := by
  rw [crawlInput_eq]
  exact statesAnnounced_withAnswers

end

section
variable {input : CrawlInput} {order : IterOrder} {overflowChecks : Bool} {now : DateTime} {s : Snapshot}

/-- The peers of a document: strictly ascending by id, exactly those with a claim to a row, each built
from the record that speaks for it. No decoder gives a record the state of a peer without one, so in the document
of a pass just the peers without one have it. -/
theorem roster (built : buildSnapshot overflowChecks order now input = some s) :
    (s.peers.map (·.peerId)).Pairwise (· < ·) ∧
      (∀ id, (∃ row ∈ s.peers, row.peerId = id) ↔ input.HasRow id) ∧
      s.numPeers = s.peers.length ∧
      (∀ row ∈ s.peers, BuiltFrom input (input.source row.peerId) row) ∧
      (input.StatesAnnounced →
        ∀ row ∈ s.peers, row.state = "unannounced" ↔ input.source row.peerId = .connection) ∧
      ∀ rmpv order bootstrapPeers world geo pass,
        input = crawlInput order bootstrapPeers world geo (readDht rmpv world pass) →
        ∀ row ∈ s.peers, row.state = "unannounced" ↔ input.source row.peerId = .connection := by
  obtain ⟨ids, contributors, -, rfl⟩ := (buildSnapshot_eq_some input order overflowChecks now s).mp built
  have keys : (input.peerRows order).map (·.peerId) = (input.peerIds order).items := by
    rw [CrawlInput.peerRows, List.map_map]
    exact List.map_id _
  have rows : ∀ row ∈ input.peerRows order, BuiltFrom input (input.source row.peerId) row := by
    intro row shown
    obtain ⟨id, listed, rfl⟩ := List.mem_map.mp shown
    exact builtFrom_source (ids.2 id listed)
  have unannounced (states : input.StatesAnnounced) :
      ∀ row ∈ input.peerRows order, row.state = "unannounced" ↔ input.source row.peerId = .connection :=
    fun row shown => (rows row shown).unannounced_iff states
  refine ⟨?_, ?_, rfl, rows, unannounced, ?_⟩
  · change ((input.peerRows order).map (·.peerId)).Pairwise (· < ·)
    rw [keys]
    exact BTreeSet.items_sorted _
  · intro id
    rw [← mem_peerIds_iff input order, ← keys, List.mem_map]
    rfl
  · intro rmpv order bootstrapPeers world geo pass same
    exact unannounced (same ▸ statesAnnounced_pass rmpv order bootstrapPeers world geo pass)

theorem roster_across_models :
    let first : Model := { dhtPrefix := "a", repository := "", numBlocks := 1 }
    let second : Model := { dhtPrefix := "b", repository := "", numBlocks := 1 }
    let down : PeerModelEntry := { info := { state := "offline" }, blocks := ∅ }
    let up : PeerModelEntry := { info := { state := "online" }, blocks := ∅ }
    let input : CrawlInput :=
      { models := [first, second]
        perModel := ((∅ : BTreeMap String (HashMap String PeerModelEntry)).insert "a"
          ((∅ : HashMap String PeerModelEntry).insert "QmA" down)).insert "b"
          ((∅ : HashMap String PeerModelEntry).insert "QmA" up)
        capabilityPeers := (∅ : HashMap String ServerInfo).insert "QmB" { state := "unknown" }
        addrs := (∅ : HashMap String Observed).insert "QmC" { addrs := [], reachability := .inbound, kwaaiKad := true }
        geo := .disabled }
    ∃ s, buildSnapshot false .insertion 0 input = some s ∧
      (s.peers.map (·.peerId)).Pairwise (· < ·) ∧
      (∀ id, (∃ row ∈ s.peers, row.peerId = id) ↔ input.HasRow id) ∧
      s.numPeers = s.peers.length ∧
      (∀ row ∈ s.peers, BuiltFrom input (input.source row.peerId) row) ∧
      ∀ row ∈ s.peers, row.state = "unannounced" ↔ input.source row.peerId = .connection := by
  intro first second down up input
  have completes : (buildSnapshot false .insertion 0 input).isSome = true := by decide +kernel
  obtain ⟨s, built⟩ := Option.isSome_iff_exists.mp completes
  have states : input.StatesAnnounced := by
    refine ⟨by decide, fun id info registered => ?_⟩
    have listed := List.mem_singleton.mp ((HashMap.mem_entries _ _ _).mpr registered)
    obtain ⟨-, rfl⟩ := Prod.mk.inj listed
    decide
  obtain ⟨ascending, named, count, rows, unannounced, -⟩ := roster built
  exact ⟨s, built, ascending, named, count, rows, unannounced states⟩

end

end KwaaiNetMap
