import KwaaiNetMap.Crawler.Scripted

/-!
The capability keys are asked one after the other, and each peer keeps the first entry met under its id,
whichever registry and bootstrap it came from (`get?_collectKeys`). An entry that is no server
record stands for a placeholder, and so hides the records that come after it: `unshadowed_iff`.
-/

namespace KwaaiNetMap
open Collections

def vpkKey : String := "_kwaai.vpk.nodes"

def inferenceKey : String := "_kwaai.inference.nodes"

theorem capabilityKeys_eq : capabilityKeys = [vpkKey, inferenceKey] := rfl

def placeholder : ServerInfo := { state := "unknown" }

/-- An entry of a registry: the key it was listed under, the peer, and the value. -/
structure Listing where
  key : String
  peerId : String
  raw : Bytes
  deriving DecidableEq

section
variable (rmpv : Rmpv) (net : Network) (ourDhtid : Bytes)

def listingsIn (key : String) (responses : List FindResponse) : List Listing :=
  (responses.flatMap (capabilityEntries rmpv)).map fun entry => ⟨key, entry.1, entry.2⟩

def capabilityListings : List String → Pass → List Listing
  | [], _ => []
  | key :: rest, pass =>
    let (responses, next) := askEach net ourDhtid [dhtKey net key] pass.set.live pass
    listingsIn rmpv key responses ++ capabilityListings rest next

def collectKeys (keys : List String) (pass : Pass) : HashMap String ServerInfo :=
  (keys.foldl (fun (out, pass) key => collectCapability rmpv net ourDhtid pass key out)
    ((∅ : HashMap String ServerInfo), pass)).1

theorem collectCapabilities_keys (pass : Pass) :
    (collectCapabilities rmpv net ourDhtid pass).1 = collectKeys rmpv net ourDhtid capabilityKeys pass := rfl

theorem entries_listings (keys : List String) (pass : Pass) :
    (capabilityAnswers net ourDhtid keys pass).1.flatMap (capabilityEntries rmpv) =
      (capabilityListings rmpv net ourDhtid keys pass).map fun l => (l.peerId, l.raw) := by
  induction keys generalizing pass with
  | nil => rfl
  | cons key rest ih =>
    unfold capabilityAnswers capabilityListings
    dsimp only
    rw [List.flatMap_append, List.map_append, ih, listingsIn, List.map_map]
    exact congrArg (· ++ _) (List.map_id _).symm

theorem get?_collectKeys (keys : List String) (pass : Pass) (id : String) :
    (collectKeys rmpv net ourDhtid keys pass).get? id =
      ((capabilityListings rmpv net ourDhtid keys pass).find? fun l => decide (l.peerId = id)).map fun l =>
        capabilityInfo rmpv l.raw := by
  have folded : collectKeys rmpv net ourDhtid keys pass =
      (capabilityListings rmpv net ourDhtid keys pass).foldl
        (fun out l => out.orInsert l.peerId (capabilityInfo rmpv l.raw)) ∅ := by
    have flat := gatherCapability_eq rmpv (capabilityAnswers net ourDhtid keys pass).1
    rw [entries_listings, List.foldl_map] at flat
    unfold collectKeys
    rw [collectCapabilities_fold]
    exact flat
  rw [folded, HashMap.get?_foldl_orInsert, HashMap.get?_empty, Option.none_or]

end

/-! ### Shadowed records -/

def storedFrom (listings : List Listing) : HashMap String Listing :=
  listings.foldl (fun out l => out.orInsert l.peerId l) ∅

theorem get?_storedFrom (listings : List Listing) (id : String) :
    (storedFrom listings).get? id = listings.find? fun l => decide (l.peerId = id) := by
  have folded := HashMap.get?_foldl_orInsert Listing.peerId (fun l => l) listings ∅ id
  rw [HashMap.get?_empty, Option.none_or, Option.map_id'] at folded
  exact folded

def ServerInfo.AgreesWith (held info : ServerInfo) : Prop :=
  held.state = info.state ∧ held.version = info.version ∧ held.publicName = info.publicName

section
variable (rmpv : Rmpv)

/-- What a peer's inference record announces: the first one met, where several bootstraps have one. -/
def inferenceRecord? (listings : List Listing) (id : String) : Option ServerInfo :=
  listings.findSome? fun l =>
    if l.key = inferenceKey ∧ l.peerId = id then decodeServerInfo rmpv l.raw else none

/-- A value made from an entry that is no record is stored only where the peer has no record at all. -/
def Unshadowed (listings : List Listing) (stored : HashMap String Listing) : Prop :=
  ∀ id l, stored.get? id = some l → decodeServerInfo rmpv l.raw = none →
    ∀ m ∈ listings, m.peerId = id → decodeServerInfo rmpv m.raw = none

/-- A peer listed in the VPK registry keeps what its inference record announces. -/
def InferenceKept (listings : List Listing) (kept : HashMap String ServerInfo) : Prop :=
  ∀ id, (∃ l ∈ listings, l.key = vpkKey ∧ l.peerId = id) →
    ∀ record, inferenceRecord? rmpv listings id = some record →
      ∃ held, kept.get? id = some held ∧ held.AgreesWith record

/-- The first entry of every peer with a record is one, and for a peer in both registries it says what the
inference record says. -/
def RecordFirst (listings : List Listing) : Prop :=
  ∀ id l, listings.find? (fun l => decide (l.peerId = id)) = some l →
    (∃ m ∈ listings, m.peerId = id ∧ (decodeServerInfo rmpv m.raw).isSome = true) →
      ∃ info, decodeServerInfo rmpv l.raw = some info ∧
        ((∃ m ∈ listings, m.key = vpkKey ∧ m.peerId = id) →
          ∀ record, inferenceRecord? rmpv listings id = some record → info.AgreesWith record)

theorem capabilityInfo_record {raw : Bytes} {info : ServerInfo} (decoded : decodeServerInfo rmpv raw = some info) :
    capabilityInfo rmpv raw = info := by
  rw [capabilityInfo, decoded]
  rfl

theorem capabilityInfo_placeholder {raw : Bytes} (undecoded : decodeServerInfo rmpv raw = none) :
    capabilityInfo rmpv raw = placeholder := by
  rw [capabilityInfo, undecoded]
  rfl

variable {rmpv} {listings : List Listing} {kept : HashMap String ServerInfo}

theorem inferenceRecord?_listed {id : String} {record : ServerInfo}
    (found : inferenceRecord? rmpv listings id = some record) :
    ∃ l ∈ listings, l.key = inferenceKey ∧ l.peerId = id ∧ decodeServerInfo rmpv l.raw = some record := by
  obtain ⟨l, member, decoded⟩ := List.exists_of_findSome?_eq_some found
  split at decoded
  · rename_i here
    exact ⟨l, member, here.1, here.2, decoded⟩
  · cases decoded

theorem first_listed {id : String} {m : Listing} (member : m ∈ listings) (named : m.peerId = id) :
    ∃ l, listings.find? (fun l => decide (l.peerId = id)) = some l :=
  Option.isSome_iff_exists.mp (List.find?_isSome.mpr ⟨m, member, decide_eq_true named⟩)

theorem unshadowed_iff_recordFirst
    (first : ∀ id, kept.get? id =
      (listings.find? fun l => decide (l.peerId = id)).map fun l => capabilityInfo rmpv l.raw) :
    Unshadowed rmpv listings (storedFrom listings) ∧ InferenceKept rmpv listings kept ↔
      RecordFirst rmpv listings := by
  constructor
  · rintro ⟨unshadowed, inference⟩ id l met ⟨m, member, named, decodes⟩
    cases decoded : decodeServerInfo rmpv l.raw with
    | none =>
      have none_ := unshadowed id l (by rw [get?_storedFrom, met]) decoded m member named
      rw [none_] at decodes
      cases decodes
    | some info =>
      refine ⟨info, rfl, fun listed record found => ?_⟩
      obtain ⟨held, got, agrees⟩ := inference id listed record found
      rw [first, met, Option.map_some, capabilityInfo_record rmpv decoded] at got
      rwa [← Option.some.inj got] at agrees
  · intro recordFirst
    constructor
    · intro id l held undecoded m member named
      rw [get?_storedFrom] at held
      by_contra decodes
      obtain ⟨info, decoded, -⟩ := recordFirst id l held
        ⟨m, member, named, Option.isSome_iff_ne_none.mpr decodes⟩
      rw [undecoded] at decoded
      cases decoded
    · intro id listed record found
      obtain ⟨m, member, -, named, decoded⟩ := inferenceRecord?_listed found
      obtain ⟨l, met⟩ := first_listed member named
      obtain ⟨info, read, agrees⟩ := recordFirst id l met ⟨m, member, named, by rw [decoded]; rfl⟩
      refine ⟨info, ?_, agrees listed record found⟩
      rw [first, met, Option.map_some, capabilityInfo_record rmpv read]

end

theorem mem_listings_key (rmpv : Rmpv) (net : Network) (ourDhtid : Bytes) (keys : List String) (pass : Pass) :
    ∀ l ∈ capabilityListings rmpv net ourDhtid keys pass, l.key ∈ keys := by
  induction keys generalizing pass with
  | nil => exact fun l member => absurd member List.not_mem_nil
  | cons key rest ih =>
    intro l member
    rcases List.mem_append.mp member with here | later
    · obtain ⟨entry, -, rfl⟩ := List.mem_map.mp here
      exact List.mem_cons_self
    · exact List.mem_cons_of_mem _ (ih _ l later)

/-- In whatever order the capability keys are asked: exactly when the first entry of every peer with a record is one,
and says what the inference record says where the peer is in both registries. -/
theorem unshadowed_iff (rmpv : Rmpv) (net : Network) (ourDhtid : Bytes) (pass : Pass) {keys : List String}
    (asked : keys.Perm capabilityKeys) :
    (∀ l ∈ capabilityListings rmpv net ourDhtid keys pass, l.key = vpkKey ∨ l.key = inferenceKey) ∧
      (∀ id, (collectKeys rmpv net ourDhtid keys pass).get? id =
        ((storedFrom (capabilityListings rmpv net ourDhtid keys pass)).get? id).map fun l =>
          capabilityInfo rmpv l.raw) ∧
      (Unshadowed rmpv (capabilityListings rmpv net ourDhtid keys pass)
            (storedFrom (capabilityListings rmpv net ourDhtid keys pass)) ∧
          InferenceKept rmpv (capabilityListings rmpv net ourDhtid keys pass)
            (collectKeys rmpv net ourDhtid keys pass) ↔
        RecordFirst rmpv (capabilityListings rmpv net ourDhtid keys pass)) := by
  have first := get?_collectKeys rmpv net ourDhtid keys pass
  refine ⟨?_, fun id => by rw [get?_storedFrom, first], unshadowed_iff_recordFirst first⟩
  intro l member
  have key := asked.mem_iff.mp (mem_listings_key rmpv net ourDhtid keys pass l member)
  simpa [capabilityKeys_eq] using key

/-! ### A peer in both registries -/

def vpkMap : Wire := .map [("vpk", .bool true)]

def inferenceRecord : Wire := .record 2 [("version", .str "0.4.2")]

def vpkAnswer : Wire := .dictionary [("QmA", vpkMap)]

def inferenceAnswer : Wire := .dictionary [("QmA", inferenceRecord)]

def bothReader : Rmpv := Wire.reader [vpkAnswer, inferenceAnswer]

def onePass : Pass := { set := ⟨[{ addr := "/ip4/1.2.3.4/tcp/8000/p2p/QmB", dialed := true }]⟩ }

def bothNetwork (answers : List Wire) : Network := .scripted (answers.map fun w => some ⟨[.dictionary w]⟩)

theorem decode_vpkMap : decodeServerInfo bothReader vpkMap.bytes = none := by
  have absent : bothReader.readValue vpkMap.bytes = some vpkMap.value := rfl
  rw [decodeServerInfo, unwrapExt, absent]
  rfl

theorem decode_inferenceRecord :
    ∃ info, decodeServerInfo bothReader inferenceRecord.bytes = some info ∧ info.state = "online" ∧
      info.version = some "0.4.2" :=
  ⟨_, rfl, rfl, rfl⟩

/-- Asked in the other order, the record comes first and is kept. -/
theorem record_kept_in_other_order :
    let net := bothNetwork [inferenceAnswer, vpkAnswer]
    let listings := capabilityListings bothReader net [] [inferenceKey, vpkKey] onePass
    let kept := collectKeys bothReader net [] [inferenceKey, vpkKey] onePass
    Unshadowed bothReader listings (storedFrom listings) ∧ InferenceKept bothReader listings kept ∧
      (kept.get? "QmA").map (·.version) = some (some "0.4.2") := by
  intro net listings kept
  have listed : listings = [⟨inferenceKey, "QmA", inferenceRecord.bytes⟩, ⟨vpkKey, "QmA", vpkMap.bytes⟩] := by
    decide +kernel
  have recordFirst : RecordFirst bothReader listings := by
    rintro id l met -
    have named : l.peerId = id := by simpa using List.find?_some met
    have here : l = ⟨inferenceKey, "QmA", inferenceRecord.bytes⟩ := by
      have peer : ∀ m ∈ listings, m.peerId = "QmA" := by
        rw [listed]
        decide
      rw [← named, peer l (List.mem_of_find?_eq_some met), listed] at met
      exact (Option.some.inj met).symm
    obtain ⟨info, decoded, -⟩ := decode_inferenceRecord
    subst named here
    refine ⟨info, decoded, fun _ record found => ?_⟩
    have first : inferenceRecord? bothReader listings "QmA" = decodeServerInfo bothReader inferenceRecord.bytes := by
      rw [listed, inferenceRecord?, List.findSome?_cons, if_pos ⟨rfl, rfl⟩, decoded]
    rw [first, decoded] at found
    rw [Option.some.inj found]
    exact ⟨rfl, rfl, rfl⟩
  have both := (unshadowed_iff bothReader net [] onePass
    (List.Perm.swap vpkKey inferenceKey [])).2.2.mpr recordFirst
  exact ⟨both.1, both.2, by decide +kernel⟩

/-- Asked in the order of `capabilityKeys`, the plain map comes first: the record's state is lost. -/
theorem record_shadowed_by_plain_map :
    let net := bothNetwork [vpkAnswer, inferenceAnswer]
    let listings := capabilityListings bothReader net [] capabilityKeys onePass
    let kept := (collectCapabilities bothReader net [] onePass).1
    (kept.get? "QmA").map (·.state) = some "unknown" ∧
      ¬ Unshadowed bothReader listings (storedFrom listings) ∧ ¬ InferenceKept bothReader listings kept := by
  intro net listings kept
  have listed : listings = [⟨vpkKey, "QmA", vpkMap.bytes⟩, ⟨inferenceKey, "QmA", inferenceRecord.bytes⟩] := by
    decide +kernel
  have unknown : (kept.get? "QmA").map (·.state) = some "unknown" := by decide +kernel
  obtain ⟨record, decoded, online, -⟩ := decode_inferenceRecord
  have member : (⟨inferenceKey, "QmA", inferenceRecord.bytes⟩ : Listing) ∈ listings := by
    rw [listed]
    simp
  refine ⟨unknown, fun unshadowed => ?_, fun inference => ?_⟩
  · have stored : (storedFrom listings).get? "QmA" = some ⟨vpkKey, "QmA", vpkMap.bytes⟩ := by
      rw [get?_storedFrom, listed]
      rfl
    have lost := unshadowed "QmA" _ stored decode_vpkMap _ member rfl
    rw [decoded] at lost
    cases lost
  · have found : inferenceRecord? bothReader listings "QmA" = some record := by
      rw [listed, inferenceRecord?, List.findSome?_cons, if_neg (by decide), List.findSome?_cons,
        if_pos ⟨rfl, rfl⟩, decoded]
    obtain ⟨held, got, state, -⟩ := inference "QmA"
      ⟨⟨vpkKey, "QmA", vpkMap.bytes⟩, by rw [listed]; simp, rfl, rfl⟩ record found
    rw [got, Option.map_some, state, online] at unknown
    exact absurd unknown (by decide)

end KwaaiNetMap
