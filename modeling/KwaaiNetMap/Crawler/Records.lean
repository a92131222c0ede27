import KwaaiNetMap.Crawler.Queries

/-!
A response is read as the list of the server records it carries, each under its block key. Folding
responses into per-peer entries is folding that list (`collectResponses_eq`), one peer at a time
(`get?_collectResponses`): an entry holds the block keys of the peer's records, and the record the peer
announces, which is its last online one, else its first.
-/

namespace KwaaiNetMap
open Collections

structure BlockRecord where
  block : Int
  peerId : String
  info : ServerInfo

def BlockRecord.IsOnline (r : BlockRecord) : Prop := r.info.state = "online"

instance (r : BlockRecord) : Decidable r.IsOnline := inferInstanceAs (Decidable (_ = _))

section
variable (rmpv : Rmpv)

def resultRecords (item : FindResult × Nat) : List BlockRecord :=
  if item.1.value.isEmpty then []
  else (serversIn rmpv item.1.resultType item.1.value).map fun server => ⟨item.2, server.1, server.2⟩

def responseRecords (resp : FindResponse) : List BlockRecord :=
  resp.results.zipIdx.flatMap (resultRecords rmpv)

def recordsOf (responses : List FindResponse) : List BlockRecord :=
  responses.flatMap (responseRecords rmpv)

def collectResponses (out : HashMap String PeerModelEntry) (responses : List FindResponse) :
    HashMap String PeerModelEntry :=
  responses.foldl (collectResponse rmpv) out

def storeRecord (out : HashMap String PeerModelEntry) (r : BlockRecord) : HashMap String PeerModelEntry :=
  out.upsert r.peerId (collectEntry r.block r.info)

theorem collectResult_eq (out : HashMap String PeerModelEntry) (item : FindResult × Nat) :
    collectResult rmpv out item = (resultRecords rmpv item).foldl storeRecord out := by
  unfold collectResult resultRecords
  dsimp only
  split
  · rfl
  · rw [List.foldl_map]
    rfl

theorem collectResponse_eq (out : HashMap String PeerModelEntry) (resp : FindResponse) :
    collectResponse rmpv out resp = (responseRecords rmpv resp).foldl storeRecord out := by
  rw [collectResponse, responseRecords, List.foldl_flatMap]
  exact List.foldl_ext _ _ _ fun out item _ => collectResult_eq rmpv out item

theorem collectResponses_eq (out : HashMap String PeerModelEntry) (responses : List FindResponse) :
    collectResponses rmpv out responses = (recordsOf rmpv responses).foldl storeRecord out := by
  rw [collectResponses, recordsOf, List.foldl_flatMap]
  exact List.foldl_ext _ _ _ fun out resp _ => collectResponse_eq rmpv out resp

theorem collectResponses_append (out : HashMap String PeerModelEntry) (first second : List FindResponse) :
    collectResponses rmpv out (first ++ second) =
      collectResponses rmpv (collectResponses rmpv out first) second :=
  List.foldl_append

theorem collectFrom_eq (net : Network) (ourDhtid : Bytes) (keys : List Bytes) (addrs : List String)
    (out : HashMap String PeerModelEntry) (pass : Pass) :
    collectFrom rmpv net ourDhtid keys addrs out pass =
      (collectResponses rmpv out (askEach net ourDhtid keys addrs pass).1,
        (askEach net ourDhtid keys addrs pass).2) := by
  induction addrs generalizing out pass with
  | nil => rfl
  | cons addr rest ih =>
    unfold collectFrom askEach
    rcases rpcFind net ourDhtid pass addr keys with ⟨_ | resp, pass⟩
    · exact ih out pass
    · exact ih (collectResponse rmpv out resp) pass

end

/-! ### One peer's records -/

/-- The record a peer is taken to announce: its last online one, else its first. -/
def announced (records : List BlockRecord) : Option BlockRecord :=
  (records.filter (fun r => decide r.IsOnline)).getLast?.or records.head?

theorem announced_append (records : List BlockRecord) (r : BlockRecord) :
    announced (records ++ [r]) = if r.IsOnline then some r else (announced records).or (some r) := by
  unfold announced
  by_cases online : r.IsOnline
  · simp [online]
  · cases records <;> simp [online]

theorem announced_mem {records : List BlockRecord} {r : BlockRecord} (h : announced records = some r) :
    r ∈ records := by
  unfold announced at h
  rcases Option.or_eq_some_iff.mp h with online | ⟨-, first⟩
  · exact (List.mem_filter.mp (List.mem_of_getLast? online)).1
  · exact List.mem_of_head? first

theorem announced_online {records : List BlockRecord} {r : BlockRecord} (h : announced records = some r) :
    r.IsOnline ↔ ∃ x ∈ records, x.IsOnline := by
  constructor
  · intro online
    exact ⟨r, announced_mem h, online⟩
  · rintro ⟨x, member, online⟩
    unfold announced at h
    have kept : x ∈ records.filter (fun r => decide r.IsOnline) :=
      List.mem_filter.mpr ⟨member, decide_eq_true online⟩
    rcases Option.or_eq_some_iff.mp h with last | ⟨none, -⟩
    · exact of_decide_eq_true (List.mem_filter.mp (List.mem_of_getLast? last)).2
    · rw [List.getLast?_eq_none_iff] at none
      rw [none] at kept
      cases kept

def foldEntry (records : List BlockRecord) : Option PeerModelEntry :=
  records.foldl (fun held r => some (collectEntry r.block r.info held)) none

theorem foldEntry_append (records : List BlockRecord) (r : BlockRecord) :
    foldEntry (records ++ [r]) = some (collectEntry r.block r.info (foldEntry records)) := by
  rw [foldEntry, List.foldl_append]
  rfl

theorem foldEntry_spec (records : List BlockRecord) :
    (foldEntry records = none ∧ records = []) ∨
      ∃ e, foldEntry records = some e ∧
        (∀ b, b ∈ e.blocks.items ↔ ∃ r ∈ records, r.block = b) ∧
        (announced records).map (·.info) = some e.info := by
  induction records using List.reverseRecOn with
  | nil => exact Or.inl ⟨rfl, rfl⟩
  | append_singleton records r ih =>
    refine Or.inr ⟨_, foldEntry_append records r, ?_⟩
    rw [announced_append]
    rcases ih with ⟨none, rfl⟩ | ⟨e, some, blocks, info⟩
    · rw [none]
      by_cases online : r.IsOnline
      · have state : r.info.state = "online" := online
        simp [collectEntry, BTreeSet.mem_items_insert, online, state, eq_comm]
      · have state : ¬ r.info.state = "online" := online
        simp [collectEntry, BTreeSet.mem_items_insert, announced, online, state, eq_comm]
    · rw [some]
      obtain ⟨a, found, same⟩ := Option.map_eq_some_iff.mp info
      have keys : ∀ b, b ∈ (BTreeSet.insert e.blocks r.block).items ↔ ∃ x ∈ records ++ [r], x.block = b := by
        intro b
        rw [BTreeSet.mem_items_insert, blocks]
        simp only [List.mem_append, List.mem_singleton, or_and_right, exists_or, exists_eq_left]
        rw [or_comm, eq_comm (a := b)]
      by_cases online : r.IsOnline
      · have state : r.info.state = "online" := online
        simp only [collectEntry, Option.getD_some, if_pos state, if_pos online]
        exact ⟨keys, rfl⟩
      · have state : ¬ r.info.state = "online" := online
        simp only [collectEntry, Option.getD_some, if_neg state, if_neg online, found]
        exact ⟨keys, by simp [same]⟩

section
variable (rmpv : Rmpv)

def ofPeer (records : List BlockRecord) (id : String) : List BlockRecord :=
  records.filter fun r => decide (r.peerId = id)

theorem mem_ofPeer {records : List BlockRecord} {id : String} {r : BlockRecord} :
    r ∈ ofPeer records id ↔ r ∈ records ∧ r.peerId = id := by
  simp [ofPeer]

theorem get?_collectResponses (responses : List FindResponse) (id : String) :
    (collectResponses rmpv ∅ responses).get? id = foldEntry (ofPeer (recordsOf rmpv responses) id) := by
  rw [collectResponses_eq]
  exact get?_foldl_upsert (μ := HashMap String PeerModelEntry) (·.peerId)
    (fun r => collectEntry r.block r.info) (recordsOf rmpv responses) ∅ id

theorem collected_entry {responses : List FindResponse} {id : String} {e : PeerModelEntry}
    (stored : (collectResponses rmpv ∅ responses).get? id = some e) :
    (∀ b, b ∈ e.blocks.items ↔ ∃ r ∈ recordsOf rmpv responses, r.peerId = id ∧ r.block = b) ∧
      (announced (ofPeer (recordsOf rmpv responses) id)).map (·.info) = some e.info := by
  rw [get?_collectResponses] at stored
  rcases foldEntry_spec (ofPeer (recordsOf rmpv responses) id) with ⟨none, -⟩ | ⟨e', some, blocks, info⟩
  · rw [none] at stored
    cases stored
  · rw [some] at stored
    obtain rfl := Option.some.inj stored
    refine ⟨fun b => ?_, info⟩
    rw [blocks]
    simp only [mem_ofPeer, and_assoc]

theorem collected_isSome (responses : List FindResponse) (id : String) :
    ((collectResponses rmpv ∅ responses).get? id).isSome = true ↔
      ∃ r ∈ recordsOf rmpv responses, r.peerId = id := by
  rw [collectResponses_eq]
  have present := isSome_get?_foldl_upsert (μ := HashMap String PeerModelEntry) (·.peerId)
    (fun r : BlockRecord => collectEntry r.block r.info) (recordsOf rmpv responses) ∅ id
  have empty : ¬ (KeyedMap.get? (∅ : HashMap String PeerModelEntry) id).isSome = true := by
    rw [HashMap.get?_eq, HashMap.get?_empty]
    decide
  exact present.trans ⟨fun either => either.resolve_left empty, Or.inr⟩

theorem collected_of_mem {responses : List FindResponse} {r : BlockRecord} (carried : r ∈ recordsOf rmpv responses) :
    ∃ e, (collectResponses rmpv ∅ responses).get? r.peerId = some e :=
  Option.isSome_iff_exists.mp ((collected_isSome rmpv responses r.peerId).mpr ⟨r, carried, rfl⟩)

theorem collected_online {responses : List FindResponse} {id : String} {e : PeerModelEntry}
    (stored : (collectResponses rmpv ∅ responses).get? id = some e) :
    e.info.state = "online" ↔ ∃ r ∈ recordsOf rmpv responses, r.peerId = id ∧ r.IsOnline := by
  obtain ⟨a, found, same⟩ := Option.map_eq_some_iff.mp (collected_entry rmpv stored).2
  have online := announced_online found
  rw [← same]
  change a.IsOnline ↔ _
  rw [online]
  simp only [mem_ofPeer, and_assoc]

end

end KwaaiNetMap
