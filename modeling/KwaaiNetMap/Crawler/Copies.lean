import KwaaiNetMap.Collections.Leading
import KwaaiNetMap.Crawler.Records
import KwaaiNetMap.Crawler.Scripted
import KwaaiNetMap.Crawler.Servers

/-!
What the fold over responses keeps of each peer (`fold_exact`), and when that is the freshest copy of its
record (`freshest_kept_iff`).
-/

namespace KwaaiNetMap
open Collections

/-! ### What is folded -/

section
variable (rmpv : Rmpv)

/-- A response lists, as result `index`, a record of the peer that decodes to `info`. -/
def Carries (responses : List FindResponse) (id : String) (index : Nat) (info : ServerInfo) : Prop :=
  ∃ resp ∈ responses, ∃ result, resp.results[index]? = some result ∧ result.value.isEmpty = false ∧
    (id, info) ∈ serversIn rmpv result.resultType result.value

theorem mem_recordsOf {responses : List FindResponse} {r : BlockRecord} :
    r ∈ recordsOf rmpv responses ↔ ∃ index : Nat, r.block = index ∧ Carries rmpv responses r.peerId index r.info := by
  simp only [recordsOf, responseRecords, List.mem_flatMap]
  constructor
  · rintro ⟨resp, answered, ⟨result, index⟩, listed, member⟩
    unfold resultRecords at member
    split at member
    · cases member
    · rename_i filled
      obtain ⟨server, held, rfl⟩ := List.mem_map.mp member
      exact ⟨index, rfl, resp, answered, result, List.mem_zipIdx_iff_getElem?.mp listed, by simpa using filled, held⟩
  · rintro ⟨index, block, resp, answered, result, listed, filled, held⟩
    refine ⟨resp, answered, (result, index), List.mem_zipIdx_iff_getElem?.mpr listed, ?_⟩
    rw [resultRecords, if_neg (by simp [filled])]
    refine List.mem_map.mpr ⟨(r.peerId, r.info), held, ?_⟩
    rw [← block]

/-- The entries of one model are those of its responses: the peers with a record, under the result indexes
they have one at, each with the record it announces. -/
structure FoldExact (responses : List FindResponse) (out : HashMap String PeerModelEntry) : Prop where
  keys : ∀ id, (out.get? id).isSome = true ↔ ∃ index info, Carries rmpv responses id index info
  blocks : ∀ id e, out.get? id = some e →
    ∀ b, b ∈ e.blocks.items ↔ ∃ index : Nat, b = index ∧ ∃ info, Carries rmpv responses id index info
  info : ∀ id e, out.get? id = some e →
    (announced (ofPeer (recordsOf rmpv responses) id)).map (·.info) = some e.info

theorem collectResponses_exact (responses : List FindResponse) :
    FoldExact rmpv responses (collectResponses rmpv ∅ responses) where
  keys id := by
    rw [collected_isSome]
    constructor
    · rintro ⟨r, member, rfl⟩
      obtain ⟨index, -, carried⟩ := (mem_recordsOf rmpv).mp member
      exact ⟨index, r.info, carried⟩
    · rintro ⟨index, info, carried⟩
      exact ⟨⟨index, id, info⟩, (mem_recordsOf rmpv).mpr ⟨index, rfl, carried⟩, rfl⟩
  blocks id e stored b := by
    rw [(collected_entry rmpv stored).1]
    constructor
    · rintro ⟨r, member, rfl, rfl⟩
      obtain ⟨index, block, carried⟩ := (mem_recordsOf rmpv).mp member
      exact ⟨index, block, r.info, carried⟩
    · rintro ⟨index, rfl, info, carried⟩
      exact ⟨⟨index, id, info⟩, (mem_recordsOf rmpv).mpr ⟨index, rfl, carried⟩, rfl, rfl⟩
  info _ _ stored := (collected_entry rmpv stored).2

end

/-! ### Responses in another order -/

def OnlineIn (out : HashMap String PeerModelEntry) (id : String) : Prop :=
  ∃ e, out.get? id = some e ∧ e.info.state = "online"

structure SameServing (out out' : HashMap String PeerModelEntry) : Prop where
  blocks : ∀ id, (out'.get? id).map (·.blocks) = (out.get? id).map (·.blocks)
  online : ∀ id, OnlineIn out' id ↔ OnlineIn out id

theorem SameServing.keys {out out' : HashMap String PeerModelEntry} (same : SameServing out out') (id : String) :
    (out'.get? id).isSome = (out.get? id).isSome := by
  rw [← Option.isSome_map (f := (·.blocks)), same.blocks id, Option.isSome_map]

section
variable (rmpv : Rmpv)

theorem onlineIn_collected (responses : List FindResponse) (id : String) :
    OnlineIn (collectResponses rmpv ∅ responses) id ↔
      ∃ r ∈ recordsOf rmpv responses, r.peerId = id ∧ r.IsOnline := by
  constructor
  · rintro ⟨e, stored, online⟩
    exact (collected_online rmpv stored).mp online
  · rintro ⟨r, member, rfl, online⟩
    obtain ⟨e, stored⟩ := collected_of_mem rmpv member
    exact ⟨e, stored, (collected_online rmpv stored).mpr ⟨r, member, rfl, online⟩⟩

theorem recordsOf_perm {before after : List FindResponse} (perm : after.Perm before) :
    (recordsOf rmpv after).Perm (recordsOf rmpv before) := perm.flatMap_right _

theorem collected_perm {before after : List FindResponse} (perm : after.Perm before) :
    SameServing (collectResponses rmpv ∅ before) (collectResponses rmpv ∅ after) where
  blocks id := by
    have records : ∀ r, r ∈ recordsOf rmpv after ↔ r ∈ recordsOf rmpv before := fun r =>
      (recordsOf_perm rmpv perm).mem_iff
    have present : ((collectResponses rmpv ∅ after).get? id).isSome =
        ((collectResponses rmpv ∅ before).get? id).isSome := by
      rw [Bool.eq_iff_iff, collected_isSome, collected_isSome]
      simp only [records]
    cases first : (collectResponses rmpv ∅ before).get? id with
    | none =>
      rw [first, Option.isSome_none, Option.isSome_eq_false_iff, Option.isNone_iff_eq_none] at present
      rw [present]
    | some e =>
      rw [first] at present
      obtain ⟨e', second⟩ := Option.isSome_iff_exists.mp present
      rw [second, Option.map_some, Option.map_some, Option.some.injEq]
      refine BTreeSet.ext_items fun b => ?_
      rw [(collected_entry rmpv second).1, (collected_entry rmpv first).1]
      simp only [records]
  online id := by
    rw [onlineIn_collected, onlineIn_collected]
    simp only [(recordsOf_perm rmpv perm).mem_iff]

/-- `collectModel` folds the responses of the bootstraps that answer, in their order; the fold keeps of each peer
exactly its blocks and the record it announces, and another order of the responses moves neither the peers,
nor their blocks, nor which of them are online. The records of a value are those its entries hold. -/
theorem fold_exact :
    (∀ resultType value id info,
      (id, info) ∈ serversIn rmpv resultType value ↔ Stores rmpv resultType value id info) ∧
    (∀ net ourDhtid pass model, (collectModel rmpv net ourDhtid pass model ∅).1 =
      collectResponses rmpv ∅ (askEach net ourDhtid (blockKeys net model) pass.set.live pass).1) ∧
    (∀ responses, FoldExact rmpv responses (collectResponses rmpv ∅ responses)) ∧
    ∀ before after : List FindResponse, after.Perm before →
      SameServing (collectResponses rmpv ∅ before) (collectResponses rmpv ∅ after) := by
  refine ⟨fun _ _ _ _ => mem_serversIn, fun net ourDhtid pass model => ?_, collectResponses_exact rmpv,
    fun _ _ => collected_perm rmpv⟩
  rw [collectModel, collectFrom_eq]

end

/-! ### The freshest copy -/

structure Copy where
  peerId : String
  raw : Bytes
  expires : Option Value

section
variable (rmpv : Rmpv)

def datedEntry (entry : Value) : Option Copy :=
  (dictionaryEntry rmpv entry).map fun held =>
    { peerId := held.1, raw := held.2, expires := entry.asArray.bind fun e => e[2]? }

def datedEntries (bytes : Bytes) : List Copy := (dictionaryItems rmpv bytes).filterMap (datedEntry rmpv)

theorem undated_entries (bytes : Bytes) :
    (datedEntries rmpv bytes).map (fun c => (c.peerId, c.raw)) = dictionaryEntries rmpv bytes := by
  rw [dictionaryEntries_items, datedEntries, List.map_filterMap]
  refine List.filterMap_congr fun entry _ => ?_
  rw [datedEntry, Option.map_map]
  exact Option.map_id'

def resultCopies (result : FindResult) : List Copy :=
  if result.value.isEmpty ∨ result.resultType ≠ 2 then [] else datedEntries rmpv result.value

def copiesOf (responses : List FindResponse) (id : String) : List Copy :=
  (responses.flatMap fun resp => resp.results.flatMap (resultCopies rmpv)).filter fun c => decide (c.peerId = id)

def Subkeyed (responses : List FindResponse) (id : String) : Prop :=
  ∀ resp ∈ responses, ∀ result ∈ resp.results, result.resultType = 1 →
    ∀ info, (id, info) ∉ serversIn rmpv result.resultType result.value

theorem result_records {result : FindResult} {id : String} (index : Nat)
    (subkeyed : result.resultType = 1 → ∀ info, (id, info) ∉ serversIn rmpv result.resultType result.value) :
    ((resultRecords rmpv (result, index)).filter fun r => decide (r.peerId = id)).map (·.info) =
      ((resultCopies rmpv result).filter fun c => decide (c.peerId = id)).filterMap fun c =>
        decodeServerInfo rmpv c.raw := by
  unfold resultRecords resultCopies
  by_cases empty : result.value.isEmpty = true
  · rw [if_pos empty, if_pos (Or.inl empty)]
    rfl
  by_cases dictionary : result.resultType = 2
  · rw [if_neg empty, if_neg (by simp [empty, dictionary]), serversIn, if_pos dictionary, ← undated_entries]
    induction datedEntries rmpv result.value with
    | nil => rfl
    | cons c rest ih =>
      by_cases same : c.peerId = id <;> cases decoded : decodeServerInfo rmpv c.raw <;> simp_all
  · have nothing : ∀ info, (id, info) ∉ serversIn rmpv result.resultType result.value := by
      by_cases regular : result.resultType = 1
      · exact subkeyed regular
      · simp [serversIn, dictionary, regular]
    have others : (((serversIn rmpv result.resultType result.value).map fun server =>
        (⟨index, server.1, server.2⟩ : BlockRecord)).filter fun r => decide (r.peerId = id)) = [] := by
      refine List.filter_eq_nil_iff.mpr fun r member => ?_
      obtain ⟨server, held, rfl⟩ := List.mem_map.mp member
      rw [decide_eq_true_eq]
      rintro rfl
      exact nothing server.2 held
    rw [if_neg empty, others, if_pos (Or.inr dictionary)]
    rfl

theorem copied_records {responses : List FindResponse} {id : String} (subkeyed : Subkeyed rmpv responses id) :
    (ofPeer (recordsOf rmpv responses) id).map (·.info) =
      (copiesOf rmpv responses id).filterMap fun c => decodeServerInfo rmpv c.raw := by
  unfold ofPeer recordsOf copiesOf responseRecords
  simp only [List.filter_flatMap, List.map_flatMap, List.filterMap_flatMap]
  refine List.flatMap_congr fun resp answered => ?_
  have indexed : (resp.results.zipIdx.map Prod.fst) = resp.results := List.zipIdx_map_fst 0 resp.results
  conv_rhs => rw [← indexed]
  rw [List.flatMap_map]
  refine List.flatMap_congr fun item listed => ?_
  have member : item.1 ∈ resp.results := indexed ▸ List.mem_map_of_mem listed
  exact result_records rmpv item.2 (subkeyed resp answered item.1 member)

/-- `fresh` is the copy that expires last, as `expiry` reads expirations, processed between the others. -/
structure Newest {τ : Type*} [LinearOrder τ] (expiry : Option Value → τ) (copies before : List Copy) (fresh : Copy)
    (after : List Copy) : Prop where
  split : copies = before ++ fresh :: after
  latest : ∀ c ∈ before ++ after, expiry c.expires < expiry fresh.expires

def FreshestKept (responses : List FindResponse) (id : String) (fresh : Copy) : Prop :=
  ∃ e, (collectResponses rmpv ∅ responses).get? id = some e ∧ decodeServerInfo rmpv fresh.raw = some e.info

def ServerInfo.IsOnline (info : ServerInfo) : Prop := info.state = "online"

instance : DecidablePred ServerInfo.IsOnline := fun info => inferInstanceAs (Decidable (info.state = "online"))

/-- An online record that no other online one comes after, or an offline one among offline ones that none comes
before; a copy that reads the same does not count. -/
def StandsAmong (fresh : ServerInfo) (before after : List ServerInfo) : Prop :=
  (fresh.IsOnline ∧ ∀ x, (after.filter fun x => decide x.IsOnline).getLast? = some x → x = fresh) ∨
  (¬ fresh.IsOnline ∧ (∀ x ∈ before ++ after, ¬ x.IsOnline) ∧ ∀ x, before.head? = some x → x = fresh)

theorem lastMarked_stands (fresh : ServerInfo) (before after : List ServerInfo) :
    lastMarked ServerInfo.IsOnline (before ++ fresh :: after) = some fresh ↔ StandsAmong fresh before after := by
  unfold StandsAmong
  by_cases online : fresh.IsOnline
  · rw [lastMarked_of_marked online]
    simp only [online, true_and, not_true_eq_false, false_and, or_false]
  · rw [lastMarked_of_unmarked online]
    simp only [online, false_and, not_false_eq_true, true_and, false_or]

theorem announced_info (records : List BlockRecord) :
    (announced records).map (·.info) = lastMarked ServerInfo.IsOnline (records.map (·.info)) :=
  (lastMarked_map ServerInfo.IsOnline (·.info) records).symm

/-- The freshest copy of a record is kept exactly when it decodes and its place among the others protects it. -/
theorem freshest_kept_iff {τ : Type*} [LinearOrder τ] {expiry : Option Value → τ} {responses : List FindResponse}
    {id : String} {before after : List Copy} {fresh : Copy} (subkeyed : Subkeyed rmpv responses id)
    (newest : Newest expiry (copiesOf rmpv responses id) before fresh after) :
    FreshestKept rmpv responses id fresh ↔
      ∃ info, decodeServerInfo rmpv fresh.raw = some info ∧
        StandsAmong info (before.filterMap fun c => decodeServerInfo rmpv c.raw)
          (after.filterMap fun c => decodeServerInfo rmpv c.raw) := by
  have records : ∀ {info}, decodeServerInfo rmpv fresh.raw = some info →
      (ofPeer (recordsOf rmpv responses) id).map (·.info) =
        (before.filterMap fun c => decodeServerInfo rmpv c.raw) ++ info ::
          after.filterMap fun c => decodeServerInfo rmpv c.raw := by
    intro info decoded
    rw [copied_records rmpv subkeyed, newest.split, List.filterMap_append, List.filterMap_cons, decoded]
  constructor
  · rintro ⟨e, stored, decoded⟩
    refine ⟨e.info, decoded, ?_⟩
    rw [← lastMarked_stands, ← records decoded, ← announced_info]
    exact (collected_entry rmpv stored).2
  · rintro ⟨info, decoded, stands⟩
    rw [← lastMarked_stands, ← records decoded, ← announced_info] at stands
    obtain ⟨r, found, rfl⟩ := Option.map_eq_some_iff.mp stands
    obtain ⟨member, rfl⟩ := mem_ofPeer.mp (announced_mem found)
    obtain ⟨e, stored⟩ := collected_of_mem rmpv member
    have kept := (collected_entry rmpv stored).2
    rw [stands] at kept
    exact ⟨e, stored, decoded.trans kept⟩

end

def Wire.datedDictionary (entries : List (String × Wire × Int)) : Wire :=
  .ext 80 (.arr [.int 0, .int 0, .arr (entries.map fun e => .arr [.str e.1, .bin e.2.1, .int e.2.2])])

def expiryOf (expires : Option Value) : Int := ((expires.bind Value.asI64).getD 0)

/-- A record taken back into service, the fresher copy held by the later bootstrap. -/
theorem freshest_kept_of_return :
    let stale := Wire.datedDictionary [("QmA", Wire.record 0 [], 1)]
    let fresh := Wire.datedDictionary [("QmA", Wire.record 2 [], 2)]
    let responses : List FindResponse := [{ results := [.dictionary stale] }, { results := [.dictionary fresh] }]
    FreshestKept (Wire.reader [stale, fresh]) responses "QmA"
      { peerId := "QmA", raw := (Wire.record 2 []).bytes, expires := some (.integer 2) } := by
  intro stale fresh responses
  have copies : copiesOf (Wire.reader [stale, fresh]) responses "QmA" =
      [{ peerId := "QmA", raw := (Wire.record 0 []).bytes, expires := some (.integer 1) },
        { peerId := "QmA", raw := (Wire.record 2 []).bytes, expires := some (.integer 2) }] := by
    rfl
  have newest : Newest expiryOf (copiesOf (Wire.reader [stale, fresh]) responses "QmA")
      [{ peerId := "QmA", raw := (Wire.record 0 []).bytes, expires := some (.integer 1) }]
      { peerId := "QmA", raw := (Wire.record 2 []).bytes, expires := some (.integer 2) } [] :=
    ⟨copies, by decide⟩
  have dictionaries : ∀ resp ∈ responses, ∀ result ∈ resp.results, result.resultType ≠ 1 := by decide
  have subkeyed : Subkeyed (Wire.reader [stale, fresh]) responses "QmA" := fun resp answered result listed regular =>
    absurd regular (dictionaries resp answered result listed)
  refine (freshest_kept_iff _ subkeyed newest).mpr ?_
  have online : (decodeServerInfo (Wire.reader [stale, fresh]) (Wire.record 2 []).bytes).map (·.state) =
      some "online" := by
    decide +kernel
  obtain ⟨info, decoded, state⟩ := Option.map_eq_some_iff.mp online
  exact ⟨info, decoded, Or.inl ⟨state, fun _ nothing => by cases nothing⟩⟩

/-- A server that stopped: its tombstone, newer and read last, does not replace the online copy another bootstrap
still holds. -/
theorem tombstone_outlived :
    let online := Wire.datedDictionary [("QmA", Wire.record 2 [], 1)]
    let tombstone := Wire.datedDictionary [("QmA", Wire.record (-1) [], 2)]
    let responses : List FindResponse := [{ results := [.dictionary online] }, { results := [.dictionary tombstone] }]
    let rmpv := Wire.reader [online, tombstone]
    let stale : Copy := { peerId := "QmA", raw := (Wire.record 2 []).bytes, expires := some (.integer 1) }
    let fresh : Copy := { peerId := "QmA", raw := (Wire.record (-1) []).bytes, expires := some (.integer 2) }
    Newest expiryOf (copiesOf rmpv responses "QmA") [stale] fresh [] ∧
      OnlineIn (collectResponses rmpv ∅ responses) "QmA" ∧ ¬ FreshestKept rmpv responses "QmA" fresh := by
  intro online tombstone responses rmpv stale fresh
  have newest : Newest expiryOf (copiesOf rmpv responses "QmA") [stale] fresh [] := ⟨rfl, by decide⟩
  have stored : ((collectResponses rmpv ∅ responses).get? "QmA").map (·.info.state) = some "online" := by
    decide +kernel
  have gone : (decodeServerInfo rmpv fresh.raw).map (·.state) = some "offline" := by decide +kernel
  obtain ⟨e, found, state⟩ := Option.map_eq_some_iff.mp stored
  refine ⟨newest, ⟨e, found, state⟩, ?_⟩
  rintro ⟨kept, again, decoded⟩
  obtain rfl := Option.some.inj (found.symm.trans again)
  rw [decoded, Option.map_some, state] at gone
  exact absurd gone (by decide)

end KwaaiNetMap
