import KwaaiNetMap.Crawler.Queries
import KwaaiNetMap.Dht.Announcement
import KwaaiNetMap.Dht.Wire

/-!
A result carries the servers that were published in it. A dictionary is written entry by entry, its subkeys
plain or packed, among entries of any other shape; each entry is read by itself, so exactly the well-formed
ones come back, in their order (`serversIn_published`).
-/

namespace KwaaiNetMap

/-! ### Which entries hold a server -/

section
variable (rmpv : Rmpv)

def IsSubkey (v : Value) (s : String) : Prop :=
  v = .string s ∨ ∃ raw, v = .binary raw ∧ rmpv.readValue raw = some (.string s)

/-- `raw` is a record: `Ext(64)` of a state, a throughput and a map. -/
def HoldsRecord (raw : Bytes) : Prop :=
  ∃ payload state throughput fields rest, rmpv.readValue raw = some (.ext 64 payload) ∧
    rmpv.readValue payload = some (.array (state :: throughput :: .map fields :: rest))

def WellFormedEntry (v : Value) : Prop :=
  ∃ first raw rest subkey, v = .array (first :: .binary raw :: rest) ∧ IsSubkey rmpv first subkey ∧
    subkey ≠ "" ∧ HoldsRecord rmpv raw

def dictionaryItems (bytes : Bytes) : List Value :=
  ((unwrapExt rmpv bytes 80).bind fun inner => inner.asArray.bind fun arr => arr[2]?.bind Value.asArray).getD []

def Stores (resultType : Int) (value : Bytes) (id : String) (info : ServerInfo) : Prop :=
  (resultType = 2 ∧ ∃ first raw rest, .array (first :: .binary raw :: rest) ∈ dictionaryItems rmpv value ∧
    IsSubkey rmpv first id ∧ id ≠ "" ∧ decodeServerInfo rmpv raw = some info) ∨
  (resultType = 1 ∧ decodeServerInfo rmpv value = some info ∧ info.peerId = some id)

def readServer (v : Value) : Option (String × ServerInfo) :=
  (dictionaryEntry rmpv v).bind fun entry => (decodeServerInfo rmpv entry.2).map fun info => (entry.1, info)

variable {rmpv}

theorem subkeyToString_iff {v : Value} {s : String} : subkeyToString rmpv v = some s ↔ IsSubkey rmpv v s := by
  unfold IsSubkey subkeyToString
  constructor
  · intro read
    split at read
    · exact Or.inl (congrArg Value.string (Option.some.inj read))
    · rename_i raw
      split at read
      · rename_i packed
        exact Or.inr ⟨raw, rfl, packed.trans (congrArg (fun s => some (Value.string s)) (Option.some.inj read))⟩
      · cases read
    · cases read
  · intro named
    obtain rfl | ⟨raw, rfl, packed⟩ := named
    · rfl
    · simp only [packed]

theorem decodeServerInfo_isSome (raw : Bytes) :
    (decodeServerInfo rmpv raw).isSome = true ↔ HoldsRecord rmpv raw := by
  rw [Option.isSome_iff_exists]
  constructor
  · intro decoded
    obtain ⟨info, decoded⟩ := decoded
    obtain ⟨inner, opened, decoded⟩ := Option.bind_eq_some_iff.mp decoded
    obtain ⟨items, isArray, decoded⟩ := Option.bind_eq_some_iff.mp decoded
    unfold unwrapExt at opened
    split at opened
    · rename_i tag payload outer
      split at opened
      · rename_i isRecord
        subst isRecord
        split at decoded
        · rename_i state throughput fields rest
          obtain ⟨pairs, isMap, -⟩ := Option.bind_eq_some_iff.mp decoded
          obtain rfl := Value.eq_map_of_asMap isMap
          obtain rfl := Value.eq_array_of_asArray isArray
          exact ⟨payload, state, throughput, pairs, rest, outer, opened⟩
        · cases decoded
      · cases opened
    · cases opened
  · intro holds
    obtain ⟨payload, state, throughput, fields, rest, outer, inner⟩ := holds
    have opened : unwrapExt rmpv raw 64 = some (.array (state :: throughput :: .map fields :: rest)) := by
      rw [unwrapExt, outer]
      exact (if_pos rfl).trans inner
    rw [decodeServerInfo, opened]
    exact ⟨_, rfl⟩

theorem dictionaryEntry_iff {v : Value} {subkey : String} {raw : Bytes} :
    dictionaryEntry rmpv v = some (subkey, raw) ↔
      ∃ first rest, v = .array (first :: .binary raw :: rest) ∧ IsSubkey rmpv first subkey ∧ subkey ≠ "" := by
  constructor
  · intro read
    simp only [dictionaryEntry, Option.bind_eq_bind, Option.bind_eq_some_iff] at read
    obtain ⟨items, isArray, first, head, name, named, second, next, read⟩ := read
    split at read
    · rename_i value
      split at read
      · cases read
      · rename_i filled
        obtain ⟨rfl, rfl⟩ := Prod.mk.inj (Option.some.inj read)
        have array := Value.eq_array_of_asArray isArray
        cases items with
        | nil => cases head
        | cons first' rest =>
          cases rest with
          | nil => cases next
          | cons second' rest =>
            obtain rfl := Option.some.inj head
            obtain rfl := Option.some.inj next
            exact ⟨first', rest, array, subkeyToString_iff.mp named, by simpa using filled⟩
    · cases read
  · intro shape
    obtain ⟨first, rest, rfl, named, filled⟩ := shape
    have name := subkeyToString_iff.mpr named
    simp [dictionaryEntry, Value.asArray, name, filled]

theorem readServer_isSome (v : Value) : (readServer rmpv v).isSome = true ↔ WellFormedEntry rmpv v := by
  rw [Option.isSome_iff_exists]
  constructor
  · intro read
    obtain ⟨server, read⟩ := read
    obtain ⟨⟨subkey, raw⟩, entry, read⟩ := Option.bind_eq_some_iff.mp read
    obtain ⟨info, decoded, -⟩ := Option.map_eq_some_iff.mp read
    obtain ⟨first, rest, shape, named, filled⟩ := dictionaryEntry_iff.mp entry
    exact ⟨first, raw, rest, subkey, shape, named, filled,
      (decodeServerInfo_isSome raw).mp (Option.isSome_iff_exists.mpr ⟨info, decoded⟩)⟩
  · intro wellFormed
    obtain ⟨first, raw, rest, subkey, shape, named, filled, record⟩ := wellFormed
    obtain ⟨info, decoded⟩ := Option.isSome_iff_exists.mp ((decodeServerInfo_isSome raw).mpr record)
    have entry := dictionaryEntry_iff.mpr ⟨first, rest, shape, named, filled⟩
    exact ⟨(subkey, info), by rw [readServer, entry, Option.bind_some, decoded, Option.map_some]⟩

theorem dictionaryEntries_items (bytes : Bytes) :
    dictionaryEntries rmpv bytes = (dictionaryItems rmpv bytes).filterMap (dictionaryEntry rmpv) := by
  unfold dictionaryEntries dictionaryItems
  cases unwrapExt rmpv bytes 80 with
  | none => rfl
  | some inner =>
    dsimp only [Option.bind_some]
    cases inner.asArray with
    | none => rfl
    | some arr =>
      dsimp only [Option.bind_some]
      cases arr[2]?.bind Value.asArray <;> rfl

theorem mem_dictionaryEntries {value raw : Bytes} {id : String} :
    (id, raw) ∈ dictionaryEntries rmpv value ↔
      ∃ first rest, .array (first :: .binary raw :: rest) ∈ dictionaryItems rmpv value ∧ IsSubkey rmpv first id ∧
        id ≠ "" := by
  rw [dictionaryEntries_items, List.mem_filterMap]
  constructor
  · rintro ⟨entry, listed, read⟩
    obtain ⟨first, rest, rfl, named, filled⟩ := dictionaryEntry_iff.mp read
    exact ⟨first, rest, listed, named, filled⟩
  · rintro ⟨first, rest, listed, named, filled⟩
    exact ⟨_, listed, dictionaryEntry_iff.mpr ⟨first, rest, rfl, named, filled⟩⟩

theorem mem_serversIn {resultType : Int} {value : Bytes} {id : String} {info : ServerInfo} :
    (id, info) ∈ serversIn rmpv resultType value ↔ Stores rmpv resultType value id info := by
  unfold serversIn Stores
  by_cases dictionary : resultType = 2
  · subst dictionary
    rw [if_pos rfl, List.mem_filterMap]
    constructor
    · rintro ⟨⟨peerId, raw⟩, listed, read⟩
      obtain ⟨_, decoded, same⟩ := Option.map_eq_some_iff.mp read
      obtain ⟨rfl, rfl⟩ := Prod.mk.inj same
      obtain ⟨first, rest, member, named, filled⟩ := mem_dictionaryEntries.mp listed
      exact Or.inl ⟨rfl, first, raw, rest, member, named, filled, decoded⟩
    · rintro (⟨-, first, raw, rest, member, named, filled, decoded⟩ | ⟨other, -⟩)
      · have listed := mem_dictionaryEntries.mpr ⟨first, rest, member, named, filled⟩
        exact ⟨(id, raw), listed, Option.map_eq_some_iff.mpr ⟨info, decoded, rfl⟩⟩
      · cases other
  by_cases regular : resultType = 1
  · subst regular
    rw [if_neg dictionary, if_pos rfl]
    cases decodeServerInfo rmpv value with
    | none => simp
    | some held => cases named : held.peerId <;> grind
  · simp [dictionary, regular]

theorem serversIn_dictionary {value : Bytes} {latest second : Value} {entries : List Value}
    (opened : unwrapExt rmpv value 80 = some (.array [latest, second, .array entries])) :
    serversIn rmpv 2 value = entries.filterMap (readServer rmpv) := by
  have listed : dictionaryEntries rmpv value = entries.filterMap (dictionaryEntry rmpv) := by
    rw [dictionaryEntries, opened]
    rfl
  rw [serversIn, if_pos rfl, listed, List.filterMap_filterMap]
  rfl

end

/-! ### What is published -/

structure PublishedServer where
  subkey : String
  filled : subkey ≠ ""
  packed : Bool
  announcement : Announcement
  fields : List (Value × Value)
  arranged : announcement.Arranged fields
  expiration : Value

inductive Slot where
  | server (published : PublishedServer)
  | other (v : Value)

section
variable (write : Value → Bytes)

namespace PublishedServer

def subkeyValue (p : PublishedServer) : Value :=
  if p.packed then .binary (write (.string p.subkey)) else .string p.subkey

def value (p : PublishedServer) : Value :=
  .array [p.subkeyValue write, .binary (write (p.announcement.published write p.fields)), p.expiration]

def parts (p : PublishedServer) : List Value :=
  .string p.subkey :: p.announcement.parts write p.fields

end PublishedServer

def Slot.value : Slot → Value
  | server published => published.value write
  | other v => v

def Slot.parts : Slot → List Value
  | server published => published.parts write
  | other _ => []

def Slot.read (rmpv : Rmpv) : Slot → Option (String × ServerInfo)
  | server published => some (published.subkey, published.announcement.info rmpv)
  | other _ => none

def dictionaryBody (latest second : Value) (slots : List Slot) : Value :=
  .array [latest, second, .array (slots.map (Slot.value write))]

def publishedDictionary (latest second : Value) (slots : List Slot) : Value :=
  .ext 80 (write (dictionaryBody write latest second slots))

def dictionaryParts (latest second : Value) (slots : List Slot) : List Value :=
  dictionaryBody write latest second slots :: publishedDictionary write latest second slots ::
    slots.flatMap (Slot.parts write)

variable {write} {rmpv : Rmpv}

theorem readServer_published {p : PublishedServer}
    (inverts : ∀ v ∈ p.parts write, rmpv.readValue (write v) = some v) :
    readServer rmpv (p.value write) = some (p.subkey, p.announcement.info rmpv) := by
  have named : IsSubkey rmpv (p.subkeyValue write) p.subkey := by
    unfold PublishedServer.subkeyValue
    split
    · exact Or.inr ⟨_, rfl, inverts _ List.mem_cons_self⟩
    · exact Or.inl rfl
  have entry : dictionaryEntry rmpv (p.value write) =
      some (p.subkey, write (p.announcement.published write p.fields)) :=
    dictionaryEntry_iff.mpr ⟨_, [p.expiration], rfl, named, p.filled⟩
  have decoded := decodeServerInfo_published write
    (fun v member => inverts v (List.mem_cons_of_mem _ member)) p.arranged
  rw [readServer, entry, Option.bind_some, decoded, Option.map_some]

/-- What was published comes back, in its order and as it was written, whatever stands between: from a
dictionary every well-formed entry, from a regular value the one record that names its peer. -/
theorem serversIn_published (rmpv : Rmpv) (write : Value → Bytes) :
    (∀ latest second slots,
      (∀ v ∈ dictionaryParts write latest second slots, rmpv.readValue (write v) = some v) →
      (∀ v, Slot.other v ∈ slots → ¬ WellFormedEntry rmpv v) →
      serversIn rmpv 2 (write (publishedDictionary write latest second slots)) =
        slots.filterMap (Slot.read rmpv)) ∧
    ∀ (a : Announcement) fields peerId,
      (∀ v ∈ a.parts write fields, rmpv.readValue (write v) = some v) →
      a.Arranged fields → a.peerId = some peerId →
      serversIn rmpv 1 (write (a.published write fields)) = [(peerId, a.info rmpv)] := by
  constructor
  · intro latest second slots inverts malformed
    have opened : unwrapExt rmpv (write (publishedDictionary write latest second slots)) 80 =
        some (dictionaryBody write latest second slots) :=
      unwrapExt_written write (inverts _ List.mem_cons_self)
        (inverts _ (List.mem_cons_of_mem _ List.mem_cons_self))
    rw [serversIn_dictionary opened, List.filterMap_map]
    refine List.filterMap_congr fun slot listed => ?_
    cases slot with
    | server p =>
      apply readServer_published
      intro v member
      apply inverts v
      exact List.mem_cons_of_mem _ (List.mem_cons_of_mem _ (List.mem_flatMap.mpr ⟨_, listed, member⟩))
    | other v =>
      have dropped := (readServer_isSome v).not.mpr (malformed v listed)
      exact Option.not_isSome_iff_eq_none.mp dropped
  · intro a fields peerId inverts arranged named
    have held : (a.info rmpv).peerId = some peerId := named
    simp only [serversIn, decodeServerInfo_published write inverts arranged, held]
    rfl

end

/-- A packed subkey with its fields out of order and one that is not known, an entry of another shape, and a
server that announces nothing but its state; and the first of them as a regular value. -/
theorem serversIn_published_around_malformed :
    let first : Announcement :=
      { state := .online, throughput := .integer 5, startBlock := some ⟨3, by decide⟩
        publicName := some "a", usingRelay := some true, peerId := some "QmA", vpk := some (.string "k")
        trustAttestations := some [.nil, .nil] }
    let fields : List (Value × Value) :=
      [(.string "vpk", .string "k"), (.string "later", .integer 9), (.string "peer_id", .string "QmA"),
        (.string "trust_attestations", .array [.nil, .nil]), (.string "using_relay", .boolean true),
        (.string "start_block", .integer 3), (.string "public_name", .string "a")]
    let second : Announcement := { state := .joining, throughput := .integer 1 }
    ∃ (slots : List Slot) (rmpv : Rmpv),
      serversIn rmpv 2 (publishedDictionary Value.written .nil .nil slots).written =
          [("QmA", first.info rmpv), ("QmB", second.info rmpv)] ∧
        serversIn rmpv 1 (first.published Value.written fields).written = [("QmA", first.info rmpv)] := by
  intro first fields second
  have arranged : first.Arranged fields := by
    have shuffled : List.Perm [4, 6, 3, 5, 2, 0, 1] (List.range 7) := by decide
    let unknown : List (Value × Value) := [(.string "later", .integer 9)]
    let entryAt (i : Nat) : Value × Value := (first.known ++ unknown)[i]?.getD (.nil, .nil)
    have carried : [4, 6, 3, 5, 2, 0, 1].map entryAt = fields := rfl
    have announced : (List.range 7).map entryAt = first.known ++ unknown := rfl
    exact ⟨unknown, carried ▸ announced ▸ shuffled.map entryAt, by decide⟩
  have bare : second.Arranged [] := ⟨[], .refl _, by simp⟩
  let slots : List Slot :=
    [.server ⟨"QmA", by decide, true, first, fields, arranged, .integer 0⟩, .other .nil,
      .server ⟨"QmB", by decide, false, second, [], bare, .integer 0⟩]
  let entry (subkey : Value) (record : Value) : Value := .array [subkey, .binary record.written, .integer 0]
  let body : Value := .array [.nil, .nil, .array [
    entry (.binary (Value.string "QmA").written) (first.published Value.written fields), .nil,
    entry (.string "QmB") (second.published Value.written [])]]
  let values : List Value := [body, .ext 80 body.written, .string "QmA", first.value fields,
    first.published Value.written fields, .string "QmB", second.value [], second.published Value.written []]
  have distinct : (values.map Value.written).Nodup := by decide +kernel
  let rmpv : Rmpv :=
    { readValue := (Rmpv.ofTable (values.map fun v => (v.written, v))).readValue
      toJson := fun v => v.asStr.map Json.string }
  have inverts : ∀ v ∈ dictionaryParts Value.written .nil .nil slots, rmpv.readValue v.written = some v :=
    fun v => ofTable_written distinct
  obtain ⟨dictionary, regular⟩ := serversIn_published rmpv Value.written
  refine ⟨slots, rmpv, dictionary _ _ slots inverts fun v other => ?_, regular first fields "QmA" ?_ arranged rfl⟩
  · have shape : v = .nil := by simpa [slots] using other
    subst shape
    intro wellFormed
    obtain ⟨first, raw, rest, subkey, shape, -⟩ := wellFormed
    cases shape
  · intro v member
    apply inverts v
    exact List.mem_cons_of_mem _ (List.mem_cons_of_mem _ (List.mem_cons_of_mem _ (List.mem_append_left _ member)))

end KwaaiNetMap
