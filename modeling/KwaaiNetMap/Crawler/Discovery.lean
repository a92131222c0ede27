import KwaaiNetMap.Crawler.Registry
import KwaaiNetMap.Crawler.Servers

/-!
A registry is a dictionary of plain maps. What was written in it comes back entry by entry
(`registry_published`). The bootstraps are asked one after another until one of them names a model, and that is
as good as asking them all and going by the first answer that does (`models_discovered`).
-/

namespace KwaaiNetMap
open Collections

/-! ### A registry as it is published -/

/-- One model of a published registry: its map has the two fields in any order, among fields of other names. -/
structure PublishedModel where
  dhtPrefix : String
  filled : dhtPrefix ≠ ""
  packed : Bool
  repository : Option String
  numBlocks : Option I64
  fields : List (Value × Value)
  expiration : Value

namespace PublishedModel

def table (p : PublishedModel) : List (String × Option Value) := [
  ("repository", p.repository.map .string),
  ("num_blocks", p.numBlocks.map fun n => .integer n.1)]

def Arranged (p : PublishedModel) : Prop :=
  ∃ unknown, p.fields.Perm (((present p.table).map fun f => (Value.string f.1, f.2)) ++ unknown) ∧
    ∀ f ∈ unknown, keyOf f ∉ ["repository", "num_blocks"]

def registration (p : PublishedModel) : ModelRegistration :=
  { dhtPrefix := p.dhtPrefix
    repository := p.repository.getD ""
    numBlocks := (p.numBlocks.map Subtype.val).getD 0 }

variable (write : Value → Bytes)

def subkeyValue (p : PublishedModel) : Value :=
  if p.packed then .binary (write (.string p.dhtPrefix)) else .string p.dhtPrefix

def value (p : PublishedModel) : Value :=
  .array [p.subkeyValue write, .binary (write (.map p.fields)), p.expiration]

def parts (p : PublishedModel) : List Value := [.string p.dhtPrefix, .map p.fields]

end PublishedModel

inductive RegistrySlot where
  | model (published : PublishedModel)
  | other (v : Value)

def RegistrySlot.value (write : Value → Bytes) : RegistrySlot → Value
  | model published => published.value write
  | other v => v

def RegistrySlot.parts : RegistrySlot → List Value
  | model published => published.parts
  | other _ => []

def RegistrySlot.read : RegistrySlot → Option ModelRegistration
  | model published => some published.registration
  | other _ => none

def RegistrySlot.Arranged : RegistrySlot → Prop
  | model published => published.Arranged
  | other _ => True

def registryBody (write : Value → Bytes) (latest second : Value) (slots : List RegistrySlot) : Value :=
  .array [latest, second, .array (slots.map (RegistrySlot.value write))]

def publishedRegistry (write : Value → Bytes) (latest second : Value) (slots : List RegistrySlot) : Value :=
  .ext 80 (write (registryBody write latest second slots))

def registryParts (write : Value → Bytes) (latest second : Value) (slots : List RegistrySlot) : List Value :=
  registryBody write latest second slots :: publishedRegistry write latest second slots ::
    slots.flatMap RegistrySlot.parts

section
variable {rmpv : Rmpv}

def RegistersModel (rmpv : Rmpv) (v : Value) : Prop :=
  ∃ first raw rest subkey fields, v = .array (first :: .binary raw :: rest) ∧ IsSubkey rmpv first subkey ∧
    subkey ≠ "" ∧ rmpv.readValue raw = some (.map fields)

def readModel (rmpv : Rmpv) (v : Value) : Option ModelRegistration :=
  (dictionaryEntry rmpv v).bind fun entry =>
    ((rmpv.readValue entry.2).bind Value.asMap).map fun fields =>
      { dhtPrefix := entry.1
        repository := ((findField fields "repository").bind Value.asStr).getD ""
        numBlocks := ((findField fields "num_blocks").bind Value.asI64).getD 0 }

theorem decodeModelRegistry_opened {value : Bytes} {latest second : Value} {entries : List Value}
    (opened : unwrapExt rmpv value 80 = some (.array [latest, second, .array entries])) :
    decodeModelRegistry rmpv value = entries.filterMap (readModel rmpv) := by
  have listed : dictionaryEntries rmpv value = entries.filterMap (dictionaryEntry rmpv) := by
    rw [dictionaryEntries, opened]
    rfl
  rw [decodeModelRegistry, listed, List.filterMap_filterMap]
  refine List.filterMap_congr fun v _ => congrArg _ (funext fun entry => ?_)
  cases read : rmpv.readValue entry.2 with
  | none => simp [read]
  | some v => cases map : v.asMap <;> simp [read, map]

theorem readModel_isSome (v : Value) (registers : (readModel rmpv v).isSome = true) : RegistersModel rmpv v := by
  obtain ⟨reg, read⟩ := Option.isSome_iff_exists.mp registers
  obtain ⟨⟨subkey, raw⟩, entry, read⟩ := Option.bind_eq_some_iff.mp read
  obtain ⟨fields, map, -⟩ := Option.map_eq_some_iff.mp read
  obtain ⟨w, held, isMap⟩ := Option.bind_eq_some_iff.mp map
  obtain ⟨first, rest, shape, named, filled⟩ := dictionaryEntry_iff.mp entry
  obtain rfl := Value.eq_map_of_asMap isMap
  exact ⟨first, raw, rest, subkey, fields, shape, named, filled, held⟩

theorem findField_eq (fields : List (Value × Value)) {name : String} (filled : name ≠ "") :
    findField fields name = ((fields.filter fun f => decide (keyOf f = name)).head?).map Prod.snd := by
  have same : (fun field : Value × Value => field.1.asStr == some name) = fun f => decide (keyOf f = name) := by
    funext f
    unfold keyOf
    cases f.1.asStr with
    | none => simp [Ne.symm filled]
    | some s => by_cases here : s = name <;> simp [here]
  rw [findField, same, List.head?_filter]

theorem readModel_published {write : Value → Bytes} {p : PublishedModel} (arranged : p.Arranged)
    (inverts : ∀ v ∈ p.parts, rmpv.readValue (write v) = some v) :
    readModel rmpv (p.value write) = some p.registration := by
  obtain ⟨unknown, perm, others⟩ := arranged
  have named : IsSubkey rmpv (p.subkeyValue write) p.dhtPrefix := by
    unfold PublishedModel.subkeyValue
    split
    · exact Or.inr ⟨_, rfl, inverts _ List.mem_cons_self⟩
    · exact Or.inl rfl
  have entry : dictionaryEntry rmpv (p.value write) = some (p.dhtPrefix, write (.map p.fields)) :=
    dictionaryEntry_iff.mpr ⟨_, [p.expiration], rfl, named, p.filled⟩
  have map : rmpv.readValue (write (.map p.fields)) = some (.map p.fields) :=
    inverts _ (List.mem_cons_of_mem _ List.mem_cons_self)
  have nodup : (p.table.map Prod.fst).Nodup := (by decide : ["repository", "num_blocks"].Nodup)
  have repository : findField p.fields "repository" = p.repository.map .string := by
    rw [findField_eq _ (by decide), filter_arranged nodup perm others rfl]
    cases p.repository <;> rfl
  have blocks : findField p.fields "num_blocks" = p.numBlocks.map fun n => .integer n.1 := by
    rw [findField_eq _ (by decide), filter_arranged nodup perm others rfl]
    cases p.numBlocks <;> rfl
  rw [readModel, entry, Option.bind_some, map]
  simp only [Option.bind_some, Value.asMap, Option.map_some, repository, blocks]
  congr 1
  unfold PublishedModel.registration
  congr 1
  · cases p.repository <;> rfl
  · cases held : p.numBlocks with
    | none => rfl
    | some n => simp [asI64_integer]

/-- What was published comes back in its order, whatever stands between: the prefix, what was said under each of the
two names, and the default of what was not. -/
theorem registry_published (rmpv : Rmpv) (write : Value → Bytes) (latest second : Value) (slots : List RegistrySlot)
    (inverts : ∀ v ∈ registryParts write latest second slots, rmpv.readValue (write v) = some v)
    (arranged : ∀ slot ∈ slots, slot.Arranged) (malformed : ∀ v, .other v ∈ slots → ¬ RegistersModel rmpv v) :
    decodeModelRegistry rmpv (write (publishedRegistry write latest second slots)) =
      slots.filterMap RegistrySlot.read := by
  have opened : unwrapExt rmpv (write (publishedRegistry write latest second slots)) 80 =
      some (registryBody write latest second slots) :=
    unwrapExt_written write (inverts _ List.mem_cons_self) (inverts _ (List.mem_cons_of_mem _ List.mem_cons_self))
  rw [decodeModelRegistry_opened opened, List.filterMap_map]
  refine List.filterMap_congr fun slot listed => ?_
  cases slot with
  | model p =>
    refine readModel_published (arranged _ listed) fun v member => inverts v ?_
    exact List.mem_cons_of_mem _ (List.mem_cons_of_mem _ (List.mem_flatMap.mpr ⟨_, listed, member⟩))
  | other v =>
    exact Option.not_isSome_iff_eq_none.mp fun registers => malformed v listed (readModel_isSome v registers)

end

/-- A packed prefix with its fields out of order and one that is not known, an entry of another shape, and a model
of which nothing is said. -/
theorem registry_published_around_malformed :
    let first : PublishedModel :=
      { dhtPrefix := "llama", filled := by decide, packed := true, repository := some "/m/llama"
        numBlocks := some ⟨80, by decide⟩, expiration := .integer 0
        fields := [(.string "num_blocks", .integer 80), (.string "later", .nil),
          (.string "repository", .string "/m/llama")] }
    let second : PublishedModel :=
      { dhtPrefix := "tiny", filled := by decide, packed := false, repository := none, numBlocks := none
        expiration := .integer 0, fields := [] }
    let slots : List RegistrySlot := [.model first, .other .nil, .model second]
    ∃ rmpv : Rmpv, decodeModelRegistry rmpv (publishedRegistry Value.written .nil .nil slots).written =
      [{ dhtPrefix := "llama", repository := "/m/llama", numBlocks := 80 },
        { dhtPrefix := "tiny", repository := "", numBlocks := 0 }] := by
  intro first second slots
  let values : List Value := [registryBody Value.written .nil .nil slots,
    publishedRegistry Value.written .nil .nil slots, .string "llama", .map first.fields, .string "tiny", .map []]
  have distinct : (values.map Value.written).Nodup := by decide +kernel
  let rmpv : Rmpv := Rmpv.ofTable (values.map fun v => (v.written, v))
  refine ⟨rmpv, registry_published rmpv Value.written .nil .nil slots (fun v => ofTable_written distinct) ?_ ?_⟩
  · have shuffled : ([(.string "num_blocks", .integer 80), (.string "later", .nil)] ++
        [(.string "repository", .string "/m/llama")] : List (Value × Value)).Perm
          ([(.string "repository", .string "/m/llama")] ++
            [(.string "num_blocks", .integer 80), (.string "later", .nil)]) := List.perm_append_comm
    have others : ∀ f ∈ [((.string "later", .nil) : Value × Value)], keyOf f ∉ ["repository", "num_blocks"] := by
      simp [keyOf, Value.asStr]
    have arranged : first.Arranged := ⟨[(.string "later", .nil)], shuffled, others⟩
    have bare : second.Arranged := ⟨[], .refl _, by simp⟩
    simpa [slots, RegistrySlot.Arranged] using And.intro arranged bare
  · intro v other registers
    have shape : v = .nil := by simpa [slots] using other
    obtain ⟨_, _, _, _, _, array, -⟩ := registers
    rw [shape] at array
    cases array

/-! ### Which answer is gone by -/

def registrations (rmpv : Rmpv) (resp : FindResponse) : List ModelRegistration :=
  resp.results.flatMap fun result => if result.value.isEmpty then [] else decodeModelRegistry rmpv result.value

section
variable (rmpv : Rmpv)

theorem registerResponse_eq (found : BTreeMap String Model) (resp : FindResponse) :
    registerResponse rmpv found resp =
      (registrations rmpv resp).foldl (fun found reg => found.orInsert reg.dhtPrefix (modelOf reg)) found := by
  unfold registerResponse registrations
  induction resp.results generalizing found with
  | nil => rfl
  | cons result results ih =>
    rw [List.foldl_cons, ih, List.flatMap_cons, List.foldl_append, registerResult]
    split <;> rfl

theorem get?_registered (resp : FindResponse) (p : String) :
    (registerResponse rmpv ∅ resp).get? p =
      ((registrations rmpv resp).find? fun reg => decide (reg.dhtPrefix = p)).map modelOf := by
  rw [registerResponse_eq, BTreeMap.get?_foldl_orInsert]
  rfl

theorem registered_isEmpty (resp : FindResponse) :
    (registerResponse rmpv ∅ resp).isEmpty = (registrations rmpv resp).isEmpty := by
  cases regs : registrations rmpv resp with
  | nil => rw [registerResponse_eq, regs]; rfl
  | cons reg others =>
    have held := get?_registered rmpv resp reg.dhtPrefix
    rw [regs, List.find?_cons_of_pos (by simp), Option.map_some] at held
    have member := (BTreeMap.mem_entries _ _ _).mpr held
    cases entries : (registerResponse rmpv ∅ resp).entries with
    | nil => rw [entries] at member; cases member
    | cons entry rest => rw [BTreeMap.isEmpty, entries]; rfl

theorem eq_empty_of_isEmpty {found : BTreeMap String Model} (empty : found.isEmpty = true) : found = ∅ :=
  BTreeMap.ext (List.isEmpty_iff.mp empty)

theorem prefixes_registered (resp : FindResponse) :
    (registerResponse rmpv ∅ resp).values.map Model.dhtPrefix = (registerResponse rmpv ∅ resp).keys := by
  have keyed := wellKeyed_registerResponse rmpv wellKeyed_empty resp
  rw [BTreeMap.values, List.map_map]
  exact List.map_congr_left fun e member => (keyed e.1 e.2 ((BTreeMap.mem_entries _ _ _).mp member)).1

theorem mem_registered (resp : FindResponse) (m : Model) :
    m ∈ (registerResponse rmpv ∅ resp).values ↔
      ∃ reg, (registrations rmpv resp).find? (fun r => decide (r.dhtPrefix = m.dhtPrefix)) = some reg ∧
        m = modelOf reg := by
  constructor
  · intro member
    obtain ⟨⟨p, m⟩, stored, rfl⟩ := List.mem_map.mp member
    have held := (BTreeMap.mem_entries _ _ _).mp stored
    obtain rfl := (wellKeyed_registerResponse rmpv wellKeyed_empty resp _ _ held).1
    rw [get?_registered] at held
    obtain ⟨reg, here, same⟩ := Option.map_eq_some_iff.mp held
    exact ⟨reg, here, same.symm⟩
  · rintro ⟨reg, here, same⟩
    have held : (registerResponse rmpv ∅ resp).get? m.dhtPrefix = some m := by
      rw [get?_registered, here, same]
      rfl
    exact List.mem_map.mpr ⟨(m.dhtPrefix, m), (BTreeMap.mem_entries _ _ _).mpr held, rfl⟩

variable (net : Network) (ourDhtid : Bytes)

theorem readRegistry_eq (addrs : List String) (pass : Pass) :
    (readRegistry rmpv net ourDhtid addrs ∅ pass).1 =
      (((askEach net ourDhtid [dhtKey net "_petals.models"] addrs pass).1.find? fun resp =>
        !(registrations rmpv resp).isEmpty).map (registerResponse rmpv ∅)).getD ∅ := by
  induction addrs generalizing pass with
  | nil => rfl
  | cons addr rest ih =>
    unfold readRegistry askEach
    rcases rpcFind net ourDhtid pass addr [dhtKey net "_petals.models"] with ⟨_ | resp, next⟩
    · exact ih next
    · dsimp only
      rw [registered_isEmpty]
      cases silent : (registrations rmpv resp).isEmpty with
      | true =>
        have nothing := eq_empty_of_isEmpty ((registered_isEmpty rmpv resp).trans silent)
        rw [if_pos rfl, nothing, List.find?_cons_of_neg (by simp [silent])]
        exact ih next
      | false =>
        rw [if_neg (by decide), List.find?_cons_of_pos (by simp [silent])]
        rfl

/-- Stopping at the first bootstrap that names a model comes to the same models as asking all of them and going by
the first answer that names one: each of its prefixes once, in order, as it is first registered, with a block count
between 1 and 512. If no answer names one, they are the fallback's. -/
theorem models_discovered (pass : Pass) :
    let answers := (askEach net ourDhtid [dhtKey net "_petals.models"] pass.set.live pass).1
    let models := (discoverModels rmpv net ourDhtid pass).1
    match answers.find? fun resp => !(registrations rmpv resp).isEmpty with
    | none => models = fallbackModels
    | some resp =>
      (models.map Model.dhtPrefix).Pairwise (· < ·) ∧
        ∀ m, m ∈ models ↔
          ∃ reg, (registrations rmpv resp).find? (fun r => decide (r.dhtPrefix = m.dhtPrefix)) = some reg ∧
            m = { dhtPrefix := reg.dhtPrefix, repository := reg.repository
                  numBlocks := max 1 (min reg.numBlocks 512) } := by
  intro answers models
  have read := readRegistry_eq rmpv net ourDhtid pass.set.live pass
  have heard : (askEach net ourDhtid [dhtKey net "_petals.models"] pass.set.live pass).1 = answers := rfl
  have listed : models = if (readRegistry rmpv net ourDhtid pass.set.live ∅ pass).1.isEmpty then fallbackModels
      else (readRegistry rmpv net ourDhtid pass.set.live ∅ pass).1.values := rfl
  rw [heard] at read
  rw [read] at listed
  cases first : answers.find? fun resp => !(registrations rmpv resp).isEmpty with
  | none =>
    rw [first] at listed
    exact listed
  | some resp =>
    have named : (registrations rmpv resp).isEmpty = false := by simpa using List.find?_some first
    rw [first, Option.map_some, Option.getD_some, registered_isEmpty, named, if_neg (by decide)] at listed
    have sorted := BTreeMap.keys_sorted (registerResponse rmpv ∅ resp)
    rw [← prefixes_registered, ← listed] at sorted
    exact ⟨sorted, fun m => listed ▸ mem_registered rmpv resp m⟩

end

end KwaaiNetMap
